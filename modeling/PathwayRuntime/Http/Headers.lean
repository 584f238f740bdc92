import PathwayRuntime.Http.Contacted
import PathwayRuntime.Python.Update

/-!
# The headers that are sent

`urllib.request.Request` stores headers under capitalised names, a later one over an earlier one.

* `HttpRequest.stored`: the headers of the request that is sent; `CapitalizesAscii`: `str.capitalize`, where it is
  spelled out.
* `suppliedTexts`: the headers a request supplies; `Keeps`: they leave a header as it was.
* **`headers_kept_iff`**: the key of the request and the JSON content type are sent exactly when the headers supplied
  keep both.
* `suppliedKey_sent`: a header supplied in lower case replaces the key.
-/

set_option autoImplicit false

namespace Rpr

/-! ## What is stored -/

/-- `Request.headers`: `self.headers[key.capitalize()] = value` for each header. -/
def HttpRequest.stored (capitalize : PyText → PyText) (http : HttpRequest) : List (PyText × PyText) :=
  http.headers.foldl (fun headers h => setHeader (capitalize h.1) h.2 headers) []

/-- `s.capitalize()` of an ASCII text. -/
def capitalizeAscii (s : String) : String :=
  match s.toList with
  | [] => ""
  | c :: cs => String.ofList (c.toUpper :: cs.map Char.toLower)

/-- `str.capitalize` of ASCII texts. -/
def CapitalizesAscii (capitalize : PyText → PyText) : Prop :=
  ∀ s : String, (∀ c ∈ s.toList, c.toNat < 128) → capitalize (.utf8 s) = .utf8 (capitalizeAscii s)

theorem CapitalizesAscii.of_all {capitalize : PyText → PyText} (hcap : CapitalizesAscii capitalize) {s : String}
    (h : s.toList.all (fun c => decide (c.toNat < 128)) = true) : capitalize (.utf8 s) = .utf8 (capitalizeAscii s) :=
  hcap s fun c hc => of_decide_eq_true (List.all_eq_true.mp h c hc)

/-- The header of this name in the request that is sent. -/
def HttpRequest.sentHeader (capitalize : PyText → PyText) (http : HttpRequest) (name : PyText) : Option PyText :=
  (http.stored capitalize).lookup name

theorem setHeader_eq_update : setHeader = update (α := PyText) (β := PyText) := by
  funext key value headers
  induction headers with
  | nil => rfl
  | cons h headers ih => rw [setHeader, update, ih]

theorem stored_eq (capitalize : PyText → PyText) (http : HttpRequest) :
    http.stored capitalize = merged (http.headers.map fun h => (capitalize h.1, h.2)) := by
  rw [HttpRequest.stored, setHeader_eq_update, merged, updateAll, List.foldl_map]

/-! ## What is supplied -/

section Supplied

variable {lib : HttpLibrary}

/-- `str(key)` and `str(value)`. -/
def headerText (lib : HttpLibrary) (h : PyKey × PyValue) : Except PyException (PyText × PyText) := do
  let key ← lib.keyStr h.1
  let value ← lib.str h.2
  .ok (key, value)

/-- The headers the request supplies, as texts. -/
def suppliedTexts (lib : HttpLibrary) (request : ExecutionRequest) : Except PyException (List (PyText × PyText)) :=
  match (request.parameters.get? "headers").getD (.dict []) with
  | .dict supplied => supplied.mapM (headerText lib)
  | _ => .ok []

theorem addHeaders_ok {supplied : PyDict} {headers added : List (PyText × PyText)}
    (h : addHeaders lib supplied headers = .ok (.inr added)) :
    ∃ texts, supplied.mapM (headerText lib) = .ok texts ∧ added = updateAll headers texts := by
  induction supplied generalizing headers with
  | nil => exact ⟨[], rfl, (Sum.inr.inj (Except.ok.inj h)).symm⟩
  | cons e supplied ih =>
    obtain ⟨key, hkey, h⟩ := except_bind_eq_ok.mp h
    dsimp only at h
    split_ifs at h with hforbidden
    · exact (nomatch h)
    · obtain ⟨value, hvalue, h⟩ := except_bind_eq_ok.mp h
      obtain ⟨texts, htexts, hadded⟩ := ih h
      refine ⟨(key, value) :: texts, ?_, ?_⟩
      · have htext : headerText lib e = .ok (key, value) := by
          rw [headerText, hkey]
          dsimp only [bind, Except.bind]
          rw [hvalue]
        rw [List.mapM_cons, htext, htexts]
        rfl
      · rw [hadded, setHeader_eq_update]
        rfl

/-- The headers every request has. -/
def fixedHeaders (request : ExecutionRequest) : List (PyText × PyText) :=
  [("Content-Type", "application/json"), ("Accept", "application/json"),
    ("Idempotency-Key", .utf8 request.idempotencyKey)]

theorem fixedHeaders_merged (request : ExecutionRequest) :
    merged (fixedHeaders request) = fixedHeaders request := by
  simp [fixedHeaders, merged, updateAll, update]

/-- **The headers of a prepared request** are the fixed ones with those supplied over them. -/
theorem prepare_headers {ex : HttpMutationExecutor} {request : ExecutionRequest} {http : HttpRequest}
    (h : ex.prepare lib request = .ok (.inr http)) :
    ∃ texts, suppliedTexts lib request = .ok texts ∧ http.headers = merged (fixedHeaders request ++ texts) := by
  obtain ⟨value, -, h⟩ := except_bind_eq_ok.mp h
  obtain ⟨url, -, h⟩ := except_bind_eq_ok.mp h
  obtain ⟨method, -, h⟩ := except_bind_eq_ok.mp h
  dsimp only at h
  by_cases hknown : lib.upper method ∉ ["POST", "PUT", "PATCH", "DELETE"].map PyText.utf8
  · rw [if_pos hknown] at h
    exact (nomatch h)
  rw [if_neg hknown] at h
  obtain ⟨_, -, h⟩ := except_bind_eq_ok.mp h
  obtain ⟨payload, -, h⟩ := except_bind_eq_ok.mp h
  unfold suppliedTexts
  cases hsupplied : (request.parameters.get? "headers").getD (.dict []) with
  | dict supplied =>
    rw [hsupplied] at h
    obtain ⟨headers, hheaders, h⟩ := except_bind_eq_ok.mp h
    cases headers with
    | inl lower => exact (nomatch h)
    | inr headers =>
      obtain ⟨_, -, h⟩ := except_bind_eq_ok.mp h
      obtain rfl := Sum.inr.inj (Except.ok.inj h)
      obtain ⟨texts, htexts, hadded⟩ := addHeaders_ok hheaders
      refine ⟨texts, htexts, ?_⟩
      rw [← updateAll_merged, fixedHeaders_merged]
      exact hadded
  | _ =>
    rw [hsupplied] at h
    exact (nomatch h)

end Supplied

/-! ## What is sent -/

section Sent

variable (capitalize : PyText → PyText)

/-- **The headers supplied leave this one as it was**: if the last of its spellings to come in, after the one of the
executor, is supplied, then last with the same value. -/
def Keeps (name value : PyText) (texts : List (PyText × PyText)) : Prop :=
  ∀ spelling, lastNamed capitalize (capitalize name) (name :: texts.map Prod.fst) = some spelling →
    ∀ supplied, texts.reverse.lookup spelling = some supplied → supplied = value

variable {capitalize}

theorem lastNamed_cons_ne_none (capitalize : PyText → PyText) (name : PyText) (names : List PyText) :
    lastNamed capitalize (capitalize name) (name :: names) ≠ none := by
  rw [lastNamed_eq, Ne, List.find?_eq_none]
  intro h
  refine h name ?_ (decide_eq_true rfl)
  rw [List.mem_dedup, List.mem_reverse]
  exact List.mem_cons_self

theorem lastNamed_spec {name : PyText} {names : List PyText} {spelling : PyText}
    (h : lastNamed capitalize name names = some spelling) : capitalize spelling = name ∧ spelling ∈ names := by
  rw [lastNamed_eq] at h
  refine ⟨by simpa using List.find?_some h, ?_⟩
  have hmem := List.mem_of_find?_eq_some h
  rwa [List.mem_dedup, List.mem_reverse] at hmem

/-- The names of fixed headers that are capitalised otherwise do not count. -/
theorem lastNamed_fixed {before after : List PyText} {name : PyText} (names : List PyText)
    (hbefore : ∀ n ∈ before, capitalize n ≠ capitalize name) (hafter : ∀ n ∈ after, capitalize n ≠ capitalize name) :
    lastNamed capitalize (capitalize name) (before ++ name :: after ++ names) =
      lastNamed capitalize (capitalize name) (name :: names) := by
  have hnil : ∀ ns : List PyText, (∀ n ∈ ns, capitalize n ≠ capitalize name) →
      ns.filter (fun n => capitalize n = capitalize name) = [] := fun ns h =>
    List.filter_eq_nil_iff.mpr fun n hn => by simpa using h n hn
  have hname : ∀ ns : List PyText, (name :: ns).filter (fun n => capitalize n = capitalize name) =
      name :: ns.filter fun n => capitalize n = capitalize name := fun ns =>
    List.filter_cons_of_pos (decide_eq_true rfl)
  rw [lastNamed, lastNamed, List.filter_append, List.filter_append, hnil before hbefore, List.nil_append, hname,
    hnil after hafter, hname]
  rfl

/-- **One header**: it is sent as it was exactly when the headers supplied keep it. -/
theorem sentHeader_fixed_iff (capitalize : PyText → PyText) {fixed texts : List (PyText × PyText)} {http : HttpRequest}
    (hheaders : http.headers = merged (fixed ++ texts)) (before : List (PyText × PyText)) (name value : PyText)
    (after : List (PyText × PyText)) (hfixed : fixed = before ++ (name, value) :: after)
    (hbefore : ∀ h ∈ before, capitalize h.1 ≠ capitalize name)
    (hafter : ∀ h ∈ after, capitalize h.1 ≠ capitalize name) :
    http.sentHeader capitalize (capitalize name) = some value ↔ Keeps capitalize name value texts := by
  have hlast : lastNamed capitalize (capitalize name) ((fixed ++ texts).map Prod.fst) =
      lastNamed capitalize (capitalize name) (name :: texts.map Prod.fst) := by
    rw [List.map_append, hfixed, List.map_append, List.map_cons]
    refine lastNamed_fixed _ (fun n hn => ?_) fun n hn => ?_
    · obtain ⟨h, hmem, rfl⟩ := List.mem_map.mp hn
      exact hbefore h hmem
    · obtain ⟨h, hmem, rfl⟩ := List.mem_map.mp hn
      exact hafter h hmem
  rw [HttpRequest.sentHeader, stored_eq, hheaders, renamed_lookup, hlast]
  obtain ⟨spelling, hspelling⟩ := Option.ne_none_iff_exists'.mp
    (lastNamed_cons_ne_none capitalize name (texts.map Prod.fst))
  obtain ⟨hcap, hmem⟩ := lastNamed_spec hspelling
  simp only [Keeps, hspelling, Option.bind_some, Option.some.injEq, forall_eq']
  rw [List.reverse_append, List.lookup_append]
  cases hsupplied : texts.reverse.lookup spelling with
  | some supplied => simp
  | none =>
    -- A spelling that is not supplied is the executor's own.
    have hown : spelling = name := by
      refine (List.mem_cons.mp hmem).resolve_right fun hmem => ?_
      obtain ⟨h, hh, rfl⟩ := List.mem_map.mp hmem
      rw [List.lookup_eq_none_iff] at hsupplied
      exact absurd (hsupplied h (List.mem_reverse.mpr hh)) (by simp)
    have hvalue : fixed.reverse.lookup name = some value := by
      have hnone : after.reverse.lookup name = none := by
        rw [List.lookup_eq_none_iff]
        intro h hh
        exact bne_iff_ne.mpr fun heq =>
          hafter h (List.mem_reverse.mp hh) (congrArg capitalize heq.symm)
      rw [hfixed, List.reverse_append, List.lookup_append, List.reverse_cons, List.lookup_append, hnone]
      simp
    rw [hown, hvalue]
    simp

/-- **The key of the request and the JSON content type are sent exactly when the headers supplied keep both.** -/
theorem headers_kept_iff (hcap : CapitalizesAscii capitalize) {py : Platform} {lib : HttpLibrary}
    {ex : HttpMutationExecutor} {env : HttpEnv} {request : ExecutionRequest} {results : HttpResults}
    {http : HttpRequest} (h : (ex.execute py lib env request results).opened = some http) :
    (http.sentHeader capitalize "Idempotency-key" = some (.utf8 request.idempotencyKey) ∧
      http.sentHeader capitalize "Content-type" = some (.utf8 "application/json")) ↔
    ∀ texts, suppliedTexts lib request = .ok texts →
      Keeps capitalize "Idempotency-Key" request.idempotencyKey texts ∧
        Keeps capitalize "Content-Type" "application/json" texts := by
  obtain ⟨texts, htexts, hheaders⟩ := prepare_headers (opened_eq_some.mp h).2
  have hkey : capitalize "Idempotency-Key" = "Idempotency-key" :=
    (hcap.of_all (by decide)).trans (by decide)
  have htype : capitalize "Content-Type" = "Content-type" :=
    (hcap.of_all (by decide)).trans (by decide)
  have haccept : capitalize "Accept" = "Accept" :=
    (hcap.of_all (by decide)).trans (by decide)
  have hsent := sentHeader_fixed_iff capitalize hheaders
    [("Content-Type", "application/json"), ("Accept", "application/json")]
    "Idempotency-Key" request.idempotencyKey [] rfl (by simp [hkey, htype, haccept]) (by simp)
  have hjson := sentHeader_fixed_iff capitalize hheaders [] "Content-Type" "application/json" _ rfl (by simp)
    (by simp [hkey, htype, haccept])
  rw [hkey] at hsent
  rw [htype] at hjson
  rw [hsent, hjson, htexts]
  simp only [Except.ok.injEq, forall_eq']

end Sent

/-! ## Two requests -/

/-- A `str.capitalize` that knows ASCII. -/
def capitalizeSample : PyText → PyText
  | .utf8 s => .utf8 (capitalizeAscii s)
  | s => s

theorem capitalizeSample_ascii : CapitalizesAscii capitalizeSample := fun _ _ => rfl

theorem headedKey_required : isBlank "k" = false := by decide

/-- A mutation that supplies a header. -/
def headedRequest (name value : String) : ExecutionRequest where
  __ := httpRequest "k" headedKey_required
  parameters := [(.str "url", .text "https://host/ok"), (.str "headers", .ofFields [(name, .text value)])]

/-- What is sent for it. -/
def headedHttp (headers : List (PyText × PyText)) : HttpRequest :=
  ⟨"https://host/ok", encodeUtf8 "\x7b\x7d".toList, headers, "POST"⟩

/-- The headers of the executor with one more. -/
def headersWith (name value : String) : List (PyText × PyText) :=
  fixedHeaders (headedRequest name value) ++ [(.utf8 name, .utf8 value)]

theorem traced_opened :
    (HttpMutationExecutor.sample.execute .sample .sample truncatedBody (headedRequest "X-Trace" "t") ∅).opened =
      some (headedHttp (headersWith "X-Trace" "t")) := by rfl

theorem suppliedKey_opened :
    (HttpMutationExecutor.sample.execute .sample .sample truncatedBody (headedRequest "idempotency-key" "other")
      ∅).opened = some (headedHttp (headersWith "idempotency-key" "other")) := by rfl

/-- Another header leaves both as they were. -/
theorem traced_kept :
    (headedHttp (headersWith "X-Trace" "t")).sentHeader capitalizeSample "Idempotency-key" = some (.utf8 "k") ∧
      (headedHttp (headersWith "X-Trace" "t")).sentHeader capitalizeSample "Content-type" =
        some (.utf8 "application/json") := by
  refine (headers_kept_iff capitalizeSample_ascii traced_opened).mpr fun texts htexts => ?_
  have hone : suppliedTexts .sample (headedRequest "X-Trace" "t") = .ok [(.utf8 "X-Trace", .utf8 "t")] := rfl
  obtain rfl := Except.ok.inj (hone.symm.trans htexts)
  constructor
  · intro spelling hspelling supplied hsupplied
    have hlast : lastNamed capitalizeSample (capitalizeSample "Idempotency-Key") ["Idempotency-Key", "X-Trace"] =
        some (.utf8 "Idempotency-Key") := by decide
    obtain rfl := Option.some.inj (hlast.symm.trans hspelling)
    exact absurd hsupplied (by simp)
  · intro spelling hspelling supplied hsupplied
    have hlast : lastNamed capitalizeSample (capitalizeSample "Content-Type") ["Content-Type", "X-Trace"] =
        some (.utf8 "Content-Type") := by decide
    obtain rfl := Option.some.inj (hlast.symm.trans hspelling)
    exact absurd hsupplied (by simp)

/-- **A key supplied in lower case is sent instead of the key of the request.** -/
theorem suppliedKey_sent : ¬ ∀ (env : HttpEnv) (request : ExecutionRequest) (results : HttpResults)
    (http : HttpRequest),
    (HttpMutationExecutor.sample.execute .sample .sample env request results).opened = some http →
    http.sentHeader capitalizeSample "Idempotency-key" = some (.utf8 request.idempotencyKey) ∧
      http.sentHeader capitalizeSample "Content-type" = some (.utf8 "application/json") := fun h => by
  have hkey := (h truncatedBody _ ∅ _ suppliedKey_opened).1
  have hother : (headedHttp (headersWith "idempotency-key" "other")).sentHeader capitalizeSample "Idempotency-key" =
      some (.utf8 "other") := by decide
  exact absurd (hother.symm.trans hkey) (by decide)

end Rpr
