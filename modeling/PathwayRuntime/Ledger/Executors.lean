import Mathlib.Data.Prod.Lex
import PathwayRuntime.Http.Once
import PathwayRuntime.Ledger.Fingerprint
import PathwayRuntime.Model.LocalFile
import PathwayRuntime.Python.Equality

/-!
# The fingerprints of the executors and of the ledger

* `HttpLibrary.WritesJson`: `json.dumps` of JSON; `httpFingerprint_eq`: the HTTP executor computes the fingerprint of
  the ledger.
* `localFingerprint_eq`, `localFingerprint_eq_iff`: the local file executor hashes the `repr` of the parameters.
* **`executors_agree_iff`**: on requests with one ledger fingerprint the local file executor agrees exactly when the
  requests have the same values under the same keys, down to the order of nested dicts, and the HTTP executor always
  does; the second request is a replay exactly when the first one left a result.
* `execute_first`, `execute_second`: what an executor keeps, and what it answers when it has kept something.
-/

set_option autoImplicit false

namespace Rpr

/-! ## The HTTP executor -/

/-- `json.dumps(v, sort_keys=True, separators=(",", ":"), ensure_ascii=False, default=str)`, of JSON. -/
def HttpLibrary.WritesJson (lib : HttpLibrary) : Prop :=
  ∀ (v : PyValue) (j : Json) (c : List Char), v.listed = .ofJson j → j.UniqueKeys → Json.canonical j = some c →
    lib.canonical v = .ok c

section Agree

variable {py : Platform} {http : HttpLibrary} {lib : ReprLibrary} {r r' : ExecutionRequest}

/-- **The HTTP executor computes the fingerprint of the ledger.** -/
theorem httpFingerprint_eq (hhttp : http.WritesJson) {fp : String}
    (hd : (PyValue.dict r.parameters).Everywhere PyValue.DistinctKeys) (h : fingerprint py r = .ok fp) :
    httpFingerprint py http r = .ok fp := by
  obtain ⟨c, hc, rfl⟩ := fingerprint_eq_ok.mp h
  obtain ⟨j, hj, hcanonical, hu, -⟩ := canonicalIdentity_eq_ok hd hc
  have hlisted : (PyValue.ofFields [("operation_id", .text r.operationId), ("action", .text r.action),
      ("parameters", .dict r.parameters)]).listed = .ofJson (requestJson r.operationId r.action j) := by
    rw [PyValue.listed] at hj
    simp only [PyValue.ofFields, List.map_cons, List.map_nil, PyValue.listed, PyValue.listedFields, requestJson,
      PyValue.ofJson, PyValue.ofJsonFields, hj]
    rfl
  exact except_bind_eq_ok.mpr ⟨c, hhttp _ _ c hlisted hu hcanonical, rfl⟩

/-! ## The local file executor -/

/-- The parameters of a request the ledger accepts have literals. -/
theorem hasLiteral_parameters {fp : String} (hd : (PyValue.dict r.parameters).Everywhere PyValue.DistinctKeys)
    (h : fingerprint py r = .ok fp) : (PyValue.dict r.parameters).Everywhere PyValue.HasLiteral := by
  obtain ⟨c, hc, -⟩ := fingerprint_eq_ok.mp h
  obtain ⟨j, hj, hcanonical, -, hfinite⟩ := canonicalIdentity_eq_ok hd hc
  obtain ⟨hencodable, hshort, -⟩ := Json.render_eq_some _ hcanonical
  exact PyValue.hasLiteral_of_listed _ hj hencodable.2.2.2.2.2.1 hshort.2.2.2.2.2.1 hfinite.2.2.2.2.2.1

variable (lib) in
/-- A parameter as it is hashed. -/
def entryOf (f : PyKey × PyValue) : PyText × String := (f.1.form, String.ofList ((f.2.repr lib).toOption.getD []))

theorem reprEntries_eq_map {fields : PyDict} (h : PyValue.EverywhereFields PyValue.HasLiteral fields) :
    reprEntries lib fields = .ok (fields.map (entryOf lib)) := by
  induction fields with
  | nil => rfl
  | cons f fields ih =>
    obtain ⟨key, v⟩ := f
    obtain ⟨text, htext⟩ := @PyValue.exists_repr lib v h.1
    refine except_bind_eq_ok.mpr ⟨text, htext, except_bind_eq_ok.mpr ⟨_, ih h.2, ?_⟩⟩
    rw [List.map_cons, entryOf, htext]
    rfl

/-- A parameter is determined by what is hashed of it. -/
theorem entryOf_inj {f g : PyKey × PyValue} (hkey : ∃ s : String, f.1 = .str (.utf8 s))
    (hkey' : ∃ s : String, g.1 = .str (.utf8 s)) (hf : f.2.Everywhere PyValue.HasLiteral)
    (hg : g.2.Everywhere PyValue.HasLiteral) (h : entryOf lib f = entryOf lib g) : f = g := by
  obtain ⟨k, v⟩ := f
  obtain ⟨k', w⟩ := g
  obtain ⟨s, rfl⟩ := hkey
  obtain ⟨t, rfl⟩ := hkey'
  obtain ⟨x, hx⟩ := @PyValue.exists_repr lib v hf
  obtain ⟨y, hy⟩ := @PyValue.exists_repr lib w hg
  obtain ⟨hkeys, htexts⟩ := Prod.mk.inj h
  rw [hx, hy] at htexts
  obtain rfl : x = y := String.ofList_injective htexts
  obtain rfl : s = t := PyText.utf8.inj hkeys
  obtain rfl : v = w := PyValue.repr_inj hf hg hx hy
  rfl

/-! ### Sorted pairs -/

theorem pairLe_iff {a b : PyText × String} : pairLe a b = true ↔
    toLex (a.1.codes, (PyText.utf8 a.2).codes) ≤ toLex (b.1.codes, (PyText.utf8 b.2).codes) := by
  simp [pairLe, Prod.Lex.toLex_le_toLex]

instance : Std.Total fun a b : PyText × String => pairLe a b = true :=
  ⟨fun a b => by simpa only [pairLe_iff] using le_total _ _⟩

instance : IsTrans (PyText × String) fun a b => pairLe a b = true :=
  ⟨fun a b c hab hbc => by
    rw [pairLe_iff] at hab hbc ⊢
    exact hab.trans hbc⟩

theorem pairLe_antisymm {a b : PyText × String} (hab : pairLe a b = true) (hba : pairLe b a = true) : a = b := by
  rw [pairLe_iff] at hab hba
  obtain ⟨hkeys, htexts⟩ := Prod.mk.inj (toLex.injective (le_antisymm hab hba))
  exact Prod.ext (PyText.codes_injective hkeys) (PyText.utf8.inj (PyText.codes_injective htexts))

/-- The tuple that is hashed keeps what was sorted. -/
theorem identityTuple_inj {operationId action : String} {xs ys : List (PyText × String)} :
    identityTuple operationId action xs = identityTuple operationId action ys ↔ xs.Perm ys := by
  have hinj : Function.Injective fun entry : PyText × String => PyValue.tuple [.str entry.1, .text entry.2] := by
    rintro ⟨k, s⟩ ⟨k', t⟩ h
    simpa [PyValue.text] using h
  have hperm := fun zs : List (PyText × String) => List.perm_insertionSort (fun a b => pairLe a b = true) zs
  rw [identityTuple, identityTuple, PyValue.tuple.injEq]
  simp only [List.cons.injEq, true_and, and_true, PyValue.list.injEq, (List.map_injective_iff.mpr hinj).eq_iff]
  constructor
  · intro h
    exact (hperm xs).symm.trans (h ▸ hperm ys)
  · intro h
    exact List.Perm.eq_of_pairwise (fun _ _ _ _ => pairLe_antisymm) (List.pairwise_insertionSort _ _)
      (List.pairwise_insertionSort _ _) (((hperm xs).trans h).trans (hperm ys).symm)

theorem hasLiteral_identityTuple (operationId action : String) {entries : List (PyText × String)}
    (h : ∀ entry ∈ entries, entry.1.IsUtf8) :
    (identityTuple operationId action entries).Everywhere PyValue.HasLiteral := by
  refine ⟨trivial, trivial, trivial, ⟨trivial, PyValue.everywhereItems_iff.mpr fun v hv => ?_⟩, trivial⟩
  obtain ⟨entry, hentry, rfl⟩ := List.mem_map.mp hv
  exact ⟨trivial, h entry ((List.mem_insertionSort _).mp hentry), trivial, trivial⟩

/-! ### The fingerprint -/

theorem isUtf8_entries {fields : PyDict} (h : (PyValue.dict fields).Everywhere PyValue.HasLiteral) :
    ∀ entry ∈ fields.map (entryOf lib), entry.1.IsUtf8 := by
  intro entry hentry
  obtain ⟨f, hf, rfl⟩ := List.mem_map.mp hentry
  obtain ⟨s, hs⟩ := h.1 f.1 (List.mem_map_of_mem hf)
  rw [entryOf, hs]
  trivial

variable (py lib) in
/-- The fingerprint of parameters that have literals. -/
theorem localFingerprint_eq (h : (PyValue.dict r.parameters).Everywhere PyValue.HasLiteral) : ∃ c,
    (identityTuple r.operationId r.action (r.parameters.map (entryOf lib))).repr lib = .ok c ∧
      localFingerprint py lib r = .ok (py.sha256 c) := by
  obtain ⟨c, hc⟩ := @PyValue.exists_repr lib _
    (hasLiteral_identityTuple r.operationId r.action (isUtf8_entries h))
  exact ⟨c, hc, except_bind_eq_ok.mpr ⟨_, reprEntries_eq_map h.2, except_bind_eq_ok.mpr ⟨c, hc, rfl⟩⟩⟩

theorem mem_of_perm_entries {fields fields' : PyDict} (h : (PyValue.dict fields).Everywhere PyValue.HasLiteral)
    (h' : (PyValue.dict fields').Everywhere PyValue.HasLiteral)
    (hperm : (fields.map (entryOf lib)).Perm (fields'.map (entryOf lib))) {f : PyKey × PyValue} (hf : f ∈ fields) :
    f ∈ fields' := by
  obtain ⟨g, hg, hentry⟩ := List.mem_map.mp (hperm.subset (List.mem_map_of_mem hf))
  obtain rfl := entryOf_inj (h'.1 _ (List.mem_map_of_mem hg)) (h.1 _ (List.mem_map_of_mem hf))
    (PyValue.everywhereFields_iff.mp h'.2 g hg) (PyValue.everywhereFields_iff.mp h.2 f hf) hentry
  exact hg

variable (lib) in
/-- **Equal digests are digests of the same parameters.** -/
theorem localFingerprint_eq_iff (hsha : Function.Injective py.sha256) (hnd : (r.parameters.map Prod.fst).Nodup)
    (hnd' : (r'.parameters.map Prod.fst).Nodup) (h : (PyValue.dict r.parameters).Everywhere PyValue.HasLiteral)
    (h' : (PyValue.dict r'.parameters).Everywhere PyValue.HasLiteral) (hoperation : r.operationId = r'.operationId)
    (haction : r.action = r'.action) :
    localFingerprint py lib r = localFingerprint py lib r' ↔ r.parameters.Perm r'.parameters := by
  obtain ⟨c, hc, hfp⟩ := localFingerprint_eq py lib h
  obtain ⟨c', hc', hfp'⟩ := localFingerprint_eq py lib h'
  rw [hfp, hfp', Except.ok.injEq, hsha.eq_iff, hoperation, haction] at *
  constructor
  · rintro rfl
    have hentries := identityTuple_inj.mp (PyValue.repr_inj (hasLiteral_identityTuple _ _ (isUtf8_entries h))
      (hasLiteral_identityTuple _ _ (isUtf8_entries h')) hc hc')
    exact (List.perm_ext_iff_of_nodup hnd.of_map hnd'.of_map).mpr fun _ =>
      ⟨mem_of_perm_entries h h' hentries, mem_of_perm_entries h' h hentries.symm⟩
  · intro hperm
    rw [identityTuple_inj.mpr (hperm.map _)] at hc
    exact Except.ok.inj (hc.symm.trans hc')

end Agree

/-! ## A second request -/

/-- The second request is answered by the result the first one returned and left under its key, and nothing else is
done. -/
def HttpMutationExecutor.Replays (py : Platform) (http : HttpLibrary) (ex : HttpMutationExecutor) (env env' : HttpEnv)
    (results : HttpResults) (r r' : ExecutionRequest) : Prop :=
  let first := ex.execute py http env r results
  ∃ x result, first.returned = .ok result ∧ first.results.lookup r'.idempotencyKey = some (x, result) ∧
    ex.execute py http env' r' first.results = ⟨.ok result, none, first.results⟩

/-- The same, of the local file executor. -/
def LocalFileExecutor.Replays (py : Platform) (lib : FileLibrary) (ex : LocalFileExecutor) (env env' : FileEnv)
    (results : LocalResults) (r r' : ExecutionRequest) : Prop :=
  let first := ex.execute py lib env r results
  ∃ x result, first.returned = .ok result ∧ first.results.lookup r'.idempotencyKey = some (x, result) ∧
    ex.execute py lib env' r' first.results = ⟨.ok result, first.results⟩

section Replays

variable {py : Platform} {r r' : ExecutionRequest} {x : String}

theorem HttpMutationExecutor.settle_keeps {env : HttpEnv} {key : String} {opened : Option HttpRequest}
    {results : HttpResults} {answer : Except PyException ExecutionResult} (hnew : key ∉ results)
    (hkept : key ∈ (HttpMutationExecutor.settle env key x opened results answer).results) :
    ∃ result, (HttpMutationExecutor.settle env key x opened results answer).returned = .ok result ∧
      (HttpMutationExecutor.settle env key x opened results answer).results.lookup key = some (x, result) := by
  unfold HttpMutationExecutor.settle at hkept ⊢
  cases h : HttpMutationExecutor.guarded env answer with
  | ok result => exact ⟨result, rfl, AList.lookup_insert results⟩
  | error e => exact absurd (by simpa only [h] using hkept) hnew

/-- What a call keeps under a new key: the fingerprint, and what it returned. -/
theorem HttpMutationExecutor.execute_first {http : HttpLibrary} {ex : HttpMutationExecutor} {env : HttpEnv}
    {results : HttpResults} (h : httpFingerprint py http r = .ok x) (hnew : r.idempotencyKey ∉ results)
    (hkept : r.idempotencyKey ∈ (ex.execute py http env r results).results) :
    ∃ result, (ex.execute py http env r results).returned = .ok result ∧
      (ex.execute py http env r results).results.lookup r.idempotencyKey = some (x, result) := by
  unfold HttpMutationExecutor.execute at hkept ⊢
  simp only [h, AList.lookup_eq_none.mpr hnew] at hkept ⊢
  split_ifs at hkept ⊢ with haction
  · exact absurd hkept hnew
  · cases hprepare : ex.prepare http r with
    | ok prepared =>
      cases prepared with
      | inl early => exact absurd (by simpa only [hprepare] using hkept) hnew
      | inr request => exact settle_keeps hnew (by simpa only [hprepare] using hkept)
    | error e => exact settle_keeps hnew (by simpa only [hprepare] using hkept)

theorem LocalFileExecutor.execute_first {lib : FileLibrary} {ex : LocalFileExecutor} {env : FileEnv}
    {results : LocalResults} (h : localFingerprint py lib.toReprLibrary r = .ok x) (hnew : r.idempotencyKey ∉ results)
    (hkept : r.idempotencyKey ∈ (ex.execute py lib env r results).results) :
    ∃ result, (ex.execute py lib env r results).returned = .ok result ∧
      (ex.execute py lib env r results).results.lookup r.idempotencyKey = some (x, result) := by
  unfold LocalFileExecutor.execute at hkept ⊢
  simp only [h, AList.lookup_eq_none.mpr hnew] at hkept ⊢
  split_ifs at hkept ⊢ with haction
  · exact absurd hkept hnew
  · cases hreplace : ex.replaceTextFile lib env r with
    | ok replaced =>
      cases replaced with
      | inl early => exact absurd (by simpa only [hreplace] using hkept) hnew
      | inr result => exact ⟨result, rfl, AList.lookup_insert results⟩
    | error e =>
      simp only [hreplace] at hkept ⊢
      split_ifs at hkept ⊢
      · exact ⟨_, rfl, AList.lookup_insert results⟩
      · exact absurd hkept hnew

/-- A new key whose file is written. -/
theorem LocalFileExecutor.execute_replaced {lib : FileLibrary} {ex : LocalFileExecutor} {env : FileEnv}
    {results : LocalResults} {result : ExecutionResult} (h : localFingerprint py lib.toReprLibrary r = .ok x)
    (hnew : r.idempotencyKey ∉ results) (haction : r.action = "replace_text_file")
    (hreplace : ex.replaceTextFile lib env r = .ok (.inr result)) :
    ex.execute py lib env r results = ⟨.ok result, results.insert r.idempotencyKey (x, result)⟩ := by
  simp only [LocalFileExecutor.execute, h, AList.lookup_eq_none.mpr hnew, haction, ne_eq, not_true_eq_false, if_false,
    hreplace]

/-- A second request, when something is kept. -/
theorem LocalFileExecutor.execute_second {lib : FileLibrary} {ex : LocalFileExecutor} {env : FileEnv} {y : String}
    {result : ExecutionResult} {results : LocalResults} (h : localFingerprint py lib.toReprLibrary r = .ok y)
    (hlookup : results.lookup r.idempotencyKey = some (x, result)) : ex.execute py lib env r results =
      ⟨.ok (if x ≠ y then ⟨.failed, [], none, some "idempotency_conflict"⟩ else result), results⟩ := by
  simp only [LocalFileExecutor.execute, h, hlookup]

theorem HttpMutationExecutor.execute_second {http : HttpLibrary} {ex : HttpMutationExecutor} {env : HttpEnv}
    {y : String} {result : ExecutionResult} {results : HttpResults} (h : httpFingerprint py http r = .ok y)
    (hlookup : results.lookup r.idempotencyKey = some (x, result)) : ex.execute py http env r results =
      ⟨.ok (if x ≠ y then ⟨.failed, [], none, some "idempotency_conflict"⟩ else result), none, results⟩ := by
  simp only [HttpMutationExecutor.execute, h, hlookup]

/-- Requests with one key and one fingerprint: the second one is a replay when the first one left a result. -/
theorem HttpMutationExecutor.replays_iff {http : HttpLibrary} {ex : HttpMutationExecutor} {env env' : HttpEnv}
    {results : HttpResults} (hkey : r.idempotencyKey = r'.idempotencyKey) (h : httpFingerprint py http r = .ok x)
    (h' : httpFingerprint py http r' = .ok x) (hnew : r.idempotencyKey ∉ results) :
    ex.Replays py http env env' results r r' ↔ r.idempotencyKey ∈ (ex.execute py http env r results).results := by
  constructor
  · rintro ⟨y, result, -, hlookup, -⟩
    rw [hkey]
    exact AList.lookup_isSome.mp (by rw [hlookup]; rfl)
  · intro hkept
    obtain ⟨result, hreturned, hlookup⟩ := execute_first h hnew hkept
    rw [hkey] at hlookup
    refine ⟨x, result, hreturned, hlookup, ?_⟩
    rw [execute_second h' hlookup, if_neg (not_not_intro rfl)]

theorem LocalFileExecutor.replays_iff {lib : FileLibrary} {ex : LocalFileExecutor} {env env' : FileEnv}
    {results : LocalResults} (hkey : r.idempotencyKey = r'.idempotencyKey)
    (h : localFingerprint py lib.toReprLibrary r = .ok x) (h' : localFingerprint py lib.toReprLibrary r' = .ok x)
    (hnew : r.idempotencyKey ∉ results) :
    ex.Replays py lib env env' results r r' ↔ r.idempotencyKey ∈ (ex.execute py lib env r results).results := by
  constructor
  · rintro ⟨y, result, -, hlookup, -⟩
    rw [hkey]
    exact AList.lookup_isSome.mp (by rw [hlookup]; rfl)
  · intro hkept
    obtain ⟨result, hreturned, hlookup⟩ := execute_first h hnew hkept
    rw [hkey] at hlookup
    refine ⟨x, result, hreturned, hlookup, ?_⟩
    rw [execute_second h' hlookup, if_neg (not_not_intro rfl)]

/-- **The executors agree with the ledger**: the local file executor exactly when the requests have the same values
under the same keys, of one type and with the members of nested dicts in one order, and the first of them left a
result; the HTTP executor exactly when the first one left a result. -/
theorem executors_agree_iff {http : HttpLibrary} {lib : FileLibrary} {fp : String}
    (hsha : Function.Injective py.sha256) (hhttp : http.WritesJson)
    (hd : (PyValue.dict r.parameters).Everywhere PyValue.DistinctKeys)
    (hd' : (PyValue.dict r'.parameters).Everywhere PyValue.DistinctKeys) (hkey : r.idempotencyKey = r'.idempotencyKey)
    (h : fingerprint py r = .ok fp) (h' : fingerprint py r' = .ok fp) (files : LocalFileExecutor)
    (env env' : FileEnv) {written : LocalResults} (hwritten : r.idempotencyKey ∉ written)
    (mutations : HttpMutationExecutor) (net net' : HttpEnv) {answered : HttpResults}
    (hanswered : r.idempotencyKey ∉ answered) :
    ((∃ x, localFingerprint py lib.toReprLibrary r = .ok x ∧ localFingerprint py lib.toReprLibrary r' = .ok x) ∧
        files.Replays py lib env env' written r r' ↔
      (∀ key, r.parameters.lookup key = r'.parameters.lookup key) ∧
        r.idempotencyKey ∈ (files.execute py lib env r written).results) ∧
    ((∃ x, httpFingerprint py http r = .ok x ∧ httpFingerprint py http r' = .ok x) ∧
        mutations.Replays py http net net' answered r r' ↔
      r.idempotencyKey ∈ (mutations.execute py http net r answered).results) := by
  obtain ⟨hoperation, haction, -⟩ := (fingerprint_eq_iff hsha hd hd' h h').mp rfl
  have hlocal := localFingerprint_eq_iff lib.toReprLibrary hsha hd.1 hd'.1 (hasLiteral_parameters hd h)
    (hasLiteral_parameters hd' h') hoperation haction
  rw [Json.perm_iff_lookup hd.1 hd'.1] at hlocal
  have hfp := httpFingerprint_eq hhttp hd h
  have hfp' := httpFingerprint_eq hhttp hd' h'
  refine ⟨⟨?_, ?_⟩, ⟨fun hreplays => ?_, fun hkept => ?_⟩⟩
  · rintro ⟨⟨x, hx, hx'⟩, hreplays⟩
    exact ⟨hlocal.mp (hx.trans hx'.symm), (LocalFileExecutor.replays_iff hkey hx hx' hwritten).mp hreplays⟩
  · rintro ⟨hlookup, hkept⟩
    obtain ⟨c, -, hx⟩ := localFingerprint_eq py lib.toReprLibrary (hasLiteral_parameters hd h)
    have hx' := (hlocal.mpr hlookup).symm.trans hx
    exact ⟨⟨_, hx, hx'⟩, (LocalFileExecutor.replays_iff hkey hx hx' hwritten).mpr hkept⟩
  · exact (HttpMutationExecutor.replays_iff hkey hfp hfp' hanswered).mp hreplays.2
  · exact ⟨⟨fp, hfp, hfp'⟩, (HttpMutationExecutor.replays_iff hkey hfp hfp' hanswered).mpr hkept⟩

end Replays

/-! ## Nested members in another order -/

theorem replaceTextFile_named : isBlank "replace_text_file" = false := by decide

/-- A request to write a file. -/
def fileRequest (parameters : PyDict) : ExecutionRequest where
  operationId := "op"
  attemptId := "a"
  idempotencyKey := "a"
  action := "replace_text_file"
  parameters := parameters
  operationId_required := requestA.operationId_required
  attemptId_required := requestA.attemptId_required
  idempotencyKey_required := requestA.attemptId_required
  action_required := replaceTextFile_named

/-- A request, and its members in another order. -/
def writeRequest : ExecutionRequest := fileRequest [(.str "path", .text "f"), (.str "content", .text "x")]

def swappedRequest : ExecutionRequest := fileRequest [(.str "content", .text "x"), (.str "path", .text "f")]

/-- A request with a nested dict, and the members of that dict in another order. -/
def nestedRequest : ExecutionRequest := fileRequest [(.str "path", .text "f"), (.str "content", .text "x"),
  (.str "meta", .dict [(.str "a", .int 1), (.str "b", .int 2)])]

def nestedSwappedRequest : ExecutionRequest := fileRequest [(.str "path", .text "f"), (.str "content", .text "x"),
  (.str "meta", .dict [(.str "b", .int 2), (.str "a", .int 1)])]

/-- What is hashed for these requests. -/
def executorsPlatform : Platform := .withDigests [
  ("\x7b\"action\":\"replace_text_file\",\"operation_id\":\"op\",\"parameters\":".toList ++
      "\x7b\"content\":\"x\",\"path\":\"f\"\x7d\x7d".toList,
    "7a9d9ce0652f17e3061140c4ff6397f20cd0d8fc6ad645faa244799fbe225ab7"),
  ("\x7b\"action\":\"replace_text_file\",\"operation_id\":\"op\",\"parameters\":".toList ++
      "\x7b\"content\":\"x\",\"meta\":\x7b\"a\":1,\"b\":2\x7d,\"path\":\"f\"\x7d\x7d".toList,
    "931f08645b30329e718de9bc63be56754079be9178f0ccf952a4324bc25f7113"),
  ("('op', 'replace_text_file', [('content', \"'x'\"), ".toList ++
      "('meta', \"\x7b'a': 1, 'b': 2\x7d\"), ('path', \"'f'\")])".toList,
    "599fa38e7f85538083d9d2f722d68fd0aa2748b67d14a81966c44e939d52bbd1"),
  ("('op', 'replace_text_file', [('content', \"'x'\"), ".toList ++
      "('meta', \"\x7b'b': 2, 'a': 1\x7d\"), ('path', \"'f'\")])".toList,
    "354d8b35e39c34b37e216c9adc3094c9a1a9e68ef1805892e6be12607ea90901")]

theorem executorsPlatform_injective : Function.Injective executorsPlatform.sha256 :=
  Platform.withDigests_injective (by decide +kernel) fun p hp => by
    simp only [List.mem_cons, List.not_mem_nil, or_false] at hp
    rcases hp with rfl | rfl | rfl | rfl <;>
      exact fun h => absurd ((congrArg List.head? String.toList_ofList).symm.trans h) (by decide)

/-- A library for these requests. -/
def FileLibrary.sample : FileLibrary where
  __ := ReprLibrary.sample
  str := PyValue.string .sample
  resolve root relative := .ok (root ++ [relative])
  digest bytes :=
    if bytes = [120] then "2d711642b726b04401627ca9fbac32f5c8530fb1903cc4db02258717921a4881" else ""

/-- The text `x` is written and read back. -/
def FileEnv.sample : FileEnv := ⟨.ok false, .ok [], .ok (), .ok (), .ok (), .ok [120]⟩

/-- No request gets through. -/
def HttpEnv.unreachable : HttpEnv where
  urlopen := .error (.ofClass "URLError" ["OSError"] "unreachable")
  errorCode := 0
  verify _ _ _ _ := .error (.valueError "no response")

theorem HttpLibrary.sample_writesJson : HttpLibrary.sample.WritesJson := fun v _ _ hlisted _ hc =>
  PyValue.dumpsAs_eq_ok.mpr ⟨_, PyValue.json?_of_listed v hlisted, hc⟩

theorem executors_agree_swapped :
    LocalFileExecutor.Replays executorsPlatform .sample ⟨[]⟩ .sample .sample ∅ writeRequest swappedRequest := by
  have h : fingerprint executorsPlatform writeRequest =
      .ok "7a9d9ce0652f17e3061140c4ff6397f20cd0d8fc6ad645faa244799fbe225ab7" := by decide +kernel
  have h' : fingerprint executorsPlatform swappedRequest =
      .ok "7a9d9ce0652f17e3061140c4ff6397f20cd0d8fc6ad645faa244799fbe225ab7" := by decide +kernel
  have hd : (PyValue.dict writeRequest.parameters).Everywhere PyValue.DistinctKeys :=
    ⟨by simp [PyValue.DistinctKeys, writeRequest, fileRequest], trivial, trivial, trivial⟩
  have hd' : (PyValue.dict swappedRequest.parameters).Everywhere PyValue.DistinctKeys :=
    ⟨by simp [PyValue.DistinctKeys, swappedRequest, fileRequest], trivial, trivial, trivial⟩
  obtain ⟨c, -, hlocal⟩ := localFingerprint_eq executorsPlatform FileLibrary.sample.toReprLibrary
    (hasLiteral_parameters hd h)
  obtain ⟨result, hreplace⟩ : ∃ result, LocalFileExecutor.replaceTextFile .sample ⟨[]⟩ .sample writeRequest =
      .ok (.inr result) := ⟨_, rfl⟩
  have hkept : writeRequest.idempotencyKey ∈
      (LocalFileExecutor.execute executorsPlatform .sample ⟨[]⟩ .sample writeRequest ∅).results := by
    rw [LocalFileExecutor.execute_replaced hlocal (AList.notMem_empty _) rfl hreplace]
    exact AList.lookup_isSome.mp (by rw [AList.lookup_insert]; rfl)
  have hagree := @executors_agree_iff _ _ _ _ .sample _ executorsPlatform_injective HttpLibrary.sample_writesJson hd
    hd' rfl h h' ⟨[]⟩ .sample .sample _ (AList.notMem_empty _) ⟨[], false, 0⟩ .unreachable .unreachable _
    (AList.notMem_empty _)
  exact (hagree.1.mpr ⟨(Json.perm_iff_lookup hd.1 hd'.1).mp (List.Perm.swap _ _ _), hkept⟩).2

/-- **The members of a nested dict come back in another order**: the ledger has one fingerprint for both requests, and
the local file executor answers the second with a conflict. -/
theorem nested_conflicts : let first := LocalFileExecutor.execute executorsPlatform .sample ⟨[]⟩ .sample nestedRequest ∅
    fingerprint executorsPlatform nestedRequest =
      .ok "931f08645b30329e718de9bc63be56754079be9178f0ccf952a4324bc25f7113" ∧
    fingerprint executorsPlatform nestedSwappedRequest =
      .ok "931f08645b30329e718de9bc63be56754079be9178f0ccf952a4324bc25f7113" ∧
    nestedRequest.idempotencyKey = nestedSwappedRequest.idempotencyKey ∧
    localFingerprint executorsPlatform FileLibrary.sample.toReprLibrary nestedRequest =
      .ok "599fa38e7f85538083d9d2f722d68fd0aa2748b67d14a81966c44e939d52bbd1" ∧
    localFingerprint executorsPlatform FileLibrary.sample.toReprLibrary nestedSwappedRequest =
      .ok "354d8b35e39c34b37e216c9adc3094c9a1a9e68ef1805892e6be12607ea90901" ∧
    (∃ result, first.returned = .ok result ∧ result.status = .succeeded) ∧
    (LocalFileExecutor.execute executorsPlatform .sample ⟨[]⟩ .sample nestedSwappedRequest first.results).returned =
      .ok ⟨.failed, [], none, some "idempotency_conflict"⟩ := by
  have hlocal : localFingerprint executorsPlatform FileLibrary.sample.toReprLibrary nestedRequest =
      .ok "599fa38e7f85538083d9d2f722d68fd0aa2748b67d14a81966c44e939d52bbd1" := by decide +kernel
  have hlocal' : localFingerprint executorsPlatform FileLibrary.sample.toReprLibrary nestedSwappedRequest =
      .ok "354d8b35e39c34b37e216c9adc3094c9a1a9e68ef1805892e6be12607ea90901" := by decide +kernel
  obtain ⟨result, hreplace, hstatus⟩ : ∃ result, LocalFileExecutor.replaceTextFile .sample ⟨[]⟩ .sample nestedRequest =
      .ok (.inr result) ∧ result.status = .succeeded := ⟨_, rfl, rfl⟩
  have hfirst := LocalFileExecutor.execute_replaced hlocal (AList.notMem_empty _) rfl hreplace
  refine ⟨by decide +kernel, by decide +kernel, rfl, hlocal, hlocal', ⟨result, congrArg _ hfirst, hstatus⟩, ?_⟩
  have hlookup := AList.lookup_insert (a := nestedSwappedRequest.idempotencyKey)
    (b := ("599fa38e7f85538083d9d2f722d68fd0aa2748b67d14a81966c44e939d52bbd1", result)) (∅ : LocalResults)
  rw [hfirst]
  exact congrArg LocalOutcome.returned (LocalFileExecutor.execute_second hlocal' hlookup)

end Rpr
