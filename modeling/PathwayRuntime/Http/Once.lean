import PathwayRuntime.Model.Http
import PathwayRuntime.Model.System
import PathwayRuntime.Python.Builtins

/-!
# One dispatch a key

* `HttpEnv.Ambiguous`: whatever is raised from `urlopen` on is an `OSError`; `answer_raises`: exactly then
  the block behind `urlopen` raises nothing else.
* `HttpRecord.Honest`: a call that dispatched returned an unknown or a verified outcome;
  `honest_iff`: exactly when its environment was ambiguous.
* `NeverRepeated`: a key dispatched once is not dispatched again.
* **`http_dispatch_kept`**: runs of calls have both properties exactly when every call that dispatched
  did so in an ambiguous environment.
* `http_dispatch_repeated`: a truncated body and a failing strategy break them.
-/

set_option autoImplicit false

namespace Rpr

/-- An `HTTPError`, a `URLError`, a `TimeoutError` or another `OSError`. -/
def PyException.Transport (e : PyException) : Prop := e.isA "HTTPError" ∨ e.isAny ambiguousErrors

/-- Every exception raised once `urlopen` is called, by it, by reading the response, or by the readback
strategy, is an `OSError`. -/
structure HttpEnv.Ambiguous (env : HttpEnv) (maxResponseBytes : ℕ) (request : ExecutionRequest) : Prop where
  urlopen : ∀ e, env.urlopen = .error e → e.Transport
  read : ∀ response e, env.urlopen = .ok response → response.read = .error e → e.Transport
  headers : ∀ response body e, env.urlopen = .ok response → response.read = .ok body →
    body.length ≤ maxResponseBytes → response.headers = .error e → e.Transport
  verify : ∀ response body headers e, env.urlopen = .ok response → response.read = .ok body →
    body.length ≤ maxResponseBytes → response.headers = .ok headers →
    env.verify request response.status headers body = .error e → e.Transport

/-- A call that dispatched returned `WRITE_STATUS_UNKNOWN`, or `SUCCEEDED` with verified readback. -/
def HttpRecord.Honest (r : HttpRecord) : Prop :=
  r.outcome.opened.isSome → ∃ result, r.outcome.returned = .ok result ∧
    (result.status = .writeStatusUnknown ∨ result.status = .succeeded ∧ result.verified = true)

/-- After a call that dispatched, no call with its key dispatches. -/
def NeverRepeated (records : List HttpRecord) : Prop :=
  records.Pairwise fun r r' => r.outcome.opened.isSome →
    r'.request.idempotencyKey = r.request.idempotencyKey → r'.outcome.opened = none

section Call

variable {py : Platform} {lib : HttpLibrary} {ex : HttpMutationExecutor} {env : HttpEnv}
  {request : ExecutionRequest} {results : HttpResults}

/-- The block behind `urlopen` returns an unknown or a verified outcome. -/
theorem answer_ok {result : ExecutionResult} (h : ex.answer env request = .ok result) :
    result.status = .writeStatusUnknown ∨ result.status = .succeeded ∧ result.verified = true := by
  simp only [HttpMutationExecutor.answer, bind, Except.bind] at h
  cases hurl : env.urlopen with
  | error e => simp [hurl] at h
  | ok response =>
    cases hread : response.read with
    | error e => simp [hurl, hread] at h
    | ok body =>
      simp only [hurl, hread] at h
      split_ifs at h with hsize
      · rw [← Except.ok.inj h]
        exact .inl rfl
      cases hheaders : response.headers with
      | error e => simp [hheaders] at h
      | ok headers =>
        cases hverify : env.verify request response.status headers body with
        | error e => simp [hheaders, hverify] at h
        | ok readback =>
          simp only [hheaders, hverify] at h
          rw [← Except.ok.inj h]
          by_cases hv : readback.verified = true
          · exact .inr ⟨by simp [hv], by simp [ExecutionResult.verified, hv]⟩
          · exact .inl (by simp [hv])

/-- **Exactly in an ambiguous environment the block behind `urlopen` raises only `OSError`s.** -/
theorem answer_raises : env.Ambiguous ex.maxResponseBytes request ↔
    ∀ e, ex.answer env request = .error e → e.Transport := by
  simp only [HttpMutationExecutor.answer, bind, Except.bind]
  constructor
  · intro h e he
    cases hurl : env.urlopen with
    | error e' =>
      simp only [hurl, Except.error.injEq] at he
      exact he ▸ h.urlopen e' hurl
    | ok response =>
      cases hread : response.read with
      | error e' =>
        simp only [hurl, hread, Except.error.injEq] at he
        exact he ▸ h.read response e' hurl hread
      | ok body =>
        simp only [hurl, hread] at he
        split_ifs at he with hsize
        have hle : body.length ≤ ex.maxResponseBytes := Nat.le_of_not_lt hsize
        cases hheaders : response.headers with
        | error e' =>
          simp only [hheaders, Except.error.injEq] at he
          exact he ▸ h.headers response body e' hurl hread hle hheaders
        | ok headers =>
          cases hverify : env.verify request response.status headers body with
          | error e' =>
            simp only [hheaders, hverify, Except.error.injEq] at he
            exact he ▸ h.verify response body headers e' hurl hread hle hheaders hverify
          | ok readback =>
            simp only [hheaders, hverify] at he
            cases he
  · intro h
    refine ⟨fun e hurl => h e ?_, fun response e hurl hread => h e ?_,
      fun response body e hurl hread hle hheaders => h e ?_,
      fun response body headers e hurl hread hle hheaders hverify => h e ?_⟩
    · simp only [hurl]
    · simp only [hurl, hread]
    · simp only [hurl, hread, hheaders, if_neg (Nat.not_lt.mpr hle)]
    · simp only [hurl, hread, hheaders, hverify, if_neg (Nat.not_lt.mpr hle)]

variable (env results) in
/-- What `settle` keeps: a result it returns, under the key of the call. -/
theorem settle_results (key fingerprint : String) (http : Option HttpRequest)
    (x : Except PyException ExecutionResult) :
    (HttpMutationExecutor.settle env key fingerprint http results x).opened = http ∧
      ((∃ e, (HttpMutationExecutor.settle env key fingerprint http results x).returned = .error e ∧
          (HttpMutationExecutor.settle env key fingerprint http results x).results = results) ∨
        ∃ result, (HttpMutationExecutor.settle env key fingerprint http results x).returned = .ok result ∧
          (HttpMutationExecutor.settle env key fingerprint http results x).results =
            results.insert key (fingerprint, result)) := by
  rw [HttpMutationExecutor.settle]
  cases HttpMutationExecutor.guarded env x with
  | ok result => exact ⟨rfl, .inr ⟨result, rfl, rfl⟩⟩
  | error e => exact ⟨rfl, .inl ⟨e, rfl, rfl⟩⟩

variable (py lib ex env request results) in
/-- **A call** either does not dispatch, and then keeps at most a result of its own, or it had no result
under its key and ends as the block behind `urlopen` does. -/
theorem execute_cases : ((ex.execute py lib env request results).opened = none ∧
      ((ex.execute py lib env request results).results = results ∨
        ∃ kept, (ex.execute py lib env request results).results =
          results.insert request.idempotencyKey kept)) ∨
    ∃ fingerprint http, results.lookup request.idempotencyKey = none ∧
      ex.execute py lib env request results =
        HttpMutationExecutor.settle env request.idempotencyKey fingerprint (some http) results
          (ex.answer env request) := by
  rw [HttpMutationExecutor.execute]
  cases hf : httpFingerprint py lib request with
  | error e => exact .inl ⟨rfl, .inl rfl⟩
  | ok fingerprint =>
    cases hl : results.lookup request.idempotencyKey with
    | some known => exact .inl ⟨rfl, .inl rfl⟩
    | none =>
      dsimp only
      by_cases haction : request.action ≠ "http_json_mutation"
      · rw [if_pos haction]
        exact .inl ⟨rfl, .inl rfl⟩
      rw [if_neg haction]
      cases hp : ex.prepare lib request with
      | error e =>
        obtain ⟨hopened, ⟨_, -, hresults⟩ | ⟨_, -, hresults⟩⟩ :=
          settle_results env results request.idempotencyKey fingerprint none (.error e)
        · exact .inl ⟨hopened, .inl hresults⟩
        · exact .inl ⟨hopened, .inr ⟨_, hresults⟩⟩
      | ok prepared =>
        cases prepared with
        | inl early => exact .inl ⟨rfl, .inl rfl⟩
        | inr http => exact .inr ⟨fingerprint, http, rfl, rfl⟩

/-- An ambiguous exception is handled, as an unknown outcome; no other is handled as an unknown or a
verified one. -/
theorem handle_transport {e : PyException} : e.Transport ↔ ∃ result,
    HttpMutationExecutor.handle env e = .ok result ∧
      (result.status = .writeStatusUnknown ∨ result.status = .succeeded ∧ result.verified = true) := by
  rw [PyException.Transport, HttpMutationExecutor.handle]
  by_cases hhttp : e.isA "HTTPError"
  · simp [hhttp]
  by_cases hamb : e.isAny ambiguousErrors
  · simp [hhttp, hamb]
  by_cases hreq : e.isAny ["KeyError", "TypeError", "ValueError"]
  · simp [hhttp, hamb, hreq]
  · simp [hhttp, hamb, hreq]

/-- A kept result stays kept. -/
theorem execute_keeps {key : String} (h : key ∈ results) :
    key ∈ (ex.execute py lib env request results).results := by
  rcases execute_cases py lib ex env request results with ⟨-, hsame | ⟨kept, hnew⟩⟩ | ⟨fingerprint, http, -, heq⟩
  · rw [hsame]
    exact h
  · rw [hnew]
    exact (AList.mem_insert results).mpr (.inr h)
  · rw [heq]
    obtain ⟨-, ⟨e, -, hresults⟩ | ⟨result, -, hresults⟩⟩ :=
      settle_results env results request.idempotencyKey fingerprint (some http) (ex.answer env request)
    · rw [hresults]
      exact h
    · rw [hresults]
      exact (AList.mem_insert results).mpr (.inr h)

/-- **A call that dispatched is honest exactly when its environment was ambiguous.** -/
theorem honest_iff (h : (ex.execute py lib env request results).opened.isSome) :
    HttpRecord.Honest ⟨env, request, ex.execute py lib env request results⟩ ↔
      env.Ambiguous ex.maxResponseBytes request := by
  obtain ⟨hnone, -⟩ | ⟨fingerprint, http, -, heq⟩ := execute_cases py lib ex env request results
  · rw [hnone] at h
    cases h
  have hreturned : (ex.execute py lib env request results).returned =
      HttpMutationExecutor.guarded env (ex.answer env request) := by
    rw [heq, HttpMutationExecutor.settle]
    cases HttpMutationExecutor.guarded env (ex.answer env request) <;> rfl
  rw [answer_raises]
  constructor
  · intro honest e he
    obtain ⟨result, hresult, hstatus⟩ := honest h
    rw [hreturned, he] at hresult
    exact handle_transport.mpr ⟨result, hresult, hstatus⟩
  · intro hraises _
    rw [hreturned]
    cases ha : ex.answer env request with
    | ok result => exact ⟨result, rfl, answer_ok ha⟩
    | error e =>
      obtain ⟨result, hresult, hstatus⟩ := handle_transport.mp (hraises e ha)
      exact ⟨result, hresult, hstatus⟩

/-- A call that dispatched in an ambiguous environment keeps its result. -/
theorem opened_kept (h : (ex.execute py lib env request results).opened.isSome)
    (honest : HttpRecord.Honest ⟨env, request, ex.execute py lib env request results⟩) :
    request.idempotencyKey ∈ (ex.execute py lib env request results).results := by
  obtain ⟨result, hresult, -⟩ := honest h
  obtain ⟨hnone, -⟩ | ⟨fingerprint, http, -, heq⟩ := execute_cases py lib ex env request results
  · rw [hnone] at h
    cases h
  dsimp only at hresult
  rw [heq] at hresult ⊢
  obtain ⟨-, ⟨e, hraised, -⟩ | ⟨_, -, hresults⟩⟩ :=
    settle_results env results request.idempotencyKey fingerprint (some http) (ex.answer env request)
  · rw [hraised] at hresult
    cases hresult
  · rw [hresults]
    exact (AList.mem_insert results).mpr (.inl rfl)

end Call

section Runs

variable {py : Platform} {lib : HttpLibrary} {ex : HttpMutationExecutor}

/-- No later call dispatches under a key that has a result. -/
theorem calls_known (calls : List (HttpEnv × ExecutionRequest)) {results : HttpResults} {key : String}
    (h : key ∈ results) : ∀ r ∈ ex.calls py lib calls results,
      r.request.idempotencyKey = key → r.outcome.opened = none := by
  induction calls generalizing results with
  | nil => exact fun r hr => absurd hr List.not_mem_nil
  | cons call rest ih =>
    obtain ⟨env, request⟩ := call
    intro r hr hkey
    rcases List.mem_cons.mp hr with rfl | hr
    · obtain ⟨hnone, -⟩ | ⟨fingerprint, http, hfree, -⟩ := execute_cases py lib ex env request results
      · exact hnone
      · exact absurd h (AList.lookup_eq_none.mp (hkey ▸ hfree))
    · exact ih (execute_keeps h) r hr hkey

/-- Honest runs never dispatch a key twice. -/
theorem neverRepeated_of_honest (calls : List (HttpEnv × ExecutionRequest)) {results : HttpResults}
    (h : ∀ r ∈ ex.calls py lib calls results, r.Honest) :
    NeverRepeated (ex.calls py lib calls results) := by
  induction calls generalizing results with
  | nil => exact List.Pairwise.nil
  | cons call rest ih =>
    obtain ⟨env, request⟩ := call
    obtain ⟨hfirst, hrest⟩ := List.forall_mem_cons.mp h
    refine List.Pairwise.cons (fun r hr hopened hkey => ?_) (ih hrest)
    exact calls_known rest (opened_kept hopened hfirst) r hr hkey

/-- Every call of a run is a call of `execute` on what the earlier ones kept. -/
theorem calls_outcome (calls : List (HttpEnv × ExecutionRequest)) {results : HttpResults} :
    ∀ r ∈ ex.calls py lib calls results, ∃ before,
      r = ⟨r.env, r.request, ex.execute py lib r.env r.request before⟩ := by
  induction calls generalizing results with
  | nil => exact fun r hr => absurd hr List.not_mem_nil
  | cons call rest ih =>
    intro r hr
    rcases List.mem_cons.mp hr with rfl | hr
    · exact ⟨results, rfl⟩
    · exact ih r hr

end Runs

/-- **Dispatch is never denied and never repeated, exactly in ambiguous environments**: for every run of
calls on one executor, whatever it kept before, every call that dispatched returned an unknown or a
verified outcome and no key was dispatched twice, if and only if every exception raised behind a
`urlopen` of the run, by it, by reading the response or by the strategy, is an `OSError`. -/
theorem http_dispatch_kept (py : Platform) (lib : HttpLibrary) (ex : HttpMutationExecutor)
    (calls : List (HttpEnv × ExecutionRequest)) (results : HttpResults) :
    ((∀ r ∈ ex.calls py lib calls results, r.Honest) ∧ NeverRepeated (ex.calls py lib calls results)) ↔
      ∀ r ∈ ex.calls py lib calls results, r.outcome.opened.isSome →
        r.env.Ambiguous ex.maxResponseBytes r.request := by
  constructor
  · rintro ⟨hhonest, -⟩ r hr hopened
    obtain ⟨before, hbefore⟩ := calls_outcome calls r hr
    rw [hbefore] at hopened
    exact (honest_iff hopened).mp (hbefore ▸ hhonest r hr)
  · intro hamb
    have hhonest : ∀ r ∈ ex.calls py lib calls results, r.Honest := by
      intro r hr hopened
      obtain ⟨before, hbefore⟩ := calls_outcome calls r hr
      have ho := hopened
      rw [hbefore] at ho
      have := (honest_iff ho).mpr (hamb r hr hopened)
      rw [← hbefore] at this
      exact this hopened
    exact ⟨hhonest, neverRepeated_of_honest calls hhonest⟩

/-! ## Environments that are not ambiguous -/

theorem jsonItem_error {field : String} {value : Json} {e : PyException}
    (h : jsonItem field value = .error e) : e.isAny readbackErrors = true := by
  cases value with
  | obj fields =>
    rw [jsonItem] at h
    split at h
    · cases h
    · rw [← Except.error.inj h]
      rfl
  | _ =>
    rw [← Except.error.inj h]
    rfl

theorem getItem_error {fields : PyDict} {key : String} {e : PyException}
    (h : fields.getItem key = .error e) : e.isAny readbackErrors = true := by
  rw [PyDict.getItem] at h
  split at h
  · cases h
  · rw [← Except.error.inj h]
    rfl

/-- The shipped strategy raises only what `json.loads` raises beyond `JSONDecodeError`, such as the
`ValueError` of an integer of too many digits. -/
theorem jsonFieldReadback_raises {strategy : JsonFieldReadback} {loads : List Char → Except PyException Json}
    {eq : Json → PyValue → Bool} {request : ExecutionRequest} {code : ℤ} {headers : List (PyText × PyText)}
    {body : Bytes} {e : PyException} (h : strategy.verify loads eq request code headers body = .error e) :
    e.isAny readbackErrors = false ∧ ∃ text, decodeUtf8 body = some text ∧ loads text = .error e := by
  rw [JsonFieldReadback.verify] at h
  by_cases hstatus : 200 ≤ code ∧ code < 300
  · rw [if_neg (not_not_intro hstatus)] at h
    cases hfound : strategy.found loads request body with
    | ok found => simp [hfound] at h
    | error e' =>
      simp only [hfound] at h
      split_ifs at h with hclass
      obtain rfl := Except.error.inj h
      refine ⟨by simpa using hclass, ?_⟩
      rw [JsonFieldReadback.found] at hfound
      cases hdecode : decodeUtf8 body with
      | none =>
        simp only [decodeBody, hdecode, bind, Except.bind, Except.error.injEq] at hfound
        exact absurd (hfound ▸ by decide) hclass
      | some text =>
        refine ⟨text, rfl, ?_⟩
        simp only [decodeBody, hdecode, bind, Except.bind] at hfound
        cases hloads : loads text with
        | error e =>
          simp only [hloads] at hfound
          rw [Except.error.inj hfound]
        | ok value =>
          -- The later errors of the block are caught.
          exfalso
          simp only [hloads] at hfound
          cases hitem : jsonItem strategy.responseField value with
          | error e =>
            simp only [hitem, Except.error.injEq] at hfound
            exact hclass (hfound ▸ jsonItem_error hitem)
          | ok observed =>
            simp only [hitem] at hfound
            cases hget : request.parameters.getItem strategy.expectedParameter with
            | error e =>
              simp only [hget, Except.error.injEq] at hfound
              exact hclass (hfound ▸ getItem_error hget)
            | ok expected =>
              simp only [hget] at hfound
              cases hfound
  · rw [if_pos hstatus] at h
    cases h

/-- The built-in functions, on which one URL can be fetched; in a body numbers are finite. -/
def HttpLibrary.sample : HttpLibrary where
  canonical := PyValue.dumpsAs (fun form => some (.str form)) Json.canonical
  dumps v := do
    let text ← writeValue (Json.plainPlatform v.depth) v.depth v
    text.elim (.error unicodeEncodeError) fun text => .ok (encodeUtf8 text)
  str := PyValue.string .sample
  keyStr key := .ok key.form
  upper s := s
  lower s := s
  urlparse _ := .ok ⟨"https", some "host", .ok none, none, none, ""⟩
  checkRequest _ := .ok ()

/-- An executor that allows that URL. -/
def HttpMutationExecutor.sample : HttpMutationExecutor := ⟨["https://host:443"], false, 1000000⟩

theorem httpJsonMutation_named : isBlank "http_json_mutation" = false := by decide

/-- A mutation under a key. -/
def httpRequest (key : String) (h : isBlank key = false) : ExecutionRequest where
  operationId := "op"
  attemptId := "a"
  idempotencyKey := key
  action := "http_json_mutation"
  parameters := [(.str "url", .text "https://host/ok")]
  operationId_required := requestA.operationId_required
  attemptId_required := requestA.attemptId_required
  idempotencyKey_required := h
  action_required := httpJsonMutation_named

/-- The body of a response ends early. -/
def truncatedBody : HttpEnv where
  urlopen := .ok ⟨200, .ok [], .error (.ofClass "IncompleteRead" ["HTTPException"] "IncompleteRead(3)")⟩
  errorCode := 0
  verify _ _ _ _ := .ok ⟨false, [], none⟩

/-- The strategy raises a `ValueError`. -/
def failingStrategy : HttpEnv where
  urlopen := .ok ⟨200, .ok [], .ok []⟩
  errorCode := 0
  verify _ _ _ _ := .error (.valueError "invalid literal for int() with base 10: ''")

/-- Two executions whose bodies end early, and one whose strategy raises. -/
def uncertainCalls : List (HttpEnv × ExecutionRequest) :=
  [(truncatedBody, httpRequest "k" (by decide)), (truncatedBody, httpRequest "k" (by decide)),
    (failingStrategy, httpRequest "m" (by decide))]

/-- The calls of the run that dispatched, and the statuses they returned. -/
def dispatched (records : List HttpRecord) : List (String × Option ExecutionStatus) :=
  (records.filter fun r => r.outcome.opened.isSome).map fun r => (r.request.idempotencyKey,
    match r.outcome.returned with
    | .ok result => some result.status
    | .error _ => none)

theorem dispatched_of_honest {records : List HttpRecord} (h : ∀ r ∈ records, r.Honest) :
    ∀ d ∈ dispatched records, d.2 ≠ some .failed := by
  intro d hd
  obtain ⟨r, hr, rfl⟩ := List.mem_map.mp hd
  obtain ⟨hr, hopened⟩ := List.mem_filter.mp hr
  obtain ⟨result, hresult, hstatus⟩ := h r hr hopened
  rw [hresult]
  rcases hstatus with hs | ⟨hs, -⟩ <;> simp [hs]

theorem dispatched_nodup {records : List HttpRecord} (h : NeverRepeated records) :
    ((dispatched records).map Prod.fst).Nodup := by
  rw [dispatched, List.map_map, List.Nodup, List.pairwise_map]
  refine (List.Pairwise.filter _ h).imp_of_mem fun {r r'} hr hr' hnever hkey => ?_
  have hopened := (List.mem_filter.mp hr').2
  rw [hnever (List.mem_filter.mp hr).2 hkey.symm] at hopened
  cases hopened

/-- **A truncated body is dispatched again, and a failing strategy denies the dispatch.** -/
theorem http_dispatch_repeated :
    ¬ (∀ r ∈ HttpMutationExecutor.sample.calls .sample .sample uncertainCalls ∅, r.Honest) ∧
      ¬ NeverRepeated (HttpMutationExecutor.sample.calls .sample .sample uncertainCalls ∅) := by
  have hrun : dispatched (HttpMutationExecutor.sample.calls .sample .sample uncertainCalls ∅) =
      [("k", none), ("k", none), ("m", some .failed)] := by
    decide +kernel
  constructor
  · intro h
    exact dispatched_of_honest h ("m", some .failed) (by simp [hrun]) rfl
  · intro h
    have := dispatched_nodup h
    simp [hrun] at this

end Rpr
