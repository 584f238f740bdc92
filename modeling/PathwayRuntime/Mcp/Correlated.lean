import PathwayRuntime.Model.Session

/-!
# Responses correlate

* `Envelope`: what an envelope that satisfies a request looks like; `validateResponse_eq_ok`.
* `perform_spec`: what one call of a session does.
* `Record.Correlated`: the value of a request is the result of such an envelope.
* **`responses_correlate`**: along every run the ids grow, notifications carry none, and each value
  is the result of an envelope of its own, unless the id of the envelope is a foreign object.
* **`responses_repeated`**: a foreign object that equals everything satisfies every request.
-/

set_option autoImplicit false

namespace Rpr

namespace McpJsonRpcSession

/-- An envelope with the result `v` for the request `n`. -/
structure Envelope (objects : PyObjects) (fields : PyDict) (n : ℕ) (v : PyDict) : Prop where
  jsonrpc : ∃ version, fields.get? "jsonrpc" = some version ∧ objects.equalsText "2.0" version = .ok true
  id : ∃ id, fields.get? "id" = some id ∧ (∀ b, id ≠ .bool b) ∧ objects.equalsInt n id = .ok true
  result : fields.get? "result" = some (.dict v)
  error : fields.get? "error" = none
  members : ∀ key ∈ fields.map Prod.fst,
    key ∈ ["jsonrpc", "id", "result", "error"].map fun k => PyKey.str (.utf8 k)

/-- The `id` of the envelope a call sent. -/
def Record.requestId (r : Record) : Option ℤ :=
  match r.used with
  | some (.exchanged envelope _) =>
    match envelope.get? "id" with
    | some (.int n) => some n
    | _ => none
  | _ => none

/-- The object the channel gave a call. -/
def Record.answer (r : Record) : Option PyValue :=
  match r.used with
  | some (.exchanged _ (.ok response)) => some response
  | _ => none

/-- An envelope whose id is no foreign object, as every decoded one is. -/
def BuiltinId (response : PyValue) : Prop :=
  ∀ (fields : PyDict) (typeName : String) (form : PyText), response = .dict fields →
    fields.get? "id" ≠ some (.object typeName form)

/-- A request that returned a value returned the result of an envelope with its own id. -/
def Record.Correlated (objects : PyObjects) (r : Record) : Prop :=
  ∀ v, r.returned = .ok (some v) → ∃ (fields : PyDict) (n : ℕ), r.answer = some (.dict fields) ∧
    r.requestId = some (n : ℤ) ∧ Envelope objects fields n v

/-- A notification carries no id; a request carries one. -/
def Record.Numbered (r : Record) : Prop :=
  match r.used with
  | some (.exchanged _ _) => r.requestId.isSome
  | some (.sent envelope _) => envelope.get? "id" = none
  | none => True

section Validate

variable {objects : PyObjects}

theorem versionMatches_eq_ok {value : PyDict} (h : versionMatches objects value = .ok true) :
    ∃ version, value.get? "jsonrpc" = some version ∧ objects.equalsText "2.0" version = .ok true := by
  rw [versionMatches] at h
  cases hversion : value.get? "jsonrpc" with
  | none =>
    rw [hversion] at h
    cases h
  | some version =>
    rw [hversion] at h
    exact ⟨version, rfl, h⟩

theorem idMatches_eq_ok {id : PyValue} {n : ℕ} (h : idMatches objects id n = .ok true) :
    (∀ b, id ≠ .bool b) ∧ objects.equalsInt n id = .ok true := by
  cases id with
  | bool b => cases h
  | _ => exact ⟨fun b hb => PyValue.noConfusion hb, h⟩

/-- A value that is no foreign object is equal to one integer at most. -/
theorem equalsInt_unique {v : PyValue} (hbuiltin : ∀ typeName form, v ≠ .object typeName form) {m n : ℤ}
    (hm : objects.equalsInt m v = .ok true) (hn : objects.equalsInt n v = .ok true) : m = n := by
  cases v with
  | bool b =>
    have hm := Except.ok.inj hm
    have hn := Except.ok.inj hn
    rw [beq_iff_eq] at hm hn
    exact hm.symm.trans hn
  | int i =>
    have hm := Except.ok.inj hm
    have hn := Except.ok.inj hn
    rw [beq_iff_eq] at hm hn
    exact hm.symm.trans hn
  | float x =>
    cases x with
    | finite x =>
      have hm : (x.scaled.1 == m * x.scaled.2) = true := Except.ok.inj hm
      have hn : (x.scaled.1 == n * x.scaled.2) = true := Except.ok.inj hn
      rw [beq_iff_eq] at hm hn
      have hpos : (x.scaled.2 : ℤ) ≠ 0 := Int.natCast_ne_zero.mpr (Nat.two_pow_pos _).ne'
      exact Int.eq_of_mul_eq_mul_right hpos (hm.symm.trans hn)
    | _ => cases hm
  | object typeName form => exact absurd rfl (hbuiltin typeName form)
  | _ => cases hm

/-- **What `_validate_response` accepts.** -/
theorem validateResponse_eq_ok {response : PyValue} {n : ℕ} {v : PyDict}
    (h : validateResponse objects response n = .ok v) :
    ∃ fields, response = .dict fields ∧ Envelope objects fields n v := by
  cases response with
  | dict value =>
    refine ⟨value, rfl, ?_⟩
    rw [validateResponse, validateFields] at h
    split at h
    · cases h
    · cases h
    rename_i hversion
    cases hid : PyDict.get? value "id" with
    | none =>
      rw [hid] at h
      cases h
    | some id =>
      rw [hid] at h
      dsimp only at h
      split at h
      · cases h
      · cases h
      rename_i hmatch
      by_cases hboth : (PyDict.get? value "result").isSome = (PyDict.get? value "error").isSome
      · rw [if_pos hboth] at h
        cases h
      rw [if_neg hboth] at h
      cases hextras : extras ["jsonrpc", "id", "result", "error"] value with
      | cons key keys =>
        rw [hextras] at h
        simp only at h
        split at h <;> cases h
      | nil =>
        rw [hextras] at h
        simp only at h
        cases herror : PyDict.get? value "error" with
        | some error =>
          rw [herror] at h
          cases h
        | none =>
          rw [herror] at h
          simp only at h
          split at h
          · rename_i result hresult
            obtain rfl := Except.ok.inj h
            refine ⟨versionMatches_eq_ok hversion, ⟨id, hid, idMatches_eq_ok hmatch⟩, hresult, herror,
              fun key hkey => ?_⟩
            by_contra hnot
            have : key ∈ extras ["jsonrpc", "id", "result", "error"] value :=
              List.mem_filter.mpr ⟨hkey, by simpa using hnot⟩
            rw [hextras] at this
            cases this
          · cases h
  | _ => cases h

end Validate

section Runs

variable {κ : Type} (objects : PyObjects) (channel : McpJsonRpcChannel κ)

/-- **One call** leaves the channel alone and raises, or it exchanges an envelope with the next id and
returns what the validation of the answer does, or it sends an envelope without an id. -/
theorem perform_spec (call : Call) (s : McpJsonRpcSession κ) :
    (∃ e, perform objects channel call s = (⟨call, none, .error e⟩, s)) ∨
    (∃ method params r ch, perform objects channel call s =
      (⟨call, some (.exchanged (requestEnvelope s.nextRequestId method params) r),
        match r with
        | .error e => .error (wrapped "exchange" e)
        | .ok response => (validateResponse objects response s.nextRequestId).map some⟩,
        ⟨s.nextRequestId + 1, ch⟩)) ∨
    ∃ method params r ch, perform objects channel call s =
      (⟨call, some (.sent (notifyEnvelope method params) r),
        match r with
        | .error e => .error (wrapped "notification" e)
        | .ok () => .ok none⟩, ⟨s.nextRequestId, ch⟩) := by
  cases call with
  | request method params =>
    rw [perform, request]
    cases hm : methodValue method with
    | error e => exact .inl ⟨e, rfl⟩
    | ok method' =>
      cases hp : paramsValue params with
      | error e => exact .inl ⟨e, rfl⟩
      | ok params' =>
        refine .inr (.inl ⟨method', params', ?_⟩)
        simp only [exchange]
        cases hx : channel.exchange (requestEnvelope s.nextRequestId method' params') s.channel with
        | mk r ch =>
          refine ⟨r, ch, ?_⟩
          cases r <;> rfl
  | notify method params =>
    rw [perform, notify]
    cases hm : methodValue method with
    | error e => exact .inl ⟨e, rfl⟩
    | ok method' =>
      cases hp : paramsValue params with
      | error e => exact .inl ⟨e, rfl⟩
      | ok params' =>
        refine .inr (.inr ⟨method', params', ?_⟩)
        simp only
        cases hx : channel.send (notifyEnvelope method' params') s.channel with
        | mk r ch =>
          refine ⟨r, ch, ?_⟩
          cases r <;> rfl

/-- The id of a call is the session's next one, if it has one. -/
theorem perform_id (call : Call) (s : McpJsonRpcSession κ) :
    (perform objects channel call s).1.Numbered ∧
      ((perform objects channel call s).1.requestId = none ∧
          (perform objects channel call s).2.nextRequestId = s.nextRequestId ∨
        (perform objects channel call s).1.requestId = some (s.nextRequestId : ℤ) ∧
          (perform objects channel call s).2.nextRequestId = s.nextRequestId + 1) := by
  rcases perform_spec objects channel call s with
    ⟨e, heq⟩ | ⟨method, params, r, ch, heq⟩ | ⟨method, params, r, ch, heq⟩ <;> rw [heq]
  · exact ⟨trivial, .inl ⟨rfl, rfl⟩⟩
  · exact ⟨rfl, .inr ⟨rfl, rfl⟩⟩
  · exact ⟨rfl, .inl ⟨rfl, rfl⟩⟩

/-- **The value of a call is the result of an envelope with the call's id.** -/
theorem perform_correlated (call : Call) (s : McpJsonRpcSession κ) :
    (perform objects channel call s).1.Correlated objects := by
  intro v hv
  rcases perform_spec objects channel call s with
    ⟨e, heq⟩ | ⟨method, params, r, ch, heq⟩ | ⟨method, params, r, ch, heq⟩ <;> rw [heq] at hv ⊢
  · cases hv
  · cases r with
    | error e => cases hv
    | ok response =>
      simp only at hv
      cases hvalid : validateResponse objects response s.nextRequestId with
      | error e =>
        rw [hvalid] at hv
        cases hv
      | ok result =>
        rw [hvalid] at hv
        obtain rfl := Option.some.inj (Except.ok.inj hv)
        obtain ⟨fields, rfl, henvelope⟩ := validateResponse_eq_ok hvalid
        exact ⟨fields, s.nextRequestId, rfl, rfl, henvelope⟩
  · cases r <;> cases hv

/-- The ids of a run grow from the session's next one on. -/
theorem requestIds (calls : List Call) (s : McpJsonRpcSession κ) :
    ((records objects channel calls s).filterMap Record.requestId).Pairwise (· < ·) ∧
      ∀ n ∈ (records objects channel calls s).filterMap Record.requestId, (s.nextRequestId : ℤ) ≤ n := by
  induction calls generalizing s with
  | nil => exact ⟨List.Pairwise.nil, fun n hn => absurd hn List.not_mem_nil⟩
  | cons call calls ih =>
    obtain ⟨hgrow, hbound⟩ := ih (perform objects channel call s).2
    rw [records, List.filterMap_cons]
    rcases (perform_id objects channel call s).2 with
      ⟨hid, hnext⟩ | ⟨hid, hnext⟩ <;> rw [hid] <;> rw [hnext] at hbound
    · exact ⟨hgrow, hbound⟩
    · refine ⟨List.pairwise_cons.mpr ⟨fun n hn => ?_, hgrow⟩, List.forall_mem_cons.mpr ⟨le_rfl, fun n hn => ?_⟩⟩
      · have := hbound n hn
        push_cast at this
        omega
      · have := hbound n hn
        push_cast at this
        omega

/-- A fact about every call holds along every run. -/
theorem forall_records {P : Record → Prop} (h : ∀ call s, P (perform objects channel call s).1)
    (calls : List Call) (s : McpJsonRpcSession κ) : ∀ r ∈ records objects channel calls s, P r := by
  induction calls generalizing s with
  | nil => exact fun r hr => absurd hr List.not_mem_nil
  | cons call calls ih => exact List.forall_mem_cons.mpr ⟨h call s, ih _⟩

/-- Two calls of a run with one answer: one of them returned no value, or its id is a foreign object. -/
theorem answers_differ {rs : List Record} (hcorrelated : ∀ r ∈ rs, r.Correlated objects)
    (hids : (rs.filterMap Record.requestId).Pairwise (· < ·)) :
    rs.Pairwise fun r r' => ∀ v v' response, r.returned = .ok (some v) → r'.returned = .ok (some v') →
      r.answer = some response → BuiltinId response → r'.answer ≠ some response := by
  rw [List.pairwise_filterMap] at hids
  refine hids.imp_of_mem fun {r r'} hr hr' hlt v v' response hv hv' hanswered hbuiltin hsame => ?_
  obtain ⟨fields, n, hanswer, hid, henvelope⟩ := hcorrelated r hr v hv
  obtain ⟨fields', n', hanswer', hid', henvelope'⟩ := hcorrelated r' hr' v' hv'
  obtain rfl : PyValue.dict fields = response := Option.some.inj (hanswer.symm.trans hanswered)
  obtain rfl : fields' = fields := PyValue.dict.inj (Option.some.inj (hanswer'.symm.trans hsame))
  obtain ⟨id, hget, -, hn⟩ := henvelope.id
  obtain ⟨id', hget', -, hn'⟩ := henvelope'.id
  obtain rfl := Option.some.inj (hget.symm.trans hget')
  have hobject : ∀ typeName form, id ≠ .object typeName form := fun typeName form h =>
    hbuiltin _ typeName form rfl (h ▸ hget)
  have heq := equalsInt_unique hobject hn hn'
  exact absurd (hlt n hid n' hid') (by rw [heq]; exact lt_irrefl _)

end Runs

/-- **Responses correlate.** In every run of requests and notifications of one session, whatever the
channel returns or raises: the ids sent grow strictly, requests carry one and notifications none; a
request that returns a value returns the result of the envelope the channel gave it, which has version
2.0, a non-boolean id equal to the request's, a result, no error and no other member; and no envelope
satisfies two requests, unless its id is a foreign object. -/
theorem responses_correlate {κ : Type} (objects : PyObjects) (channel : McpJsonRpcChannel κ)
    (calls : List Call) (s : McpJsonRpcSession κ) :
    ((records objects channel calls s).filterMap Record.requestId).Pairwise (· < ·) ∧
      (∀ r ∈ records objects channel calls s, r.Numbered) ∧
      (∀ r ∈ records objects channel calls s, r.Correlated objects) ∧
      (records objects channel calls s).Pairwise fun r r' => ∀ v v' response, r.returned = .ok (some v) →
        r'.returned = .ok (some v') → r.answer = some response → BuiltinId response →
        r'.answer ≠ some response := by
  have hids := (requestIds objects channel calls s).1
  have hcorrelated := forall_records objects channel (perform_correlated objects channel) calls s
  have hnumbered := forall_records objects channel (fun call s => (perform_id objects channel call s).1) calls s
  exact ⟨hids, hnumbered, hcorrelated, answers_differ objects hcorrelated hids⟩

/-- Foreign objects that are all equal to everything, or to nothing, in a world where every `repr` is empty. -/
def alikeObjects (equal : Bool) : PyObjects where
  objectEquals _ _ _ := .ok equal
  repr _ := .ok ""
  reprSorted _ := .ok ""
  repr_error _ _ h := by cases h
  reprSorted_error _ _ _ h := by cases h

/-- A channel that answers every request by one envelope, whose id is such an object. -/
def repeatingChannel : McpJsonRpcChannel Unit where
  exchange _ _ := (.ok (.ofFields [("jsonrpc", .text "2.0"), ("id", .object "_ANY" "<ANY>"), ("result", .dict [])]), ())
  send _ _ := (.ok (), ())

/-- **A foreign object satisfies two requests.** -/
theorem responses_repeated : ¬ ∀ (objects : PyObjects) (channel : McpJsonRpcChannel Unit) (calls : List Call)
    (s : McpJsonRpcSession Unit), (records objects channel calls s).Pairwise fun r r' => ∀ v v',
      r.returned = .ok (some v) → r'.returned = .ok (some v') → r.answer ≠ r'.answer := by
  intro h
  have hpair := h (alikeObjects true) repeatingChannel [.request "ping" (.dict []), .request "ping" (.dict [])] ⟨1, ()⟩
  exact (List.pairwise_pair.mp hpair) [] [] rfl rfl rfl

end McpJsonRpcSession

end Rpr
