import Mathlib.Data.List.Induction
import PathwayRuntime.Trace.Solo

/-!
# Registrations

* `Inserts`, `Logs`: `register` reaches its insertion, and the event after it.
* `RegisterRun`, `run_register`: how a registration can go.
* `Opened`: the log of a pathway begins with its registration.
* **`register_atomic`**: a registration that raises or crashes leaves no pathway behind exactly when an
  insertion is followed by its event; and when that is so, every log begins with the registration.
* `register_torn`: a pathway without any event.
-/

set_option autoImplicit false

namespace Rpr

open Resume

/-- The pathway a step inserts, with its state. -/
def Step.created : Step → Option (String × PathwayState)
  | .createOrReplayPathway d _ state _ (.ok (false, _)) => some (d.pathwayId, state)
  | _ => none

/-- The pathway was inserted with this state. -/
def InsertedAs (tr : List Record) (p : String) (s : PathwayState) : Prop :=
  ∃ m ∈ tr, m.step.created = some (p, s)

/-- The oldest event of the log is the registration of a pathway in this state. -/
def Opened (log : List EvidenceEvent) (s : PathwayState) : Prop :=
  ∃ event, log.getLast? = some event ∧ event.eventType = "pathway_registered" ∧
    event.text? "state" = some s.value

/-- The state a pathway is registered with, given the decision of the evaluator. -/
def registeredState (d : PathwayDefinition) (decision : RuntimeDecision) : PathwayState :=
  initialState (combine (inspectPathway d).decision decision) d.approvalAuthority.isSome

/-- The members of a registration event. -/
def registrationFields (d : PathwayDefinition) (key : String) (decision : RuntimeDecision)
    (codes : List PyText) (raw : PyDict) : List (String × PyValue) :=
  [("inspection", (inspectPathway d).toDict),
    ("rpe", .ofFields [("decision", .text decision.value), ("reason_codes", .list (codes.map .str)),
      ("raw", .dict raw)]),
    ("state", .text (registeredState d decision).value), ("idempotency_key", .text key)]

/-- `register` inserts a pathway, given the evaluator's answer. -/
structure Inserts (w : World) (d : PathwayDefinition) (key : String) (outcome : RpeOutcome)
    (decision : RuntimeDecision) (codes : List PyText) (raw : PyDict) : Prop where
  read : outcome.read = .ok (decision, codes, raw)
  given : isBlank key = false
  canonical : (Json.canonical d.toDict).isSome
  unused : w.byIdempotencyKey key = none
  absent : w.state d.pathwayId = none

/-- With these oracles the event is built and appended. -/
def Logs (py : Platform) (policy : RedactionPolicy) (w : World) (p ty actor : String)
    (payload : List (String × PyValue)) (os : List Oracle) (event : EvidenceEvent) : Prop :=
  ∃ o₁ o₂ o₃ rest safe, os = o₁ :: o₂ :: o₃ :: rest ∧ policy.redact py (.ofFields payload) = .ok safe ∧
    sealEvent py p ty actor safe o₂.time (headHash (w.log p)) = .ok event ∧
    ∀ e ∈ w.events, e.eventHash ≠ event.eventHash

/-- An insertion is followed by its event. -/
def Registrable (py : Platform) (policy : RedactionPolicy) (w : World) (d : PathwayDefinition)
    (key : String) (os : List Oracle) : Prop :=
  ∀ o₁ o₂ rest decision codes raw, os = o₁ :: o₂ :: rest →
    Inserts w d key o₁.rpe decision codes raw →
    ∃ event, Logs py policy w d.pathwayId "pathway_registered" d.decisionOwner
      (registrationFields d key decision codes raw) rest event

/-! ## One registration -/

section Run

variable {py : Platform} {order : Option RowOrder} {policy : RedactionPolicy} {t : ℕ} {c : Call}
  {os : List Oracle} {h : History} {d : PathwayDefinition} {key : String}

theorem run_raise {α : Type} (e : PyError) :
    (database py order).run t c (.raise e : Db α) os h = (.raised e, h) := by
  cases os <;> rfl

theorem run_ret {α : Type} (a : α) : (database py order).run t c (.ret a : Db α) os h = (.returned a, h) := by
  cases os <;> rfl

/-- The steps added to a trace insert nothing but this. -/
def Adds (tr tr' : List Record) (x : Option (String × PathwayState)) : Prop :=
  ∃ new, tr' = new ++ tr ∧ ∀ m ∈ new, m.step.created = none ∨ m.step.created = x

theorem Adds.refl (tr : List Record) (x : Option (String × PathwayState)) : Adds tr tr x :=
  ⟨[], rfl, fun _ hm => absurd hm List.not_mem_nil⟩

theorem Adds.cons {tr tr' : List Record} {m : Record} {x : Option (String × PathwayState)}
    (hm : m.step.created = none ∨ m.step.created = x) (h : Adds (m :: tr) tr' x) : Adds tr tr' x := by
  obtain ⟨new, hnew, hall⟩ := h
  refine ⟨new ++ [m], by simpa using hnew, List.forall_mem_append.mpr ⟨hall, ?_⟩⟩
  simpa using hm

/-- Appending an event of a stored pathway only fails on a hash that is in use. -/
theorem World.appendEvent_known {w : World} {event : EvidenceEvent} (hp : (w.state event.pathwayId).isSome) :
    w.appendEvent event = if ∃ e ∈ w.events, e.eventHash = event.eventHash
      then (.error (.integrityError "UNIQUE constraint failed: evidence_events.event_hash"), w)
      else (.ok (), w.push event) := by
  have hknown : (w.state event.pathwayId).isNone = false := by
    simpa [Option.isNone_eq_false_iff] using hp
  unfold World.appendEvent World.insertEvent
  rw [hknown, if_neg (by decide)]
  split_ifs <;> rfl

/-- How recording an event can go: it is stored and the call goes on, or the call ends there and the
world is as it was. -/
def RecordRun {α : Type} (py : Platform) (policy : RedactionPolicy) (p ty actor : String)
    (payload : List (String × PyValue)) (a : α) (os : List Oracle) (h : History)
    (r : Outcome PyError α × History) : Prop :=
  Adds h.trace r.2.trace none ∧
    ((∃ event, Logs py policy h.world p ty actor payload os event ∧ r.1 = .returned a ∧
        r.2.world = h.world.push event) ∨
      ((∀ event, ¬ Logs py policy h.world p ty actor payload os event) ∧ (∀ b, r.1 ≠ .returned b) ∧
        r.2.world = h.world))

theorem RecordRun.fails {α : Type} {p ty actor : String} {payload : List (String × PyValue)} {a : α}
    {r : Outcome PyError α × History} (hadds : Adds h.trace r.2.trace none)
    (hno : ∀ event, ¬ Logs py policy h.world p ty actor payload os event)
    (hr : ∀ b, r.1 ≠ .returned b) (hw : r.2.world = h.world) :
    RecordRun py policy p ty actor payload a os h r :=
  ⟨hadds, .inr ⟨hno, hr, hw⟩⟩

theorem run_record {α : Type} {p ty actor : String} {payload : List (String × PyValue)} {a : α}
    (hp : (h.world.state p).isSome) : RecordRun py policy p ty actor payload a os h
      ((database py order).run t c (record py policy p ty actor payload >>= fun _ => pure a) os h) := by
  cases os with
  | nil =>
    refine .fails (.refl _ _) (fun event hl => ?_) (by intro b hb; cases hb) rfl
    obtain ⟨_, _, _, _, _, hos, -⟩ := hl
    cases hos
  | cons o₁ os =>
    cases hsafe : policy.redact py (.ofFields payload) with
    | error e =>
      simp only [record, buildEvent, Db.latestEventHash, Db.now, Db.appendEvent, Prog.bind_eq,
        Prog.pure_eq, Prog.bind, hsafe, Prog.ofExcept, Machine.run, Machine.advance, database, exec, label]
      refine .fails (.cons (.inl rfl) (.refl _ _)) (fun event hl => ?_) (by simp) rfl
      obtain ⟨_, _, _, _, safe, -, hsafe', -⟩ := hl
      exact absurd (hsafe.symm.trans hsafe') (by simp)
    | ok safe =>
      simp only [record, buildEvent, Db.latestEventHash, Db.now, Db.appendEvent, Prog.bind_eq,
        Prog.pure_eq, Prog.bind, hsafe, Prog.ofExcept, Machine.run, Machine.advance, database, exec, label]
      cases os with
      | nil =>
        refine .fails (.cons (.inl rfl) (.refl _ _)) (fun event hl => ?_) (by simp [Machine.run]) rfl
        obtain ⟨_, _, _, _, _, hos, -⟩ := hl
        cases hos
      | cons o₂ os =>
        simp only [Machine.run, Machine.advance, exec, label]
        cases hseal : sealEvent py p ty actor safe o₂.time (headHash (h.world.log p)) with
        | error e =>
          simp only [Prog.bind, Machine.run]
          refine .fails (.cons (.inl rfl) (.cons (.inl rfl) (.refl _ _))) (fun event hl => ?_) (by simp) rfl
          obtain ⟨_, _, _, _, safe', hos, hsafe', hseal', -⟩ := hl
          cases hos
          obtain rfl := Except.ok.inj (hsafe.symm.trans hsafe')
          exact absurd (hseal.symm.trans hseal') (by simp)
        | ok event =>
          simp only [Prog.bind]
          cases os with
          | nil =>
            refine .fails (.cons (.inl rfl) (.cons (.inl rfl) (.refl _ _))) (fun event hl => ?_)
              (by simp [Machine.run]) rfl
            obtain ⟨_, _, _, _, _, hos, -⟩ := hl
            cases hos
          | cons o₃ os =>
            have hid : event.pathwayId = p := (sealEvent_ok hseal).1
            have hknown : (h.world.state event.pathwayId).isSome := hid ▸ hp
            have happend := World.appendEvent_known hknown
            by_cases hused : ∃ e ∈ h.world.events, e.eventHash = event.eventHash
            · rw [if_pos hused] at happend
              simp only [Machine.run, Machine.advance, exec, label, happend, Prog.ofExcept, Prog.bind]
              refine .fails (.cons (.inl rfl) (.cons (.inl rfl) (.cons (.inl rfl) (.refl _ _))))
                (fun event' hl => ?_) (by simp) rfl
              obtain ⟨_, _, _, _, safe', hos, hsafe', hseal', hnew⟩ := hl
              cases hos
              obtain rfl := Except.ok.inj (hsafe.symm.trans hsafe')
              obtain rfl := Except.ok.inj (hseal.symm.trans hseal')
              obtain ⟨e, he, hsame⟩ := hused
              exact hnew e he hsame
            · rw [if_neg hused] at happend
              simp only [Machine.run, Machine.advance, exec, label, happend, Prog.ofExcept, Prog.bind]
              refine ⟨.cons (.inl rfl) (.cons (.inl rfl) (.cons (.inl rfl) (.refl _ _))),
                .inl ⟨event, ⟨o₁, o₂, o₃, os, safe, rfl, hsafe, hseal, fun e he hsame => ?_⟩, rfl, rfl⟩⟩
              exact hused ⟨e, he, hsame⟩

/-- How a registration can go: it inserts nothing, or it inserts the pathway and records that. -/
inductive RegisterRun (py : Platform) (policy : RedactionPolicy) (d : PathwayDefinition) (key : String)
    (os : List Oracle) (h : History) (r : Outcome PyError CallResult × History) : Prop
  | idle (hno : ∀ o₁ o₂ rest decision codes raw, os = o₁ :: o₂ :: rest →
        ¬ Inserts h.world d key o₁.rpe decision codes raw)
      (hworld : r.2.world = h.world) (hadds : Adds h.trace r.2.trace none) :
      RegisterRun py policy d key os h r
  | inserted {o₁ o₂ : Oracle} {rest : List Oracle} {decision : RuntimeDecision} {codes : List PyText}
      {raw : PyDict} {fp : String} {h' : History} {result : CallResult} (hos : os = o₁ :: o₂ :: rest)
      (hins : Inserts h.world d key o₁.rpe decision codes raw)
      (hworld : h'.world = h.world.create d.pathwayId ⟨d.toDict, fp, registeredState d decision, key⟩)
      (hadds : Adds h.trace h'.trace (some (d.pathwayId, registeredState d decision)))
      (hrun : RecordRun py policy d.pathwayId "pathway_registered" d.decisionOwner
        (registrationFields d key decision codes raw) result rest h' r) :
      RegisterRun py policy d key os h r

theorem World.createOrReplayPathway_absent {w : World} (hunused : w.byIdempotencyKey key = none)
    (habsent : w.state d.pathwayId = none) (fp : String) (s : PathwayState) :
    w.createOrReplayPathway d fp s key =
      (.ok (false, s), w.create d.pathwayId ⟨d.toDict, fp, s, key⟩) := by
  rw [World.createOrReplayPathway, hunused, habsent]
  rfl

theorem World.createOrReplayPathway_present {w : World}
    (h : ¬ (w.byIdempotencyKey key = none ∧ w.state d.pathwayId = none)) (fp : String) (s : PathwayState) :
    ∃ x, w.createOrReplayPathway d fp s key = (x, w) ∧ ∀ s', x ≠ .ok (false, s') := by
  unfold World.createOrReplayPathway
  cases hk : w.byIdempotencyKey key with
  | some r =>
    dsimp only
    split_ifs <;> exact ⟨_, rfl, by simp⟩
  | none =>
    have hs : (w.state d.pathwayId).isSome := by
      cases hs : w.state d.pathwayId with
      | none => exact absurd ⟨hk, hs⟩ h
      | some s' => rfl
    dsimp only
    rw [if_pos hs]
    exact ⟨_, rfl, by simp⟩

/-- The rest of `register` once the store has answered. -/
def recordRegistration (py : Platform) (policy : RedactionPolicy) (d : PathwayDefinition) (key : String)
    (a : RuntimeDecision × List PyText × PyDict) (b : Bool × PathwayState) : Db CallResult :=
  let result : CallResult := .registered ⟨d.pathwayId, b.2, combine (inspectPathway d).decision a.1,
    (inspectPathway d).findings.map (fun f => (f.code : PyText)) ++ a.2.1, b.1⟩
  if b.1 then pure result
  else record py policy d.pathwayId "pathway_registered" d.decisionOwner
    [("inspection", (inspectPathway d).toDict),
      ("rpe", .ofFields [("decision", .text a.1.value),
        ("reason_codes", .list (a.2.1.map .str)), ("raw", .dict a.2.2)]),
      ("state", .text b.2.value), ("idempotency_key", .text key)] >>= fun _ => pure result

theorem register_body (hc : c.method = .register d key) : c.body py =
    (Db.evaluateRpe d >>= fun outcome => Prog.ofExcept outcome.read >>= fun a =>
      createOrReplayPathway py d (registeredState d a.1) key >>=
        recordRegistration py c.policy d key a) := by
  rw [Call.body, hc]
  simp only [register, Prog.bind_eq, Prog.bind_assoc, Prog.pure_eq, registeredState]
  congr 1
  funext outcome
  congr 1
  funext a
  congr 1
  funext b
  obtain ⟨replayed, s⟩ := b
  cases replayed with
  | true => rfl
  | false =>
    simp only [Bool.not_false, if_true, Prog.bind_assoc, recordRegistration, Bool.false_eq_true,
      if_false, Prog.bind_eq, Prog.pure_eq, Prog.bind]

/-- **How a registration can go.** -/
theorem run_register (hc : c.method = .register d key) :
    RegisterRun py c.policy d key os h ((database py order).run t c (c.body py) os h) := by
  rw [register_body hc]
  cases os with
  | nil =>
    refine .idle (fun _ _ _ _ _ _ hos => by cases hos) rfl (.refl _ _)
  | cons o₁ os =>
    show RegisterRun py c.policy d key (o₁ :: os) h ((database py order).run t c
      ((Prog.ofExcept o₁.rpe.read).bind fun a => (createOrReplayPathway py d (registeredState d a.1)
        key).bind (recordRegistration py c.policy d key a)) os
      ⟨h.world, ⟨t, c, h.world, .evaluateRpe d o₁.rpe⟩ :: h.trace⟩)
    cases hread : o₁.rpe.read with
    | error e =>
      rw [show (Prog.ofExcept (.error e) : Db _) = .raise e from rfl, Prog.bind, run_raise]
      refine .idle (fun _ _ _ _ _ _ hos hins => ?_) rfl (.cons (.inl rfl) (.refl _ _))
      obtain ⟨rfl, -⟩ := List.cons.inj hos
      exact absurd (hread.symm.trans hins.read) (by simp)
    | ok a =>
      obtain ⟨decision, codes, raw⟩ := a
      have hsame : ∀ {o₂ rest o decision' codes' raw'}, o₁ :: os = o :: o₂ :: rest →
          Inserts h.world d key o.rpe decision' codes' raw' →
          Inserts h.world d key o₁.rpe decision codes raw := by
        intro o₂ rest o decision' codes' raw' hos hins
        obtain ⟨rfl, -⟩ := List.cons.inj hos
        exact ⟨hread, hins.given, hins.canonical, hins.unused, hins.absent⟩
      show RegisterRun py c.policy d key (o₁ :: os) h ((database py order).run t c
        ((createOrReplayPathway py d (registeredState d decision) key).bind
          (recordRegistration py c.policy d key (decision, codes, raw))) os
        ⟨h.world, ⟨t, c, h.world, .evaluateRpe d o₁.rpe⟩ :: h.trace⟩)
      unfold createOrReplayPathway
      by_cases hblank : isBlank key = true
      · rw [if_pos hblank, Prog.bind, run_raise]
        refine .idle (fun _ _ _ _ _ _ hos hins => ?_) rfl (.cons (.inl rfl) (.refl _ _))
        exact absurd (hblank.symm.trans (hsame hos hins).given) (by simp)
      · rw [if_neg hblank]
        cases hcanon : Json.canonical d.toDict with
        | none =>
          dsimp only
          rw [Prog.bind, run_raise]
          refine .idle (fun _ _ _ _ _ _ hos hins => ?_) rfl (.cons (.inl rfl) (.refl _ _))
          have := (hsame hos hins).canonical
          rw [hcanon] at this
          cases this
        | some canonical =>
          cases os with
          | nil => exact .idle (fun _ _ _ _ _ _ hos => by cases hos) rfl (.cons (.inl rfl) (.refl _ _))
          | cons o₂ rest =>
            by_cases hnew : h.world.byIdempotencyKey key = none ∧ h.world.state d.pathwayId = none
            · have hcreate := World.createOrReplayPathway_absent hnew.1 hnew.2
                (py.sha256 canonical) (registeredState d decision)
              simp only [Prog.bind, Machine.run, Machine.advance, database, exec, label, hcreate, Prog.ofExcept]
              refine .inserted rfl ⟨hread, by simpa using hblank, by rw [hcanon]; rfl, hnew.1, hnew.2⟩ rfl ?_
                (run_record ?_)
              · exact .cons (.inl rfl) (.cons (.inr rfl) (.refl _ _))
              · rw [World.state_create, if_pos rfl]
                rfl
            · obtain ⟨x, hcreate, hold⟩ := World.createOrReplayPathway_present hnew
                (py.sha256 canonical) (registeredState d decision)
              have hno : ∀ o o₂' rest' decision' codes' raw', o₁ :: o₂ :: rest = o :: o₂' :: rest' →
                  ¬ Inserts h.world d key o.rpe decision' codes' raw' := fun _ _ _ _ _ _ hos hins =>
                hnew ⟨(hsame hos hins).unused, (hsame hos hins).absent⟩
              have hexec : (database py order).exec (.createOrReplayPathway d (py.sha256 canonical)
                  (registeredState d decision) key) o₂ h.world = (x, h.world) := hcreate
              simp only [Prog.bind, Machine.run, Machine.advance, hexec]
              rcases x with e | ⟨_ | _, s⟩
              · rw [show (Prog.ofExcept (.error e) : Db _) = .raise e from rfl, Prog.bind, run_raise]
                exact .idle hno rfl (.cons (.inl rfl) (.cons (.inl rfl) (.refl _ _)))
              · exact absurd rfl (hold s)
              · rw [show (Prog.ofExcept (.ok (true, s)) : Db _).bind
                  (recordRegistration py c.policy d key (decision, codes, raw)) = .ret _ from rfl, run_ret]
                exact .idle hno rfl (.cons (.inl rfl) (.cons (.inl rfl) (.refl _ _)))

end Run

/-! ## Every run -/

section Opened

variable {py : Platform} {order : Option RowOrder} {calls : List (Call × List Oracle)} {p : String}
  {s : PathwayState}

theorem Step.created_eq_some {step : Step} (h : step.created = some (p, s)) : ∃ d fp key s',
    step = .createOrReplayPathway d fp s key (.ok (false, s')) ∧ d.pathwayId = p := by
  unfold Step.created at h
  split at h
  · obtain ⟨rfl, rfl⟩ := Prod.mk.inj (Option.some.inj h)
    exact ⟨_, _, _, _, rfl, rfl⟩
  · cases h

/-- A log only grows at its newer end. -/
theorem Step.log_grows (step : Step) (w : World) (p : String) :
    ∃ newer, (step.effect w).log p = newer ++ w.log p := by
  cases step
  case createOrReplayPathway d fp st key r => rcases r with err | ⟨_ | _, st'⟩ <;> exact ⟨[], rfl⟩
  case transitionWithEvent q a b event r =>
    rcases r with err | ⟨⟩
    · exact ⟨[], rfl⟩
    · refine ⟨if event.pathwayId = p then [event] else [], ?_⟩
      show (w.commit q b event).log p = _
      rw [World.log_commit]
      split_ifs <;> rfl
  case appendEvent event r =>
    rcases r with err | ⟨⟩
    · exact ⟨[], rfl⟩
    · refine ⟨if event.pathwayId = p then [event] else [], ?_⟩
      show (w.push event).log p = _
      rw [World.log_push]
      split_ifs <;> rfl
  case begin q r fp res => rcases res with err | ⟨_ | _, rec⟩ <;> exact ⟨[], rfl⟩
  all_goals exact ⟨[], rfl⟩

theorem Opened.append {log newer : List EvidenceEvent} (h : Opened log s) : Opened (newer ++ log) s := by
  obtain ⟨event, hlast, hevent⟩ := h
  exact ⟨event, by rw [List.getLast?_append, hlast]; rfl, hevent⟩

/-- Every stored pathway was inserted. -/
theorem stored_inserted {tr : List Record} {w : World} (h : Reach py order tr w)
    (hp : (w.state p).isSome) : ∃ s, InsertedAs tr p s := by
  induction h using Reach.induct with
  | start => cases hp
  | step t c step tr w h ih hj ha h' =>
    have hold : (w.state p).isSome → ∃ s, InsertedAs (⟨t, c, w, step⟩ :: tr) p s := fun hp => by
      obtain ⟨s, m, hm, hs⟩ := ih hp
      exact ⟨s, m, List.mem_cons_of_mem _ hm, hs⟩
    cases pathway_cases hj ha p with
    | @created d fp key state state' hd =>
      exact ⟨state, _, List.mem_cons_self, by rw [← hd]; rfl⟩
    | committed hcommit hcur => exact hold (by rw [hcur]; rfl)
    | appended => exact hold hp
    | untouched hstate => exact hold (by rwa [hstate] at hp)

/-- The event of a registration records the state of the pathway. -/
theorem Logs.opens {policy : RedactionPolicy} {w : World} {d : PathwayDefinition} {key : String}
    {decision : RuntimeDecision} {codes : List PyText} {raw : PyDict} {os : List Oracle}
    {event : EvidenceEvent} (h : Logs py policy w d.pathwayId "pathway_registered" d.decisionOwner
      (registrationFields d key decision codes raw) os event)
    (hpolicy : policy.sensitive py (.utf8 "state") = false) :
    event.pathwayId = d.pathwayId ∧ Opened [event] (registeredState d decision) := by
  obtain ⟨o₁, o₂, o₃, rest, safe, -, hsafe, hseal, -⟩ := h
  obtain ⟨hid, hty, -, hpayload, -⟩ := sealEvent_ok hseal
  refine ⟨hid, event, rfl, hty, ?_⟩
  have htext := RedactionPolicy.redact_text hsafe hpolicy
    (s := (registeredState d decision).value) rfl (by simp [registrationFields])
  rw [EvidenceEvent.text?, hpayload, htext]
  rfl

/-- **When a registration leaves no pathway without its event.** -/
theorem atomic_iff {c : Call} {os : List Oracle} {d : PathwayDefinition} {key : String}
    (hc : c.method = .register d key) :
    ((∀ r, (lastCall py order calls c os).1 ≠ .returned r) →
      (lastCall py order calls c os).2.world.pathways = (sequential py order calls).world.pathways) ↔
    Registrable py c.policy (sequential py order calls).world d key os := by
  have hrun : RegisterRun py c.policy d key os (sequential py order calls) (lastCall py order calls c os) :=
    run_register hc
  cases hrun with
  | idle hno hworld =>
    exact iff_of_true (fun _ => congrArg World.pathways hworld)
      fun _ _ _ _ _ _ hos hins => absurd hins (hno _ _ _ _ _ _ hos)
  | @inserted o₁ o₂ rest decision codes raw fp h' result hos hins hworld hadds hrun =>
    rcases hrun.2 with ⟨event, hlogs, hreturned, -⟩ | ⟨hno, hfails, hsame⟩
    · refine iff_of_true (fun hfails => absurd hreturned (hfails _)) ?_
      intro o₁' o₂' rest' decision' codes' raw' hos' hins'
      obtain ⟨rfl, rfl, rfl⟩ : o₁ = o₁' ∧ o₂ = o₂' ∧ rest = rest' := by simpa using hos.symm.trans hos'
      obtain ⟨rfl, rfl, rfl⟩ : decision = decision' ∧ codes = codes' ∧ raw = raw' := by
        simpa using hins.read.symm.trans hins'.read
      rw [hworld] at hlogs
      exact ⟨event, hlogs⟩
    · refine iff_of_false (fun h => ?_) fun h => ?_
      · have hpathways := h hfails
        have hstate : ∀ q, (lastCall py order calls c os).2.world.state q =
            (sequential py order calls).world.state q := fun q => by
          rw [World.state, hpathways, World.state]
        have hthere := hstate d.pathwayId
        rw [hins.absent, show (lastCall py order calls c os).2.world = _ from hsame, hworld,
          World.state_create, if_pos rfl] at hthere
        cases hthere
      · obtain ⟨event, hlogs⟩ := h o₁ o₂ rest decision codes raw hos hins
        refine hno event ?_
        rw [hworld]
        exact hlogs

/-- What the last call inserts is opened by it. -/
theorem lastCall_opened {c : Call} {os : List Oracle} (hreg : ∀ d key, c.method = .register d key →
      Registrable py c.policy (sequential py order calls).world d key os ∧
        c.policy.sensitive py (.utf8 "state") = false)
    {m : Record} {new : List Record}
    (hnew : (lastCall py order calls c os).2.trace = new ++ (sequential py order calls).trace)
    (hm : m ∈ new) (hs : m.step.created = some (p, s)) :
    Opened ((lastCall py order calls c os).2.world.log p) s := by
  obtain ⟨new', hnew', -, hsteps⟩ := lastCall_trace py order calls c os
  obtain rfl : new = new' := List.append_cancel_right (hnew.symm.trans hnew')
  obtain ⟨d, key, hc⟩ : ∃ d key, c.method = .register d key := by
    obtain ⟨_, _, _, -, -, -, hj, -⟩ := lastCall_moment (hsteps ▸ List.mem_map_of_mem hm)
    obtain ⟨d, fp, key, s', hstep, -⟩ := Step.created_eq_some hs
    rw [hstep] at hj
    obtain ⟨key', _, _, _, _, hc, -⟩ := (hj : Registers _ _ _ _)
    exact ⟨d, key', hc⟩
  obtain ⟨hregistrable, hpolicy⟩ := hreg d key hc
  have hrun : RegisterRun py c.policy d key os (sequential py order calls) (lastCall py order calls c os) :=
    run_register hc
  cases hrun with
  | idle hno hworld hadds =>
    obtain ⟨added, hadded, hnone⟩ := hadds
    obtain rfl : new = added := List.append_cancel_right (hnew.symm.trans hadded)
    rcases hnone m hm with h | h <;> rw [hs] at h <;> cases h
  | @inserted o₁ o₂ rest decision codes raw fp h' result hos hins hworld hadds hrun =>
    -- The step is the insertion of the registered pathway.
    obtain ⟨rfl, rfl⟩ : p = d.pathwayId ∧ s = registeredState d decision := by
      obtain ⟨first, hfirst, hinsert⟩ := hadds
      obtain ⟨second, hsecond, hnone⟩ := hrun.1
      rw [hfirst, ← List.append_assoc] at hsecond
      obtain rfl : new = second ++ first := List.append_cancel_right (hnew.symm.trans hsecond)
      have hcreated : m.step.created = none ∨
          m.step.created = some (d.pathwayId, registeredState d decision) := by
        rcases List.mem_append.mp hm with hm | hm
        · exact .inl ((hnone m hm).elim id id)
        · exact hinsert m hm
      rw [hs] at hcreated
      simpa using hcreated
    rcases hrun.2 with ⟨event, hlogs, -, hpush⟩ | ⟨hno, -, -⟩
    · obtain ⟨hid, hopened⟩ := hlogs.opens hpolicy
      have hempty := log_unregistered (sequential_reach py order calls).1 hins.absent
      rw [hpush, hworld, World.log_push, if_pos hid, World.log_create, hempty]
      exact hopened
    · obtain ⟨event, hlogs⟩ := hregistrable o₁ o₂ rest decision codes raw hos hins
      refine absurd ?_ (hno event)
      rw [hworld]
      exact hlogs

/-- The log of every pathway begins with its registration. -/
theorem opened_of_registrable (hreg : ∀ older c os newer d key, calls = older ++ (c, os) :: newer →
      c.method = .register d key → Registrable py c.policy (sequential py order older).world d key os ∧
        c.policy.sensitive py (.utf8 "state") = false)
    (hp : InsertedAs (sequential py order calls).trace p s) :
    Opened ((sequential py order calls).world.log p) s := by
  induction calls using List.reverseRecOn with
  | nil =>
    obtain ⟨m, hm, -⟩ := hp
    cases hm
  | append_singleton calls call ih =>
    obtain ⟨c, os⟩ := call
    obtain ⟨new, hnew, -⟩ := lastCall_trace py order calls c os
    obtain ⟨m, hm, hs⟩ := hp
    rw [← lastCall_hist, hnew] at hm
    rcases List.mem_append.mp hm with hm | hm
    · rw [← lastCall_hist]
      exact lastCall_opened (fun d key hc => hreg calls c os [] d key rfl hc) hnew hm hs
    · refine Running.induct (motive := fun w => Opened (w.log p) s) (ih ?_ ⟨m, hm, hs⟩)
        fun tr w step _ hw _ _ => ?_
      · intro older c' os' newer d key heq hc
        exact hreg older c' os' (newer ++ [(c, os)]) d key (by rw [heq]; simp) hc
      · obtain ⟨newer, hgrows⟩ := step.log_grows w p
        rw [hgrows]
        exact hw.append

end Opened

/-- **When registration is atomic.** A registration that raises or crashes leaves no pathway behind
exactly when an insertion is followed by its event. When that is so for every registration of a run, and
the policies keep the state readable, the log of every stored pathway begins with the registration that
records the state it was inserted with. -/
theorem register_atomic (py : Platform) (order : Option RowOrder) (calls : List (Call × List Oracle)) :
    (∀ (c : Call) (os : List Oracle) (d : PathwayDefinition) (key : String), c.method = .register d key →
      (((∀ r, (lastCall py order calls c os).1 ≠ .returned r) →
        (lastCall py order calls c os).2.world.pathways = (sequential py order calls).world.pathways) ↔
      Registrable py c.policy (sequential py order calls).world d key os)) ∧
    ((∀ older c os newer d key, calls = older ++ (c, os) :: newer → c.method = .register d key →
      Registrable py c.policy (sequential py order older).world d key os ∧
        c.policy.sensitive py (.utf8 "state") = false) →
    ∀ p, ((sequential py order calls).world.state p).isSome →
      (∃ s, InsertedAs (sequential py order calls).trace p s) ∧
      ∀ s, InsertedAs (sequential py order calls).trace p s →
        Opened ((sequential py order calls).world.log p) s) :=
  ⟨fun _ _ _ _ hc => atomic_iff hc, fun hreg _ hp =>
    ⟨stored_inserted (sequential_reach py order calls).1 hp, fun _ hs => opened_of_registrable hreg hs⟩⟩

/-- A registration of a pathway without an approval authority. -/
def registration : Call × List Oracle := (Method.register (.sample none) "reg").answered {}

theorem register_atomic_approved :
    Opened ((sequential .sample none [registration]).world.log "p") .approved := by
  have hrun : ((lastCall .sample none [] registration.1 registration.2).1.ended = true ∧
      (lastCall .sample none [] registration.1 registration.2).1.raises = false) ∧
      ((sequential .sample none [registration]).world.state "p").isSome = true ∧
      ∃ m ∈ (sequential .sample none [registration]).trace, m.step.created = some ("p", .approved) := by
    decide +kernel
  obtain ⟨⟨hended, hraises⟩, hstored, hinserted⟩ := hrun
  have hregistrable := ((register_atomic .sample none []).1 registration.1 registration.2 (.sample none)
    "reg" rfl).mp fun hfails => by
      cases hout : (lastCall .sample none [] registration.1 registration.2).1 with
      | returned r => exact absurd hout (hfails r)
      | raised e => rw [hout] at hraises; cases hraises
      | crashed => rw [hout] at hended; cases hended
  refine ((register_atomic .sample none [registration]).2 ?_ "p" hstored).2 .approved hinserted
  intro older c os newer d key heq hc
  obtain ⟨rfl, heq', rfl⟩ : older = [] ∧ (c, os) = registration ∧ newer = [] := by
    rcases List.singleton_eq_append_iff.mp heq with ⟨rfl, h⟩ | ⟨-, h⟩
    · simpa using h
    · cases h
  obtain ⟨rfl, rfl⟩ := Prod.mk.inj heq'
  obtain ⟨rfl, rfl⟩ := Method.register.inj hc
  exact ⟨hregistrable, by decide⟩

/-- A registration whose evaluator returns evidence nested deeper than the evidence log stores. -/
def deepRegistration : Call × List Oracle :=
  (Method.register (.sample none) "reg").answered { rpe := .returned .allow [] (some deepEvidence) }

/-- **A registration that raises leaves its pathway behind**, without any event. -/
theorem register_torn : ¬ ∀ (py : Platform) (order : Option RowOrder)
    (calls : List (Call × List Oracle)) (c : Call) (os : List Oracle) (d : PathwayDefinition)
    (key : String), c.method = .register d key →
    (∀ r, (lastCall py order calls c os).1 ≠ .returned r) →
      (lastCall py order calls c os).2.world.pathways = (sequential py order calls).world.pathways := by
  intro h
  have hrun : (lastCall .sample none [] deepRegistration.1 deepRegistration.2).1.raises = true ∧
      (lastCall .sample none [] deepRegistration.1 deepRegistration.2).2.world.state "p" =
        some .approved := by
    decide +kernel
  obtain ⟨hraises, hstate⟩ := hrun
  obtain ⟨e, he⟩ := Outcome.raises_eq_true hraises
  have hsame := h .sample none [] deepRegistration.1 deepRegistration.2 (.sample none) "reg" rfl
    (fun r hr => by rw [he] at hr; cases hr)
  rw [World.state, hsame] at hstate
  cases hstate

end Rpr
