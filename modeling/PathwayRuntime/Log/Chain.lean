import PathwayRuntime.Trace.Reach

/-!
# The evidence chain

* `Undisturbed`: between the read of the latest hash and the insertion of the event built from it,
  no other event of the pathway is inserted.
* **`chain_valid`**: in every undisturbed interleaving `verify_evidence` accepts every pathway.
* `chain_broken`: a registration and a transition that interleave leave a log that is rejected.
-/

set_option autoImplicit false

namespace Rpr

open Resume

/-- The event a step inserted. -/
def Step.inserted : Step → Option EvidenceEvent
  | .transitionWithEvent _ _ _ e (.ok ()) => some e
  | .appendEvent e (.ok ()) => some e
  | _ => none

/-- The step reads the latest hash of a pathway. -/
def Step.readsHash : Step → Bool
  | .latestEventHash _ _ => true
  | _ => false

theorem Step.readsHash_eq_false {s : Step} (h : ∀ p h', s ≠ .latestEventHash p h') : s.readsHash = false := by
  cases s with
  | latestEventHash p h' => exact absurd rfl (h p h')
  | _ => rfl

/-- Between a call's last read of the latest hash and its insertion of an event, no other event of
that pathway is inserted. -/
def Undisturbed (tr : List Record) : Prop :=
  ∀ newer x mid r older e h, tr = newer ++ x :: (mid ++ r :: older) → x.step.inserted = some e →
    r.tid = x.tid → r.step = .latestEventHash e.pathwayId h →
    (∀ m ∈ mid, m.tid = x.tid → ∀ p h', m.step ≠ .latestEventHash p h') →
    ∀ m ∈ mid, ∀ e', m.step.inserted = some e' → e'.pathwayId ≠ e.pathwayId

theorem Undisturbed.tail {e : Record} {tr : List Record} (h : Undisturbed (e :: tr)) :
    Undisturbed tr :=
  fun newer x mid r older ev hash htr => h (e :: newer) x mid r older ev hash (by rw [htr]; rfl)

section Chain

variable {py : Platform} {order : Option RowOrder} {tr : List Record} {w : World} {p : String}

/-- What is inserted into the log of a pathway, and what is not. -/
theorem log_effect {c : Call} {o : Own} {s : Step} (hj : Justified py c o s)
    (ha : s.Answers py order w) : (∃ e, s.inserted = some e ∧ e.pathwayId = p ∧
      (s.effect w).log p = e :: w.log p) ∨ (s.effect w).log p = w.log p := by
  cases pathway_cases hj ha p with
  | created => exact .inr rfl
  | committed hcommit _ _ hlog => exact .inl ⟨_, rfl, hcommit.pathwayId, hlog⟩
  | appended _ hp hlog => exact .inl ⟨_, rfl, hp, hlog⟩
  | untouched _ _ hlog => exact .inr hlog

/-- A log nobody inserts into stays as it was read. -/
theorem log_undisturbed {mid older : List Record} {r : Record} {h : Option String}
    (hreach : Reach py order (mid ++ r :: older) w) (hr : r.step = .latestEventHash p h)
    (hmid : ∀ m ∈ mid, ∀ e, m.step.inserted = some e → e.pathwayId ≠ p) :
    w.log p = r.before.log p ∧ h = headHash (r.before.log p) := by
  have hread : h = headHash (r.before.log p) := by
    have := hreach.answers
    rw [hr] at this
    exact this
  refine ⟨?_, hread⟩
  induction mid generalizing w with
  | nil =>
    rw [hreach.of_cons.2.2.2, hr]
    rfl
  | cons m mid ih =>
    obtain ⟨hbefore, hj, ha, hw⟩ := hreach.of_cons
    rw [← ih hbefore fun m' hm' => hmid m' (List.mem_cons_of_mem _ hm'), hw]
    rcases log_effect (p := p) hj ha with ⟨e, hins, hid, -⟩ | hlog
    · exact absurd hid (hmid m List.mem_cons_self e hins)
    · exact hlog

/-- An inserted event was built by its call. -/
theorem inserted_sealed {c : Call} {o : Own} {s : Step} (hj : Justified py c o s) {e : EvidenceEvent}
    (hs : s.inserted = some e) :
    ∃ ty actor payload base, Sealed py c.policy e.pathwayId ty actor payload base o e := by
  cases s
  case transitionWithEvent q cur target e' r =>
    rcases r with err | ⟨⟩
    · cases hs
    · obtain rfl : e' = e := Option.some.inj hs
      obtain ⟨-, ty, actor, more, base, hseal, -⟩ := Commits.edge hj
      exact ⟨ty, actor, _, base, by rw [hseal.fields.1]; exact hseal⟩
  case appendEvent e' r =>
    rcases r with err | ⟨⟩
    · cases hs
    · obtain rfl : e' = e := Option.some.inj hs
      obtain ⟨q, ty, actor, payload, base, -, -, -, hseal⟩ := hj
      exact ⟨ty, actor, payload, base, by rw [hseal.fields.1]; exact hseal⟩
  all_goals cases hs

/-- An inserted event was built from the latest hash its call read. -/
theorem inserted_previous {c : Call} {o : Own} {s : Step} (hj : Justified py c o s)
    {e : EvidenceEvent} (hs : s.inserted = some e) : verifyEvent py e = true ∧
      ∃ u base, o = [.now u] ++ .latestEventHash e.pathwayId e.previousHash :: base := by
  obtain ⟨ty, actor, payload, base, hseal⟩ := inserted_sealed hj hs
  obtain ⟨u, hown⟩ := hseal.previous
  exact ⟨hseal.fields.2.2.2.2, u, base, hown⟩

/-- Every log of an undisturbed history is linked, and its events carry their own hashes. -/
theorem linked_of_reach (h : Reach py order tr w) (hun : Undisturbed tr) :
    Linked (w.log p) ∧ ∀ e ∈ w.log p, verifyEvent py e = true := by
  induction h using Reach.induct with
  | start => exact ⟨trivial, fun e he => by cases he⟩
  | step t c s tr w h ih hj ha h' =>
    obtain ⟨hlinked, hverify⟩ := ih hun.tail
    rcases log_effect (p := p) hj ha with ⟨e, hins, hid, hlog⟩ | hlog
    · obtain ⟨hev, u, base, hown⟩ := inserted_previous hj hins
      rw [hlog]
      refine ⟨⟨?_, hlinked⟩, List.forall_mem_cons.mpr ⟨hev, hverify⟩⟩
      -- Since the call read the latest hash nobody inserted an event of the pathway.
      obtain ⟨mid, r, older, rfl, hrt, hrs, hmid, -⟩ := own_split _ hown
      have hquiet := hun [] ⟨t, c, w, s⟩ mid r older e _ rfl hins hrt hrs (fun m hm hmt q h' hq => by
        have : m.step ∈ own t mid := mem_own.mpr ⟨m, hm, hmt, rfl⟩
        rw [hmid, hq] at this
        simp at this)
      rw [hid] at hquiet hrs
      obtain ⟨hsame, hread⟩ := log_undisturbed h hrs hquiet
      rw [hread, hsame]
    · rw [hlog]
      exact ⟨hlinked, hverify⟩

/-- Calls made one after another do not disturb each other. -/
theorem undisturbed_of_serial (h : Reach py order tr w) (hs : Serial tr) : Undisturbed tr := by
  rintro newer x mid r older e hash rfl hx hrt hrs hlast m hm e' hm'
  obtain ⟨hbefore, hj⟩ := h.of_append
  obtain ⟨-, u, base, hown⟩ := inserted_previous hj hx
  obtain ⟨hle, hrest⟩ := List.pairwise_cons.mp (List.pairwise_append.mp hs).2.1
  have htid : ∀ m ∈ mid, m.tid = x.tid := fun m hm => le_antisymm
    (hle m (List.mem_append_left _ hm))
    (hrt ▸ (List.pairwise_append.mp hrest).2.2 m hm r List.mem_cons_self)
  -- The call made only one step since it read the latest hash.
  cases mid with
  | nil => exact absurd hm List.not_mem_nil
  | cons m₀ mid =>
    have h₀ := htid m₀ List.mem_cons_self
    rw [List.cons_append, ← h₀, own_cons_self, h₀] at hown
    obtain ⟨hnow, hown⟩ := List.cons.inj hown
    cases mid with
    | nil =>
      rw [List.mem_singleton.mp hm, hnow] at hm'
      cases hm'
    | cons m₁ mid =>
      have h₁ := htid m₁ (by simp)
      rw [List.cons_append, ← h₁, own_cons_self, h₁] at hown
      exact absurd (List.cons.inj hown).1 (hlast m₁ (by simp) h₁ _ _)

end Chain

/-- **The evidence chain stays valid under concurrency**, in every interleaving whose insertions are
undisturbed, with crashes: `verify_evidence` accepts every pathway. -/
theorem chain_valid (py : Platform) (order : Option RowOrder) (calls : List (Call × List Oracle))
    (acts : List (Machine.Action Call Oracle))
    (hun : Undisturbed (interleaved py order calls acts).trace) (p : String) :
    (verifyChain py ((interleaved py order calls acts).world.log p).reverse).1 = true :=
  verifyChain_valid.mpr (linked_of_reach (interleaved_reach py order calls acts) hun).symm

/-- No event of the pathway was inserted since the call last read a latest hash. -/
def undisturbedSince (t : ℕ) (p : String) : List Record → Bool
  | [] => true
  | m :: tr =>
    if m.tid = t ∧ m.step.readsHash = true then true
    else (m.step.inserted.all fun e => e.pathwayId ≠ p) && undisturbedSince t p tr

def undisturbed : List Record → Bool
  | [] => true
  | x :: tr => (x.step.inserted.all fun e => undisturbedSince x.tid e.pathwayId tr) && undisturbed tr

theorem undisturbedSince_eq_true {t : ℕ} {p : String} {mid rest : List Record}
    (h : undisturbedSince t p (mid ++ rest) = true) (hmid : ∀ m ∈ mid, m.tid = t → m.step.readsHash = false) :
    ∀ m ∈ mid, ∀ e, m.step.inserted = some e → e.pathwayId ≠ p := by
  induction mid with
  | nil => exact fun m hm => absurd hm List.not_mem_nil
  | cons m mid ih =>
    have hm : ¬ (m.tid = t ∧ m.step.readsHash = true) := fun hread => by
      rw [hmid m List.mem_cons_self hread.1] at hread
      exact Bool.false_ne_true hread.2
    rw [List.cons_append, undisturbedSince, if_neg hm, Bool.and_eq_true] at h
    refine List.forall_mem_cons.mpr ⟨fun e he => ?_, ih h.2 fun m' hm' => hmid m' (List.mem_cons_of_mem _ hm')⟩
    rw [he] at h
    simpa using h.1

theorem undisturbed_of_eq_true {tr : List Record} (h : undisturbed tr = true) : Undisturbed tr := by
  rintro newer x mid r older e hash rfl hx - - hmid
  induction newer with
  | nil =>
    rw [List.nil_append, undisturbed, hx, Bool.and_eq_true] at h
    refine undisturbedSince_eq_true h.1 fun m hm htid => Step.readsHash_eq_false (hmid m hm htid)
  | cons y newer ih =>
    rw [List.cons_append, undisturbed, Bool.and_eq_true] at h
    exact ih h.2

theorem chain_valid_approval :
    (verifyChain .sample ((interleaved .sample none awaitingCalls approvalRace).world.log "p").reverse).1 = true :=
  chain_valid .sample none awaitingCalls approvalRace (undisturbed_of_eq_true (by decide +kernel)) "p"

/-- A registration and a transition whose reads of the latest hash and insertions interleave. -/
def raceOnTheHash : List (Machine.Action Call Oracle) :=
  [.invoke ⟨.default, .register (.sample (some "approver")) "reg"⟩,
    .step 0 {}, .step 0 {}, .step 0 {}, .step 0 {},
    .invoke ⟨.default, .transition "p" .approved "approver" "ok"⟩,
    .step 1 {}, .step 1 {}, .step 1 {}, .step 1 {}, .step 1 {}, .step 0 {}]

/-- **Without the condition the chain breaks**: the registration inserts its event behind the
transition it did not see. -/
theorem chain_broken : ¬ ∀ (py : Platform) (order : Option RowOrder) (calls : List (Call × List Oracle))
    (acts : List (Machine.Action Call Oracle)) (p : String),
    (verifyChain py ((interleaved py order calls acts).world.log p).reverse).1 = true :=
  fun h => absurd (h .sample none [] raceOnTheHash "p") (by decide +kernel)

end Rpr
