import PathwayRuntime.Resume.Machine

/-!
# A resource taken once and used by its taker

Some steps **take** a key and some **use** one. When a key once held stays held, taking needs a key
that is not held, and a call uses a key only after it took it and only once, no key is used twice,
however the calls interleave and wherever they crash.

* `Machine.Single`: these conditions on a machine and a guard.
* **`Machine.Single.uses_nodup`**: the keys used along a guarded trace are different.
-/

set_option autoImplicit false

namespace Resume

namespace Machine

variable {Op : Type} {Res : Op → Type} {W O L C K : Type}

/-- Keys are held for good, taken when free, and used once by the call that took them. -/
structure Single (M : Machine Op Res W O L) (guard : C → List L → L → Prop) (held : W → K → Prop)
    (takes uses : L → Option K) : Prop where
  kept : ∀ op o w k, held w k → held (M.exec op o w).2 k
  free : ∀ op o w k, takes (M.label op (M.exec op o w).1) = some k →
    ¬ held w k ∧ held (M.exec op o w).2 k
  taken : ∀ c own s k, guard c own s → uses s = some k →
    (∃ s' ∈ own, takes s' = some k) ∧ ∀ s' ∈ own, uses s' = none

variable {M : Machine Op Res W O L} {guard : C → List L → L → Prop} {held : W → K → Prop}
  {takes uses : L → Option K} {w₀ w : W} {tr : List (Entry C W L)}

/-- A key that was taken is held. -/
theorem Single.held_of_taken (hs : M.Single guard held takes uses) (h : M.Guarded guard w₀ tr w) :
    ∀ e ∈ tr, ∀ k, takes e.step = some k → held w k := by
  induction h with
  | nil => exact fun e he => absurd he List.not_mem_nil
  | cons h t c op o hc hg ih =>
    intro e he k hk
    rcases List.mem_cons.mp he with rfl | he
    · exact (hs.free op o _ k hk).2
    · exact hs.kept op o _ k (ih e he k hk)

/-- One call takes a key. -/
theorem Single.taker_unique (hs : M.Single guard held takes uses) (h : M.Guarded guard w₀ tr w) :
    ∀ e ∈ tr, ∀ e' ∈ tr, ∀ k, takes e.step = some k → takes e'.step = some k → e.tid = e'.tid := by
  induction h with
  | nil => exact fun e he => absurd he List.not_mem_nil
  | @cons tr w h t c op o hc hg ih =>
    -- The newest entry takes a free key, so no older entry took it.
    have hnew : ∀ e ∈ tr, ∀ k, takes (M.label op (M.exec op o w).1) = some k →
        takes e.step ≠ some k :=
      fun e he k hk hk' => (hs.free op o _ k hk).1 (hs.held_of_taken h e he k hk')
    intro e he e' he' k hk hk'
    rcases List.mem_cons.mp he with rfl | he <;> rcases List.mem_cons.mp he' with rfl | he'
    · rfl
    · exact absurd hk' (hnew e' he' k hk)
    · exact absurd hk (hnew e he k hk')
    · exact ih e he e' he' k hk hk'

/-- **No key is used twice.** -/
theorem Single.uses_nodup (hs : M.Single guard held takes uses) (h : M.Guarded guard w₀ tr w) :
    (tr.filterMap fun e => uses e.step).Nodup := by
  induction h with
  | nil => exact List.nodup_nil
  | @cons tr w h t c op o hc hg ih =>
    rw [List.filterMap_cons]
    cases hu : uses (M.label op (M.exec op o w).1) with
    | none => simpa only [hu] using ih
    | some k =>
      simp only
      refine List.nodup_cons.mpr ⟨fun hmem => ?_, ih⟩
      obtain ⟨e, he, hek⟩ := List.mem_filterMap.mp hmem
      obtain ⟨⟨s, hsown, hstake⟩, hunused⟩ := hs.taken c (own t tr) _ k hg hu
      obtain ⟨e₁, he₁, htid₁, rfl⟩ := mem_own.mp hsown
      -- The earlier use was made by a call that took the key before: the same call.
      obtain ⟨newer, older, rfl⟩ := List.append_of_mem he
      obtain ⟨-, hge⟩ := h.of_append
      obtain ⟨⟨s₂, hs₂own, hs₂take⟩, -⟩ := hs.taken _ _ _ k hge hek
      obtain ⟨e₂, he₂, htid₂, rfl⟩ := mem_own.mp hs₂own
      have hsame : e₁.tid = e₂.tid := hs.taker_unique h e₁ he₁ e₂ (by simp [he₂]) k hstake hs₂take
      have hown : e.step ∈ own t (newer ++ e :: older) :=
        mem_own.mpr ⟨e, he, by rw [← htid₂, ← hsame, htid₁], rfl⟩
      rw [hunused e.step hown] at hek
      cases hek

end Machine

end Resume
