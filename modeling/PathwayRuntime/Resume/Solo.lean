import PathwayRuntime.Resume.Machine

/-!
# One program run alone

What a program does when nobody interferes, computed backwards from what is asked of its end.

* `Machine.Ensures A G Q p w`: run from `w` in an environment whose steps satisfy `A`, every step of
  `p` satisfies `G` in the world it is made in, and `p` ends in `Q`. A crash is no end.
* `ensures_bind`, `ensures_tryCatch`, `Ensures.mono`, `Ensures.invariant`: the rules.
* **`ensures_run`**: what a run of the program then looks like.
-/

set_option autoImplicit false

namespace Resume

variable {Op : Type} {Res : Op → Type} {W O L C E α β : Type}

/-- What is asked of the end of a run; a crash is no end. -/
def Outcome.Holds (Q : Except E α → W → Prop) (w : W) : Outcome E α → Prop
  | .returned a => Q (.ok a) w
  | .raised e => Q (.error e) w
  | .crashed => True

namespace Machine

/-- While the steps satisfy `A`, each satisfies `G` where it is made and the program ends in `Q`. -/
def Ensures (M : Machine Op Res W O L) (A : L → Prop) (G : W → L → Prop)
    (Q : Except E α → W → Prop) : Prog Op Res E α → W → Prop
  | .ret a, w => Q (.ok a) w
  | .raise e, w => Q (.error e) w
  | .call op k, w => ∀ o, A (M.label op (M.exec op o w).1) →
      G w (M.label op (M.exec op o w).1) ∧ Ensures M A G Q (k (M.exec op o w).1) (M.exec op o w).2

variable {M : Machine Op Res W O L} {A : L → Prop} {G : W → L → Prop}

/-- **Sequencing.** The second program starts where the first one returned. -/
theorem ensures_bind {Q : Except E β → W → Prop} {p : Prog Op Res E α} {f : α → Prog Op Res E β}
    {w : W} : M.Ensures A G Q (p.bind f) w ↔ M.Ensures A G (fun x w' => match x with
      | .ok a => M.Ensures A G Q (f a) w'
      | .error e => Q (.error e) w') p w := by
  induction p generalizing w with
  | ret a => rfl
  | raise e => rfl
  | call op k ih => exact forall_congr' fun o => imp_congr_right fun _ => and_congr_right fun _ => ih _

/-- **Handlers.** The handler starts where the program raised. -/
theorem ensures_tryCatch {Q : Except E α → W → Prop} {p : Prog Op Res E α}
    {f : E → Prog Op Res E α} {w : W} : M.Ensures A G Q (p.tryCatch f) w ↔
      M.Ensures A G (fun x w' => match x with
        | .ok a => Q (.ok a) w'
        | .error e => M.Ensures A G Q (f e) w') p w := by
  induction p generalizing w with
  | ret a => rfl
  | raise e => rfl
  | call op k ih => exact forall_congr' fun o => imp_congr_right fun _ => and_congr_right fun _ => ih _

theorem Ensures.mono {Q Q' : Except E α → W → Prop} {p : Prog Op Res E α} {w : W}
    (h : M.Ensures A G Q p w) (hQ : ∀ x w', Q x w' → Q' x w') : M.Ensures A G Q' p w := by
  induction p generalizing w with
  | ret a => exact hQ _ _ h
  | raise e => exact hQ _ _ h
  | call op k ih => exact fun o ha => ⟨(h o ha).1, ih _ (h o ha).2⟩

/-- Sequencing, applied. -/
theorem Ensures.bind {Q : Except E α → W → Prop} {Q' : Except E β → W → Prop} {p : Prog Op Res E α}
    {f : α → Prog Op Res E β} {w : W} (h : M.Ensures A G Q p w)
    (hok : ∀ a w', Q (.ok a) w' → M.Ensures A G Q' (f a) w')
    (herr : ∀ e w', Q (.error e) w' → Q' (.error e) w') : M.Ensures A G Q' (p.bind f) w := by
  refine ensures_bind.mpr (h.mono fun x w' hx => ?_)
  cases x with
  | ok a => exact hok a w' hx
  | error e => exact herr e w' hx

/-- A fact that every step keeps is enough, whatever the program. -/
theorem Ensures.invariant {Q : Except E α → W → Prop} {I : W → Prop}
    (hstep : ∀ op o w, I w → G w (M.label op (M.exec op o w).1) ∧ I (M.exec op o w).2)
    (hend : ∀ x w, I w → Q x w) {p : Prog Op Res E α} {w : W} (hw : I w) : M.Ensures A G Q p w := by
  induction p generalizing w with
  | ret a => exact hend _ _ hw
  | raise e => exact hend _ _ hw
  | call op k ih => exact fun o _ => ⟨(hstep op o w hw).1, ih _ (hstep op o w hw).2⟩

/-- **A run of a program that ensures `Q`**, in an environment whose steps satisfy `A`. -/
theorem ensures_run {t : ℕ} {c : C} {Q : Except E α → W → Prop} {p : Prog Op Res E α} {os : List O}
    {h : Hist C W L} (hp : M.Ensures A G Q p h.world) {new : List (Entry C W L)}
    (htr : (M.run t c p os h).2.trace = new ++ h.trace) (hA : ∀ e ∈ new, A e.step) :
    (∀ e ∈ new, G e.before e.step) ∧
      Outcome.Holds Q (M.run t c p os h).2.world (M.run t c p os h).1 := by
  induction p generalizing os h new with
  | ret a | raise e =>
    have hnil : new = [] := by
      cases os <;> exact List.append_left_eq_self.mp htr.symm
    subst hnil
    refine ⟨fun e he => absurd he List.not_mem_nil, ?_⟩
    cases os <;> exact hp
  | call op k ih =>
    cases os with
    | nil =>
      have hnil : new = [] := List.append_left_eq_self.mp htr.symm
      subst hnil
      exact ⟨fun e he => absurd he List.not_mem_nil, trivial⟩
    | cons o os =>
      obtain ⟨rest, hrest, -⟩ := M.run_trace (t := t) (c := c) (k (M.exec op o h.world).1) os
        (M.advance t c op o h).2
      obtain rfl : new = rest ++ [⟨t, c, h.world, M.label op (M.exec op o h.world).1⟩] := by
        refine (List.append_left_inj h.trace).mp ?_
        rw [List.append_assoc]
        exact htr.symm.trans hrest
      have hA' := List.forall_mem_append.mp hA
      have hr := hp o (hA'.2 _ List.mem_cons_self)
      obtain ⟨hG, hQ⟩ := ih (M.exec op o h.world).1 hr.2 hrest hA'.1
      exact ⟨List.forall_mem_append.mpr ⟨hG, fun e he => by
        rw [List.mem_singleton.mp he]
        exact hr.1⟩, hQ⟩

end Machine

end Resume
