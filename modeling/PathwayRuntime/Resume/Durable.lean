import PathwayRuntime.Resume.Solo

/-!
# Programs that may be cut short at any operation

What a program leaves behind wherever it is abandoned.

* `Prog.issue`: an operation that may raise.
* `Machine.Durable P Q p w`: run from `w`, the program `p` can only be cut short in worlds that satisfy `P`, and it ends
  in `Q`.
* `Durable.mono`, `Durable.bind`, `Durable.issue`: the rules.
* **`durable_run`**, **`durable_sessions`**: one run, and runs one after another.
-/

set_option autoImplicit false

namespace Resume

variable {Op : Type} {W O L C E α β : Type}

/-- An operation that may raise. -/
def Prog.issue {T : Op → Type} (op : Op) : Prog Op (fun op => Except E (T op)) E (T op) :=
  .call op Prog.ofExcept

variable {Res : Op → Type}

/-- How a run left the world: cut short in `P`, or ended in `Q`. -/
def Outcome.Leaves (P : W → Prop) (Q : Except E α → W → Prop) (w : W) : Outcome E α → Prop
  | .returned a => Q (.ok a) w
  | .raised e => Q (.error e) w
  | .crashed => P w

namespace Machine

/-- The program is only cut short in `P`, and ends in `Q`. -/
def Durable (M : Machine Op Res W O L) (P : W → Prop) (Q : Except E α → W → Prop) : Prog Op Res E α → W → Prop
  | .ret a, w => Q (.ok a) w
  | .raise e, w => Q (.error e) w
  | .call op k, w => P w ∧ ∀ o, Durable M P Q (k (M.exec op o w).1) (M.exec op o w).2

variable {M : Machine Op Res W O L} {P P' : W → Prop}

theorem Durable.mono {Q Q' : Except E α → W → Prop} {p : Prog Op Res E α} {w : W} (h : M.Durable P Q p w)
    (hP : ∀ w', P w' → P' w') (hQ : ∀ x w', Q x w' → Q' x w') : M.Durable P' Q' p w := by
  induction p generalizing w with
  | ret a => exact hQ _ _ h
  | raise e => exact hQ _ _ h
  | call op k ih => exact ⟨hP _ h.1, fun o => ih _ (h.2 o)⟩

/-- **Sequencing.** The second program starts where the first one returned. -/
theorem Durable.bind {Q : Except E α → W → Prop} {Q' : Except E β → W → Prop} {p : Prog Op Res E α}
    {f : α → Prog Op Res E β} {w : W} (h : M.Durable P Q p w)
    (hok : ∀ a w', Q (.ok a) w' → M.Durable P Q' (f a) w') (herr : ∀ e w', Q (.error e) w' → Q' (.error e) w') :
    M.Durable P Q' (p >>= f) w := by
  induction p generalizing w with
  | ret a => exact hok a w h
  | raise e => exact herr e w h
  | call op k ih => exact ⟨h.1, fun o => ih _ (h.2 o)⟩

/-- The last part of a program. -/
theorem Durable.last {Q : Except E α → W → Prop} {p : Prog Op Res E α} {w : W} (h : M.Durable P Q (p >>= pure) w) :
    M.Durable P Q p w := by
  rwa [Prog.bind_eq, show (pure : α → Prog Op Res E α) = Prog.ret from rfl, Prog.bind_ret] at h

/-- After a computation that issues no operation. -/
theorem Durable.ofExcept {Q : Except E β → W → Prop} {x : Except E α} {f : α → Prog Op Res E β} {w : W}
    (hok : ∀ a, x = .ok a → M.Durable P Q (f a) w) (herr : ∀ e, x = .error e → Q (.error e) w) :
    M.Durable P Q (Prog.ofExcept x >>= f) w := by
  cases x with
  | ok a => exact hok a rfl
  | error e => exact herr e rfl

/-- **A run** that was cut short ended in `P`, and any other one in `Q`. -/
theorem durable_run {t : ℕ} {c : C} {Q : Except E α → W → Prop} {p : Prog Op Res E α} {h : Hist C W L}
    (hp : M.Durable P Q p h.world) (os : List O) :
    Outcome.Leaves P Q (M.run t c p os h).2.world (M.run t c p os h).1 := by
  induction p generalizing os h with
  | ret a | raise e => cases os <;> exact hp
  | call op k ih =>
    cases os with
    | nil => exact hp.1
    | cons o os => exact ih _ (h := (M.advance t c op o h).2) (hp.2 o) os

/-- **Runs one after another**, where each of them keeps a fact wherever it is cut short. -/
theorem durable_sessions {body : C → Prog Op Res E α} {calls : List (C × List O)}
    (hbody : ∀ call ∈ calls, ∀ w, P w → M.Durable P (fun _ => P) (body call.1) w) {t : ℕ} {h : Hist C W L}
    (hh : P h.world) : P (M.sessions body t calls h).world := by
  induction calls generalizing t h with
  | nil => exact hh
  | cons call rest ih =>
    obtain ⟨hcall, hrest⟩ := List.forall_mem_cons.mp hbody
    refine ih hrest ?_
    have hleaves := durable_run (t := t) (c := call.1) (hcall _ hh) call.2
    cases hrun : (M.run t call.1 (body call.1) call.2 h).1 <;> rw [hrun] at hleaves <;> exact hleaves

end Machine

section Issue

variable {T : Op → Type} {M : Machine Op (fun op => Except E (T op)) W O L} {P : W → Prop}

/-- An operation that may raise: the rest starts where it succeeded. -/
theorem Machine.Durable.issue {Q : Except E β → W → Prop} {op : Op} {f : T op → Prog Op (fun op => Except E (T op)) E β}
    {w : W} (hP : P w) (hok : ∀ o a w', M.exec op o w = (.ok a, w') → M.Durable P Q (f a) w')
    (herr : ∀ o e w', M.exec op o w = (.error e, w') → Q (.error e) w') : M.Durable P Q (Prog.issue op >>= f) w := by
  refine ⟨hP, fun o => ?_⟩
  have hexec : ∀ x w', M.exec op o w = (x, w') → M.Durable P Q ((Prog.ofExcept x).bind f) w' := by
    intro x w' h
    cases x with
    | ok a => exact hok o a w' h
    | error e => exact herr o e w' h
  exact hexec _ _ rfl

end Issue

end Resume
