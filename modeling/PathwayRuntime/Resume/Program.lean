import Mathlib.Data.List.Basic

/-!
# Programs over atomic operations

A program issues **atomic operations** one at a time and continues with each response; it ends by
returning a value or by raising an error. Between two operations of one program other programs may
run, and a program may be abandoned at any operation. Nothing is said here about what the
operations do.

* `Prog`: programs; `Prog.bind`, `Prog.tryCatch`, `Prog.ofExcept`.
* `Prog.Traced G own Q p`: whatever the responses, every step of `p` satisfies the guard `G` on the
  steps made before it, and `p` ends in `Q`. The rules `traced_bind` and `traced_tryCatch` follow
  the shape of the program.
-/

set_option autoImplicit false

namespace Resume

/-- A program over the operations `Op`, raising `E` and returning `α`. -/
inductive Prog (Op : Type) (Res : Op → Type) (E α : Type) : Type
  | ret (a : α)
  | raise (e : E)
  | call (op : Op) (k : Res op → Prog Op Res E α)

variable {Op : Type} {Res : Op → Type} {E α β L : Type}

namespace Prog

/-- Run `f` on the value of a program; an error skips `f`. -/
def bind : Prog Op Res E α → (α → Prog Op Res E β) → Prog Op Res E β
  | ret a, f => f a
  | raise e, _ => raise e
  | call op k, f => call op fun r => (k r).bind f

/-- Run `f` on the error of a program; a value skips `f`. -/
def tryCatch : Prog Op Res E α → (E → Prog Op Res E α) → Prog Op Res E α
  | ret a, _ => ret a
  | raise e, f => f e
  | call op k, f => call op fun r => (k r).tryCatch f

/-- A computation that issues no operation. -/
def ofExcept : Except E α → Prog Op Res E α
  | .ok a => ret a
  | .error e => raise e

instance : Monad (Prog Op Res E) where
  pure := ret
  bind := bind

theorem bind_eq (p : Prog Op Res E α) (f : α → Prog Op Res E β) : p >>= f = p.bind f := rfl

theorem pure_eq (a : α) : (pure a : Prog Op Res E α) = ret a := rfl

theorem bind_assoc {γ : Type} (p : Prog Op Res E α) (f : α → Prog Op Res E β)
    (g : β → Prog Op Res E γ) : (p.bind f).bind g = p.bind fun a => (f a).bind g := by
  induction p with
  | ret a => rfl
  | raise e => rfl
  | call op k ih => exact congrArg (Prog.call op) (funext ih)

theorem bind_ret (p : Prog Op Res E α) : p.bind ret = p := by
  induction p with
  | ret a => rfl
  | raise e => rfl
  | call op k ih => exact congrArg (Prog.call op) (funext ih)

/-! ## Guards along a program -/

/-- Every step of the program satisfies `G` on its earlier steps, newest first, and the program
ends in `Q`, whatever the responses. -/
def Traced (label : (op : Op) → Res op → L) (G : List L → L → Prop) (Q : Except E α → List L → Prop) :
    Prog Op Res E α → List L → Prop
  | ret a, own => Q (.ok a) own
  | raise e, own => Q (.error e) own
  | call op k, own => ∀ r, G own (label op r) ∧ Traced label G Q (k r) (label op r :: own)

variable {label : (op : Op) → Res op → L} {G : List L → L → Prop}

@[simp] theorem traced_ret (Q : Except E α → List L → Prop) (a : α) (own : List L) :
    Traced label G Q (ret a : Prog Op Res E α) own ↔ Q (.ok a) own := Iff.rfl

@[simp] theorem traced_raise (Q : Except E α → List L → Prop) (e : E) (own : List L) :
    Traced label G Q (raise e : Prog Op Res E α) own ↔ Q (.error e) own := Iff.rfl

@[simp] theorem traced_ofExcept (Q : Except E α → List L → Prop) (x : Except E α) (own : List L) :
    Traced label G Q (ofExcept x : Prog Op Res E α) own ↔ Q x own := by
  cases x <;> rfl

/-- **Sequencing.** The second program is traced from where the first one ended. -/
theorem traced_bind (Q : Except E β → List L → Prop) (p : Prog Op Res E α)
    (f : α → Prog Op Res E β) (own : List L) : Traced label G Q (p.bind f) own ↔
      Traced label G (fun x own' => match x with
        | .ok a => Traced label G Q (f a) own'
        | .error e => Q (.error e) own') p own := by
  induction p generalizing own with
  | ret a => rfl
  | raise e => rfl
  | call op k ih => exact forall_congr' fun r => and_congr Iff.rfl (ih r _)

/-- **Handlers.** The handler is traced from where the program raised. -/
theorem traced_tryCatch (Q : Except E α → List L → Prop) (p : Prog Op Res E α)
    (f : E → Prog Op Res E α) (own : List L) : Traced label G Q (p.tryCatch f) own ↔
      Traced label G (fun x own' => match x with
        | .ok a => Q (.ok a) own'
        | .error e => Traced label G Q (f e) own') p own := by
  induction p generalizing own with
  | ret a => rfl
  | raise e => rfl
  | call op k ih => exact forall_congr' fun r => and_congr Iff.rfl (ih r _)

theorem Traced.mono {Q Q' : Except E α → List L → Prop} {p : Prog Op Res E α} {own : List L}
    (h : Traced label G Q p own) (hQ : ∀ x own', Q x own' → Q' x own') :
    Traced label G Q' p own := by
  induction p generalizing own with
  | ret a => exact hQ _ _ h
  | raise e => exact hQ _ _ h
  | call op k ih => exact fun r => ⟨(h r).1, ih r (h r).2⟩

/-- Sequencing, applied: first trace `p`, then `f` from every end of `p`. -/
theorem Traced.bind {Q : Except E α → List L → Prop} {Q' : Except E β → List L → Prop}
    {p : Prog Op Res E α} {f : α → Prog Op Res E β} {own : List L} (h : Traced label G Q p own)
    (hok : ∀ a own', Q (.ok a) own' → Traced label G Q' (f a) own')
    (herr : ∀ e own', Q (.error e) own' → Q' (.error e) own') :
    Traced label G Q' (p.bind f) own := by
  refine (traced_bind _ _ _ _).mpr (h.mono fun x own' hx => ?_)
  cases x with
  | ok a => exact hok a own' hx
  | error e => exact herr e own' hx

/-- Sequencing after a computation that issues no operation. -/
theorem Traced.ofExcept_bind {Q : Except E β → List L → Prop} {x : Except E α}
    {f : α → Prog Op Res E β} {own : List L} (hok : ∀ a, Traced label G Q (f a) own)
    (herr : ∀ e, Q (.error e) own) : Traced label G Q ((ofExcept x).bind f) own := by
  cases x with
  | ok a => exact hok a
  | error e => exact herr e

end Prog

end Resume
