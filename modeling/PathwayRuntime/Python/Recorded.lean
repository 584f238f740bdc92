import PathwayRuntime.Python.Exception

/-!
# Computations that raise, and record what they call

* `Raises`: everything a computation raises is of some kind; `raises_bind`.
* `Recording`: a computation over the calls made so far; `run_bind`, `run_tryCatch`.
* `Does`: what a computation returns or raises, and the calls it adds.
-/

set_option autoImplicit false

namespace Rpr

/-! ## What is raised -/

section Raises

variable {ε α β : Type} {P : ε → Prop}

/-- Everything the computation raises is of this kind. -/
def Raises (P : ε → Prop) (x : Except ε α) : Prop := ∀ e, x = .error e → P e

theorem raises_ok (a : α) : Raises P (.ok a : Except ε α) := fun _ h => (nomatch h)

@[simp] theorem raises_error {e : ε} : Raises P (.error e : Except ε α) ↔ P e :=
  ⟨fun h => h e rfl, fun h _ he => Except.error.inj he ▸ h⟩

/-- **A sequence raises what its parts raise**, as far as it gets. -/
theorem raises_bind {x : Except ε α} {f : α → Except ε β} :
    Raises P (x >>= f) ↔ Raises P x ∧ ∀ a, x = .ok a → Raises P (f a) := by
  cases x with
  | error e =>
    have hbind : (.error e >>= f : Except ε β) = .error e := rfl
    rw [hbind, raises_error, raises_error]
    exact (and_iff_left fun _ h => (nomatch h)).symm
  | ok a => exact ⟨fun h => ⟨raises_ok a, fun a' ha => Except.ok.inj ha ▸ h⟩, fun h => h.2 a rfl⟩

theorem Raises.bind {x : Except ε α} {f : α → Except ε β} (hx : Raises P x) (hf : ∀ a, x = .ok a → Raises P (f a)) :
    Raises P (x >>= f) := raises_bind.mpr ⟨hx, hf⟩

theorem Raises.imp {Q : ε → Prop} {x : Except ε α} (h : Raises P x) (hPQ : ∀ e, P e → Q e) : Raises Q x :=
  fun e he => hPQ e (h e he)

end Raises

/-! ## What is recorded -/

/-- A computation that may raise, over the calls made so far. -/
abbrev Recording (C : Type) : Type → Type := ExceptT PyException (StateM (List C))

section Recording

variable {C α β : Type} {p : Recording C α} {new new' : List C}

theorem run_bind (p : Recording C α) (f : α → Recording C β) (calls : List C) : (p >>= f).run calls =
    match p.run calls with
    | (.ok a, calls) => (f a).run calls
    | (.error e, calls) => (.error e, calls) := by
  rcases h : p.run calls with ⟨e | a, calls⟩
  · exact congrArg (fun r : Except PyException α × List C => ExceptT.bindCont f r.1 r.2) h
  · exact congrArg (fun r : Except PyException α × List C => ExceptT.bindCont f r.1 r.2) h

theorem run_tryCatch (p : Recording C α) (f : PyException → Recording C α) (calls : List C) :
    (tryCatch p f).run calls =
    match p.run calls with
    | (.ok a, calls) => (.ok a, calls)
    | (.error e, calls) => (f e).run calls := by
  rcases h : p.run calls with ⟨e | a, calls⟩
  all_goals
    simp only [tryCatch, tryCatchThe, MonadExceptOf.tryCatch, ExceptT.tryCatch, ExceptT.run, ExceptT.mk, bind,
      StateT.bind]
    rw [ExceptT.run] at h
    rw [h]
  · rfl

/-- The computation ends in `x` and adds these calls. -/
def Does (p : Recording C α) (x : Except PyException α) (new : List C) : Prop :=
  ∀ calls, p.run calls = (x, calls ++ new)

theorem Does.bind {f : α → Recording C β} {a : α} {x : Except PyException β} (h : Does p (.ok a) new)
    (hf : Does (f a) x new') : Does (p >>= f) x (new ++ new') := by
  intro calls
  rw [run_bind, h, ← List.append_assoc]
  exact hf _

theorem Does.bind_error {f : α → Recording C β} {e : PyException} (h : Does p (.error e) new) :
    Does (p >>= f) (.error e) new := by
  intro calls
  rw [run_bind, h]

theorem Does.tryCatch {f : PyException → Recording C α} {a : α} (h : Does p (.ok a) new) :
    Does (tryCatch p f) (.ok a) new := by
  intro calls
  rw [run_tryCatch, h]

theorem Does.tryCatch_error {f : PyException → Recording C α} {e : PyException} {x : Except PyException α}
    (h : Does p (.error e) new) (hf : Does (f e) x new') : Does (MonadExcept.tryCatch p f) x (new ++ new') := by
  intro calls
  rw [run_tryCatch, h, ← List.append_assoc]
  exact hf _

theorem does_pure (a : α) : Does (pure a : Recording C α) (.ok a) [] := fun calls => by rw [List.append_nil]; rfl

theorem does_throw (e : PyException) : Does (throw e : Recording C α) (.error e) [] := fun calls => by
  rw [List.append_nil]
  rfl

/-- A call is recorded first. -/
theorem Does.recorded {c : C} {x : Except PyException α} (h : Does p x []) :
    Does (do modify fun calls => calls ++ [c]; p) x [c] := fun calls => by
  rw [run_bind]
  exact (h _).trans (by rw [List.append_nil])

end Recording

end Rpr
