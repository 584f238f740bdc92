import PathwayRuntime.Resume.Machine

/-!
# Calls under way

* `Prog.After`: what is left of a program after some of its steps.
* `After.traced`: a traced program is traced from wherever it got to.
* `schedule_own`: a call that has ended makes no more steps.
* **`schedule_after`**: every call under way is what is left of its program after its own steps.
-/

set_option autoImplicit false

namespace Resume

variable {Op : Type} {Res : Op → Type} {W O L C E α : Type}

/-- `q` is left of `p` after the steps, newest first. -/
inductive Prog.After (label : (op : Op) → Res op → L) (p : Prog Op Res E α) :
    List L → Prog Op Res E α → Prop
  | start : After label p [] p
  | next {own : List L} {op : Op} {k : Res op → Prog Op Res E α} (h : After label p own (.call op k))
      (r : Res op) : After label p (label op r :: own) (k r)

/-- What is left of a traced program is traced. -/
theorem Prog.After.traced {label : (op : Op) → Res op → L} {G : List L → L → Prop}
    {Q : Except E α → List L → Prop} {p q : Prog Op Res E α} {own : List L} (h : Prog.After label p own q)
    (hp : Prog.Traced label G Q p []) : Prog.Traced label G Q q own := by
  induction h with
  | start => exact hp
  | next h r ih => exact (ih r).2

theorem Prog.Traced.anyway {label : (op : Op) → Res op → L} (p : Prog Op Res E α) (own : List L) :
    Prog.Traced label (fun _ _ => True) (fun _ _ => True) p own := by
  induction p generalizing own with
  | ret a | raise e => trivial
  | call op k ih => exact fun r => ⟨trivial, ih r _⟩

namespace Machine

variable (M : Machine Op Res W O L) (body : C → Prog Op Res E α)

/-- Every call under way is what is left of its program, and numbers from `next` on are unused. -/
structure Pool.Resumes (p : Pool Op Res C W L E α) : Prop where
  threads : ∀ t c q, p.threads t = some (c, q) →
    t < p.next ∧ Prog.After M.label (body c) (own t p.hist.trace) q
  fresh : ∀ e ∈ p.hist.trace, e.tid < p.next

variable {M body}

theorem Pool.Resumes.act {p : Pool Op Res C W L E α} (hp : p.Resumes M body) (a : Action C O) :
    (M.act body p a).Resumes M body := by
  cases a with
  | invoke c =>
    refine ⟨fun t c' q hq => ?_, fun e he => (hp.fresh e he).trans (Nat.lt_succ_self _)⟩
    by_cases ht : t = p.next
    · subst ht
      simp only [Machine.act, Function.update_self, Option.some.injEq, Prod.mk.injEq] at hq
      obtain ⟨rfl, rfl⟩ := hq
      refine ⟨Nat.lt_succ_self _, ?_⟩
      rw [show own p.next (M.act body p (.invoke c)).hist.trace = [] from
        own_eq_nil fun e he => (hp.fresh e he).ne]
      exact .start
    · simp only [Machine.act, Function.update_of_ne ht] at hq
      exact ⟨(hp.threads t c' q hq).1.trans (Nat.lt_succ_self _), (hp.threads t c' q hq).2⟩
  | step t o =>
    simp only [Machine.act]
    split
    · rename_i c op k hk
      obtain ⟨hlt, hafter⟩ := hp.threads t c _ hk
      have hown : own t (M.advance t c op o p.hist).2.trace = _ := own_cons_self _ _
      refine ⟨fun t' c' q hq => ?_, List.forall_mem_cons.mpr ⟨hlt, hp.fresh⟩⟩
      by_cases ht : t' = t
      · subst ht
        simp only [Function.update_self, Option.some.injEq, Prod.mk.injEq] at hq
        obtain ⟨rfl, rfl⟩ := hq
        exact ⟨hlt, hown ▸ hafter.next _⟩
      · simp only [Function.update_of_ne ht] at hq
        refine ⟨(hp.threads t' c' q hq).1, ?_⟩
        rw [show own t' (M.advance t c op o p.hist).2.trace = own t' p.hist.trace from
          own_cons_ne (Ne.symm ht) _]
        exact (hp.threads t' c' q hq).2
    · exact hp
  | crash t =>
    refine ⟨fun t' c q hq => ?_, hp.fresh⟩
    by_cases ht : t' = t
    · subst ht
      simp [Machine.act] at hq
    · simp only [Machine.act, Function.update_of_ne ht] at hq
      exact hp.threads t' c q hq

/-- **Every call under way is what is left of its program after its own steps.** -/
theorem schedule_after {p : Pool Op Res C W L E α} (hp : p.Resumes M body) (acts : List (Action C O)) :
    (M.schedule body p acts).Resumes M body := by
  induction acts generalizing p with
  | nil => exact hp
  | cons a acts ih => exact ih (hp.act a)

theorem Pool.resumes_idle {h : Hist C W L} {n : ℕ} (hn : ∀ e ∈ h.trace, e.tid < n) :
    (Pool.idle h n : Pool Op Res C W L E α).Resumes M body :=
  ⟨fun _ _ _ hq => by simp [Pool.idle] at hq, hn⟩

theorem own_append (t : ℕ) (a b : List (Entry C W L)) : own t (a ++ b) = own t a ++ own t b :=
  List.filterMap_append

/-- A call that has ended makes no more steps. -/
theorem schedule_own {p : Pool Op Res C W L E α} {t : ℕ} (ht : t < p.next)
    (hended : ∀ c op k, p.threads t ≠ some (c, .call op k)) (acts : List (Action C O)) :
    own t (M.schedule body p acts).hist.trace = own t p.hist.trace := by
  induction acts generalizing p with
  | nil => rfl
  | cons a acts ih =>
    cases a with
    | invoke c =>
      refine ih (p := M.act body p (.invoke c)) (ht.trans (Nat.lt_succ_self _)) fun c' op k => ?_
      simp only [act, Function.update_of_ne ht.ne]
      exact hended c' op k
    | step u o =>
      have hact : t < (M.act body p (.step u o)).next ∧
          (∀ c op k, (M.act body p (.step u o)).threads t ≠ some (c, .call op k)) ∧
          own t (M.act body p (.step u o)).hist.trace = own t p.hist.trace := by
        simp only [act]
        split
        · rename_i c op k hk
          have hne : t ≠ u := fun h => hended c op k (h ▸ hk)
          simp only [Function.update_of_ne hne]
          exact ⟨ht, hended, own_cons_ne (Ne.symm hne) _⟩
        · exact ⟨ht, hended, rfl⟩
      exact (ih hact.1 hact.2.1).trans hact.2.2
    | crash u =>
      refine ih (p := M.act body p (.crash u)) ht fun c op k => ?_
      by_cases hu : t = u
      · subst hu
        simp [act]
      · simp only [act, Function.update_of_ne hu]
        exact hended c op k

/-- A call that is started and not lost stays under way. -/
theorem schedule_invoked {p : Pool Op Res C W L E α} (c : C) {acts : List (Action C O)}
    (hacts : ∀ a ∈ acts, ∃ u o, a = .step u o) :
    ∃ q, (M.schedule body p (.invoke c :: acts)).threads p.next = some (c, q) := by
  suffices h : ∀ p' : Pool Op Res C W L E α, (∃ q, p'.threads p.next = some (c, q)) →
      ∃ q, (M.schedule body p' acts).threads p.next = some (c, q) from
    h (M.act body p (.invoke c)) ⟨body c, Function.update_self ..⟩
  induction acts with
  | nil => exact fun p' h => h
  | cons a acts ih =>
    rintro p' ⟨q, hq⟩
    refine ih (fun b hb => hacts b (List.mem_cons_of_mem _ hb)) (M.act body p' a) ?_
    obtain ⟨u, o, rfl⟩ := hacts a List.mem_cons_self
    simp only [act]
    split
    · rename_i c' op k hk
      by_cases hu : p.next = u
      · subst hu
        rw [hq] at hk
        obtain ⟨rfl, rfl⟩ := Prod.mk.inj (Option.some.inj hk)
        exact ⟨_, Function.update_self ..⟩
      · exact ⟨q, (Function.update_of_ne hu ..).trans hq⟩
    · exact ⟨q, hq⟩

/-- A call that has returned has ended the way its program ends. -/
theorem Pool.Resumes.returned {p : Pool Op Res C W L E α} (hp : p.Resumes M body)
    {G : List L → L → Prop} {Q : Except E α → List L → Prop} {t : ℕ} {c : C} {a : α}
    (ht : p.threads t = some (c, .ret a)) (hc : Prog.Traced M.label G Q (body c) []) :
    Q (.ok a) (own t p.hist.trace) :=
  (hp.threads t c _ ht).2.traced hc

end Machine

end Resume
