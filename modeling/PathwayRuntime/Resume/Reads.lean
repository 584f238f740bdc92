import PathwayRuntime.Resume.Machine

/-!
# Calls that only read

Calls that run among others and find the world as they need it, as long as the others keep it so.

* `Machine.Reads`: wherever the world satisfies `I` at its operations, a program leaves it alone.
* `Pool.Quiet`: the world satisfies `I`, and certain calls under way only read.
* **`schedule_quiet`**: a schedule in which all other steps keep `I` leaves it so.
-/

set_option autoImplicit false

namespace Resume

variable {Op : Type} {Res : Op → Type} {W O L C E α β : Type}

namespace Machine

section Reads

variable (M : Machine Op Res W O L) (I : W → Prop) (G : L → Prop)

/-- Wherever the world satisfies `I` at each operation, the operations leave it alone, the steps
satisfy `G` and the program ends in `Q`. -/
def Reads (Q : Except E α → Prop) : Prog Op Res E α → Prop
  | .ret a => Q (.ok a)
  | .raise e => Q (.error e)
  | .call op k => ∀ o w, I w → (M.exec op o w).2 = w ∧ G (M.label op (M.exec op o w).1) ∧
      Reads Q (k (M.exec op o w).1)

variable {M I G}

theorem Reads.bind {Q : Except E α → Prop} {Q' : Except E β → Prop} {p : Prog Op Res E α}
    {f : α → Prog Op Res E β} (h : M.Reads I G Q p) (hok : ∀ a, Q (.ok a) → M.Reads I G Q' (f a))
    (herr : ∀ e, Q (.error e) → Q' (.error e)) : M.Reads I G Q' (p.bind f) := by
  induction p with
  | ret a => exact hok a h
  | raise e => exact herr e h
  | call op k ih => exact fun o w hw => ⟨(h o w hw).1, (h o w hw).2.1, ih _ (h o w hw).2.2⟩

end Reads

/-! ## Among other calls -/

/-- The world satisfies `I`, and every call in `F` from number `n` on only reads under `I`. -/
structure Pool.Quiet (M : Machine Op Res W O L) (I : W → Prop) (G : L → Prop) (n : ℕ) (F : C → Prop)
    (Q : C → Except E α → Prop) (p : Pool Op Res C W L E α) : Prop where
  world : I p.hist.world
  threads : ∀ t c q, p.threads t = some (c, q) → n ≤ t → F c → M.Reads I G (Q c) q

variable {M : Machine Op Res W O L} {I : W → Prop} {G : L → Prop} {n : ℕ} {F : C → Prop}
  {Q : C → Except E α → Prop} {body : C → Prog Op Res E α} {effect : L → W → W}
  (heffect : ∀ op o w, (M.exec op o w).2 = effect (M.label op (M.exec op o w).1) w)

/-- The entry of a call in `F` from number `n` on leaves the world alone. -/
def Harmless (effect : L → W → W) (G : L → Prop) (n : ℕ) (F : C → Prop) (e : Entry C W L) : Prop :=
  n ≤ e.tid → F e.caller → effect e.step e.before = e.before ∧ G e.step

/-- The entry of another call keeps `I`. -/
def Keeps (effect : L → W → W) (I : W → Prop) (n : ℕ) (F : C → Prop) (e : Entry C W L) : Prop :=
  ¬ (n ≤ e.tid ∧ F e.caller) → I e.before → I (effect e.step e.before)

include heffect in
/-- One action keeps a pool quiet, and enters harmless operations only. -/
theorem Pool.Quiet.act (hbody : ∀ c, F c → M.Reads I G (Q c) (body c)) {p : Pool Op Res C W L E α}
    (hp : p.Quiet M I G n F Q) (a : Action C O)
    (hothers : ∀ e, (M.act body p a).hist.trace = e :: p.hist.trace → Keeps effect I n F e) :
    (M.act body p a).Quiet M I G n F Q ∧ ∃ new, (M.act body p a).hist.trace = new ++ p.hist.trace ∧
      ∀ e ∈ new, Harmless effect G n F e := by
  cases a with
  | invoke c =>
    refine ⟨⟨hp.world, fun t c' q hq hn hF => ?_⟩, [], rfl, by simp⟩
    by_cases ht : t = p.next
    · simp only [Machine.act, ht, Function.update_self, Option.some.injEq, Prod.mk.injEq] at hq
      obtain ⟨rfl, rfl⟩ := hq
      exact hbody c hF
    · simp only [Machine.act, Function.update_of_ne ht] at hq
      exact hp.threads t c' q hq hn hF
  | crash t =>
    refine ⟨⟨hp.world, fun t' c q hq hn hF => ?_⟩, [], rfl, by simp⟩
    by_cases ht : t' = t
    · simp [Machine.act, ht] at hq
    · simp only [Machine.act, Function.update_of_ne ht] at hq
      exact hp.threads t' c q hq hn hF
  | step t o =>
    simp only [Machine.act] at hothers ⊢
    split at hothers
    · rename_i c op k hk
      have hkeeps := hothers _ rfl
      have hreads : n ≤ t → F c → _ := fun hn hF => hp.threads t c _ hk hn hF o _ hp.world
      refine ⟨⟨?_, fun t' c' q hq hn hF => ?_⟩, [_], rfl, fun e he => ?_⟩
      · -- Its own operation leaves the world alone, another's keeps `I`.
        show I (M.exec op o p.hist.world).2
        by_cases hown : n ≤ t ∧ F c
        · rw [(hreads hown.1 hown.2).1]
          exact hp.world
        · rw [heffect]
          exact hkeeps hown hp.world
      · by_cases ht : t' = t
        · subst ht
          simp only [Function.update_self, Option.some.injEq, Prod.mk.injEq] at hq
          obtain ⟨rfl, rfl⟩ := hq
          exact (hreads hn hF).2.2
        · simp only [Function.update_of_ne ht] at hq
          exact hp.threads t' c' q hq hn hF
      · obtain rfl := List.mem_singleton.mp he
        exact fun hn hF => ⟨(heffect op o _).symm.trans (hreads hn hF).1, (hreads hn hF).2.1⟩
    · exact ⟨hp, [], rfl, by simp⟩

include heffect in
/-- **In a schedule in which the other calls keep `I`, the calls that only read under `I` leave the
world alone.** -/
theorem schedule_quiet (hbody : ∀ c, F c → M.Reads I G (Q c) (body c)) (acts : List (Action C O))
    {p : Pool Op Res C W L E α} (hp : p.Quiet M I G n F Q)
    (hothers : ∀ newer e mid, (M.schedule body p acts).hist.trace = newer ++ e :: (mid ++ p.hist.trace) →
      Keeps effect I n F e) :
    (M.schedule body p acts).Quiet M I G n F Q ∧
      ∃ new, (M.schedule body p acts).hist.trace = new ++ p.hist.trace ∧
        ∀ e ∈ new, Harmless effect G n F e := by
  induction acts generalizing p with
  | nil => exact ⟨hp, [], rfl, by simp⟩
  | cons a acts ih =>
    obtain ⟨later, hlater, -⟩ : ∃ later, (M.schedule body (M.act body p a) acts).hist.trace =
        later ++ (M.act body p a).hist.trace ∧ ∀ e ∈ later, True :=
      schedule_trace (Q := fun _ _ => True) (fun _ _ _ _ => trivial) fun _ _ _ _ => trivial
    obtain ⟨hquiet, new, hnew, hharmless⟩ := hp.act heffect hbody a fun e he =>
      hothers later e [] (hlater.trans (by rw [he]; rfl))
    obtain ⟨hend, new', hnew', hharmless'⟩ := ih hquiet fun newer e mid htr =>
      hothers newer e (mid ++ new) (by rw [List.append_assoc, ← hnew]; exact htr)
    refine ⟨hend, new' ++ new, ?_, List.forall_mem_append.mpr ⟨hharmless', hharmless⟩⟩
    rw [List.append_assoc, ← hnew]
    exact hnew'

end Machine

end Resume
