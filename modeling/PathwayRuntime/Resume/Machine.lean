import Mathlib.Data.List.Basic
import Mathlib.Data.List.Pairwise
import Mathlib.Logic.Function.Basic
import Mathlib.Order.Basic
import Mathlib.Order.Nat
import PathwayRuntime.Resume.Program

/-!
# Running programs on a shared world

A `Machine` says what each atomic operation does to a shared world, given a value `o` from the
environment (a clock reading, the answer of an outside party). Every operation executed is entered
in the **trace**, newest first, with the world it was executed in.

* `Machine.sessions`: calls made one after another, each cut short when its environment list ends
  (a crash).
* `Machine.schedule`: any number of calls interleaved operation by operation, with crashes.
* `Machine.Guarded`: the traces in which every step satisfies its caller's guard on the steps the
  same call made before. Both drivers only produce such traces (`guarded_sessions`,
  `guarded_schedule`), so a fact about all runs is proved by one induction over `Guarded`.
-/

set_option autoImplicit false

namespace Resume

/-- The meaning of the atomic operations, and the step each of them leaves in the trace. -/
structure Machine (Op : Type) (Res : Op → Type) (W O L : Type) where
  exec : (op : Op) → O → W → Res op × W
  label : (op : Op) → Res op → L

/-- An executed operation: which call made it, in which world, and the step itself. -/
structure Entry (C W L : Type) where
  tid : ℕ
  caller : C
  before : W
  step : L

/-- The world together with everything executed so far, newest first. -/
structure Hist (C W L : Type) where
  world : W
  trace : List (Entry C W L)

/-- How a call ended. -/
inductive Outcome (E α : Type) : Type
  | returned (a : α)
  | raised (e : E)
  | crashed

/-- The call was not cut short. -/
def Outcome.ended {E α : Type} : Outcome E α → Bool
  | crashed => false
  | _ => true

/-- The call raised. -/
def Outcome.raises {E α : Type} : Outcome E α → Bool
  | raised _ => true
  | _ => false

theorem Outcome.raises_eq_true {E α : Type} {o : Outcome E α} (h : o.raises = true) :
    ∃ e, o = .raised e := by
  cases o
  case raised e => exact ⟨e, rfl⟩
  all_goals cases h

/-- The steps of call `t`, newest first. -/
def own {C W L : Type} (t : ℕ) (tr : List (Entry C W L)) : List L :=
  tr.filterMap fun e => if e.tid = t then some e.step else none

/-- Calls made one after another: no call continues once a later one has made a step. -/
def Serial {C W L : Type} (tr : List (Entry C W L)) : Prop :=
  tr.Pairwise fun newer older => older.tid ≤ newer.tid

section Own

variable {C W L : Type}

@[simp] theorem own_nil (t : ℕ) : own t ([] : List (Entry C W L)) = [] := rfl

theorem own_cons_self (e : Entry C W L) (tr : List (Entry C W L)) :
    own e.tid (e :: tr) = e.step :: own e.tid tr := by
  simp [own]

theorem own_cons_ne {t : ℕ} {e : Entry C W L} (h : e.tid ≠ t) (tr : List (Entry C W L)) :
    own t (e :: tr) = own t tr := by
  simp [own, h]

theorem own_eq_nil {t : ℕ} {tr : List (Entry C W L)} (h : ∀ e ∈ tr, e.tid ≠ t) : own t tr = [] := by
  induction tr with
  | nil => rfl
  | cons e tr ih =>
    rw [own_cons_ne (h e List.mem_cons_self)]
    exact ih fun e' he' => h e' (List.mem_cons_of_mem _ he')

theorem mem_own {t : ℕ} {s : L} {tr : List (Entry C W L)} :
    s ∈ own t tr ↔ ∃ e ∈ tr, e.tid = t ∧ e.step = s := by
  simp [own, List.mem_filterMap]

/-- A moment of a call's own steps is a moment of the trace. -/
theorem own_split {t : ℕ} {tr : List (Entry C W L)} {rest : List L} {s : L} (extra : List L)
    (h : own t tr = extra ++ s :: rest) : ∃ newer e older, tr = newer ++ e :: older ∧ e.tid = t ∧
      e.step = s ∧ own t newer = extra ∧ own t older = rest := by
  obtain ⟨newer, tail, rfl, hnewer, htail⟩ := List.filterMap_eq_append_iff.mp h
  obtain ⟨skipped, e, older, rfl, hskip, he, holder⟩ := List.filterMap_eq_cons_iff.mp htail
  have htid : e.tid = t := by
    by_contra hne
    simp [hne] at he
  refine ⟨newer ++ skipped, e, older, by simp, htid, by simpa [htid] using he, ?_, holder⟩
  rw [own, List.filterMap_append, hnewer, List.filterMap_eq_nil_iff.mpr hskip, List.append_nil]

end Own

variable {Op : Type} {Res : Op → Type} {W O L C E α : Type}

namespace Machine

variable (M : Machine Op Res W O L)

/-- Execute one operation of call `t` and enter it in the trace. -/
def advance (t : ℕ) (c : C) (op : Op) (o : O) (h : Hist C W L) : Res op × Hist C W L :=
  let r := M.exec op o h.world
  (r.1, ⟨r.2, ⟨t, c, h.world, M.label op r.1⟩ :: h.trace⟩)

/-- Run a program alone, one environment value an operation; it crashes when they run out. -/
def run (t : ℕ) (c : C) : Prog Op Res E α → List O → Hist C W L → Outcome E α × Hist C W L
  | .ret a, _, h => (.returned a, h)
  | .raise e, _, h => (.raised e, h)
  | .call _ _, [], h => (.crashed, h)
  | .call op k, o :: os, h =>
    let r := M.advance t c op o h
    run t c (k r.1) os r.2

/-- Calls made one after another, numbered from `t`. -/
def sessions (body : C → Prog Op Res E α) : ℕ → List (C × List O) → Hist C W L → Hist C W L
  | _, [], h => h
  | t, (c, os) :: rest, h => sessions body (t + 1) rest (M.run t c (body c) os h).2

/-- No call of `sessions` crashes. -/
def completes (body : C → Prog Op Res E α) : ℕ → List (C × List O) → Hist C W L → Bool
  | _, [], _ => true
  | t, (c, os) :: rest, h => (M.run t c (body c) os h).1.ended &&
    completes body (t + 1) rest (M.run t c (body c) os h).2

/-- Calls under way, each with what is left of its program. -/
structure Pool (Op : Type) (Res : Op → Type) (C W L E α : Type) where
  hist : Hist C W L
  threads : ℕ → Option (C × Prog Op Res E α)
  next : ℕ

/-- What a scheduler can do: start a call, let a call make one operation, lose a call. -/
inductive Action (C O : Type) : Type
  | invoke (c : C)
  | step (t : ℕ) (o : O)
  | crash (t : ℕ)

/-- One action of the scheduler. -/
def act (body : C → Prog Op Res E α) (p : Pool Op Res C W L E α) :
    Action C O → Pool Op Res C W L E α
  | .invoke c => ⟨p.hist, Function.update p.threads p.next (some (c, body c)), p.next + 1⟩
  | .step t o =>
    match p.threads t with
    | some (c, .call op k) =>
      let r := M.advance t c op o p.hist
      ⟨r.2, Function.update p.threads t (some (c, k r.1)), p.next⟩
    | _ => p
  | .crash t => ⟨p.hist, Function.update p.threads t none, p.next⟩

/-- A whole schedule. -/
def schedule (body : C → Prog Op Res E α) (p : Pool Op Res C W L E α) (acts : List (Action C O)) :
    Pool Op Res C W L E α :=
  acts.foldl (M.act body) p

/-- No call under way; calls are numbered from `n`. -/
def Pool.idle (h : Hist C W L) (n : ℕ) : Pool Op Res C W L E α := ⟨h, fun _ => none, n⟩

/-! ## Guarded traces -/

/-- The traces from `w₀` in which each step satisfies its caller's guard on that call's own
earlier steps, which have the same caller. -/
inductive Guarded (guard : C → List L → L → Prop) (w₀ : W) : List (Entry C W L) → W → Prop
  | nil : Guarded guard w₀ [] w₀
  | cons {tr : List (Entry C W L)} {w : W} (h : Guarded guard w₀ tr w) (t : ℕ) (c : C) (op : Op) (o : O)
      (hc : ∀ e ∈ tr, e.tid = t → e.caller = c)
      (hg : guard c (own t tr) (M.label op (M.exec op o w).1)) :
      Guarded guard w₀ (⟨t, c, w, M.label op (M.exec op o w).1⟩ :: tr) (M.exec op o w).2

variable {M} {guard : C → List L → L → Prop} {w₀ : W}

/-- Every entry of a guarded trace satisfies its guard, in a world reached by a guarded trace. -/
theorem Guarded.of_append {newer older : List (Entry C W L)} {e : Entry C W L} {w : W}
    (h : M.Guarded guard w₀ (newer ++ e :: older) w) :
    M.Guarded guard w₀ older e.before ∧ guard e.caller (own e.tid older) e.step := by
  induction newer generalizing w with
  | nil =>
    cases h with
    | cons h t c op o hc hg => exact ⟨h, hg⟩
  | cons e' newer ih =>
    cases h with
    | cons h t c op o hc hg => exact ih h

/-- The steps of one call have one caller. -/
theorem Guarded.callers {tr : List (Entry C W L)} {w : W} (h : M.Guarded guard w₀ tr w) :
    ∀ e ∈ tr, ∀ e' ∈ tr, e.tid = e'.tid → e.caller = e'.caller := by
  induction h with
  | nil => exact fun e he => absurd he List.not_mem_nil
  | cons h t c op o hc hg ih =>
    intro e he e' he' htid
    rcases List.mem_cons.mp he with rfl | he <;> rcases List.mem_cons.mp he' with rfl | he'
    · rfl
    · exact (hc e' he' htid.symm).symm
    · exact hc e he htid
    · exact ih e he e' he' htid

variable {body : C → Prog Op Res E α}
  (hbody : ∀ c, Prog.Traced M.label (guard c) (fun _ _ => True) (body c) [])

/-- The operations of a guarded program, run alone, keep the trace guarded. -/
theorem guarded_run {t : ℕ} {c : C} {p : Prog Op Res E α} {os : List O} {h : Hist C W L}
    {Q : Except E α → List L → Prop} (hp : Prog.Traced M.label (guard c) Q p (own t h.trace))
    (hh : M.Guarded guard w₀ h.trace h.world) (hc : ∀ e ∈ h.trace, e.tid = t → e.caller = c) :
    M.Guarded guard w₀ (M.run t c p os h).2.trace (M.run t c p os h).2.world := by
  induction p generalizing os h with
  | ret a => cases os <;> exact hh
  | raise e => cases os <;> exact hh
  | call op k ih =>
    cases os with
    | nil => exact hh
    | cons o os =>
      have hr := hp (M.exec op o h.world).1
      refine ih _ ?_ (hh.cons t c op o hc hr.1)
        (List.forall_mem_cons.mpr ⟨fun _ => rfl, hc⟩)
      show Prog.Traced M.label (guard c) Q _ (own t (_ :: h.trace))
      rw [show own t (⟨t, c, h.world, _⟩ :: h.trace) = _ from own_cons_self _ _]
      exact hr.2

/-- A fact about histories that every guarded operation of a program keeps, kept by the program. -/
theorem run_induct {t : ℕ} {c : C} {p : Prog Op Res E α} {os : List O} {h : Hist C W L}
    {Q : Except E α → List L → Prop} (hp : Prog.Traced M.label (guard c) Q p (own t h.trace))
    {motive : Hist C W L → Prop} (start : motive h) (step : ∀ h' op o, motive h' →
      guard c (own t h'.trace) (M.label op (M.exec op o h'.world).1) →
      motive (M.advance t c op o h').2) : motive (M.run t c p os h).2 := by
  induction p generalizing os h with
  | ret a => cases os <;> exact start
  | raise e => cases os <;> exact start
  | call op k ih =>
    cases os with
    | nil => exact start
    | cons o os =>
      have hr := hp (M.exec op o h.world).1
      refine ih _ ?_ (step h op o start hr.1)
      show Prog.Traced M.label (guard c) Q _ (own t (_ :: h.trace))
      rw [show own t (⟨t, c, h.world, _⟩ :: h.trace) = _ from own_cons_self _ _]
      exact hr.2

/-- The last of the calls made one after another. -/
theorem sessions_append (body : C → Prog Op Res E α) (calls : List (C × List O)) (c : C) (os : List O)
    (t : ℕ) (h : Hist C W L) : M.sessions body t (calls ++ [(c, os)]) h =
      (M.run (t + calls.length) c (body c) os (M.sessions body t calls h)).2 := by
  induction calls generalizing t h with
  | nil => rfl
  | cons call rest ih =>
    rw [List.cons_append, sessions, sessions, ih, List.length_cons, Nat.add_assoc, Nat.add_comm 1]

/-- None of the calls crashes, the last one included. -/
theorem completes_append (body : C → Prog Op Res E α) (calls : List (C × List O)) (c : C) (os : List O)
    (t : ℕ) (h : Hist C W L) : M.completes body t (calls ++ [(c, os)]) h =
      (M.completes body t calls h &&
        (M.run (t + calls.length) c (body c) os (M.sessions body t calls h)).1.ended) := by
  induction calls generalizing t h with
  | nil => exact Bool.and_true _
  | cons call rest ih =>
    rw [List.cons_append, completes, completes, sessions, ih, List.length_cons, Nat.add_assoc, Nat.add_comm 1,
      Bool.and_assoc]

/-- A program run alone only enters steps of its own call. -/
theorem run_trace {t : ℕ} {c : C} (p : Prog Op Res E α) (os : List O) (h : Hist C W L) :
    ∃ new, (M.run t c p os h).2.trace = new ++ h.trace ∧ ∀ e ∈ new, e.tid = t ∧ e.caller = c := by
  induction p generalizing os h with
  | ret a => exact ⟨[], by cases os <;> rfl, by simp⟩
  | raise e => exact ⟨[], by cases os <;> rfl, by simp⟩
  | call op k ih =>
    cases os with
    | nil => exact ⟨[], rfl, by simp⟩
    | cons o os =>
      obtain ⟨new, hnew, ht⟩ := ih (M.exec op o h.world).1 os (M.advance t c op o h).2
      refine ⟨new ++ [⟨t, c, h.world, M.label op (M.exec op o h.world).1⟩], ?_, ?_⟩
      · rw [List.append_assoc]
        exact hnew
      · intro e he
        rcases List.mem_append.mp he with he | he
        · exact ht e he
        · rw [List.mem_singleton.mp he]
          exact ⟨rfl, rfl⟩

/-- The steps of a program run alone are answered by its environment. -/
theorem run_answers {t : ℕ} {c : C} (p : Prog Op Res E α) (os : List O) (h : Hist C W L) :
    ∃ new, (M.run t c p os h).2.trace = new ++ h.trace ∧
      ∀ e ∈ new, ∃ op, ∃ o ∈ os, e.step = M.label op (M.exec op o e.before).1 := by
  induction p generalizing os h with
  | ret a => exact ⟨[], by cases os <;> rfl, by simp⟩
  | raise e => exact ⟨[], by cases os <;> rfl, by simp⟩
  | call op k ih =>
    cases os with
    | nil => exact ⟨[], rfl, by simp⟩
    | cons o os =>
      obtain ⟨new, hnew, hanswers⟩ := ih (M.exec op o h.world).1 os (M.advance t c op o h).2
      refine ⟨new ++ [⟨t, c, h.world, M.label op (M.exec op o h.world).1⟩], ?_, ?_⟩
      · rw [List.append_assoc]
        exact hnew
      · intro e he
        rcases List.mem_append.mp he with he | he
        · obtain ⟨op', o', ho', hstep⟩ := hanswers e he
          exact ⟨op', o', List.mem_cons_of_mem _ ho', hstep⟩
        · obtain rfl := List.mem_singleton.mp he
          exact ⟨op, o, List.mem_cons_self, rfl⟩

/-- The same world, and every step of the first history is one of the second. -/
structure Shows {C' : Type} (h' : Hist C' W L) (h : Hist C W L) : Prop where
  world : h.world = h'.world
  steps : ∀ e' ∈ h'.trace, ∃ e ∈ h.trace, e.step = e'.step

/-- A continuation that leaves the world alone can be left out. -/
theorem Shows.run_bind {C' β : Type} {t t' : ℕ} {c : C} {c' : C'} {p : Prog Op Res E α}
    {f : α → Prog Op Res E β} (hf : ∀ a os h, (M.run t c (f a) os h).2.world = h.world) {os : List O}
    {h : Hist C W L} {h' : Hist C' W L} (hs : Shows h' h) :
    Shows (M.run t' c' p os h').2 (M.run t c (p.bind f) os h).2 := by
  induction p generalizing os h h' with
  | ret a =>
    have hsame : (M.run t' c' (.ret a : Prog Op Res E α) os h').2 = h' := by cases os <;> rfl
    obtain ⟨new, hnew, -⟩ := M.run_trace (t := t) (c := c) (f a) os h
    rw [hsame]
    refine ⟨(hf a os h).trans hs.world, fun e' he' => ?_⟩
    obtain ⟨e, he, hstep⟩ := hs.steps e' he'
    refine ⟨e, ?_, hstep⟩
    show e ∈ (M.run t c (f a) os h).2.trace
    rw [hnew]
    exact List.mem_append_right _ he
  | raise e => cases os <;> exact hs
  | call op k ih =>
    cases os with
    | nil => exact hs
    | cons o os =>
      have hw : M.exec op o h.world = M.exec op o h'.world := by rw [hs.world]
      have hadvance : Shows (M.advance t' c' op o h').2 (M.advance t c op o h).2 := by
        refine ⟨congrArg Prod.snd hw, fun e' he' => ?_⟩
        rcases List.mem_cons.mp he' with rfl | he'
        · exact ⟨_, List.mem_cons_self, congrArg (fun r => M.label op r.1) hw⟩
        · obtain ⟨e, he, hstep⟩ := hs.steps e' he'
          exact ⟨e, List.mem_cons_of_mem _ he, hstep⟩
      show Shows (M.run t' c' (k (M.exec op o h'.world).1) os _).2
        (M.run t c ((k (M.exec op o h.world).1).bind f) os _).2
      rw [congrArg Prod.fst hw]
      exact ih (M.exec op o h'.world).1 hadvance

include hbody in
/-- **Calls made one after another leave a guarded and serial trace.** -/
theorem guarded_sessions (calls : List (C × List O)) (t : ℕ) (h : Hist C W L)
    (hh : M.Guarded guard w₀ h.trace h.world) (hs : Serial h.trace) (ht : ∀ e ∈ h.trace, e.tid < t) :
    M.Guarded guard w₀ (M.sessions body t calls h).trace (M.sessions body t calls h).world ∧
      Serial (M.sessions body t calls h).trace ∧
      ∀ e ∈ (M.sessions body t calls h).trace, e.tid < t + calls.length := by
  induction calls generalizing t h with
  | nil => exact ⟨hh, hs, ht⟩
  | cons call rest ih =>
    obtain ⟨c, os⟩ := call
    have hown : own t h.trace = [] := own_eq_nil fun e he => (ht e he).ne
    have hrun : M.Guarded guard w₀ (M.run t c (body c) os h).2.trace (M.run t c (body c) os h).2.world :=
      guarded_run (hown ▸ hbody c) hh fun e he htid => absurd htid (ht e he).ne
    obtain ⟨new, hnew, htid⟩ := M.run_trace (t := t) (c := c) (body c) os h
    have hserial : Serial (M.run t c (body c) os h).2.trace := by
      rw [hnew]
      refine List.pairwise_append.mpr ⟨?_, hs, fun e he e' he' => ?_⟩
      · exact List.pairwise_of_forall_mem_list fun e he e' he' => by
          rw [(htid e he).1, (htid e' he').1]
      · rw [(htid e he).1]
        exact (ht e' he').le
    have hlt : ∀ e ∈ (M.run t c (body c) os h).2.trace, e.tid < t + 1 := by
      intro e he
      rw [hnew] at he
      rcases List.mem_append.mp he with he | he
      · rw [(htid e he).1]
        exact Nat.lt_succ_self t
      · exact (ht e he).trans (Nat.lt_succ_self t)
    have := ih (t + 1) _ hrun hserial hlt
    simpa [sessions, Nat.add_assoc, Nat.add_comm 1] using this

/-- What a schedule keeps: the trace is guarded, every call under way made its own steps and is still
guarded from them, and numbers from `next` on are unused. -/
structure Pool.Ok (M : Machine Op Res W O L) (guard : C → List L → L → Prop) (w₀ : W)
    (p : Pool Op Res C W L E α) : Prop where
  trace : M.Guarded guard w₀ p.hist.trace p.hist.world
  threads : ∀ t c q, p.threads t = some (c, q) →
    t < p.next ∧ (∀ e ∈ p.hist.trace, e.tid = t → e.caller = c) ∧
      Prog.Traced M.label (guard c) (fun _ _ => True) q (own t p.hist.trace)
  fresh : ∀ e ∈ p.hist.trace, e.tid < p.next

include hbody in
/-- One action keeps a pool guarded. -/
theorem Pool.Ok.act {p : Pool Op Res C W L E α} (hp : p.Ok M guard w₀) (a : Action C O) :
    (M.act body p a).Ok M guard w₀ := by
  cases a with
  | invoke c =>
    refine ⟨hp.trace, fun t c' q hq => ?_, fun e he => (hp.fresh e he).trans (Nat.lt_succ_self _)⟩
    by_cases ht : t = p.next
    · subst ht
      simp only [Machine.act, Function.update_self, Option.some.injEq, Prod.mk.injEq] at hq
      obtain ⟨rfl, rfl⟩ := hq
      refine ⟨Nat.lt_succ_self _, fun e he htid => absurd htid (hp.fresh e he).ne, ?_⟩
      rw [show own p.next (M.act body p (.invoke c)).hist.trace = [] from
        own_eq_nil fun e he => (hp.fresh e he).ne]
      exact hbody c
    · simp only [Machine.act, Function.update_of_ne ht] at hq
      exact ⟨(hp.threads t c' q hq).1.trans (Nat.lt_succ_self _), (hp.threads t c' q hq).2⟩
  | step t o =>
    simp only [Machine.act]
    split
    · rename_i c op k hk
      obtain ⟨hlt, hcaller, htr⟩ := hp.threads t c _ hk
      have hr := htr (M.exec op o p.hist.world).1
      have hown : own t (M.advance t c op o p.hist).2.trace = _ := own_cons_self _ _
      refine ⟨hp.trace.cons t c op o hcaller hr.1, fun t' c' q hq => ?_, fun e he => ?_⟩
      · by_cases ht : t' = t
        · subst ht
          simp only [Function.update_self, Option.some.injEq, Prod.mk.injEq] at hq
          obtain ⟨rfl, rfl⟩ := hq
          exact ⟨hlt, List.forall_mem_cons.mpr ⟨fun _ => rfl, hcaller⟩, hown ▸ hr.2⟩
        · simp only [Function.update_of_ne ht] at hq
          refine ⟨(hp.threads t' c' q hq).1, List.forall_mem_cons.mpr
            ⟨fun h => absurd h (Ne.symm ht), (hp.threads t' c' q hq).2.1⟩, ?_⟩
          rw [show own t' (M.advance t c op o p.hist).2.trace = own t' p.hist.trace from
            own_cons_ne (Ne.symm ht) _]
          exact (hp.threads t' c' q hq).2.2
      · rcases List.mem_cons.mp he with rfl | he
        · exact hlt
        · exact hp.fresh e he
    · exact hp
  | crash t =>
    refine ⟨hp.trace, fun t' c q hq => ?_, hp.fresh⟩
    by_cases ht : t' = t
    · subst ht
      simp [Machine.act] at hq
    · simp only [Machine.act, Function.update_of_ne ht] at hq
      exact hp.threads t' c q hq

include hbody in
/-- **Any interleaving of guarded calls, with crashes, leaves a guarded trace.** -/
theorem guarded_schedule (acts : List (Action C O)) (p : Pool Op Res C W L E α)
    (hp : p.Ok M guard w₀) : (M.schedule body p acts).Ok M guard w₀ := by
  induction acts generalizing p with
  | nil => exact hp
  | cons a acts ih => exact ih _ (hp.act hbody a)

theorem Pool.ok_idle {h : Hist C W L} {n : ℕ} (hh : M.Guarded guard w₀ h.trace h.world)
    (hn : ∀ e ∈ h.trace, e.tid < n) :
    (Pool.idle h n : Pool Op Res C W L E α).Ok M guard w₀ :=
  ⟨hh, fun _ _ _ hq => by simp [Pool.idle] at hq, hn⟩

/-! ## Who appears in a trace -/

section Callers

variable {P : C → Prop}

/-- Every entry of a run of calls made one after another belongs to one of them. -/
theorem callers_sessions {body : C → Prog Op Res E α} {calls : List (C × List O)} {t : ℕ}
    {h : Hist C W L} (hcalls : ∀ call ∈ calls, P call.1) (hh : ∀ e ∈ h.trace, P e.caller) :
    ∀ e ∈ (M.sessions body t calls h).trace, P e.caller := by
  induction calls generalizing t h with
  | nil => exact hh
  | cons call rest ih =>
    obtain ⟨c, os⟩ := call
    refine ih (fun call hc => hcalls call (List.mem_cons_of_mem _ hc)) fun e he => ?_
    obtain ⟨new, hnew, hown⟩ := M.run_trace (t := t) (c := c) (body c) os h
    rw [hnew] at he
    rcases List.mem_append.mp he with he | he
    · rw [(hown e he).2]
      exact hcalls (c, os) List.mem_cons_self
    · exact hh e he

/-- What a schedule adds to the trace belongs to calls under way or started by it. -/
theorem schedule_trace {body : C → Prog Op Res E α} {acts : List (Action C O)}
    {p : Pool Op Res C W L E α} {Q : ℕ → C → Prop}
    (hacts : ∀ c, .invoke c ∈ acts → ∀ t, p.next ≤ t → Q t c)
    (hp : ∀ t c q, p.threads t = some (c, q) → Q t c) :
    ∃ new, (M.schedule body p acts).hist.trace = new ++ p.hist.trace ∧
      ∀ e ∈ new, Q e.tid e.caller := by
  induction acts generalizing p with
  | nil => exact ⟨[], rfl, fun e he => absurd he List.not_mem_nil⟩
  | cons a acts ih =>
    have hrest : ∀ c, .invoke c ∈ acts → ∀ t, p.next ≤ t → Q t c :=
      fun c hc => hacts c (List.mem_cons_of_mem _ hc)
    cases a with
    | invoke c =>
      refine ih (p := M.act body p (.invoke c))
        (fun c' hc t ht => hrest c' hc t (Nat.le_of_succ_le ht)) fun t c' q hq => ?_
      by_cases ht : t = p.next
      · simp only [act, ht, Function.update_self, Option.some.injEq, Prod.mk.injEq] at hq
        rw [← hq.1]
        exact hacts c List.mem_cons_self t ht.ge
      · simp only [act, Function.update_of_ne ht] at hq
        exact hp t c' q hq
    | step t o =>
      cases hq : p.threads t with
      | none =>
        rw [show M.schedule body p (.step t o :: acts) = M.schedule body p acts by
          simp only [schedule, List.foldl_cons, act, hq]]
        exact ih hrest hp
      | some cq =>
        obtain ⟨c, q⟩ := cq
        cases q with
        | ret a | raise e =>
          rw [show M.schedule body p (.step t o :: acts) = M.schedule body p acts by
            simp only [schedule, List.foldl_cons, act, hq]]
          exact ih hrest hp
        | call op k =>
          have hact : M.act body p (.step t o) = ⟨(M.advance t c op o p.hist).2,
              Function.update p.threads t (some (c, k (M.advance t c op o p.hist).1)), p.next⟩ := by
            simp only [act, hq]
          obtain ⟨new, hnew, hQ⟩ := ih (p := M.act body p (.step t o)) (by rw [hact]; exact hrest)
            fun t' c' q hq' => by
              rw [hact] at hq'
              by_cases ht : t' = t
              · simp only [ht, Function.update_self, Option.some.injEq, Prod.mk.injEq] at hq'
                rw [← hq'.1, ht]
                exact hp t c _ hq
              · simp only [Function.update_of_ne ht] at hq'
                exact hp t' c' q hq'
          refine ⟨new ++ [⟨t, c, p.hist.world, M.label op (M.exec op o p.hist.world).1⟩], ?_, ?_⟩
          · rw [List.append_assoc]
            refine hnew.trans (congrArg _ ?_)
            rw [hact]
            rfl
          · refine List.forall_mem_append.mpr ⟨hQ, fun e he => ?_⟩
            rw [List.mem_singleton.mp he]
            exact hp t c _ hq
    | crash t =>
      refine ih (p := M.act body p (.crash t)) hrest fun t' c' q hq => ?_
      by_cases ht : t' = t
      · simp [act, ht] at hq
      · simp only [act, Function.update_of_ne ht] at hq
        exact hp t' c' q hq

end Callers

end Machine

end Resume
