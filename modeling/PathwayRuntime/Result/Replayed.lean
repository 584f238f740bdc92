import PathwayRuntime.Ledger.Decoded
import PathwayRuntime.Ledger.Lookup
import PathwayRuntime.Stdio.Json
import PathwayRuntime.Trace.Returned

/-!
# Replayed executions

* `Step.writes`: the steps that change the row of an attempt; `lookup_kept`.
* `keysUnique_of_reach`: the unique index, in every interleaving.
* `executed_stored`: the row an execution leaves when it returned.
* **`replay_faithful`**: the stored text reads back as the result, and a later execution returns it.
-/

set_option autoImplicit false

namespace Rpr

open Resume

/-- The step inserts, classifies or removes the row of the attempt. -/
def Step.writes (x : String) : Step → Bool
  | .begin _ request _ (.ok (false, _)) => request.attemptId = x
  | .finish y _ (some _) => y = x
  | .discardStarted y true => y = x
  | _ => false

theorem Step.weighty_of_writes {s : Step} {x : String} (h : s.writes x = true) : s.weighty = true := by
  cases s
  case begin | finish | discardStarted => rfl
  all_goals exact absurd h Bool.false_ne_true

/-- Since call `t` inserted the row of the attempt, no call but it and the later call `t'` has
written it. -/
def Unreclassified (t t' : ℕ) (x : String) (tr : List Record) : Prop :=
  ∀ newer b older, tr = newer ++ b :: older → b.tid = t →
    (∃ p request fp rec, b.step = .begin p request fp (.ok (false, rec)) ∧ request.attemptId = x) →
    ∀ e ∈ newer, e.step.writes x = true → e.tid = t ∨ e.tid = t'

section Rows

variable {py : Platform} {order : Option RowOrder} {tr : List Record} {w : World} {s : Step} {x : String}

/-- A row that is not written is kept. -/
theorem lookup_kept (ha : s.Answers py order w) (hs : s.writes x = false) :
    (s.effect w).attempts.lookup x = w.attempts.lookup x := by
  cases s
  case createOrReplayPathway d fp st key r => rcases r with err | ⟨_ | _, st'⟩ <;> rfl
  case transitionWithEvent q cur target e r =>
    rcases r with err | ⟨⟩
    · rfl
    · exact congrArg _ (World.attempts_commit _ _ _ _)
  case appendEvent e r => rcases r with err | ⟨⟩ <;> rfl
  case begin p request fp res =>
    rcases res with err | ⟨_ | _, rec⟩
    · rfl
    · exact AList.lookup_insert_ne (Ne.symm (of_decide_eq_false hs))
    · rfl
  case finish y res r =>
    refine Ledger.lookup_finish.trans ?_
    split_ifs with hy
    · subst hy
      cases r with
      | some fin => exact absurd rfl (of_decide_eq_false hs)
      | none =>
        cases hrow : w.attempts.lookup x with
        | none => rfl
        | some row =>
          have hnone : none = (w.attempts.finish x res).1 := ha
          simp [Ledger.finish, hrow] at hnone
    · rfl
  case discardStarted y r =>
    cases r with
    | true => exact Ledger.lookup_discardStarted_ne (Ne.symm (of_decide_eq_false hs))
    | false => exact congrArg (AList.lookup x) (Ledger.discardStarted_false (Eq.symm ha))
  all_goals rfl

/-- The row of a call that stored one outcome, after steps that write nothing else. -/
theorem row_after {newer older : List Record} {w₀ : World} {row : AttemptRow} {res : PersistedResult}
    (h : Reach py order (newer ++ older) w) (h₀ : Reach py order older w₀)
    (hrow : w₀.attempts.lookup x = some row)
    (hwrites : ∀ e ∈ newer, e.step.writes x = true → ∃ fin, e.step = .finish x res (some fin)) :
    ∃ out, w.attempts.lookup x = some { row with outcome := out } ∧
      ((∃ e ∈ newer, e.step.writes x = true) → out = some res) := by
  induction newer generalizing w with
  | nil => exact ⟨row.outcome, (h.unique h₀) ▸ hrow, fun ⟨e, he, _⟩ => absurd he List.not_mem_nil⟩
  | cons e newer ih =>
    obtain ⟨hbefore, -, ha, rfl⟩ := h.of_cons
    obtain ⟨out, hlook, hout⟩ := ih hbefore fun e' he' => hwrites e' (List.mem_cons_of_mem _ he')
    cases hw : e.step.writes x with
    | false =>
      refine ⟨out, (lookup_kept ha hw).trans hlook, fun ⟨e', he', hwe⟩ => ?_⟩
      rcases List.mem_cons.mp he' with rfl | he'
      · rw [hw] at hwe
        cases hwe
      · exact hout ⟨e', he', hwe⟩
    | true =>
      obtain ⟨fin, hfin⟩ := hwrites e List.mem_cons_self hw
      refine ⟨some res, ?_, fun _ => rfl⟩
      rw [hfin]
      refine Ledger.lookup_finish.trans ?_
      rw [if_pos rfl, hlook]
      rfl

/-- A step keeps rows with the same pathway and key one row. -/
theorem keysUnique_effect (h : w.attempts.KeysUnique) (ha : s.Answers py order w) :
    (s.effect w).attempts.KeysUnique := by
  cases s
  case createOrReplayPathway d fp st key r => rcases r with err | ⟨_ | _, st'⟩ <;> exact h
  case transitionWithEvent q cur target e r =>
    rcases r with err | ⟨⟩
    · exact h
    · rwa [show (Step.effect (.transitionWithEvent q cur target e (.ok ())) w).attempts = w.attempts from
        World.attempts_commit _ _ _ _]
  case appendEvent e r => rcases r with err | ⟨⟩ <;> exact h
  case begin p request fp res =>
    rcases res with err | ⟨_ | _, rec⟩
    · exact h
    · obtain ⟨ord, -, hr⟩ := ha
      have hkept : (w.attempts.begin ord p request fp).2.KeysUnique := h.begin
      rwa [(Ledger.begin_fresh hr.symm).2.2] at hkept
    · exact h
  case finish => exact h.finish
  case discardStarted => exact h.discardStarted
  all_goals exact h

/-- Rows with the same pathway and key are one row, in every interleaving. -/
theorem keysUnique_of_reach (h : Reach py order tr w) : w.attempts.KeysUnique := by
  induction h using Reach.induct with
  | start => exact fun x y a b ha => nomatch ha
  | step _ _ _ _ _ _ ih _ ha _ => exact keysUnique_effect ih ha

/-- The only row that a request can find is the one with its own attempt and key. -/
theorem matching_own {l : Ledger} {ord : RowOrder} {p : String} {request : ExecutionRequest}
    {row : AttemptRow} (hl : l.KeysUnique) (hrow : l.lookup request.attemptId = some row)
    (hp : row.pathwayId = p) (hkey : row.idempotencyKey = request.idempotencyKey)
    {rec : ExecutionAttemptRecord} (hm : l.matching ord p request = some rec) : rec.toAttemptRow = row := by
  have hmatch := (Ledger.matches_iff_matching hl).mpr ⟨ord, hm⟩
  have hrec := Ledger.matching_eq_some hm
  have hid : rec.attemptId = request.attemptId := by
    rcases hmatch.found with h | ⟨hp', hk'⟩
    · exact h
    · exact hl _ _ _ _ hrec hrow (hp'.trans hp.symm) (hk'.trans hkey.symm)
  rw [hid] at hrec
  exact Option.some.inj (hrec.symm.trans hrow)

/-- A weighty step of a call, in the history. -/
theorem weighty_split {t : ℕ} {a b : Own} (h : weighty (own t tr) = a ++ s :: b) :
    ∃ newer e older, tr = newer ++ e :: older ∧ e.tid = t ∧ e.step = s ∧ weighty (own t newer) = a ∧
      weighty (own t older) = b := by
  obtain ⟨extra, tail, hown, hextra, htail⟩ := List.filter_eq_append_iff.mp h
  obtain ⟨light, rest, rfl, hlight, -, hrest⟩ := List.filter_eq_cons_iff.mp htail
  obtain ⟨newer, e, older, htr, ht, hs, hnewer, holder⟩ :=
    own_split (extra ++ light) (hown.trans (List.append_assoc ..).symm)
  refine ⟨newer, e, older, htr, ht, hs, ?_, by rw [holder]; exact hrest⟩
  rw [hnewer, weighty, List.filter_append, hextra, List.filter_eq_nil_iff.mpr hlight, List.append_nil]

end Rows

/-! ## The row an execution leaves -/

section Stored

variable {p x : String} {request : ExecutionRequest} {r : ExecutionResult} {kept : Own}

/-- The newest step of an opened row inserted it. -/
theorem FreshRow.head (h : FreshRow p request kept) :
    ∃ fp rec rest, kept = .begin p request fp (.ok (false, rec)) :: rest := by
  cases h with
  | fresh => exact ⟨_, _, [], rfl⟩
  | again => exact ⟨_, _, _, rfl⟩

theorem FreshRow.finish_notMem (h : FreshRow p request kept) {res : PersistedResult}
    {reply : Option ExecutionAttemptRecord} : Step.finish x res reply ∉ kept := by
  cases h <;> simp

/-- The first step of an execution that returned found a row with the result, or it found no outcome. -/
theorem ExecuteSteps.first (h : ExecuteSteps p request r kept) :
    ∃ newer fp resp, kept = newer ++ [.begin p request fp (.ok resp)] ∧
      ∀ stored, resp.1 = true → resp.2.outcome = some stored →
        newer = [] ∧ resultFromAttempt stored.json = .ok r := by
  have hopened : ∀ {kept : Own} (newer : Own), FreshRow p request kept →
      ∃ newer' fp resp, newer ++ kept = newer' ++ [.begin p request fp (.ok resp)] ∧
        ∀ stored, resp.1 = true → resp.2.outcome = some stored →
          newer' = [] ∧ resultFromAttempt stored.json = .ok r := by
    intro kept newer h
    cases h with
    | fresh => exact ⟨newer, _, _, rfl, fun _ h => absurd h Bool.false_ne_true⟩
    | @again fp fp' rec rec' hout =>
      refine ⟨newer ++ [_, _], _, _, (List.append_assoc newer [_, _] [_]).symm, fun stored _ hstored => ?_⟩
      rw [hout] at hstored
      cases hstored
  cases h with
  | replayed hout hr =>
    refine ⟨[], _, _, rfl, fun stored _ hstored => ⟨rfl, ?_⟩⟩
    obtain rfl := Option.some.inj (hout.symm.trans hstored)
    exact hr
  | unresolved hout =>
    refine ⟨[], _, _, rfl, fun stored _ hstored => ?_⟩
    rw [hout] at hstored
    cases hstored
  | dispatched h _ => exact hopened [_, _] h
  | rejected h _ => exact hopened [_, _] h

/-- An execution that stored an outcome and returned stored what it returned. -/
theorem ExecuteSteps.stored (h : ExecuteSteps p request r kept) {res : PersistedResult}
    {fin : ExecutionAttemptRecord} (hfin : .finish x res (some fin) ∈ kept)
    (hd : r.storedValue.Everywhere PyValue.DistinctKeys) :
    x = request.attemptId ∧ (∃ outcome fp rec rest, kept = .finish x res (some fin) ::
        .invokeExecutor p request outcome :: .begin p request fp (.ok (false, rec)) :: rest) ∧
      ∃ r₁, resultFromAttempt res.json = .ok r₁ ∧ r.Same r₁ := by
  have hhead : ∀ {kept : Own} {res' : PersistedResult} {reply : Option ExecutionAttemptRecord}
      {outcome : ExecutorOutcome}, FreshRow p request kept → Step.finish x res (some fin) ∈
        .finish request.attemptId res' reply :: .invokeExecutor p request outcome :: kept →
      x = request.attemptId ∧ res = res' ∧ reply = some fin := by
    intro kept res' reply outcome hopened hmem
    rcases List.mem_cons.mp hmem with h | hmem
    · injection h with hx hres hreply
      exact ⟨hx, hres, hreply.symm⟩
    · exact absurd ((List.mem_cons.mp hmem).resolve_left (by simp)) hopened.finish_notMem
  cases h with
  | replayed | unresolved => exact absurd (List.mem_singleton.mp hfin) (by simp)
  | dispatched hopened hres =>
    obtain ⟨rfl, rfl, hreply⟩ := hhead hopened hfin
    obtain ⟨fp, rec, rest, rfl⟩ := hopened.head
    rw [hreply]
    obtain ⟨hlisted, hu, -⟩ := persistResult_listed hd hres
    exact ⟨rfl, ⟨_, fp, rec, rest, rfl⟩, resultFromAttempt_same hu hlisted (.inl rfl)⟩
  | rejected hopened hr =>
    obtain ⟨rfl, rfl, rfl⟩ := hhead hopened hfin
    obtain ⟨fp, rec, rest, rfl⟩ := hopened.head
    obtain rfl := hr rfl
    exact ⟨rfl, ⟨_, fp, rec, rest, rfl⟩, _, rfl, rfl, ⟨.obj [], .obj [], rfl, rfl, rfl⟩, .none, rfl⟩

end Stored

/-! ## Replay -/

section Replay

variable {py : Platform} {order : Option RowOrder} {calls : List (Call × List Oracle)}
  {acts acts' : List (Machine.Action Call Oracle)} {t t' : ℕ} {p actor actor' : String}
  {request : ExecutionRequest} {r r' : ExecutionResult} {res : PersistedResult}
  {fin : ExecutionAttemptRecord}

theorem underway_append : underway py order calls (acts ++ acts') =
    (database py order).schedule (Call.body py) (underway py order calls acts) acts' :=
  List.foldl_append ..

/-- A call that has returned makes no more steps. -/
theorem returned_newer {m : Method} {x : CallResult} (h : Returned py order calls acts t m x)
    (acts' : List (Machine.Action Call Oracle)) :
    ∃ new, (interleaved py order calls (acts ++ acts')).trace =
      new ++ (interleaved py order calls acts).trace ∧ own t new = [] := by
  obtain ⟨policy, ht⟩ := h
  have hsched : (interleaved py order calls (acts ++ acts')).trace =
      ((database py order).schedule (Call.body py) (underway py order calls acts) acts').hist.trace :=
    by rw [interleaved, Machine.schedule, List.foldl_append]; rfl
  have hown : own t ((database py order).schedule (Call.body py) (underway py order calls acts)
      acts').hist.trace = own t (interleaved py order calls acts).trace :=
    Machine.schedule_own ((underway_resumes py order calls acts).threads t _ _ ht).1
      (fun c op k h => by rw [ht] at h; cases h) acts'
  obtain ⟨new, hnew, -⟩ : ∃ new, ((database py order).schedule (Call.body py)
      (underway py order calls acts) acts').hist.trace = new ++ (underway py order calls acts).hist.trace ∧
        ∀ e ∈ new, True :=
    Machine.schedule_trace (Q := fun _ _ => True) (fun _ _ _ _ => trivial) fun _ _ _ _ => trivial
  rw [hnew, Machine.own_append] at hown
  exact ⟨new, hsched.trans hnew, List.append_left_eq_self.mp hown⟩

/-- An entry that is not one of the older history was made after it. -/
theorem older_of_notMem {newer older new tr : List Record} {e : Record}
    (h : newer ++ e :: older = new ++ tr) (he : e ∉ tr) : ∃ mid, older = mid ++ tr ∧ mid <:+ new := by
  rcases List.append_eq_append_iff.mp h with ⟨as, rfl, has⟩ | ⟨bs, rfl, rfl⟩
  · cases as with
    | nil =>
      rw [List.nil_append] at has
      exact absurd (has ▸ List.mem_cons_self) he
    | cons a as =>
      obtain ⟨rfl, rfl⟩ := List.cons.inj has
      exact ⟨as, rfl, newer ++ [e], by simp⟩
  · exact absurd (List.mem_append_right _ List.mem_cons_self) he

/-- The row of an execution that stored an outcome and returned is kept until another call writes it:
here it is when a later call first asks the ledger. -/
theorem row_at_begin (h : Returned py order calls acts t (.execute p request actor) (.executed r))
    (hfin : .finish request.attemptId res (some fin) ∈ own t (interleaved py order calls acts).trace)
    (hd : r.storedValue.Everywhere PyValue.DistinctKeys) (ht : (underway py order calls acts).next ≤ t')
    (hwrites : Unreclassified t t' request.attemptId (interleaved py order calls (acts ++ acts')).trace)
    {newer older : List Record} {e : Record}
    (htr : (interleaved py order calls (acts ++ acts')).trace = newer ++ e :: older) (he : e.tid = t')
    (hfirst : weighty (own t' older) = []) :
    ∃ fp, e.before.attempts.lookup request.attemptId =
      some { Ledger.startedRow p request fp with outcome := some res } := by
  have hreach := interleaved_reach py order calls (acts ++ acts')
  obtain ⟨-, ⟨outcome, fp, rec, rest, hkept⟩, -⟩ :=
    (executed_steps h).stored (mem_weighty.mpr ⟨hfin, rfl⟩) hd
  obtain ⟨n, b, o, hsplit, hb, hbegin, hn, -⟩ := weighty_split (a := [_, _]) hkept
  obtain ⟨new, hnew, hsilent⟩ := returned_newer h acts'
  -- The later call asked after the first one had returned.
  obtain ⟨mid, rfl, hmid⟩ := older_of_notMem (htr.symm.trans hnew) fun hmem =>
    absurd he ((underway_resumes py order calls acts).fresh e hmem |>.trans_le ht).ne
  rw [hsplit] at htr hfirst
  rw [htr] at hreach
  have hbefore : Reach py order ((mid ++ n) ++ b :: o) e.before := by
    rw [List.append_assoc]
    exact hreach.of_append.1
  obtain ⟨w₀, hw₀⟩ := hbefore.suffix
  have hrow : w₀.attempts.lookup request.attemptId = some (Ledger.startedRow p request fp) := by
    rw [hw₀.of_cons.2.2.2, hbegin]
    exact AList.lookup_insert _
  -- Only the step that stored the outcome wrote the row since.
  have hstored : ∀ e' ∈ mid ++ n, e'.step.writes request.attemptId = true →
      ∃ fin, e'.step = .finish request.attemptId res (some fin) := by
    intro e' he' hw
    have hmem : ∀ {u : ℕ} {tr : List Record}, e'.tid = u → e' ∈ tr → e'.step ∈ weighty (own u tr) :=
      fun hu hin => mem_weighty.mpr ⟨mem_own.mpr ⟨e', hin, hu, rfl⟩, Step.weighty_of_writes hw⟩
    rcases hwrites (newer ++ e :: (mid ++ n)) b o (by simp [htr]) hb ⟨p, request, fp, rec, hbegin, rfl⟩ e'
      (by simp [List.mem_append.mp he']) hw with hu | hu
    · rcases List.mem_append.mp he' with hin | hin
      · have := hmem hu (hmid.mem hin)
        rw [hsilent] at this
        exact absurd this List.not_mem_nil
      · have := hmem hu hin
        rw [hn] at this
        rcases List.mem_pair.mp this with h | h
        · exact ⟨fin, h⟩
        · rw [h] at hw
          cases hw
    · have := hmem hu (List.mem_append_left (b :: o) he')
      rw [List.append_assoc, hfirst] at this
      exact absurd this List.not_mem_nil
  obtain ⟨out, hlook, hout⟩ := row_after hbefore hw₀ hrow hstored
  obtain ⟨e', he', -, hstep⟩ : ∃ e' ∈ n, e'.tid = t ∧ e'.step = .finish request.attemptId res (some fin) :=
    mem_own.mp (mem_weighty.mp (hn ▸ List.mem_cons_self)).1
  rw [hout ⟨e', List.mem_append_right _ he', by rw [hstep]; exact decide_eq_true rfl⟩] at hlook
  exact ⟨fp, hlook⟩

/-- **Replay is faithful.** The text stored for a result is read back as that result; and an execution
of the same request, made after one that stored its outcome and returned, does not invoke the executor
and returns the same result, unless another call has written the row. -/
theorem replay_faithful (jp : JsonPlatform) (hframes : maxNesting ≤ jp.scannerFrames) :
    (∀ r res, r.storedValue.Everywhere (PyValue.Proper jp) → persistResult r = .ok res →
      ∃ text value r', Json.canonical res.json = some text ∧ loads jp defaultHooks text = .ok value ∧
        resultFromAttempt value = .ok r' ∧ r.Same r') ∧
    ∀ py order calls acts acts' t t' p request actor actor' r r' res fin,
      Returned py order calls acts t (.execute p request actor) (.executed r) →
      .finish request.attemptId res (some fin) ∈ own t (interleaved py order calls acts).trace →
      r.storedValue.Everywhere PyValue.DistinctKeys →
      (underway py order calls acts).next ≤ t' →
      Returned py order calls (acts ++ acts') t' (.execute p request actor') (.executed r') →
      Unreclassified t t' request.attemptId (interleaved py order calls (acts ++ acts')).trace →
      r.Same r' ∧ ∀ s ∈ own t' (interleaved py order calls (acts ++ acts')).trace, s.dispatch = none := by
  refine ⟨fun r res hr h => loads_persisted hframes hr h, ?_⟩
  intro py order calls acts acts' t t' p request actor actor' r r' res fin h hfin hd ht h' hwrites
  obtain ⟨later, fp', ⟨replayed, rec⟩, hkept, hreplay⟩ := (executed_steps h').first
  obtain ⟨newer, e, older, htr, he, hbegin, -, hfirst⟩ := weighty_split hkept
  obtain ⟨fp, hrow⟩ := row_at_begin h hfin hd ht hwrites htr he hfirst
  have hreach := interleaved_reach py order calls (acts ++ acts')
  rw [htr] at hreach
  have hanswer := hreach.answers
  rw [hbegin] at hanswer
  obtain ⟨ord, -, hanswer⟩ := hanswer
  obtain ⟨rfl, hstored⟩ : replayed = true ∧ rec.outcome = some res := by
    cases replayed with
    | false =>
      have hnone := Ledger.matching_eq_none (Ledger.begin_fresh hanswer.symm).1
      rw [hrow] at hnone
      cases hnone
    | true =>
      have hown := matching_own (keysUnique_of_reach hreach.of_append.1) hrow rfl rfl
        (Ledger.begin_replayed hanswer.symm).1
      exact ⟨rfl, congrArg AttemptRow.outcome hown⟩
  obtain ⟨rfl, hr'⟩ := hreplay res rfl hstored
  obtain ⟨-, -, r₁, hr₁, hsame⟩ := (executed_steps h).stored (mem_weighty.mpr ⟨hfin, rfl⟩) hd
  refine ⟨Except.ok.inj (hr₁.symm.trans hr') ▸ hsame, fun s hs => ?_⟩
  by_contra hdispatch
  have hweighty : s.weighty = true := by
    cases s
    case invokeExecutor => rfl
    all_goals exact absurd rfl hdispatch
  have hmem := mem_weighty.mpr ⟨hs, hweighty⟩
  rw [hkept, List.nil_append, List.mem_singleton] at hmem
  rw [hmem] at hdispatch
  exact hdispatch rfl

/-- A call started as `t`, with what the environment decides at its operations. -/
def alone (t : ℕ) (call : Call × List Oracle) : List (Machine.Action Call Oracle) :=
  .invoke call.1 :: call.2.map (.step t)

/-- A call that is started, and after which calls only make operations, stays under way. -/
theorem underway_invoked {c : Call} {steps : List (Machine.Action Call Oracle)}
    (hacts : acts' = acts ++ .invoke c :: steps) (hsteps : ∀ a ∈ steps, ∃ u o, a = .step u o)
    (hnext : (underway py order calls acts).next = t) :
    ∃ q, (underway py order calls acts').threads t = some (c, q) := by
  rw [hacts, underway_append, ← hnext]
  exact Machine.schedule_invoked _ hsteps

theorem alone_steps {call : Call × List Oracle} : ∀ a ∈ call.2.map (Machine.Action.step t),
    ∃ u o, a = (.step u o : Machine.Action Call Oracle) :=
  fun _ ha => let ⟨o, _, ho⟩ := List.mem_map.mp ha; ⟨t, o, ho.symm⟩

/-- A call whose program is computed to have returned this. -/
theorem returned_ended {c : Call} {steps : List (Machine.Action Call Oracle)} {x : CallResult}
    {ended : Call × Db CallResult → Bool} (hended : ∀ c q, ended (c, q) = true → q = .ret x)
    (h : ((underway py order calls acts').threads t).any ended = true)
    (hacts : acts' = acts ++ .invoke c :: steps) (hsteps : ∀ a ∈ steps, ∃ u o, a = .step u o)
    (hnext : (underway py order calls acts).next = t) : Returned py order calls acts' t c.method x := by
  obtain ⟨q, hq⟩ := underway_invoked hacts hsteps hnext
  rw [hq] at h
  exact ⟨c.policy, hq.trans (by rw [hended _ q h])⟩

end Replay

/-- The result of an executor that verified its own write. -/
def verifiedResult : ExecutionResult := ⟨.succeeded, [], some ⟨true, [], none⟩, none⟩

/-- The program has returned that result. -/
def returnsVerified (x : Call × Db CallResult) : Bool :=
  match x.2 with
  | .ret (.executed ⟨.succeeded, [], some ⟨true, [], none⟩, none⟩) => true
  | _ => false

theorem returnsVerified_eq_true (c : Call) (q : Db CallResult) (h : returnsVerified (c, q) = true) :
    q = .ret (.executed verifiedResult) := by
  unfold returnsVerified at h
  split at h
  · assumption
  · cases h

/-- Evidence with a tuple in it. -/
def tupleEvidence : ExecutionResult := ⟨.failed, [(.str "ids", .tuple [.int 1, .int 2])], none, some "late"⟩

/-- The step stored an outcome for `a`. -/
def storedA : Step → Bool
  | .finish "a" _ (some _) => true
  | _ => false

theorem storedA_eq_true {s : Step} (h : storedA s = true) :
    ∃ res fin, s = .finish requestA.attemptId res (some fin) := by
  unfold storedA at h
  split at h
  · exact ⟨_, _, rfl⟩
  · cases h

/-- The executions of `a`, one after the other. -/
def firstVerified : List (Machine.Action Call Oracle) := alone 1 (executing requestA verifiedResult)

def thenFailed : List (Machine.Action Call Oracle) := alone 2 (executing requestA tupleEvidence)

/-- A stored tuple is read back as a list; and an execution whose executor would fail now replays the
verified result of the one before. -/
theorem replay_faithful_verified :
    (∃ res text value r', persistResult tupleEvidence = .ok res ∧ Json.canonical res.json = some text ∧
      loads .sample defaultHooks text = .ok value ∧ resultFromAttempt value = .ok r' ∧
        tupleEvidence.Same r') ∧
      verifiedResult.Same verifiedResult ∧
      ∀ s ∈ own 2 (interleaved .sample none approvedCalls (firstVerified ++ thenFailed)).trace,
        s.dispatch = none := by
  obtain ⟨hread, hreplay⟩ := replay_faithful .sample (by decide)
  constructor
  · have hproper : tupleEvidence.storedValue.Everywhere (PyValue.Proper .sample) := by
      simp [tupleEvidence, ExecutionResult.storedValue, readbackValue, PyValue.ofFields, PyValue.text,
        PyValue.optText, PyValue.Everywhere, PyValue.EverywhereFields, PyValue.EverywhereItems, PyValue.Proper]
    have hok : (persistResult tupleEvidence).toBool = true := by decide +kernel
    cases hres : persistResult tupleEvidence with
    | ok res =>
      obtain ⟨text, value, r', h⟩ := hread tupleEvidence res hproper hres
      exact ⟨res, text, value, r', rfl, h⟩
    | error e =>
      rw [hres] at hok
      cases hok
  · have hdistinct : verifiedResult.storedValue.Everywhere PyValue.DistinctKeys := by
      simp [verifiedResult, ExecutionResult.storedValue, readbackValue, PyValue.ofFields, PyValue.text,
        PyValue.optText, PyValue.Everywhere, PyValue.EverywhereFields, PyValue.DistinctKeys]
    have hrun : ((underway .sample none approvedCalls firstVerified).threads 1).any returnsVerified = true ∧
        (underway .sample none approvedCalls firstVerified).next = 2 ∧
        ((underway .sample none approvedCalls (firstVerified ++ thenFailed)).threads 2).any
          returnsVerified = true ∧
        (∃ s ∈ own 1 (interleaved .sample none approvedCalls firstVerified).trace, storedA s = true) ∧
        ∀ e ∈ (interleaved .sample none approvedCalls (firstVerified ++ thenFailed)).trace,
          e.step.writes "a" = true → e.tid = 1 := by
      decide +kernel
    obtain ⟨hreturns, hnext, hreturns', ⟨s, hs, hstored⟩, hwrites⟩ := hrun
    obtain ⟨res, fin, rfl⟩ := storedA_eq_true hstored
    have hfirst := returned_ended returnsVerified_eq_true hreturns
      (show firstVerified = [] ++ alone 1 (executing requestA verifiedResult) from rfl) alone_steps rfl
    have hsecond := returned_ended returnsVerified_eq_true hreturns'
      (show _ = firstVerified ++ alone 2 (executing requestA tupleEvidence) from rfl) alone_steps hnext
    refine hreplay _ _ _ _ _ 1 2 _ _ _ _ _ _ res fin hfirst hs hdistinct hnext.le hsecond ?_
    exact fun newer b older htr _ _ e he hw => .inl (hwrites e (htr ▸ List.mem_append_left _ he) hw)

end Rpr
