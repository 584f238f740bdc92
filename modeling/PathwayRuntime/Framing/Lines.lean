import Mathlib.Data.List.Basic
import Mathlib.Data.List.Infix
import Mathlib.Tactic.SplitIfs

/-!
# Lines of a stream, however it is cut

A stream of symbols is a sequence of **lines**, each ended by the symbol `lf`, and a **tail** without
one. A reader receives the stream in chunks, keeps the tail in a buffer and decodes the lines; it stops
for good at the first line it cannot decode and at a tail longer than its limit.

* `cut`: the lines and the tail; `cut_append`: what more symbols add.
* `read`, `feed`, `feedAll`: a whole stream, one chunk, a list of chunks.
* **`feedAll_eq`**: fed in chunks, a reader ends as it does on the whole stream, and it delivers the
  messages of the whole stream, or some first ones of them if it stops.
-/

set_option autoImplicit false

namespace Framing

variable {α β : Type} (lf : α)

/-- The stream of these lines and this tail. -/
def join (lines : List (List α)) (tail : List α) : List α := lines.flatMap (· ++ [lf]) ++ tail

@[simp] theorem join_nil (tail : List α) : join lf [] tail = tail := rfl

@[simp] theorem join_cons (l : List α) (ls : List (List α)) (tail : List α) :
    join lf (l :: ls) tail = l ++ lf :: join lf ls tail := by
  simp [join]

theorem join_append (ls ls' : List (List α)) (tail : List α) :
    join lf (ls ++ ls') tail = join lf ls (join lf ls' tail) := by
  simp [join, List.flatMap_append]

variable [DecidableEq α]

/-- The lines of a stream, without their ends, and the tail after the last of them. -/
def cut : List α → List (List α) × List α
  | [] => ([], [])
  | a :: s =>
    if a = lf then ([] :: (cut s).1, (cut s).2)
    else match cut s with
      | ([], tail) => ([], a :: tail)
      | (l :: ls, tail) => ((a :: l) :: ls, tail)

@[simp] theorem cut_nil : cut lf [] = ([], []) := rfl

/-- Nothing is lost. -/
theorem join_cut (s : List α) : join lf (cut lf s).1 (cut lf s).2 = s := by
  induction s with
  | nil => rfl
  | cons a s ih =>
    rw [cut]
    split_ifs with h
    · rw [join_cons, ih, h, List.nil_append]
    · split
      · rename_i tail hcut
        rw [hcut] at ih
        rw [join_nil, ← ih, join_nil]
      · rename_i l ls tail hcut
        rw [hcut, join_cons] at ih
        rw [join_cons, List.cons_append, ih]

/-- The lines and the tail have no end in them. -/
theorem notMem_cut (s : List α) : (∀ l ∈ (cut lf s).1, lf ∉ l) ∧ lf ∉ (cut lf s).2 := by
  induction s with
  | nil => simp
  | cons a s ih =>
    rw [cut]
    split_ifs with h
    · exact ⟨List.forall_mem_cons.mpr ⟨List.not_mem_nil, ih.1⟩, ih.2⟩
    · have ha : lf ≠ a := Ne.symm h
      split
      · rename_i tail hcut
        rw [hcut] at ih
        exact ⟨ih.1, List.not_mem_cons_of_ne_of_not_mem ha ih.2⟩
      · rename_i l ls tail hcut
        rw [hcut] at ih
        obtain ⟨hl, hls⟩ := List.forall_mem_cons.mp ih.1
        exact ⟨List.forall_mem_cons.mpr ⟨List.not_mem_cons_of_ne_of_not_mem ha hl, hls⟩, ih.2⟩

variable {lf}

/-- A stream without an end is all tail. -/
theorem cut_of_notMem {s : List α} (h : lf ∉ s) : cut lf s = ([], s) := by
  induction s with
  | nil => rfl
  | cons a s ih =>
    rw [cut, if_neg (Ne.symm (List.ne_of_not_mem_cons h)), ih (List.not_mem_of_not_mem_cons h)]

/-- The first line of a stream. -/
theorem cut_line {l : List α} (h : lf ∉ l) (s : List α) :
    cut lf (l ++ lf :: s) = (l :: (cut lf s).1, (cut lf s).2) := by
  induction l with
  | nil => rw [List.nil_append, cut, if_pos rfl]
  | cons a l ih =>
    rw [List.cons_append, cut, if_neg (Ne.symm (List.ne_of_not_mem_cons h)),
      ih (List.not_mem_of_not_mem_cons h)]

/-- Lines without an end in them are the lines of their stream. -/
theorem cut_join {lines : List (List α)} (h : ∀ l ∈ lines, lf ∉ l) (s : List α) :
    cut lf (join lf lines s) = (lines ++ (cut lf s).1, (cut lf s).2) := by
  induction lines with
  | nil => rfl
  | cons l ls ih =>
    obtain ⟨hl, hls⟩ := List.forall_mem_cons.mp h
    rw [join_cons, cut_line hl, ih hls, List.cons_append]

/-- **What more symbols add**: they continue the tail. -/
theorem cut_append (s t : List α) : cut lf (s ++ t) =
    ((cut lf s).1 ++ (cut lf ((cut lf s).2 ++ t)).1, (cut lf ((cut lf s).2 ++ t)).2) := by
  conv_lhs => rw [← join_cut lf s]
  rw [show join lf (cut lf s).1 (cut lf s).2 ++ t = join lf (cut lf s).1 ((cut lf s).2 ++ t) by
    simp [join]]
  exact cut_join (notMem_cut lf s).1 _

/-- A tail is the beginning of the next line, or of the next tail. -/
theorem tail_prefix {tail : List α} (h : lf ∉ tail) (t : List α) :
    ((cut lf (tail ++ t)).1 = [] ∧ tail <+: (cut lf (tail ++ t)).2) ∨
      ∃ l ls, (cut lf (tail ++ t)).1 = l :: ls ∧ tail <+: l := by
  by_cases ht : lf ∈ t
  · obtain ⟨a, b, rfl, ha⟩ := List.eq_append_cons_of_mem ht
    have hline : lf ∉ tail ++ a := fun hm => (List.mem_append.mp hm).elim h ha
    rw [← List.append_assoc, cut_line hline]
    exact .inr ⟨tail ++ a, _, rfl, List.prefix_append tail a⟩
  · rw [cut_of_notMem fun hm => (List.mem_append.mp hm).elim h ht]
    exact .inl ⟨rfl, List.prefix_append tail t⟩

/-! ## Readers -/

section Accepted

variable (decode : List α → Option β)

/-- The messages of the lines before the first one that cannot be decoded. -/
def accepted : List (List α) → List β
  | [] => []
  | l :: ls =>
    match decode l with
    | some m => m :: accepted ls
    | none => []

variable {decode}

omit [DecidableEq α] in
theorem accepted_append {ls : List (List α)} {ms : List β} (h : ls.mapM decode = some ms)
    (ls' : List (List α)) : accepted decode (ls ++ ls') = ms ++ accepted decode ls' := by
  induction ls generalizing ms with
  | nil =>
    obtain rfl : [] = ms := Option.some.inj h
    rfl
  | cons l ls ih =>
    rw [List.mapM_cons] at h
    obtain ⟨m, hm, h⟩ := Option.bind_eq_some_iff.mp h
    obtain ⟨rest, hrest, h⟩ := Option.bind_eq_some_iff.mp h
    obtain rfl : m :: rest = ms := Option.some.inj h
    rw [List.cons_append, accepted, hm]
    simp only
    rw [ih hrest, List.cons_append]

end Accepted

variable (lf) (decode : List α → Option β) (limit : ℕ)

/-- A whole stream: its messages and its tail, unless the reader stops. -/
def read (s : List α) : Option (List β × List α) :=
  match (cut lf s).1.mapM decode with
  | some ms => if (cut lf s).2.length ≤ limit then some (ms, (cut lf s).2) else none
  | none => none

/-- One chunk: the messages it completes and the new buffer. -/
def feed (buffer chunk : List α) : Option (List β × List α) :=
  if chunk = [] then some ([], buffer) else read lf decode limit (buffer ++ chunk)

/-- A list of chunks: what is delivered, and the buffer unless the reader stopped. -/
def feedAll : List α → List (List α) → List β × Option (List α)
  | buffer, [] => ([], some buffer)
  | buffer, chunk :: chunks =>
    match feed lf decode limit buffer chunk with
    | some (ms, buffer) => (ms ++ (feedAll buffer chunks).1, (feedAll buffer chunks).2)
    | none => ([], none)

variable {lf decode limit}

theorem read_eq_some {s : List α} {ms : List β} {tail : List α} : read lf decode limit s = some (ms, tail) ↔
    (cut lf s).1.mapM decode = some ms ∧ (cut lf s).2 = tail ∧ tail.length ≤ limit := by
  rw [read]
  cases (cut lf s).1.mapM decode with
  | none => simp
  | some ms' =>
    simp only
    split_ifs with hlen
    · constructor
      · intro h
        obtain ⟨rfl, rfl⟩ := Prod.mk.inj (Option.some.inj h)
        exact ⟨rfl, rfl, hlen⟩
      · rintro ⟨h, rfl, -⟩
        rw [Option.some.inj h]
    · constructor
      · intro h
        cases h
      · rintro ⟨-, rfl, hle⟩
        exact absurd hle hlen

/-- A buffer is all tail. -/
theorem read_buffer {buffer : List α} (hlf : lf ∉ buffer) (hlen : buffer.length ≤ limit) :
    read lf decode limit buffer = some ([], buffer) := by
  rw [read_eq_some, cut_of_notMem hlf]
  exact ⟨rfl, rfl, hlen⟩

/-- What is left to read is a buffer. -/
theorem read_tail {s : List α} {ms : List β} {tail : List α}
    (h : read lf decode limit s = some (ms, tail)) : lf ∉ tail ∧ tail.length ≤ limit := by
  obtain ⟨-, rfl, hlen⟩ := read_eq_some.mp h
  exact ⟨(notMem_cut lf s).2, hlen⟩

/-- Reading on from the tail. -/
theorem read_append {s t : List α} {ms : List β} {tail : List α}
    (h : read lf decode limit s = some (ms, tail)) : read lf decode limit (s ++ t) =
      (read lf decode limit (tail ++ t)).map fun r => (ms ++ r.1, r.2) := by
  obtain ⟨hms, rfl, -⟩ := read_eq_some.mp h
  rw [read, read, cut_append, List.mapM_append, hms]
  cases (cut lf ((cut lf s).2 ++ t)).1.mapM decode with
  | none => rfl
  | some rest =>
    simp only [Option.bind_eq_bind, Option.bind_some, Option.pure_def]
    split_ifs <;> rfl

/-- **A stream that can be read can be read up to any moment.** -/
theorem read_prefix (hlimit : ∀ l m, decode l = some m → l.length ≤ limit) {s t : List α}
    (h : (read lf decode limit (s ++ t)).isSome) : (read lf decode limit s).isSome := by
  obtain ⟨⟨ms, tail⟩, h⟩ := Option.isSome_iff_exists.mp h
  obtain ⟨hms, htail, hlen⟩ := read_eq_some.mp h
  rw [cut_append] at hms htail
  rw [List.mapM_append] at hms
  obtain ⟨first, hfirst, hrest⟩ := Option.bind_eq_some_iff.mp hms
  refine Option.isSome_iff_exists.mpr ⟨(first, (cut lf s).2), read_eq_some.mpr ⟨hfirst, rfl, ?_⟩⟩
  obtain ⟨rest, hrest, -⟩ := Option.bind_eq_some_iff.mp hrest
  -- The tail was continued to a line that was decoded, or to the last tail.
  rcases tail_prefix (notMem_cut lf s).2 t with ⟨-, hstarts⟩ | ⟨l, ls, hls, hstarts⟩
  · exact hstarts.length_le.trans (htail ▸ hlen)
  · rw [hls, List.mapM_cons] at hrest
    obtain ⟨m, hm, -⟩ := Option.bind_eq_some_iff.mp hrest
    exact hstarts.length_le.trans (hlimit l m hm)

/-- The messages of a stream that can be read are the first ones of every longer stream. -/
theorem read_accepted {s t : List α} {ms : List β} {tail : List α}
    (h : read lf decode limit s = some (ms, tail)) :
    accepted decode (cut lf (s ++ t)).1 = ms ++ accepted decode (cut lf (tail ++ t)).1 := by
  obtain ⟨hms, rfl, -⟩ := read_eq_some.mp h
  rw [cut_append, accepted_append hms]

variable (lf decode limit) in
/-- **However a stream is cut into chunks**, a reader ends as on the whole stream, and delivers the
messages of the whole stream; if it stops, it delivered some first ones of them. -/
theorem feedAll_eq (hlimit : ∀ l m, decode l = some m → l.length ≤ limit) (chunks : List (List α))
    (buffer : List α) (hlf : lf ∉ buffer) (hlen : buffer.length ≤ limit) :
    match read lf decode limit (buffer ++ chunks.flatten) with
    | some (ms, tail) => feedAll lf decode limit buffer chunks = (ms, some tail)
    | none => (feedAll lf decode limit buffer chunks).2 = none ∧
        (feedAll lf decode limit buffer chunks).1 <+:
          accepted decode (cut lf (buffer ++ chunks.flatten)).1 := by
  induction chunks generalizing buffer with
  | nil =>
    rw [List.flatten_nil, List.append_nil, read_buffer hlf hlen]
    rfl
  | cons chunk chunks ih =>
    rw [List.flatten_cons, ← List.append_assoc, feedAll, feed]
    by_cases hchunk : chunk = []
    · subst hchunk
      rw [if_pos rfl, List.append_nil]
      exact ih buffer hlf hlen
    rw [if_neg hchunk]
    cases hread : read lf decode limit (buffer ++ chunk) with
    | none =>
      have hstop : read lf decode limit (buffer ++ chunk ++ chunks.flatten) = none := by
        by_contra hne
        have := read_prefix hlimit (Option.isSome_iff_ne_none.mpr hne)
        rw [hread] at this
        cases this
      rw [hstop]
      exact ⟨rfl, List.nil_prefix⟩
    | some r =>
      obtain ⟨ms, tail⟩ := r
      obtain ⟨htail, htailLen⟩ := read_tail hread
      have hrest := ih tail htail htailLen
      rw [read_append hread, read_accepted hread]
      cases hon : read lf decode limit (tail ++ chunks.flatten) with
      | none =>
        rw [hon] at hrest
        exact ⟨hrest.1, (List.prefix_append_right_inj ms).mpr hrest.2⟩
      | some r =>
        rw [hon] at hrest
        simp only [Option.map_some]
        rw [hrest]

end Framing
