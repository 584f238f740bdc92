import Mathlib.Data.List.Dedup
import Mathlib.Data.List.Induction
import PathwayRuntime.Python.Sorted

/-!
# Mappings built by assignment

A mapping keeps its keys in the order in which they came in, each with the value it was given last.

* `update`: `mapping[key] = value`; `merged`: assignments one after another.
* `keys_merged`, `lookup_merged`: the keys and the values of such a mapping.
* `renamed_lookup`: what is found when the keys are renamed on the way into a second mapping.
-/

set_option autoImplicit false

namespace Rpr

variable {α β : Type} [DecidableEq α]

/-- `mapping[key] = value`. -/
def update (key : α) (value : β) : List (α × β) → List (α × β)
  | [] => [(key, value)]
  | (k, v) :: entries => if k = key then (k, value) :: entries else (k, v) :: update key value entries

/-- The assignments, in order, to what is there. -/
def updateAll (entries assigned : List (α × β)) : List (α × β) :=
  assigned.foldl (fun entries e => update e.1 e.2 entries) entries

/-- The mapping the assignments build. -/
def merged (assigned : List (α × β)) : List (α × β) := updateAll [] assigned

theorem merged_concat (assigned : List (α × β)) (e : α × β) :
    merged (assigned ++ [e]) = update e.1 e.2 (merged assigned) := by
  rw [merged, updateAll, List.foldl_append]
  rfl

theorem updateAll_merged (entries assigned : List (α × β)) :
    updateAll (merged entries) assigned = merged (entries ++ assigned) := by
  rw [merged, merged, updateAll, updateAll, updateAll, List.foldl_append]

theorem keys_update (key : α) (value : β) (entries : List (α × β)) : (update key value entries).map Prod.fst =
    if key ∈ entries.map Prod.fst then entries.map Prod.fst else entries.map Prod.fst ++ [key] := by
  induction entries with
  | nil => rfl
  | cons e entries ih =>
    obtain ⟨k, v⟩ := e
    by_cases hk : k = key
    · simp [update, hk]
    · rw [update, if_neg hk, List.map_cons, ih, List.map_cons]
      simp only [List.mem_cons, Ne.symm hk, false_or]
      split_ifs <;> rfl

theorem lookup_cons_ite (key : α) (e : α × β) (entries : List (α × β)) :
    (e :: entries).lookup key = if key = e.1 then some e.2 else entries.lookup key := by
  rw [List.lookup_cons]
  split_ifs with hk
  · rw [beq_iff_eq.mpr hk]
  · rw [beq_eq_false_iff_ne.mpr hk]

theorem lookup_update (key : α) (value : β) (entries : List (α × β)) (k : α) :
    (update key value entries).lookup k = if k = key then some value else entries.lookup k := by
  induction entries with
  | nil => exact lookup_cons_ite k (key, value) []
  | cons e entries ih =>
    obtain ⟨k', v⟩ := e
    by_cases hk' : k' = key
    · subst hk'
      rw [update, if_pos rfl, lookup_cons_ite, lookup_cons_ite]
      split_ifs <;> rfl
    · rw [update, if_neg hk', lookup_cons_ite, lookup_cons_ite, ih]
      split_ifs with hk hkey
      · exact absurd (hk.symm.trans hkey) hk'
      · rfl
      · rfl
      · rfl

/-- **Keys stand in the order in which they came in.** -/
theorem keys_merged (assigned : List (α × β)) :
    (merged assigned).map Prod.fst = (assigned.map Prod.fst).reverse.dedup.reverse := by
  induction assigned using List.reverseRecOn with
  | nil => rfl
  | append_singleton assigned e ih =>
    rw [merged_concat, keys_update, ih, List.map_append, List.reverse_append, List.map_singleton,
      List.reverse_singleton, List.singleton_append]
    simp only [List.mem_reverse, List.mem_dedup]
    split_ifs with h
    · rw [List.dedup_cons_of_mem (List.mem_reverse.mpr h)]
    · rw [List.dedup_cons_of_notMem (mt List.mem_reverse.mp h), List.reverse_cons]

theorem nodup_keys_merged (assigned : List (α × β)) : ((merged assigned).map Prod.fst).Nodup := by
  rw [keys_merged, List.nodup_reverse]
  exact List.nodup_dedup _

/-- **A key has the value it was given last.** -/
theorem lookup_merged (assigned : List (α × β)) (key : α) :
    (merged assigned).lookup key = assigned.reverse.lookup key := by
  induction assigned using List.reverseRecOn with
  | nil => rfl
  | append_singleton assigned e ih =>
    rw [merged_concat, lookup_update, ih, List.reverse_append, List.reverse_singleton, List.singleton_append,
      lookup_cons_ite]

/-! ## Renaming the keys -/

/-- Of the keys that are renamed to `name`, the one that came in last. -/
def lastNamed {γ : Type} [DecidableEq γ] (rename : α → γ) (name : γ) (keys : List α) : Option α :=
  (keys.filter fun key => rename key = name).reverse.dedup.head?

theorem dedup_filter (p : α → Bool) (keys : List α) : (keys.filter p).dedup = keys.dedup.filter p := by
  induction keys with
  | nil => rfl
  | cons key keys ih =>
    by_cases hp : p key = true
    · rw [List.filter_cons_of_pos hp]
      by_cases hmem : key ∈ keys
      · rw [List.dedup_cons_of_mem hmem, List.dedup_cons_of_mem (List.mem_filter.mpr ⟨hmem, hp⟩), ih]
      · rw [List.dedup_cons_of_notMem hmem, List.dedup_cons_of_notMem fun h => hmem (List.mem_filter.mp h).1, ih,
          List.filter_cons_of_pos hp]
    · rw [List.filter_cons_of_neg hp, ih]
      by_cases hmem : key ∈ keys
      · rw [List.dedup_cons_of_mem hmem]
      · rw [List.dedup_cons_of_notMem hmem, List.filter_cons_of_neg hp]

theorem lastNamed_eq {γ : Type} [DecidableEq γ] (rename : α → γ) (name : γ) (keys : List α) :
    lastNamed rename name keys = keys.reverse.dedup.find? fun key => rename key = name := by
  rw [lastNamed, ← List.filter_reverse, dedup_filter, List.head?_filter]

/-- The first entry whose key is renamed so is found under its key. -/
theorem lookup_map_rename {γ : Type} [DecidableEq γ] (rename : α → γ) (name : γ) (entries : List (α × β)) :
    (entries.map fun e => (rename e.1, e.2)).lookup name =
      ((entries.map Prod.fst).find? fun key => rename key = name).bind fun key => entries.lookup key := by
  induction entries with
  | nil => rfl
  | cons e entries ih =>
    obtain ⟨k, v⟩ := e
    by_cases hk : rename k = name
    · simp [hk]
    · rw [List.map_cons, List.lookup_cons, List.map_cons, List.find?_cons_of_neg (by simpa using hk), ih]
      have hname : (name == rename k) = false := by simpa using Ne.symm hk
      rw [hname]
      refine Option.bind_congr fun key hkey => ?_
      have hrename : rename key = name := by simpa using List.find?_some hkey
      have hne : (key == k) = false := beq_eq_false_iff_ne.mpr fun h => hk (h ▸ hrename)
      rw [List.lookup_cons, hne]

/-- **What a second mapping holds** when the entries of the first go in under new names. -/
theorem renamed_lookup {γ : Type} [DecidableEq γ] (rename : α → γ) (name : γ) (assigned : List (α × β)) :
    (merged ((merged assigned).map fun e => (rename e.1, e.2))).lookup name =
      (lastNamed rename name (assigned.map Prod.fst)).bind fun key => assigned.reverse.lookup key := by
  have hlookup : ∀ key, (merged assigned).reverse.lookup key = assigned.reverse.lookup key := by
    intro key
    refine Eq.trans ?_ (lookup_merged assigned key)
    have hnd := nodup_keys_merged assigned
    refine ((Json.perm_iff_lookup ?_ hnd).mp (merged assigned).reverse_perm) key
    rwa [List.map_reverse, List.nodup_reverse]
  rw [lookup_merged, ← List.map_reverse, lookup_map_rename, List.map_reverse, keys_merged, List.reverse_reverse,
    lastNamed_eq]
  exact Option.bind_congr fun key _ => hlookup key

end Rpr
