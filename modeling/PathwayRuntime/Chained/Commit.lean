import Mathlib.Data.List.Forall2
import Mathlib.Data.List.Induction

/-!
# Hash chains

Entries that carry a hash, and the hash of the entry before them.

* `LinkedFrom`: every entry names the hash of the one before it.
* **`committed`**: when an entry's hash determines the entry, the last hash determines the chain.
-/

set_option autoImplicit false

namespace Chained

variable {E H : Type} (previous : E → Option H) (hash : E → H)

/-- Every entry names the hash of the one before it, the first one `h`. -/
def LinkedFrom : Option H → List E → Prop
  | _, [] => True
  | h, e :: es => previous e = h ∧ LinkedFrom (some (hash e)) es

/-- The hash an entry after these names. -/
def lastHash (h : Option H) (es : List E) : Option H := (es.getLast?.map hash).or h

variable {previous hash}

@[simp] theorem lastHash_concat (h : Option H) (es : List E) (e : E) :
    lastHash hash h (es ++ [e]) = some (hash e) := by
  rw [lastHash, List.getLast?_concat, Option.map_some]
  rfl

theorem lastHash_cons (h : Option H) (e : E) (es : List E) :
    lastHash hash h (e :: es) = lastHash hash (some (hash e)) es := by
  cases es using List.reverseRecOn with
  | nil => rfl
  | append_singleton es e' => rw [← List.cons_append, lastHash_concat, lastHash_concat]

theorem linkedFrom_concat {h : Option H} {es : List E} {e : E} :
    LinkedFrom previous hash h (es ++ [e]) ↔
      LinkedFrom previous hash h es ∧ previous e = lastHash hash h es := by
  induction es generalizing h with
  | nil => exact ⟨fun hl => ⟨trivial, hl.1⟩, fun hl => ⟨hl.2, trivial⟩⟩
  | cons e' es ih =>
    rw [List.cons_append, LinkedFrom, LinkedFrom, ih, lastHash_cons, and_assoc]

/-- **The last hash determines the chain**, as far as the hash of an entry determines the entry: what is left
open by `R` is left open for every entry, but no entry can be altered, removed, inserted or moved. -/
theorem committed {R : E → E → Prop} {es es' : List E} (hlink : LinkedFrom previous hash none es)
    (hlink' : LinkedFrom previous hash none es') (hhash : ∀ e ∈ es, ∀ e' ∈ es', hash e = hash e' → R e e')
    (hprevious : ∀ e e', R e e' → previous e = previous e')
    (hlast : lastHash hash none es = lastHash hash none es') : List.Forall₂ R es es' := by
  induction es using List.reverseRecOn generalizing es' with
  | nil =>
    cases es' using List.reverseRecOn with
    | nil => exact .nil
    | append_singleton es' e' => cases hlast.trans (lastHash_concat _ _ _)
  | append_singleton es e ih =>
    cases es' using List.reverseRecOn with
    | nil => cases hlast.symm.trans (lastHash_concat _ _ _)
    | append_singleton es' e' =>
      obtain ⟨hlink, he⟩ := linkedFrom_concat.mp hlink
      obtain ⟨hlink', he'⟩ := linkedFrom_concat.mp hlink'
      have hee' : R e e' := by
        rw [lastHash_concat, lastHash_concat] at hlast
        exact hhash e (List.mem_append_right _ List.mem_cons_self) e' (List.mem_append_right _ List.mem_cons_self)
          (Option.some.inj hlast)
      -- The entries before are linked to the same hash.
      have hbefore : lastHash hash none es = lastHash hash none es' := by
        rw [← he, ← he', hprevious e e' hee']
      refine List.rel_append (ih hlink hlink' (fun x hx x' hx' => ?_) hbefore) (.cons hee' .nil)
      exact hhash x (List.mem_append_left _ hx) x' (List.mem_append_left _ hx')

end Chained
