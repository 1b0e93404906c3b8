import Mathlib

/-! Cells that are edited in memory and written back to a store. Cell `i` belongs to
the place `place i` of the store. A save writes the cells set since the last save, and
no other place. -/

namespace WriteBack

variable {I P V : Type} [DecidableEq I]

structure Cells (I P V : Type) where
  value : I → V
  store : P → V
  /-- The cells set since the start, and those set since the last save. -/
  written : Finset I
  unsaved : Finset I

namespace Cells

structure Sets (i : I) (s t : Cells I P V) : Prop where
  value : ∀ j, j ≠ i → t.value j = s.value j
  store : t.store = s.store
  written : t.written = insert i s.written
  unsaved : t.unsaved = insert i s.unsaved

structure Saves (place : I → P) (s t : Cells I P V) : Prop where
  value : t.value = s.value
  saved : ∀ i ∈ s.unsaved, t.store (place i) = s.value i
  kept : ∀ p, (∀ i ∈ s.unsaved, place i ≠ p) → t.store p = s.store p
  written : t.written = s.written
  unsaved : t.unsaved = ∅

structure Coherent (place : I → P) (start : P → V) (s : Cells I P V) : Prop where
  subset : s.unsaved ⊆ s.written
  saved : ∀ i ∈ s.written, i ∉ s.unsaved → s.store (place i) = s.value i
  kept : ∀ p, (∀ i ∈ s.written, place i ≠ p) → s.store p = start p

variable {place : I → P} {start : P → V} {s t : Cells I P V}

theorem Coherent.sets (h : Coherent place start s) {i : I} (set : Sets i s t) :
    Coherent place start t := by
  refine ⟨?_, ?_, ?_⟩
  · rw [set.written, set.unsaved]
    exact Finset.insert_subset_insert i h.subset
  · intro j written clean
    rw [set.unsaved, Finset.mem_insert, not_or] at clean
    rw [set.written, Finset.mem_insert, or_iff_right clean.1] at written
    rw [set.store, set.value j clean.1]
    exact h.saved j written clean.2
  · intro p other
    rw [set.store]
    apply h.kept p
    intro j written
    apply other j
    rw [set.written]
    exact Finset.mem_insert_of_mem written

omit [DecidableEq I] in
theorem Coherent.saves (h : Coherent place start s)
    (own : ∀ i ∈ s.unsaved, ∀ j ∈ s.written, place i = place j → i = j) (save : Saves place s t) :
    Coherent place start t := by
  refine ⟨?_, ?_, ?_⟩
  · rw [save.unsaved]
    exact Finset.empty_subset _
  · intro i written _
    rw [save.written] at written
    rw [save.value]
    by_cases dirty : i ∈ s.unsaved
    · exact save.saved i dirty
    · have untouched : ∀ j ∈ s.unsaved, place j ≠ place i := by
        intro j unsaved same
        have here := own j unsaved i written same
        exact dirty (here ▸ unsaved)
      rw [save.kept _ untouched]
      exact h.saved i written dirty
  · intro p other
    rw [save.written] at other
    rw [save.kept p fun i unsaved => other i (h.subset unsaved)]
    exact h.kept p other

end Cells

end WriteBack
