import Mathlib

/-! A walk over an ordered map by an iterator, while keys are inserted. The iterator stands at a
key and moves on to the least greater one that is there then; an insertion leaves it where it is. -/

namespace OrderedWalk

variable {K : Type} [LinearOrder K]

/-- The least key after the given one, or the least of all. -/
def nextKey (keys : List K) (after : Option K) : Option K :=
  (keys.filter fun k => decide (∀ a ∈ after, a < k)).min?

/-- `place` is `none` at the end of the map. `made` has each inserted key, with the place of
the iterator then. -/
structure Walk (K : Type) where
  keys : List K
  place : Option K
  visited : List K
  made : List (K × K)

namespace Walk

def start (keys : List K) : Walk K where
  keys := keys
  place := nextKey keys none
  visited := (nextKey keys none).toList
  made := []

/-- The body of the loop, at `a`, inserts a key. -/
def insert (w : Walk K) (a k : K) : Walk K :=
  { w with keys := w.keys ++ [k], made := w.made ++ [(a, k)] }

/-- The iterator leaves `a`. -/
def next (w : Walk K) (a : K) : Walk K :=
  { w with
    place := nextKey w.keys (some a)
    visited := w.visited ++ (nextKey w.keys (some a)).toList }

def Passed (w : Walk K) (k : K) : Prop := ∀ a ∈ w.place, k ≤ a

structure Sound (w : Walk K) : Prop where
  sorted : w.visited.Pairwise (· < ·)
  known : ∀ k ∈ w.visited, k ∈ w.keys ∧ w.Passed k
  inserted : ∀ p ∈ w.made, p.2 ∈ w.keys ∧ w.Passed p.1
  visited_iff : ∀ k ∈ w.keys, w.Passed k → (k ∈ w.visited ↔ ∀ a, (a, k) ∈ w.made → a < k)

end Walk

theorem nextKey_some {keys : List K} {after : Option K} {b : K} (found : nextKey keys after = some b) :
    b ∈ keys ∧ (∀ a ∈ after, a < b) ∧ ∀ k ∈ keys, (∀ a ∈ after, a < k) → b ≤ k := by
  obtain ⟨member, least⟩ := List.min?_eq_some_iff.mp found
  obtain ⟨there, beyond⟩ := List.mem_filter.mp member
  refine ⟨there, of_decide_eq_true beyond, fun k listed later => ?_⟩
  exact least k (List.mem_filter.mpr ⟨listed, decide_eq_true later⟩)

theorem nextKey_none {keys : List K} {after : Option K} (ended : nextKey keys after = none) {k : K}
    (listed : k ∈ keys) : ¬ ∀ a ∈ after, a < k := by
  intro later
  have empty := List.min?_eq_none_iff.mp ended
  have member : k ∈ keys.filter fun k => decide (∀ a ∈ after, a < k) :=
    List.mem_filter.mpr ⟨listed, decide_eq_true later⟩
  rw [empty] at member
  cases member

namespace Walk

variable {w : Walk K} {a k : K}

theorem start_sound (keys : List K) : (start keys).Sound := by
  cases first : nextKey keys none with
  | none =>
    have empty : ∀ k, k ∉ keys := fun k listed => nextKey_none first listed (by simp)
    constructor <;> simp [start, first, empty]
  | some b =>
    obtain ⟨there, -, least⟩ := nextKey_some first
    refine ⟨by simp [start, first], ?_, by simp [start], ?_⟩
    · simp [start, first, Passed, there]
    · intro k listed passed
      have below : k ≤ b := passed b first
      have same : k = b := le_antisymm below (least k listed (by simp))
      simp [start, first, same]

theorem Sound.insert (h : w.Sound) (here : w.place = some a) (absent : k ∉ w.keys) :
    (w.insert a k).Sound where
  sorted := h.sorted
  known j visited := ⟨List.mem_append_left _ (h.known j visited).1, (h.known j visited).2⟩
  inserted p made := by
    rcases List.mem_append.mp made with old | new
    · exact ⟨List.mem_append_left _ (h.inserted p old).1, (h.inserted p old).2⟩
    · obtain rfl := List.mem_singleton.mp new
      refine ⟨List.mem_append_right _ (List.mem_singleton_self _), fun b at_b => ?_⟩
      exact (Option.some.inj (here.symm.trans at_b)).le
  visited_iff j listed passed := by
    rcases List.mem_append.mp listed with old | new
    · have other : j ≠ k := fun same => absent (same ▸ old)
      rw [Walk.insert, h.visited_iff j old passed]
      simp [other]
    · obtain rfl := List.mem_singleton.mp new
      have below : j ≤ a := passed a here
      refine iff_of_false (fun visited => absent (h.known j visited).1) fun later => ?_
      exact below.not_gt (later a (List.mem_append_right _ (List.mem_singleton_self _)))

theorem passed_next (here : w.place = some a) (passed : w.Passed k) : (w.next a).Passed k := by
  intro b at_b
  exact (passed a here).trans ((nextKey_some at_b).2.1 a rfl).le

theorem passed_cases (here : w.place = some a) (listed : k ∈ w.keys) (passed : (w.next a).Passed k) :
    w.Passed k ∨ (w.next a).place = some k := by
  by_cases beyond : a < k
  · right
    have later : ∀ b ∈ some a, b < k := by simpa using beyond
    cases found : nextKey w.keys (some a) with
    | none => exact absurd later (nextKey_none found listed)
    | some b =>
      have least := (nextKey_some found).2.2 k listed later
      rw [le_antisymm (passed b found) least]
      exact found
  · left
    intro b at_b
    obtain rfl := Option.some.inj (here.symm.trans at_b)
    exact not_lt.mp beyond

theorem Sound.next (h : w.Sound) (here : w.place = some a) : (w.next a).Sound := by
  have mem_visited : ∀ k, k ∈ (w.next a).visited ↔ k ∈ w.visited ∨ (w.next a).place = some k := by
    intro k
    rw [Walk.next, List.mem_append, Option.mem_toList]
  constructor
  · refine List.pairwise_append.mpr ⟨h.sorted, ?_, fun k visited b found => ?_⟩
    · cases nextKey w.keys (some a) <;> simp
    · have beyond := (nextKey_some (Option.mem_toList.mp found)).2.1 a rfl
      exact ((h.known k visited).2 a here).trans_lt beyond
  · intro k visited
    rcases (mem_visited k).mp visited with old | new
    · exact ⟨(h.known k old).1, passed_next here (h.known k old).2⟩
    · exact ⟨(nextKey_some new).1, fun b at_b => (Option.some.inj (new.symm.trans at_b)).le⟩
  · exact fun p made => ⟨(h.inserted p made).1, passed_next here (h.inserted p made).2⟩
  · intro k listed passed
    rw [mem_visited k]
    rcases passed_cases here listed passed with before | now
    · have other : (w.next a).place ≠ some k :=
        fun found => ((nextKey_some found).2.1 a rfl).not_ge (before a here)
      rw [or_iff_left other]
      exact h.visited_iff k listed before
    · refine iff_of_true (.inr now) fun b made => ?_
      exact ((h.inserted _ made).2 a here).trans_lt ((nextKey_some now).2.1 a rfl)

/-- At the end everything is visited but what was inserted behind the iterator. -/
theorem Sound.ended (h : w.Sound) (ended : w.place = none) (listed : k ∈ w.keys) :
    k ∈ w.visited ↔ ∀ a, (a, k) ∈ w.made → a < k :=
  h.visited_iff k listed (by simp [Passed, ended])

end Walk

end OrderedWalk
