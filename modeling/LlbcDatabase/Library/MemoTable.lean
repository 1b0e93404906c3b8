import Mathlib

/-! A table that keeps the first value it is given for each key. What it answers
for a key never changes, and is a value that was offered for that key. -/

namespace MemoTable

variable {K V : Type} [BEq K]

abbrev Table (K V : Type) := List (K × V)

/-- The value kept for `k`, which is `v` when there is none yet. -/
def memo (t : Table K V) (k : K) (v : V) : V × Table K V :=
  match t.lookup k with
  | some w => (w, t)
  | none => (v, (k, v) :: t)

def Extends (t u : Table K V) : Prop := ∀ k w, t.lookup k = some w → u.lookup k = some w

theorem Extends.refl (t : Table K V) : Extends t t := fun _ _ h => h

theorem Extends.trans {t u v : Table K V} (h : Extends t u) (h' : Extends u v) : Extends t v :=
  fun k w found => h' k w (h k w found)

theorem memo_hit {t : Table K V} {k : K} {w : V} (hit : t.lookup k = some w) (v : V) :
    memo t k v = (w, t) := by
  simp [memo, hit]

theorem memo_miss {t : Table K V} {k : K} (miss : t.lookup k = none) (v : V) :
    memo t k v = (v, (k, v) :: t) := by
  simp [memo, miss]

variable [LawfulBEq K]

theorem memo_lookup (t : Table K V) (k : K) (v : V) :
    (memo t k v).2.lookup k = some (memo t k v).1 := by
  cases found : t.lookup k with
  | some w => rw [memo_hit found, found]
  | none => rw [memo_miss found, List.lookup_cons_self]

theorem memo_extends (t : Table K V) (k : K) (v : V) : Extends t (memo t k v).2 := by
  intro j w hit
  cases found : t.lookup k with
  | some u => rwa [memo_hit found]
  | none =>
    have other : j ≠ k := by
      rintro rfl
      rw [found] at hit
      cases hit
    rw [memo_miss found, List.lookup_cons, beq_eq_false_iff_ne.mpr other]
    exact hit

theorem memo_source {t : Table K V} {j k : K} {v w : V}
    (found : (memo t k v).2.lookup j = some w) : t.lookup j = some w ∨ j = k ∧ w = v := by
  cases old : t.lookup k with
  | some u =>
    rw [memo_hit old] at found
    exact .inl found
  | none =>
    rw [memo_miss old, List.lookup_cons] at found
    by_cases same : j = k
    · subst same
      simp only [beq_self_eq_true, Option.some.injEq] at found
      exact .inr ⟨rfl, found.symm⟩
    · rw [beq_eq_false_iff_ne.mpr same] at found
      exact .inl found

end MemoTable
