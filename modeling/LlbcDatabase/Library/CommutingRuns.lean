import Mathlib

/-! Lists of operations split into classes, and the runs of such lists on a state.
Two orders that agree inside every class are permutations of each other; when
operations of different classes are independent, they also run alike. -/

namespace CommutingRuns

variable {T K R D : Type}

section Classes

variable [DecidableEq K] (cls : T → K)

def part (k : K) (ops : List T) : List T := ops.filter fun t => cls t = k

@[simp] theorem part_nil (k : K) : part cls k [] = [] := rfl

@[simp] theorem part_append (k : K) (xs ys : List T) :
    part cls k (xs ++ ys) = part cls k xs ++ part cls k ys := List.filter_append ..

theorem part_singleton (k : K) (t : T) : part cls k [t] = if cls t = k then [t] else [] := by
  by_cases h : cls t = k <;> simp [part, h]

theorem mem_part {k : K} {ops : List T} {t : T} : t ∈ part cls k ops ↔ t ∈ ops ∧ cls t = k := by
  simp [part]

theorem part_eq_nil {k : K} {ops : List T} (h : ∀ t ∈ ops, cls t ≠ k) : part cls k ops = [] :=
  List.filter_eq_nil_iff.mpr fun t member => by simpa using h t member

theorem part_part {L : Type} [DecidableEq L] (fine : T → L) {k : K} {l : L} {ops : List T}
    (coarse : ∀ t, fine t = l → cls t = k) : part fine l (part cls k ops) = part fine l ops := by
  simp only [part, List.filter_filter]
  refine List.filter_congr fun t _ => ?_
  by_cases h : fine t = l
  · simp [h, coarse t h]
  · simp [h]

theorem filter_part {p : T → Bool} {k : K} {ops : List T} (own : ∀ t ∈ ops, p t = true → cls t = k) :
    (part cls k ops).filter p = ops.filter p := by
  rw [part, List.filter_filter]
  refine List.filter_congr fun t member => ?_
  by_cases h : p t = true
  · simp [h, own t member h]
  · simp [h]

theorem part_flatMap {I : Type} {own : I → K} (distinct : Function.Injective own) {f : I → List T}
    {l : List I} (nodup : l.Nodup) (classes : ∀ j ∈ l, ∀ t ∈ f j, cls t = own j) {i : I}
    (member : i ∈ l) : part cls (own i) (l.flatMap f) = f i := by
  induction l with
  | nil => cases member
  | cons j rest ih =>
    obtain ⟨fresh, nodup⟩ := List.nodup_cons.mp nodup
    obtain ⟨first, others⟩ := List.forall_mem_cons.mp classes
    rw [List.flatMap_cons, part_append]
    rcases List.mem_cons.mp member with rfl | later
    · have whole : part cls (own i) (f i) = f i :=
        List.filter_eq_self.mpr fun t inside => by simpa using first t inside
      have none : part cls (own i) (rest.flatMap f) = [] := by
        refine part_eq_nil cls fun t inside same => fresh ?_
        obtain ⟨k, here, inside⟩ := List.mem_flatMap.mp inside
        obtain rfl : k = i := distinct ((others k here t inside).symm.trans same)
        exact here
      rw [whole, none, List.append_nil]
    · have none : part cls (own i) (f j) = [] := by
        refine part_eq_nil cls fun t inside same => fresh ?_
        obtain rfl : j = i := distinct ((first t inside).symm.trans same)
        exact later
      rw [none, List.nil_append, ih nodup others later]

theorem subperm_of_part_prefix {xs ys : List T} (h : ∀ k, part cls k xs <+: part cls k ys) :
    xs.Subperm ys := by
  classical
  rw [List.subperm_ext_iff]
  intro t _
  have bound := (h (cls t)).sublist.count_le t
  simpa [part, List.count_filter] using bound

theorem perm_of_part_eq {xs ys : List T} (h : ∀ k, part cls k xs = part cls k ys) :
    xs.Perm ys := by
  classical
  rw [List.perm_iff_count]
  intro t
  have same := congrArg (List.count t) (h (cls t))
  simpa [part, List.count_filter] using same

end Classes

section Runs

variable (exec : T → D → R × D)

def runAll : List T → D → List (T × R) × D
  | [], d => ([], d)
  | t :: rest, d =>
    let after := runAll rest (exec t d).2
    ((t, (exec t d).1) :: after.1, after.2)

theorem runAll_append (xs ys : List T) (d : D) :
    runAll exec (xs ++ ys) d =
      ((runAll exec xs d).1 ++ (runAll exec ys (runAll exec xs d).2).1,
        (runAll exec ys (runAll exec xs d).2).2) := by
  induction xs generalizing d with
  | nil => rfl
  | cons t rest ih => simp [runAll, ih]

/-- Neither operation sees whether the other ran before it. -/
def Independent (a b : T) : Prop :=
  ∀ d, (exec b (exec a d).2).2 = (exec a (exec b d).2).2 ∧
    (exec b (exec a d).2).1 = (exec b d).1 ∧ (exec a (exec b d).2).1 = (exec a d).1

theorem Independent.map {R' : Type} {exec' : T → D → R' × D} {present : T → R → R'}
    (same : ∀ t d, exec' t d = (present t (exec t d).1, (exec t d).2)) {a b : T}
    (indep : Independent exec a b) : Independent exec' a b := by
  intro d
  obtain ⟨state, first, second⟩ := indep d
  simp only [same]
  rw [first, second]
  exact ⟨state, rfl, rfl⟩

/-- An operation independent of all before it may run first. -/
theorem runAll_move {a : T} {pre : List T} (indep : ∀ b ∈ pre, Independent exec a b)
    (post : List T) (d : D) :
    (runAll exec (pre ++ a :: post) d).2 = (runAll exec (a :: (pre ++ post)) d).2 ∧
      (runAll exec (pre ++ a :: post) d).1.Perm (runAll exec (a :: (pre ++ post)) d).1 := by
  induction pre generalizing d with
  | nil => exact ⟨rfl, .refl _⟩
  | cons b pre ih =>
    obtain ⟨state, results⟩ := ih (fun c member => indep c (by simp [member])) (exec b d).2
    obtain ⟨commute, sameB, sameA⟩ := indep b (by simp) d
    simp only [List.cons_append, runAll] at state results ⊢
    rw [commute, sameB]
    rw [sameA] at results
    rw [← commute] at state results ⊢
    exact ⟨by rw [state, commute], (results.cons _).trans (by rw [commute]; exact .swap _ _ _)⟩

/-- Orders that agree inside every class run alike when different classes are
independent. The head of the first order is the first of its class in the second. -/
theorem runAll_of_part_eq [DecidableEq K] (cls : T → K) {xs ys : List T}
    (indep : ∀ a ∈ xs, ∀ b ∈ xs, cls a ≠ cls b → Independent exec a b)
    (same : ∀ k, part cls k xs = part cls k ys) (d : D) :
    (runAll exec xs d).2 = (runAll exec ys d).2 ∧
      (runAll exec xs d).1.Perm (runAll exec ys d).1 := by
  induction xs generalizing ys d with
  | nil =>
    have none : ys = [] := (perm_of_part_eq cls same).symm.eq_nil
    subst none
    exact ⟨rfl, .refl _⟩
  | cons a xs ih =>
    have members : ∀ b ∈ ys, b ∈ a :: xs :=
      fun b member => (perm_of_part_eq cls same).symm.subset member
    have first := same (cls a)
    simp only [part, List.filter_cons, decide_true, if_true] at first
    obtain ⟨pre, post, rfl, others, -, -⟩ := List.filter_eq_cons_iff.mp first.symm
    have classes : ∀ b ∈ pre, cls b ≠ cls a := by simpa using others
    have rest : ∀ k, part cls k xs = part cls k (pre ++ post) := by
      intro k
      have whole := same k
      rw [show a :: xs = [a] ++ xs from rfl, show pre ++ a :: post = pre ++ ([a] ++ post) from rfl,
        part_append, part_append, part_append] at whole
      by_cases at_class : cls a = k
      · have none : part cls k pre = [] :=
          part_eq_nil cls fun b member => at_class ▸ classes b member
        simpa [part_singleton, at_class, none] using whole
      · simpa [part_singleton, at_class] using whole
    obtain ⟨state, results⟩ := ih
      (fun b hb c hc => indep b (by simp [hb]) c (by simp [hc])) rest (exec a d).2
    obtain ⟨moved, movedResults⟩ := runAll_move exec
      (fun b member => indep a (by simp) b (members b (by simp [member]))
        (classes b member).symm) post d
    rw [moved]
    exact ⟨state, (results.cons _).trans movedResults.symm⟩

end Runs

end CommutingRuns
