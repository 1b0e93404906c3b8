import Mathlib

/-! Runs of a system given by a partial step function: `step s a` is `none` when
action `a` is not enabled in `s`. A run may be restricted to the steps that meet
a condition on the state before the step, or given by the list of its actions. -/

namespace Transition

variable {S A : Type} {step : S → A → Option S} {ok : S → A → Prop} {init : S}

/-- The states reached from `init` by runs whose steps all meet `ok`. -/
inductive ReachWhere (step : S → A → Option S) (ok : S → A → Prop) (init : S) : S → Prop where
  | start : ReachWhere step ok init init
  | next {s t : S} {a : A} : ReachWhere step ok init s → ok s a → step s a = some t →
      ReachWhere step ok init t

/-- The states reached from `init` by any run. -/
def Reach (step : S → A → Option S) (init : S) : S → Prop :=
  ReachWhere step (fun _ _ => True) init

/-- What holds at the start and is kept by every step of a restricted run holds
in every state it reaches; a step may use that the state before it is reached. -/
theorem ReachWhere.invariant {I : S → Prop} (start : I init)
    (next : ∀ s t a, ReachWhere step ok init s → I s → ok s a → step s a = some t → I t)
    {s : S} (reached : ReachWhere step ok init s) : I s := by
  induction reached with
  | start => exact start
  | next before allowed taken ih => exact next _ _ _ before ih allowed taken

theorem ReachWhere.mono {ok' : S → A → Prop} (weaker : ∀ s a, ok s a → ok' s a)
    {s : S} (reached : ReachWhere step ok init s) : ReachWhere step ok' init s := by
  induction reached with
  | start => exact .start
  | next _ allowed taken ih => exact .next ih (weaker _ _ allowed) taken

theorem ReachWhere.reach {s : S} (reached : ReachWhere step ok init s) : Reach step init s :=
  reached.mono fun _ _ _ => trivial

theorem Reach.start : Reach step init init := ReachWhere.start

theorem Reach.next {s t : S} {a : A} (reached : Reach step init s) (taken : step s a = some t) :
    Reach step init t := ReachWhere.next reached trivial taken

theorem Reach.invariant {I : S → Prop} (start : I init)
    (next : ∀ s t a, Reach step init s → I s → step s a = some t → I t)
    {s : S} (reached : Reach step init s) : I s :=
  ReachWhere.invariant start (fun s t a before held _ taken => next s t a before held taken) reached

/-- Take the listed actions one after another, up to one that is not enabled. -/
def runTo (step : S → A → Option S) : S → List A → S
  | s, [] => s
  | s, a :: rest => match step s a with
    | none => s
    | some t => runTo step t rest

def meets (step : S → A → Option S) (ok : S → A → Prop) [∀ s a, Decidable (ok s a)] :
    S → List A → Bool
  | _, [] => true
  | s, a :: rest => decide (ok s a) && match step s a with
    | none => false
    | some t => meets step ok t rest

theorem runTo_reachWhere [∀ s a, Decidable (ok s a)] {s : S} {actions : List A}
    (reached : ReachWhere step ok init s) (met : meets step ok s actions = true) :
    ReachWhere step ok init (runTo step s actions) := by
  induction actions generalizing s with
  | nil => exact reached
  | cons a rest ih =>
    simp only [meets, Bool.and_eq_true, decide_eq_true_eq] at met
    cases taken : step s a with
    | none => simp [taken] at met
    | some t =>
      simp only [taken] at met
      simp only [runTo, taken]
      exact ih (reached.next met.1 taken) met.2

theorem runTo_reach {s : S} {actions : List A} (reached : Reach step init s) :
    Reach step init (runTo step s actions) := by
  induction actions generalizing s with
  | nil => exact reached
  | cons a rest ih =>
    simp only [runTo]
    split
    · exact reached
    · exact ih (reached.next (by assumption))

inductive Leads (step : S → A → Option S) : S → List A → S → Prop where
  | nil {s : S} : Leads step s [] s
  | cons {s t u : S} {a : A} {rest : List A} : step s a = some t → Leads step t rest u →
      Leads step s (a :: rest) u

theorem Leads.invariant {I : S → Prop} (next : ∀ s t a, I s → step s a = some t → I t) {s t : S}
    {actions : List A} (run : Leads step s actions t) (start : I s) : I t := by
  induction run with
  | nil => exact start
  | cons taken _ ih => exact ih (next _ _ _ start taken)

theorem Leads.reach {s t : S} {actions : List A} (run : Leads step s actions t)
    (reached : Reach step init s) : Reach step init t :=
  run.invariant (fun _ _ _ before taken => Reach.next before taken) reached

theorem leads_runTo {s : S} {actions : List A}
    (met : meets step (fun _ _ => True) s actions = true) :
    Leads step s actions (runTo step s actions) := by
  induction actions generalizing s with
  | nil => exact .nil
  | cons a rest ih =>
    simp only [meets, decide_true, Bool.true_and] at met
    cases taken : step s a with
    | none => simp [taken] at met
    | some t =>
      simp only [taken] at met
      simp only [runTo, taken]
      exact .cons taken (ih met)

/-- A rank that no step raises, and that the steps of one kind lower until it is zero, is zero
after as many of them, unless the run comes to `Q` before. -/
theorem Leads.exhaust {I Q : S → Prop} {rank : S → Nat} {p : A → Bool}
    (next : ∀ s t a, I s → step s a = some t → Q t ∨
      I t ∧ rank t ≤ rank s ∧ (p a = true → rank t = 0 ∨ rank t < rank s))
    {s t : S} {actions : List A} (run : Leads step s actions t) (start : I s)
    (enough : rank s ≤ actions.countP p) :
    (∃ before after u, actions = before ++ after ∧ Leads step s before u ∧ Q u) ∨
      I t ∧ rank t = 0 := by
  induction run with
  | nil => exact .inr ⟨start, by simpa using enough⟩
  | @cons s u t a rest taken later ih =>
    rcases next s u a start taken with reached | ⟨kept, higher, lower⟩
    · exact .inl ⟨[a], rest, u, rfl, .cons taken .nil, reached⟩
    have fewer : rank u ≤ rest.countP p := by
      by_cases own : p a = true
      · rw [List.countP_cons_of_pos own] at enough
        rcases lower own with done | less <;> omega
      · rw [List.countP_cons_of_neg own] at enough
        omega
    rcases ih kept fewer with ⟨before, after, v, rfl, run, reached⟩ | done
    · exact .inl ⟨a :: before, after, v, rfl, .cons taken run, reached⟩
    · exact .inr done

theorem Leads.append {s t u : S} {first later : List A} (run : Leads step s first t)
    (run' : Leads step t later u) : Leads step s (first ++ later) u := by
  induction run with
  | nil => exact run'
  | cons taken _ ih => exact .cons taken (ih run')

/-- The states that the listed actions pass through, up to one that is not enabled. -/
def trace (step : S → A → Option S) : S → List A → List S
  | _, [] => []
  | s, a :: rest => match step s a with
    | none => []
    | some t => t :: trace step t rest

def taken (step : S → A → Option S) : S → List A → List (S × A)
  | _, [] => []
  | s, a :: rest => match step s a with
    | none => []
    | some t => (s, a) :: taken step t rest

theorem mem_taken {s : S} {actions : List A} {p : S × A} (member : p ∈ taken step s actions) :
    p.1 = s ∨ p.1 ∈ trace step s actions := by
  induction actions generalizing s with
  | nil => simp [taken] at member
  | cons a rest ih =>
    simp only [taken, trace] at member ⊢
    cases h : step s a with
    | none => simp [h] at member
    | some t =>
      simp only [h, List.mem_cons] at member ⊢
      rcases member with rfl | later
      · exact .inl rfl
      · exact .inr (ih later)

theorem trace_invariant {J : S → Prop} (kept : ∀ s t a, J s → step s a = some t → J t) {s : S}
    (start : J s) (actions : List A) : ∀ t ∈ trace step s actions, J t := by
  induction actions generalizing s with
  | nil => simp [trace]
  | cons a rest ih =>
    simp only [trace]
    cases h : step s a with
    | none => simp
    | some t =>
      have here := kept s t a start h
      exact List.forall_mem_cons.mpr ⟨here, ih here⟩

/-- Where the steps from good states to good states are just those that meet `ok`, in
states that meet an invariant, a run passes through good states alone just when all its
steps meet `ok`. -/
theorem trace_iff {J I : S → Prop} (kept : ∀ s t a, J s → step s a = some t → J t)
    (good : ∀ s t a, J s → I s → step s a = some t → (I t ↔ ok s a)) {s : S} (sound : J s)
    (start : I s) (actions : List A) :
    (∀ t ∈ trace step s actions, I t) ↔ ∀ p ∈ taken step s actions, ok p.1 p.2 := by
  induction actions generalizing s with
  | nil => simp [trace, taken]
  | cons a rest ih =>
    simp only [trace, taken]
    cases h : step s a with
    | none => simp
    | some t =>
      have here := good s t a sound start h
      simp only [List.forall_mem_cons, here]
      exact and_congr_right fun met => ih (kept s t a sound h) (here.mpr met)

end Transition
