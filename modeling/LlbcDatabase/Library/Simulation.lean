import Mathlib

/-! Runs with outcomes. A program takes actions one after another and may fault; what it is
for is a relation of labels and outcomes. A forward simulation of the one by the other,
step by step, is one of whole runs. -/

namespace Simulation

section Program

variable {S A E O : Type}

/-- The actions one after another, with the outcome of each, up to a fault. -/
def actAll (act : S → A → Except E (O × S)) : S → List A → Except E (List O × S)
  | s, [] => .ok ([], s)
  | s, a :: rest => match act s a with
    | .error fault => .error fault
    | .ok (o, t) => (actAll act t rest).map fun p => (o :: p.1, p.2)

/-- Every action is proper in the state in which it is taken. -/
def ProperAll (act : S → A → Except E (O × S)) (proper : S → A → Prop) : S → List A → Prop
  | _, [] => True
  | s, a :: rest => proper s a ∧ match act s a with
    | .error _ => True
    | .ok (_, t) => ProperAll act proper t rest

instance decidableProperAll {act : S → A → Except E (O × S)} {proper : S → A → Prop}
    [∀ s a, Decidable (proper s a)] : ∀ s actions, Decidable (ProperAll act proper s actions)
  | _, [] => inferInstanceAs (Decidable True)
  | s, a :: rest =>
    haveI : Decidable (match act s a with
      | .error _ => True
      | .ok (_, t) => ProperAll act proper t rest) :=
      match act s a with
      | .error _ => isTrue trivial
      | .ok (_, t) => decidableProperAll t rest
    inferInstanceAs (Decidable (proper s a ∧ _))

end Program

section Relation

variable {W B O : Type}

/-- A run of the relation whose steps all meet `ok`, with its labels and outcomes. -/
inductive RunWhere (step : W → B → O → W → Prop) (ok : W → B → Prop) : W → List (B × O) → W → Prop
    where
  | nil {w : W} : RunWhere step ok w [] w
  | cons {w v u : W} {b : B} {o : O} {rest : List (B × O)} : ok w b → step w b o v →
      RunWhere step ok v rest u → RunWhere step ok w ((b, o) :: rest) u

variable {step : W → B → O → W → Prop} {ok : W → B → Prop}

theorem RunWhere.snoc {w v u : W} {events : List (B × O)} {b : B} {o : O}
    (run : RunWhere step ok w events v) (allowed : ok v b) (taken : step v b o u) :
    RunWhere step ok w (events ++ [(b, o)]) u := by
  induction run with
  | nil => exact .cons allowed taken .nil
  | cons first before _ ih => exact .cons first before (ih allowed taken)

theorem RunWhere.invariant {I : W → Prop}
    (next : ∀ w b o v, I w → ok w b → step w b o v → I v) {w u : W} {events : List (B × O)}
    (run : RunWhere step ok w events u) (start : I w) : I u := by
  induction run with
  | nil => exact start
  | cons allowed taken _ ih => exact ih (next _ _ _ _ start allowed taken)

/-- Where every action is on one place, and does there what a relation of that place allows,
each place has a run of its own. -/
theorem RunWhere.place {K V : Type} [DecidableEq K] {on : K → V → B → O → V → Prop}
    {place : B → Option K} {start now after : K → V} {events : List (B × O)} {b : B} {o : O} {j : K}
    (runs : ∀ k, RunWhere (on k) (fun _ _ => True) (start k)
      (events.filter fun e => place e.1 = some k) (now k))
    (own : place b = some j) (taken : on j (now j) b o (after j))
    (others : ∀ k, k ≠ j → after k = now k) (k : K) :
    RunWhere (on k) (fun _ _ => True) (start k)
      ((events ++ [(b, o)]).filter fun e => place e.1 = some k) (after k) := by
  rw [List.filter_append]
  by_cases here : j = k
  · subst here
    simpa [own] using (runs j).snoc trivial taken
  · rw [others k (Ne.symm here)]
    simpa [own, here] using runs k

theorem RunWhere.simulates {W' B' : Type} {step' : W' → B' → O → W' → Prop} {ok' : W' → B' → Prop}
    {R : W → W' → Prop}
    (next : ∀ w b o v w', R w w' → ok w b → step w b o v →
      ∃ b' v', ok' w' b' ∧ step' w' b' o v' ∧ R v v')
    {w u : W} {w' : W'} {events : List (B × O)} (run : RunWhere step ok w events u)
    (related : R w w') : ∃ events' u', RunWhere step' ok' w' events' u' ∧ R u u' := by
  induction run generalizing w' with
  | nil => exact ⟨[], w', .nil, related⟩
  | cons allowed taken _ ih =>
    obtain ⟨b', v', allowed', taken', after⟩ := next _ _ _ _ _ related allowed taken
    obtain ⟨events', u', run', ended⟩ := ih after
    exact ⟨_, u', .cons allowed' taken' run', ended⟩

end Relation

section Outcomes

variable {S A E O : Type} {act : S → A → Except E (O × S)} {proper : S → A → Prop} {s : S}

variable (act) in
def outcomes (s : S) (actions : List A) : Option (List O) :=
  (actAll act s actions).toOption.map (·.1)

variable (act) in
def after (s : S) (actions : List A) : S :=
  match actAll act s actions with
  | .ok (_, t) => t
  | .error _ => s

theorem actAll_eq {actions : List A} {outs : List O} (done : outcomes act s actions = some outs) :
    actAll act s actions = .ok (outs, after act s actions) := by
  unfold outcomes after at *
  cases ran : actAll act s actions with
  | error fault =>
    rw [ran] at done
    cases done
  | ok p =>
    rw [ran] at done
    cases done
    rfl

theorem act_eq {a : A} {o : O} (done : outcomes act s [a] = some [o]) :
    act s a = .ok (o, after act s [a]) := by
  have ran := actAll_eq done
  cases first : act s a with
  | error fault =>
    rw [actAll, first] at ran
    cases ran
  | ok p =>
    simp only [actAll, first, Except.map, Except.ok.injEq, Prod.mk.injEq, List.cons.injEq,
      and_true] at ran
    rw [← ran.1, ← ran.2]

theorem ProperAll.run {actions : List A} {outs : List O} (all : ProperAll act proper s actions)
    (done : outcomes act s actions = some outs) :
    RunWhere (fun s a o t => act s a = .ok (o, t)) proper s (actions.zip outs) (after act s actions) := by
  have ran := actAll_eq done
  generalize after act s actions = t at ran
  clear done
  induction actions generalizing s outs with
  | nil =>
    cases ran
    exact .nil
  | cons a rest ih =>
    have later := all.2
    cases first : act s a with
    | error fault =>
      rw [actAll, first] at ran
      cases ran
    | ok p =>
      simp only [actAll, first] at ran
      rw [first] at later
      cases others : actAll act p.2 rest with
      | error fault =>
        rw [others] at ran
        cases ran
      | ok q =>
        rw [others] at ran
        cases ran
        exact .cons all.1 first (ih later others)

end Outcomes

section Forward

variable {S A E O W B : Type} {act : S → A → Except E (O × S)} {proper : S → A → Prop}
  {label : A → Option B} {step : W → B → O → W → Prop} {R : S → W → Prop}
  {ok : W → B → Prop}

/-- Proper actions do not fault, and have their outcomes for what they stand for. -/
theorem forward
    (next : ∀ s w a, R s w → proper s a → ∃ b o t v, label a = some b ∧ act s a = .ok (o, t) ∧
      ok w b ∧ step w b o v ∧ R t v)
    {s : S} {w : W} {actions : List A} (related : R s w) (all : ProperAll act proper s actions) :
    ∃ events t v, actAll act s actions = .ok (events.map (·.2), t) ∧
      actions.map label = events.map (some ·.1) ∧ RunWhere step ok w events v ∧ R t v := by
  induction actions generalizing s w with
  | nil => exact ⟨[], s, w, rfl, rfl, .nil, related⟩
  | cons a rest ih =>
    obtain ⟨b, o, t, v, labelled, done, allowed, taken, after⟩ := next s w a related all.1
    have later := all.2
    rw [done] at later
    obtain ⟨events, t', v', ran, labels, run, ended⟩ := ih after later
    refine ⟨(b, o) :: events, t', v', ?_, ?_, .cons allowed taken run, ended⟩
    · simp [actAll, done, ran, Except.map]
    · simp [labelled, labels]

end Forward

end Simulation
