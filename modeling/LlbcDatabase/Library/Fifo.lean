import Mathlib

/-! A first-in first-out queue, and what it is for: whoever calls it and in whatever
order, what it has handed out is what came first of what it was given, and it knows how
many are left. -/

namespace Fifo

variable {T : Type}

inductive Op (T : Type) where
  | push (x : T)
  | pop
  | popAll
  | isEmpty
  | length

inductive Answer (T : Type) where
  | done
  | one (x : Option T)
  | all (xs : List T)
  | flag (empty : Bool)
  | number (n : Int)
  deriving DecidableEq

def step (q : List T) : Op T → Answer T × List T
  | .push x => (.done, q ++ [x])
  | .pop => (.one q.head?, q.tail)
  | .popAll => (.all q, [])
  | .isEmpty => (.flag q.isEmpty, q)
  | .length => (.number q.length, q)

def Op.pushed : Op T → List T
  | .push x => [x]
  | _ => []

def Answer.handed : Answer T → List T
  | .one x => x.toList
  | .all xs => xs
  | _ => []

structure History (T : Type) where
  pushed : List T
  handed : List T

namespace History

def none : History T := ⟨[], []⟩

def after (h : History T) (op : Op T) (answer : Answer T) : History T :=
  ⟨h.pushed ++ op.pushed, h.handed ++ answer.handed⟩

/-- How many have been pushed and not handed out. -/
def left (h : History T) : Int := h.pushed.length - h.handed.length

/-- The queue holds what has been pushed and not handed out. -/
def Holds (h : History T) (q : List T) : Prop := h.handed ++ q = h.pushed

def Right (h : History T) : Answer T → Prop
  | .flag empty => empty = true ↔ h.left = 0
  | .number n => n = h.left
  | _ => True

variable {h : History T} {q : List T}

theorem Holds.handed_prefix (held : h.Holds q) : h.handed <+: h.pushed := ⟨q, held⟩

theorem Holds.left_eq (held : h.Holds q) : h.left = q.length := by
  rw [left, ← held, List.length_append]
  omega

theorem Holds.handed_eq_iff (held : h.Holds q) : h.handed = h.pushed ↔ q = [] := by
  rw [← held]
  simp

theorem Holds.after {op : Op T} {answer : Answer T} {q' : List T} (held : h.Holds q)
    (moved : answer.handed ++ q' = q ++ op.pushed) : (h.after op answer).Holds q' := by
  rw [Holds, History.after, List.append_assoc, moved, ← List.append_assoc, held]

theorem step_moves (q : List T) (op : Op T) :
    (step q op).1.handed ++ (step q op).2 = q ++ op.pushed := by
  cases op with
  | pop => cases q <;> simp [step, Answer.handed, Op.pushed]
  | _ => simp [step, Answer.handed, Op.pushed]

theorem Holds.right (held : h.Holds q) (op : Op T) : h.Right (step q op).1 := by
  have left := held.left_eq
  cases op with
  | isEmpty => simp [step, Right, left]
  | length => simp [step, Right, left]
  | _ => trivial

end History

end Fifo
