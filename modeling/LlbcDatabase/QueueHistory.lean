import LlbcDatabase.AsyncTaskQueue
import LlbcDatabase.Library.Fifo
import LlbcDatabase.Library.Transition

/-! `AsyncTaskQueue` against a first-in first-out queue. It hands out the tasks as that
does, and no operation counts them, so `Empty` and `Size` answer as for an empty queue. -/

namespace LlbcDatabase

open Transition

/-- The calls on a queue, in the order of their critical sections. -/
inductive QueueCall (T : Type) where
  | push (task : T)
  | tryPop
  | timePop
  | popAll
  | timePopAll
  | empty
  | size

namespace QueueCall

variable {T : Type}

/-- What the call means for a queue that knows its length. -/
def op : QueueCall T → Fifo.Op T
  | .push task => .push task
  | .tryPop | .timePop => .pop
  | .popAll | .timePopAll => .popAll
  | .empty => .isEmpty
  | .size => .length

def asks : QueueCall T → Bool
  | .empty | .size => true
  | _ => false

end QueueCall

namespace AsyncTaskQueue

variable {T : Type}

def call (q : AsyncTaskQueue T) : QueueCall T → Fifo.Answer T × AsyncTaskQueue T
  | .push task => (.done, q.push task)
  | .tryPop => (.one q.tryPop.1, q.tryPop.2)
  | .timePop => (.one q.timePop.1, q.timePop.2)
  | .popAll => (.all q.popAll.1, q.popAll.2)
  | .timePopAll => (.all q.timePopAll.1, q.timePopAll.2)
  | .empty => (.flag q.isEmpty, q)
  | .size => (.number q.size, q)

structure Noted (T : Type) where
  queue : AsyncTaskQueue T
  history : Fifo.History T

def Noted.initial : Noted T := ⟨.empty, .none⟩

def Noted.step (s : Noted T) (c : QueueCall T) : Option (Noted T) :=
  some ⟨(s.queue.call c).2, s.history.after c.op (s.queue.call c).1⟩

section Refines

/-- The tasks move as in the queue that knows its length, and `_count` stays as it is. -/
theorem call_moves (q : AsyncTaskQueue T) (c : QueueCall T) :
    (q.call c).2.tasks = (Fifo.step q.tasks c.op).2 ∧ (q.call c).2.count = q.count := by
  obtain ⟨tasks, count⟩ := q
  cases c with
  | tryPop | timePop => cases tasks <;> exact ⟨rfl, rfl⟩
  | _ => exact ⟨rfl, rfl⟩

theorem call_answer (q : AsyncTaskQueue T) {c : QueueCall T} (moves : c.asks = false) :
    (q.call c).1 = (Fifo.step q.tasks c.op).1 := by
  obtain ⟨tasks, count⟩ := q
  cases c with
  | tryPop | timePop => cases tasks <;> rfl
  | empty | size => cases moves
  | _ => rfl

theorem call_handed (q : AsyncTaskQueue T) (c : QueueCall T) :
    (q.call c).1.handed = (Fifo.step q.tasks c.op).1.handed := by
  by_cases asks : c.asks = true
  · cases c <;> first | rfl | cases asks
  · rw [call_answer q (by simpa using asks)]

structure Uncounted (s : Noted T) : Prop where
  holds : s.history.Holds s.queue.tasks
  count : s.queue.count = 0

variable {s t : Noted T} {c : QueueCall T}

theorem Uncounted.initial : Uncounted (Noted.initial : Noted T) := ⟨rfl, rfl⟩

theorem Uncounted.next (h : Uncounted s) (taken : s.step c = some t) : Uncounted t := by
  obtain rfl := Option.some.inj taken
  obtain ⟨tasks, count⟩ := call_moves s.queue c
  constructor
  · refine h.holds.after ?_
    rw [call_handed, tasks]
    exact Fifo.History.step_moves s.queue.tasks c.op
  · exact count.trans h.count

theorem Uncounted.right_iff (h : Uncounted s) (c : QueueCall T) :
    s.history.Right (s.queue.call c).1 ↔ (c.asks = true → s.history.handed = s.history.pushed) := by
  have left := h.holds.left_eq
  by_cases asks : c.asks = true
  · rw [h.holds.handed_eq_iff]
    cases c with
    | empty => simp [call, isEmpty, h.count, Fifo.History.Right, QueueCall.asks, left]
    | size => simp [call, size, h.count, Fifo.History.Right, QueueCall.asks, left, eq_comm]
    | _ => cases asks
  · rw [call_answer _ (by simpa using asks)]
    exact iff_of_true (h.holds.right c.op) fun yes => absurd yes asks

end Refines

end AsyncTaskQueue

/-- Whatever calls are made, the tasks handed out are the first ones pushed, in order
and each once. Every `Empty` and every `Size` is right just when each of them comes
when nothing is left. -/
theorem queue_refines_iff {T : Type} (calls : List (QueueCall T)) :
    (∀ s ∈ trace AsyncTaskQueue.Noted.step .initial calls,
      s.history.handed <+: s.history.pushed) ∧
    ((∀ p ∈ taken AsyncTaskQueue.Noted.step .initial calls,
        p.1.history.Right (p.1.queue.call p.2).1) ↔
      ∀ p ∈ taken AsyncTaskQueue.Noted.step .initial calls,
        p.2.asks = true → p.1.history.handed = p.1.history.pushed) := by
  have passed := trace_invariant (fun s t c held (taken : AsyncTaskQueue.Noted.step s c = some t) =>
    AsyncTaskQueue.Uncounted.next held taken) (AsyncTaskQueue.Uncounted.initial (T := T)) calls
  refine ⟨fun s member => (passed s member).holds.handed_prefix, forall₂_congr fun p member => ?_⟩
  have uncounted : AsyncTaskQueue.Uncounted p.1 := by
    rcases mem_taken member with first | later
    · rw [first]
      exact AsyncTaskQueue.Uncounted.initial
    · exact passed p.1 later
  exact uncounted.right_iff p.2

/-- One task in the queue, and `Empty` says that there is none and `Size` says zero. -/
theorem pushed_not_counted :
    ((AsyncTaskQueue.empty.push 7).call .size).1 = .number 0 ∧
    ((AsyncTaskQueue.empty.push 7).call .empty).1 = .flag true ∧
    ¬ ∀ p ∈ taken AsyncTaskQueue.Noted.step .initial [.push 7, .size],
      p.1.history.Right (p.1.queue.call p.2).1 := by
  refine ⟨rfl, rfl, fun right => ?_⟩
  have size : (0 : Int) = 1 - 0 := right _ (.tail _ (.head _))
  cases size

end LlbcDatabase
