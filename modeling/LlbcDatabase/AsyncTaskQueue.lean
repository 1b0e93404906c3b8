import Mathlib

/-! The task queue of one shard. Every operation runs under the queue's lock, so
it is one function on the queue's contents; `_count` is read without the lock. -/

namespace LlbcDatabase

structure AsyncTaskQueue (T : Type) where
  tasks : List T
  count : Int

namespace AsyncTaskQueue

variable {T : Type}

def empty : AsyncTaskQueue T := ⟨[], 0⟩

/-- `Push` adds at the back and leaves `_count` alone. -/
def push (q : AsyncTaskQueue T) (task : T) : AsyncTaskQueue T :=
  { q with tasks := q.tasks ++ [task] }

/-- `TimePopAll` hands out all that is queued when its wait ends; after a
time-out on an empty queue that is nothing. -/
def timePopAll (q : AsyncTaskQueue T) : List T × AsyncTaskQueue T :=
  (q.tasks, { q with tasks := [] })

/-- `Empty` compares `_count` with zero and does not look at the tasks. -/
def isEmpty (q : AsyncTaskQueue T) : Bool := q.count == 0

def popAll (q : AsyncTaskQueue T) : List T × AsyncTaskQueue T := (q.tasks, { q with tasks := [] })

/-- A critical section that hands out the front of the queue, or null. -/
def popFront (q : AsyncTaskQueue T) : Option T × AsyncTaskQueue T :=
  match q.tasks with
  | [] => (none, q)
  | task :: rest => (some task, { q with tasks := rest })

/-- `TimePop` where its wait ends, with a task or at the time-out. -/
def timePop (q : AsyncTaskQueue T) : Option T × AsyncTaskQueue T := q.popFront

def tryPop (q : AsyncTaskQueue T) : Option T × AsyncTaskQueue T := q.popFront

def size (q : AsyncTaskQueue T) : Int := q.count

@[simp] theorem empty_tasks : (empty : AsyncTaskQueue T).tasks = [] := rfl

@[simp] theorem push_tasks (q : AsyncTaskQueue T) (task : T) :
    (q.push task).tasks = q.tasks ++ [task] := rfl

@[simp] theorem timePopAll_fst (q : AsyncTaskQueue T) : q.timePopAll.1 = q.tasks := rfl

@[simp] theorem timePopAll_tasks (q : AsyncTaskQueue T) : q.timePopAll.2.tasks = [] := rfl

end AsyncTaskQueue

end LlbcDatabase
