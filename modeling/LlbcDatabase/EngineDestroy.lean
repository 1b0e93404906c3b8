import LlbcDatabase.EngineOrder

/-! `Destroy`: when it gets past its wait, all that was submitted has been executed
once on its shard, and no worker has left a task behind. The wait itself ends unless
the count of stopped workers is reset after a worker has counted itself. -/

namespace LlbcDatabase.Engine

open Transition CommutingRuns

variable {Sql Conn D RS : Type} {n : Nat}

section Drain

variable {be : Backend Sql Conn D RS} {s t : Engine Sql Conn D RS n} {a : Action Sql n}
  {conns : Fin n → Conn} {flags : Fin n → Bool} {db : D}

theorem live_of_submitted (reached : Reach (step be) (Engine.initial conns flags db) s)
    (some : s.submitted ≠ []) : 0 < n := by
  refine Reach.invariant (I := fun s => s.submitted ≠ [] → 0 < n) (by simp [Engine.initial]) ?_
    reached some
  intro s t a _ held taken
  cases step_stepped taken with
  | submit shard => exact fun _ => shard.pos
  | _ => exact held

theorem Order.executed_perm (live : 0 < n) (h : Order be s)
    (drained : ∀ i, (s.taskQueues i).tasks = [] ∧ batch (s.workers i) = []) :
    (s.executed.map (·.2.task)).Perm s.submitted := by
  refine perm_of_part_eq (fun task => shardOf n task.key) fun k => ?_
  by_cases inside : k < n
  · have queued := h.queued ⟨k, inside⟩
    rw [(drained _).1, (drained _).2, List.append_nil, List.append_nil, ← h.executed_part, ofShard_map_task,
      List.map_map] at queued
    exact queued
  · have none : ∀ tasks : List (AsyncTask Sql), part (fun task => shardOf n task.key) k tasks = [] :=
      fun tasks => part_eq_nil _ fun task _ at_k => inside (at_k ▸ shardOf_lt live task.key)
    rw [none, none]

theorem Order.executed_shards (h : Order be s) :
    (s.executed.map fun e => (e.1.val, e.2.task)) =
      (s.executed.map (·.2.task)).map fun task => (shardOf n task.key, task) := by
  rw [List.map_map]
  refine List.map_congr_left fun e member => ?_
  have shard := h.executed_shard (i := e.1) member
  simp [shard]

theorem Handshake.drained (h : Handshake s) (past : pastPoll s.main ∨ s.inited = false) (i : Fin n) :
    (s.taskQueues i).tasks = [] ∧ batch (s.workers i) = [] := by
  have exited := h.past past i
  exact ⟨h.left i (.inr exited), by rw [exited]; rfl⟩

/-- No worker leaves its loop with a task in its queue; and past the wait of
`Destroy` every queue and batch is empty and each task submitted has been executed
exactly once, on the connection of its shard. -/
theorem destroy_drains (be : Backend Sql Conn D RS) (conns : Fin n → Conn) (flags : Fin n → Bool)
    (db : D) (s : Engine Sql Conn D RS n)
    (reached : Reach (step be) (Engine.initial conns flags db) s) :
    (∀ i, s.workers i = .count ∨ s.workers i = .exited → (s.taskQueues i).tasks = []) ∧
    (pastPoll s.main ∨ s.inited = false →
      (∀ i, (s.taskQueues i).tasks = [] ∧ batch (s.workers i) = []) ∧
      (s.executed.map fun e => (e.1.val, e.2.task)).Perm
        (s.submitted.map fun task => (shardOf n task.key, task)) ∧
      (s.submitted.map (·.id)).Nodup) := by
  have shake := handshake reached
  have ordered := order reached
  refine ⟨shake.left, fun past => ?_⟩
  refine ⟨shake.drained past, ?_, ordered.ids ▸ List.nodup_range⟩
  rw [ordered.executed_shards]
  refine List.Perm.map _ ?_
  by_cases some : s.submitted = []
  · have none : s.executed = [] := List.eq_nil_iff_forall_not_mem.mpr fun e ran => by
      have sent := ordered.executed_sent (i := e.1) ran
      simp [submittedTo, some] at sent
    simp [some, none]
  · exact ordered.executed_perm (live_of_submitted reached some) (shake.drained past)

/-- Two tasks on one shard, and `Destroy` past its wait. -/
def destroyed : Engine Nat Unit (List Nat) Nat 1 :=
  runTo (step logServer) (initial (fun _ => ()) (fun _ => false) [])
    [.queryAsync 0 10 .executeSql, .queryAsync 7 11 .executeSql, .destroy, .main, .main, .main,
      .worker only, .worker only, .worker only, .worker only, .worker only, .worker only, .worker only, .worker only,
      .worker only, .main, .main, .main, .main, .main, .worker only, .worker only, .worker only, .worker only,
      .worker only, .main]

theorem destroy_drains_destroyed :
    pastPoll destroyed.main ∧ destroyed.db = [10, 11] ∧ (destroyed.taskQueues 0).tasks = [] ∧
    (destroyed.executed.map fun e => (e.1.val, e.2.task)).Perm
      (destroyed.submitted.map fun task => (shardOf 1 task.key, task)) := by
  have h := destroy_drains logServer (fun _ => ()) (fun _ => false) [] destroyed
    (runTo_reach .start)
  have past : pastPoll destroyed.main := trivial
  exact ⟨past, rfl, ((h.2 (.inl past)).1 0).1, (h.2 (.inl past)).2.1⟩

end Drain

section Deadlock

variable {be : Backend Sql Conn D RS} {s t u : Engine Sql Conn D RS n} {a : Action Sql n}
  {conns : Fin n → Conn} {flags : Fin n → Bool} {db : D}

/-- Every worker has left and `Destroy` still waits for the count to rise. -/
def Deadlocked (s : Engine Sql Conn D RS n) : Prop :=
  (∀ i, s.workers i = .exited) ∧ s.main = .destroyPoll ∧ s.stopedNum ≠ s.asyncConnNum

/-- `Destroy` resets the count when no worker has counted itself yet. -/
def resetUncounted (s : Engine Sql Conn D RS n) (a : Action Sql n) : Prop :=
  a = .main → s.main = .destroyReset → s.stopedNum = 0

instance [DecidableEq Sql] [DecidableEq RS] (s : Engine Sql Conn D RS n) (a : Action Sql n) :
    Decidable (resetUncounted s a) := by
  unfold resetUncounted
  infer_instance

theorem exact_next (exact_count : s.stopedNum = exitedNum s.workers) (kept : resetUncounted s a)
    (taken : Stepped be s a t) : t.stopedNum = exitedNum t.workers := by
  rcases count_cases taken with ⟨up, left⟩ | ⟨same, still | ⟨main, at_pc, zero⟩⟩
  · omega
  · omega
  · have none := kept main at_pc
    omega

/-- In every run in which the reset finds a count of zero, the count is the number
of workers that have left, and `Destroy` does not wait for one that has. -/
theorem destroy_not_deadlocked (be : Backend Sql Conn D RS) (conns : Fin n → Conn)
    (flags : Fin n → Bool) (db : D) (s : Engine Sql Conn D RS n)
    (reached : ReachWhere (step be) resetUncounted (Engine.initial conns flags db) s) :
    s.stopedNum = exitedNum s.workers ∧ ¬ Deadlocked s := by
  have counted : s.stopedNum = exitedNum s.workers :=
    ReachWhere.invariant (I := fun s => s.stopedNum = exitedNum s.workers)
      (by simp [Engine.initial, exitedNum, isExited])
      (fun _ _ _ _ held kept taken => exact_next held kept (step_stepped taken)) reached
  refine ⟨counted, fun deadlocked => ?_⟩
  obtain ⟨exited, at_pc, unequal⟩ := deadlocked
  apply unequal
  have shake := handshake reached.reach
  have live : s.inited = true := shake.closing_inited (by simp [at_pc, closing])
  rw [counted, (exitedNum_eq_iff s.workers).mpr exited, shake.connNum, live]
  rfl

theorem destroy_not_deadlocked_destroyed :
    destroyed.stopedNum = 1 ∧ destroyed.stopedNum = exitedNum destroyed.workers ∧
      ¬ Deadlocked destroyed := by
  have h := destroy_not_deadlocked logServer (fun _ => ()) (fun _ => false) [] destroyed
    (runTo_reachWhere .start rfl)
  exact ⟨rfl, h.1, h.2⟩

/-- The one worker passes its check between the store of `_stoping` and the reset
of the count, and counts itself before the reset. -/
def lostCount : Engine Nat Unit (List Nat) Nat 1 :=
  runTo (step logServer) (initial (fun _ => ()) (fun _ => false) [])
    [.destroy, .main, .main, .main, .worker only, .worker only, .worker only, .worker only, .worker only,
      .main, .main, .main, .main, .worker only, .worker only, .worker only, .worker only, .worker only, .main]

theorem lostCount_deadlocked :
    Reach (step logServer) (initial (fun _ => ()) (fun _ => false) []) lostCount ∧
      Deadlocked lostCount := by
  refine ⟨runTo_reach .start, fun i => ?_, rfl, by decide⟩
  have only : i = 0 := Subsingleton.elim i 0
  rw [only]
  rfl

/-- `Destroy` waits for a count that has fallen behind the workers that have left. -/
def behind (s : Engine Sql Conn D RS n) : Prop :=
  s.main = .destroyPoll ∧ s.asyncConnNum = n ∧ s.stopedNum < exitedNum s.workers

theorem behind_next (h : behind s) (taken : Stepped be s a t) : behind t := by
  obtain ⟨at_pc, all, less⟩ := h
  have most := exitedNum_le s.workers
  have frame : t.main = .destroyPoll ∧ t.asyncConnNum = n := by
    cases taken with
    | destroyPast _ equal => omega
    | submit _ may => simp [at_pc, maySubmit] at may
    | _ => simp_all
  have moved := count_cases taken
  simp only [at_pc, reduceCtorEq, false_and, and_false, or_false] at moved
  exact ⟨frame.1, frame.2, by omega⟩

/-- A reset that finds a count other than zero leaves `Destroy` waiting for ever. -/
theorem destroy_hangs (reached : Reach (step be) (Engine.initial conns flags db) s)
    (at_pc : s.main = .destroyReset) (counted : s.stopedNum ≠ 0)
    (reset : step be s .main = some t) (later : Reach (step be) t u) : u.main = .destroyPoll := by
  have shake := handshake reached
  have live : s.inited = true := shake.closing_inited (by simp [at_pc, closing])
  have some : 0 < exitedNum s.workers :=
    Nat.lt_of_lt_of_le (Nat.pos_of_ne_zero counted) shake.counted
  have start : behind t := by
    simp only [step, mainStep, at_pc, Option.some.injEq] at reset
    subst reset
    exact ⟨rfl, by rw [shake.connNum, live]; rfl, some⟩
  exact (Reach.invariant start (fun _ _ _ _ held taken => behind_next held (step_stepped taken))
    later).1

end Deadlock

end LlbcDatabase.Engine
