import LlbcDatabase.Library.CommutingRuns
import LlbcDatabase.EngineHandshake

/-! Order of tasks. A task of shard `i` is in the shard's queue, in its worker's
batch, executed and in the worker's hand, in the finish queue, in the local queue
of `OnUpdate`, called back or discarded; these places in turn hold the tasks
submitted to the shard, each once and in order. -/

namespace LlbcDatabase.Engine

open Transition CommutingRuns

variable {Sql Conn D RS : Type} {n : Nat}

/-- The tasks a worker has taken and not yet executed. -/
def batch : WorkerPc Sql RS → List (AsyncTask Sql)
  | .work tasks | .finish _ tasks => tasks
  | _ => []

/-- The task a worker has executed and not yet pushed to the finish queue. -/
def inHand : WorkerPc Sql RS → List (Executed Sql RS)
  | .finish done _ => [done]
  | _ => []

def localTasks : MainPc Sql RS → List (Executed Sql RS)
  | .update tasks | .callback tasks => tasks
  | _ => []

def submittedTo (s : Engine Sql Conn D RS n) (i : Fin n) : List (AsyncTask Sql) :=
  part (fun task => shardOf n task.key) i s.submitted

def executedOn (s : Engine Sql Conn D RS n) (i : Fin n) : List (Executed Sql RS) :=
  (part Prod.fst i s.executed).map Prod.snd

def ofShard (i : Fin n) (done : List (Executed Sql RS)) : List (Executed Sql RS) :=
  part (fun e => shardOf n e.task.key) i done

def finished (s : Engine Sql Conn D RS n) : List (Executed Sql RS) :=
  s.calledBack ++ localTasks s.main ++ s.finishTasks ++ s.discarded

@[simp] theorem ofShard_append (i : Fin n) (xs ys : List (Executed Sql RS)) :
    ofShard i (xs ++ ys) = ofShard i xs ++ ofShard i ys := part_append ..

theorem localTasks_afterFlush (caller : Caller) :
    localTasks (afterFlush caller : MainPc Sql RS) = [] := by cases caller <;> rfl

theorem workers_update {V : Type} {f : WorkerPc Sql RS → V} {workers : Fin n → WorkerPc Sql RS}
    {i : Fin n} {pc : WorkerPc Sql RS} (same : f pc = f (workers i)) (j : Fin n) :
    f (Function.update workers i pc j) = f (workers j) := by
  by_cases h : j = i
  · subst h
    simpa using same
  · simp [h]

structure Order (be : Backend Sql Conn D RS) (s : Engine Sql Conn D RS n) : Prop where
  queued : ∀ i, (executedOn s i).map (·.task) ++ batch (s.workers i) ++ (s.taskQueues i).tasks =
    submittedTo s i
  delivered : ∀ i, ofShard i (finished s) ++ inHand (s.workers i) = executedOn s i
  ids : s.submitted.map (·.id) = List.range s.submitted.length
  own : ∀ e ∈ s.executed, ∃ conn db, e.2.result = (asyncDoWork be e.2.task conn db).1
  kept : s.inited = true → s.discarded = []

section Steps

variable {be : Backend Sql Conn D RS} {s t : Engine Sql Conn D RS n} {a : Action Sql n}

theorem executedOn_execute (i j : Fin n) (done : Executed Sql RS)
    (executed : List (Fin n × Executed Sql RS)) :
    (part Prod.fst j (executed ++ [(i, done)])).map Prod.snd =
      (part Prod.fst j executed).map Prod.snd ++ if i = j then [done] else [] := by
  rw [part_append, part_singleton, List.map_append]
  split <;> rfl

theorem Order.hand_shard (h : Order be s) {i : Fin n} {done : Executed Sql RS}
    (hand : done ∈ inHand (s.workers i)) : shardOf n done.task.key = i := by
  have ran : done ∈ executedOn s i := by
    rw [← h.delivered i]
    exact List.mem_append_right _ hand
  have sent : done.task ∈ submittedTo s i := by
    rw [← h.queued i, List.append_assoc]
    exact List.mem_append_left _ (List.mem_map_of_mem ran)
  exact ((mem_part _).mp sent).2

theorem queued_next (shake : Handshake s) (h : Order be s) (taken : Stepped be s a t) (i : Fin n) :
    (executedOn t i).map (·.task) ++ batch (t.workers i) ++ (t.taskQueues i).tasks =
      submittedTo t i := by
  have queued := h.queued i
  cases taken with
  | @submit key sql info shard may live at_shard =>
    have live : s.inited = true := by
      by_contra dead
      simp [shake.connNum, dead] at live
    have shardEq : shardOf n key = shard := by simpa [shake.connNum, live] using at_shard
    by_cases same : i = shard
    · subst same
      simpa [submittedTo, part_singleton, shardEq, executedOn] using
        congrArg (· ++ [(⟨s.submitted.length, key, sql, info⟩ : AsyncTask Sql)]) queued
    · have other : shardOf n key ≠ i := fun h => same (Fin.ext (h.symm.trans shardEq))
      simpa [submittedTo, part_singleton, other, executedOn, Function.update_of_ne same] using queued
  | pop j at_pc =>
    by_cases same : i = j
    · subst same
      simpa [executedOn, submittedTo, at_pc, batch] using queued
    · simpa [executedOn, submittedTo, Function.update_of_ne same] using queued
  | @execute task tasks result conn db j at_pc ran =>
    simp only [executedOn, executedOn_execute]
    by_cases same : i = j
    · subst same
      simpa [executedOn, submittedTo, at_pc, batch] using queued
    · simpa [executedOn, submittedTo, Ne.symm same, Function.update_of_ne same] using queued
  | destroyClear at_pc =>
    -- the workers have left their loops, so the queues that are cleared are empty
    have gone := shake.left i (.inr (shake.past (.inl (by simp [at_pc, pastPoll])) i))
    simpa [gone, executedOn, submittedTo, clear] using queued
  | worked j at_pc | finish j at_pc | sawFlushing j at_pc | sawNoFlush j at_pc | sawEmpty j at_pc
  | sawTasks j at_pc | setFlag j at_pc | sawStoping j at_pc | sawGoing j at_pc | count j at_pc =>
    rw [workers_update (f := batch) (by simp [at_pc, batch])]
    exact queued
  | _ => exact queued

theorem delivered_next (shake : Handshake s) (h : Order be s) (taken : Stepped be s a t)
    (i : Fin n) : ofShard i (finished t) ++ inHand (t.workers i) = executedOn t i := by
  have delivered := h.delivered i
  cases taken with
  | updateSwap idle | updateDone at_pc | invoke at_pc | callbackDone at_pc =>
    simp_all [finished, localTasks, executedOn]
  | flushReturn at_pc =>
    have none : localTasks s.main = [] := by rw [at_pc]; rfl
    simpa [finished, none, localTasks_afterFlush, executedOn] using delivered
  | destroyClear at_pc =>
    have kept := h.kept (shake.closing_inited (by simp [at_pc, closing]))
    simp_all [finished, localTasks, executedOn, clear]
  | @execute task tasks result conn db j at_pc ran =>
    simp only [executedOn, executedOn_execute]
    by_cases same : i = j
    · subst same
      simpa [finished, executedOn, at_pc, inHand] using
        congrArg (· ++ [(⟨task, result⟩ : Executed Sql RS)]) delivered
    · simpa [finished, executedOn, Ne.symm same, Function.update_of_ne same] using delivered
  | @finish done tasks j at_pc =>
    have live : s.inited = true := by
      by_contra dead
      simp [shake.past (.inr (by simpa using dead)) j] at at_pc
    have shard := h.hand_shard (by rw [at_pc]; exact List.mem_singleton_self done)
    by_cases same : i = j
    · subst same
      simpa [finished, executedOn, at_pc, inHand, h.kept live, ofShard, part_singleton, shard]
        using delivered
    · have other : shardOf n done.task.key ≠ i := fun h => same (Fin.ext (h.symm.trans shard))
      simpa [finished, executedOn, h.kept live, ofShard, part_singleton, other,
        Function.update_of_ne same] using delivered
  | pop j at_pc | worked j at_pc | sawFlushing j at_pc | sawNoFlush j at_pc | sawEmpty j at_pc
  | sawTasks j at_pc | setFlag j at_pc | sawStoping j at_pc | sawGoing j at_pc | count j at_pc =>
    rw [workers_update (f := inHand) (by simp [at_pc, inHand])]
    exact delivered
  | _ => simp_all [finished, localTasks, executedOn]

theorem ids_next (ids : s.submitted.map (·.id) = List.range s.submitted.length)
    (taken : Stepped be s a t) : t.submitted.map (·.id) = List.range t.submitted.length := by
  cases taken with
  | submit => simp [ids, List.range_succ]
  | _ => exact ids

theorem own_next (own : ∀ e ∈ s.executed, ∃ conn db, e.2.result = (asyncDoWork be e.2.task conn db).1)
    (taken : Stepped be s a t) :
    ∀ e ∈ t.executed, ∃ conn db, e.2.result = (asyncDoWork be e.2.task conn db).1 := by
  cases taken with
  | @execute task tasks result conn db i at_pc ran =>
    intro e member
    rcases List.mem_append.mp member with old | new
    · exact own e old
    · rw [List.mem_singleton.mp new]
      exact ⟨s.asyncConns i, s.db, by simp [ran]⟩
  | _ => exact own

theorem kept_next (kept : s.inited = true → s.discarded = [])
    (taken : Stepped be s a t) : t.inited = true → t.discarded = [] := by
  cases taken with
  | destroyClear => intro live; cases live
  | _ => exact kept

theorem Order.next (shake : Handshake s) (h : Order be s) (taken : Stepped be s a t) :
    Order be t where
  queued := queued_next shake h taken
  delivered := delivered_next shake h taken
  ids := ids_next h.ids taken
  own := own_next h.own taken
  kept := kept_next h.kept taken

theorem Order.initial {conns : Fin n → Conn} {flags : Fin n → Bool} {db : D} :
    Order be (Engine.initial conns flags db : Engine Sql Conn D RS n) where
  queued _ := rfl
  delivered _ := rfl
  ids := rfl
  own := by simp [Engine.initial]
  kept _ := rfl

variable {conns : Fin n → Conn} {flags : Fin n → Bool} {db : D}

theorem order (reached : Reach (step be) (Engine.initial conns flags db) s) : Order be s :=
  Reach.invariant Order.initial
    (fun _ _ _ before held taken => held.next (handshake before) (step_stepped taken)) reached

theorem Order.executed_prefix (h : Order be s) (i : Fin n) :
    (executedOn s i).map (·.task) <+: submittedTo s i :=
  ⟨batch (s.workers i) ++ (s.taskQueues i).tasks, by rw [← List.append_assoc, h.queued i]⟩

theorem Order.calledBack_prefix (h : Order be s) (i : Fin n) :
    ofShard i s.calledBack <+: executedOn s i := by
  rw [← h.delivered i]
  simp only [finished, ofShard_append, List.append_assoc]
  exact List.prefix_append _ _

theorem Order.executed_sent (h : Order be s) {i : Fin n} {done : Executed Sql RS}
    (ran : (i, done) ∈ s.executed) : done.task ∈ submittedTo s i := by
  have on : done ∈ executedOn s i := List.mem_map.mpr ⟨(i, done), (mem_part _).mpr ⟨ran, rfl⟩, rfl⟩
  exact (h.executed_prefix i).subset (List.mem_map_of_mem on)

theorem Order.executed_shard (h : Order be s) {i : Fin n} {done : Executed Sql RS}
    (ran : (i, done) ∈ s.executed) : shardOf n done.task.key = i :=
  ((mem_part _).mp (h.executed_sent ran)).2

theorem Order.executed_part (h : Order be s) (i : Fin n) :
    ofShard i (s.executed.map Prod.snd) = executedOn s i := by
  simp only [ofShard, executedOn, part, List.filter_map]
  congr 1
  refine List.filter_congr fun e member => ?_
  have shard := h.executed_shard (i := e.1) (by simpa using member)
  simp [shard, Fin.ext_iff]

theorem ofShard_map_task (i : Fin n) (done : List (Executed Sql RS)) :
    (ofShard i done).map (·.task) = part (fun task => shardOf n task.key) i (done.map (·.task)) := by
  simp only [ofShard, part, List.filter_map]
  rfl

theorem shardOf_lt (live : 0 < n) (key : UInt64) : shardOf n key < n := Nat.mod_lt _ live

theorem Order.executed_subperm (live : 0 < n) (h : Order be s) :
    (s.executed.map (·.2.task)).Subperm s.submitted := by
  refine subperm_of_part_prefix (fun task => shardOf n task.key) fun k => ?_
  by_cases inside : k < n
  · have ran := h.executed_prefix ⟨k, inside⟩
    rw [← h.executed_part, ofShard_map_task, List.map_map] at ran
    exact ran
  · have none : part (fun task => shardOf n task.key) k (s.executed.map (·.2.task)) = [] :=
      part_eq_nil _ fun task _ at_k => inside (at_k ▸ shardOf_lt live task.key)
    rw [none]
    exact List.nil_prefix

theorem Order.executed_nodup (h : Order be s) : (s.executed.map (·.2.task.id)).Nodup := by
  rcases Nat.eq_zero_or_pos n with rfl | live
  · have none : s.executed = [] := List.eq_nil_iff_forall_not_mem.mpr fun e _ => e.1.elim0
    simp [none]
  obtain ⟨tasks, perm, sub⟩ := h.executed_subperm live
  have ids : (s.submitted.map (·.id)).Nodup := h.ids ▸ List.nodup_range
  have nodup : (tasks.map (·.id)).Nodup := ids.sublist (sub.map _)
  simpa [Function.comp_def] using ((perm.map (·.id)).nodup_iff).mp nodup

theorem key_part_ofShard (i : Fin n) {key : UInt64} (at_shard : shardOf n key = i)
    (done : List (Executed Sql RS)) :
    part (·.task.key) key (ofShard i done) = part (·.task.key) key done :=
  part_part _ _ fun e same => by rw [← at_shard, same]

theorem Order.key_executed (h : Order be s) {i : Fin n} {key : UInt64} (at_shard : shardOf n key = i) :
    part (·.task.key) key (executedOn s i) =
      part (·.task.key) key (s.executed.map Prod.snd) := by
  rw [← h.executed_part, key_part_ofShard i at_shard]

theorem key_submitted {i : Fin n} {key : UInt64} (at_shard : shardOf n key = i) :
    part (·.key) key (submittedTo s i) = part (·.key) key s.submitted :=
  part_part _ _ fun task same => by rw [← at_shard, same]

theorem Order.key_fifo (live : 0 < n) (h : Order be s) (key : UInt64) :
    (part (·.task.key) key (s.executed.map Prod.snd)).map (·.task) <+:
        part (·.key) key s.submitted ∧
      part (·.task.key) key s.calledBack <+: part (·.task.key) key (s.executed.map Prod.snd) := by
  have at_shard : shardOf n key = (⟨shardOf n key, shardOf_lt live key⟩ : Fin n) := rfl
  generalize (⟨shardOf n key, shardOf_lt live key⟩ : Fin n) = i at at_shard
  rw [← h.key_executed at_shard]
  constructor
  · have ran := (h.executed_prefix i).filter fun task => decide (task.key = key)
    rw [← key_submitted at_shard]
    simpa [part, List.filter_map, Function.comp_def] using ran
  · have called := (h.calledBack_prefix i).filter fun e => decide (e.task.key = key)
    rw [← key_part_ofShard i at_shard]
    exact called

end Steps

/-- A server that keeps the statements it gets. -/
def logServer : Backend Nat Unit (List Nat) Nat where
  query sql _ conn db := (some sql, conn, db ++ [sql])
  execute sql conn db := (true, conn, db ++ [sql])

end LlbcDatabase.Engine
