import LlbcDatabase.EngineOrder

/-! How long a task waits. Whatever the other threads do, a worker needs a bounded number of
its own steps to finish the tasks of its shard, and the next `OnUpdate` calls them back. -/

namespace LlbcDatabase.Engine

open Transition CommutingRuns

variable {Sql Conn D RS : Type} {n : Nat}

/-- The steps that a worker takes from here until it takes the queue. -/
def stepsToPop : WorkerPc Sql RS → Nat
  | .pop => 1
  | .readStoping | .setFlag => 2
  | .readEmpty => 3
  | .readFlushing => 4
  | .work _ => 5
  | .finish _ _ => 6
  | .count | .exited => 0

theorem stepsToPop_le (pc : WorkerPc Sql RS) : stepsToPop pc ≤ 5 + (inHand pc).length := by
  cases pc <;> simp [stepsToPop, inHand]

/-- The steps that a worker takes at most until `m` tasks are finished, when `ran` of them have
been executed. -/
def rankOf (m ran : Nat) (pc : WorkerPc Sql RS) : Nat :=
  if m + (inHand pc).length ≤ ran then 0
  else if m - ran ≤ (batch pc).length then 2 * (m - ran) + (inHand pc).length
  else 2 * (m - ran) + stepsToPop pc

def rank (m : Nat) (i : Fin n) (s : Engine Sql Conn D RS n) : Nat :=
  rankOf m (executedOn s i).length (s.workers i)

def unfinished (s : Engine Sql Conn D RS n) (i : Fin n) : Nat :=
  (submittedTo s i).length - (ofShard i (finished s)).length

def byWorker (i : Fin n) : Action Sql n → Bool
  | .worker j => decide (j = i)
  | _ => false

theorem byWorker_iff {i : Fin n} {a : Action Sql n} : byWorker i a = true ↔ a = .worker i := by
  cases a <;> simp [byWorker]

section Steps

variable {be : Backend Sql Conn D RS} {s t : Engine Sql Conn D RS n} {a : Action Sql n} {m : Nat}
  {i : Fin n}

theorem executedOn_of_step (taken : Stepped be s a t) : executedOn t i = executedOn s i ∨
    a = .worker i ∧ ∃ task tasks done, s.workers i = .work (task :: tasks) ∧
      t.workers i = .finish done tasks ∧ executedOn t i = executedOn s i ++ [done] := by
  cases taken with
  | @execute task tasks result conn db j at_pc ran =>
    by_cases same : j = i
    · subst same
      refine .inr ⟨rfl, task, tasks, _, at_pc, Function.update_self .., ?_⟩
      simp [executedOn, part_singleton]
    · apply Or.inl
      simp [executedOn, part_singleton, same]
  | _ => exact .inl rfl

theorem workers_of_step (taken : Stepped be s a t) (other : a ≠ .worker i) :
    t.workers i = s.workers i := by
  cases taken with
  | pop j | worked j | execute j | finish j | sawFlushing j | sawNoFlush j | sawEmpty j
  | sawTasks j | setFlag j | sawStoping j | sawGoing j | count j =>
    have apart : i ≠ j := fun same => other (by rw [same])
    exact Function.update_of_ne apart ..
  | _ => rfl

theorem submittedTo_grows (taken : Stepped be s a t) : submittedTo s i <+: submittedTo t i := by
  cases taken with
  | submit =>
    simp only [submittedTo, part_append]
    exact List.prefix_append _ _
  | _ => exact List.prefix_rfl

theorem rank_other (taken : Stepped be s a t) (other : a ≠ .worker i) : rank m i t = rank m i s := by
  rcases executedOn_of_step (i := i) taken with same | ⟨own, -⟩
  · rw [rank, rank, same, workers_of_step taken other]
  · exact absurd own other

theorem rank_worker (ordered : Order be s) (shake : Handshake t)
    (sent : m ≤ (submittedTo s i).length) (taken : Stepped be s (.worker i) t) :
    rank m i t = 0 ∨ rank m i t < rank m i s := by
  have queued := congrArg List.length (ordered.queued i)
  have left := shake.left i
  simp only [List.length_append, List.length_map] at queued
  cases taken with
  | pop j at_pc =>
    -- all that was sent and not executed is in the queue that the worker takes
    simp only [at_pc, batch, List.length_nil] at queued
    simp only [rank, rankOf, executedOn, Function.update_self, at_pc, batch, inHand, stepsToPop,
      List.length_nil] at queued ⊢
    split_ifs <;> omega
  | worked j at_pc =>
    simp only [rank, rankOf, executedOn, Function.update_self, at_pc, batch, inHand, stepsToPop,
      List.length_nil]
    split_ifs <;> omega
  | @execute task tasks result conn db j at_pc done =>
    simp only [rank, rankOf, executedOn, Function.update_self, at_pc, batch, inHand, stepsToPop,
      List.length_nil, List.length_cons, part_append, part_singleton, if_true, List.map_append,
      List.length_append, List.map_singleton]
    split_ifs <;> omega
  | finish j at_pc =>
    simp only [rank, rankOf, executedOn, Function.update_self, at_pc, batch, inHand, stepsToPop,
      List.length_nil, List.length_singleton]
    split_ifs <;> omega
  | sawStoping j at_pc | count j at_pc =>
    -- a worker that leaves has nothing in its queue
    have empty : (s.taskQueues i).tasks = [] := left (by simp [Function.update_self])
    simp only [at_pc, batch, List.length_nil, empty] at queued
    apply Or.inl
    simp only [rank, rankOf, Function.update_self, batch, inHand, List.length_nil]
    exact if_pos (by simp only [executedOn] at queued ⊢; omega)
  | sawFlushing j at_pc | sawNoFlush j at_pc | sawEmpty j at_pc
  | sawTasks j at_pc | setFlag j at_pc | sawGoing j at_pc =>
    simp only [rank, rankOf, executedOn, Function.update_self, at_pc, batch, inHand, stepsToPop,
      List.length_nil]
    split_ifs <;> omega

theorem finished_length (ordered : Order be s) (i : Fin n) :
    (ofShard i (finished s)).length + (inHand (s.workers i)).length = (executedOn s i).length := by
  rw [← ordered.delivered i, List.length_append]

theorem finished_of_rank (ordered : Order be s) (done : rank m i s = 0) :
    m ≤ (ofShard i (finished s)).length := by
  have hand := finished_length ordered i
  unfold rank rankOf at done
  split_ifs at done <;> omega

theorem rank_le (ordered : Order be s) (i : Fin n) :
    rank (submittedTo s i).length i s ≤ 2 * unfinished s i + 5 := by
  have hand := finished_length ordered i
  have sent := (ordered.executed_prefix i).length_le
  rw [List.length_map] at sent
  have steps := stepsToPop_le (s.workers i)
  unfold rank rankOf unfinished
  split_ifs <;> omega

/-- What has been called back, or will be before the main thread is idle again. -/
def called (s : Engine Sql Conn D RS n) : List (Executed Sql RS) := s.calledBack ++ localTasks s.main

theorem called_grows (taken : Stepped be s a t) : called s <+: called t := by
  cases taken with
  | submit => exact List.prefix_rfl
  | updateSwap idle =>
    simp only [called, idle, localTasks, List.append_nil]
    exact List.prefix_append _ _
  | invoke at_pc => simp [called, at_pc, localTasks]
  | flushReturn at_pc | updateDone at_pc | callbackDone at_pc | flushClear _ at_pc | flushCleared at_pc
  | flushSet at_pc | flushSeen _ at_pc | flushAllSeen at_pc | destroyStop at_pc | destroyReset at_pc
  | destroyPast at_pc | joined _ at_pc | joinedAll at_pc | destroyClear at_pc =>
    simp [called, at_pc, localTasks, clear]
  | flushBegin idle | destroyUnflushed idle | destroyBegin idle => simp [called, idle, localTasks]
  | _ => exact List.prefix_rfl

theorem called_onUpdate (ordered : Order be s) (live : s.inited = true)
    (taken : Stepped be s .onUpdate t) : called t = finished s := by
  have kept := ordered.kept live
  cases taken with
  | updateNothing idle none => simp [called, finished, idle, localTasks, none, kept]
  | updateSwap idle => simp [called, finished, idle, localTasks, kept]

theorem worked (be : Backend Sql Conn D RS) (conns : Fin n → Conn) (flags : Fin n → Bool) (db : D)
    (reached : Reach (step be) (initial conns flags db) s) {actions : List (Action Sql n)}
    (run : Leads (step be) s actions t)
    (enough : 2 * unfinished s i + 5 ≤ actions.countP (byWorker i)) :
    rank (submittedTo s i).length i t = 0 := by
  have done := run.exhaust (Q := fun _ => False)
    (I := fun x => Reach (step be) (initial conns flags db) x ∧ submittedTo s i <+: submittedTo x i)
    (fun x y a held taken => ?_) ⟨reached, List.prefix_rfl⟩ ((rank_le (order reached) i).trans enough)
  · rcases done with ⟨_, _, _, _, _, never⟩ | done
    · exact never.elim
    · exact done.2
  obtain ⟨before, sent⟩ := held
  have stepped := step_stepped taken
  refine .inr ⟨⟨before.next taken, sent.trans (submittedTo_grows stepped)⟩, ?_⟩
  by_cases own : a = .worker i
  · subst own
    have lower := rank_worker (order before) (handshake (before.next taken)) sent.length_le stepped
    exact ⟨by omega, fun _ => lower⟩
  · exact ⟨(rank_other stepped own).le, fun by_i => absurd (byWorker_iff.mp by_i) own⟩

end Steps

/-- Whatever the other threads do: when its worker has taken two steps for each task that was
unfinished and five more, and an `OnUpdate` that was called later has returned, all that was
submitted to a shard has been called back, in order. -/
theorem called_back (be : Backend Sql Conn D RS) (conns : Fin n → Conn) (flags : Fin n → Bool) (db : D)
    (s t u v : Engine Sql Conn D RS n) (reached : Reach (step be) (initial conns flags db) s)
    (i : Fin n) (actions later : List (Action Sql n)) (run : Leads (step be) s actions t)
    (enough : 2 * unfinished s i + 5 ≤ actions.countP (byWorker i)) (live : t.inited = true)
    (update : step be t .onUpdate = some u) (run' : Leads (step be) u later v)
    (idle : v.main = .idle) :
    submittedTo s i <+: (ofShard i v.calledBack).map (·.task) := by
  have sent : submittedTo s i <+: submittedTo t i :=
    run.invariant (I := fun x => submittedTo s i <+: submittedTo x i)
      (fun _ _ _ before taken => before.trans (submittedTo_grows (step_stepped taken)))
      List.prefix_rfl
  have ordered := order (run.reach reached)
  have whole := finished_of_rank ordered (worked be conns flags db reached run enough)
  have finish : (ofShard i (finished t)).map (·.task) <+: submittedTo t i := by
    apply List.IsPrefix.trans _ (ordered.executed_prefix i)
    rw [← ordered.delivered i, List.map_append]
    exact List.prefix_append _ _
  have delivered : finished t <+: v.calledBack := by
    have after : called u <+: called v :=
      run'.invariant (I := fun x => called u <+: called x)
        (fun _ _ _ before taken => before.trans (called_grows (step_stepped taken))) List.prefix_rfl
    have none : localTasks v.main = [] := by rw [idle]; rfl
    rw [called_onUpdate ordered live (step_stepped update), called, none, List.append_nil] at after
    exact after
  apply List.IsPrefix.trans (List.prefix_of_prefix_length_le sent finish (by simpa using whole))
  exact (delivered.filter _).map _

/-- Two tasks of one worker, which works, and an `OnUpdate` with its two callbacks. -/
def twoTasks : Engine Nat Unit (List Nat) Nat 1 :=
  runTo (step logServer) (initial (fun _ => ()) (fun _ => false) [])
    [.queryAsync 0 10 .executeSql, .queryAsync 0 11 (.query .read)]

def twoWorked : Engine Nat Unit (List Nat) Nat 1 :=
  runTo (step logServer) twoTasks (List.replicate 9 (.worker only))

def twoCalled : Engine Nat Unit (List Nat) Nat 1 :=
  runTo (step logServer) twoWorked.onUpdate (List.replicate 5 .main)

theorem called_back_twoTasks : submittedTo twoTasks only <+:
    (ofShard only twoCalled.calledBack).map (·.task) ∧ (submittedTo twoTasks only).length = 2 :=
  ⟨called_back logServer (fun _ => ()) (fun _ => false) [] twoTasks twoWorked twoWorked.onUpdate
    twoCalled (runTo_reach .start) only _ _ (leads_runTo rfl) (by decide) rfl rfl (leads_runTo rfl) rfl,
    by decide⟩

section Flush

variable {be : Backend Sql Conn D RS} {s t : Engine Sql Conn D RS n} {a : Action Sql n} {i : Fin n}

/-- The steps that worker `i` takes at most until it has acknowledged. -/
def ackRank (i : Fin n) (s : Engine Sql Conn D RS n) : Nat :=
  if s.flushFlag i then 0 else match s.workers i with
    | .setFlag => 1
    | .readEmpty => 2
    | .readFlushing => 3
    | .work tasks => 4 + 2 * tasks.length
    | .finish _ tasks => 5 + 2 * tasks.length
    | .pop => 5 + 2 * (s.taskQueues i).tasks.length
    | .readStoping => 6 + 2 * (s.taskQueues i).tasks.length
    | .count | .exited => 0

/-- The main thread waits in `Flush` for worker `j` or a later one. -/
def Waiting (caller : Caller) (s : Engine Sql Conn D RS n) : Prop :=
  ∃ j ≤ n, s.main = .flushWait j caller

theorem count_next (none : ∀ i, (s.taskQueues i).count = 0) (taken : Stepped be s a t) (i : Fin n) :
    (t.taskQueues i).count = 0 := by
  cases taken with
  | submit shard =>
    by_cases same : i = shard
    · simpa [same, AsyncTaskQueue.push] using none shard
    · simpa [same] using none i
  | pop j =>
    by_cases same : i = j
    · simpa [same, AsyncTaskQueue.timePopAll] using none j
    · simpa [same] using none i
  | destroyClear => rfl
  | _ => exact none i

theorem ackRank_worker (none : (s.taskQueues i).count = 0) (flushing : s.flushing = true)
    (going : s.stoping = false) (staying : s.workers i ≠ .count)
    (taken : Stepped be s (.worker i) t) : ackRank i t = 0 ∨ ackRank i t < ackRank i s := by
  by_cases acked : s.flushFlag i = true
  · apply Or.inl
    cases taken <;> simp [ackRank, acked]
  cases taken with
  | pop j at_pc => simp [ackRank, acked, at_pc]
  | worked j at_pc => simp [ackRank, acked, at_pc]
  | execute j at_pc =>
    simp only [ackRank, acked, at_pc, Function.update_self, List.length_cons, Bool.false_eq_true,
      if_false]
    omega
  | finish j at_pc => simp [ackRank, acked, at_pc]
  | sawFlushing j at_pc => simp [ackRank, acked, at_pc]
  | sawNoFlush j at_pc saw => rw [flushing] at saw; cases saw
  | sawEmpty j at_pc => simp [ackRank, acked, at_pc]
  | sawTasks j at_pc saw => simp [AsyncTaskQueue.isEmpty, none] at saw
  | setFlag j at_pc => simp [ackRank]
  | sawStoping j at_pc saw => rw [going] at saw; cases saw
  | sawGoing j at_pc => simp [ackRank, acked, at_pc]
  | count j at_pc => exact absurd at_pc staying

theorem ackRank_other (waiting : ∃ j caller, s.main = .flushWait j caller) (taken : Stepped be s a t)
    (other : a ≠ .worker i) : ackRank i t = ackRank i s := by
  obtain ⟨j, caller, at_main⟩ := waiting
  have workers := workers_of_step taken other
  have same : t.flushFlag i = s.flushFlag i ∧ t.taskQueues i = s.taskQueues i := by
    cases taken with
    | pop k =>
      have apart : i ≠ k := fun same => other (by rw [same])
      exact ⟨rfl, Function.update_of_ne apart ..⟩
    | setFlag k =>
      have apart : i ≠ k := fun same => other (by rw [same])
      exact ⟨Function.update_of_ne apart .., rfl⟩
    | submit _ may =>
      rw [at_main] at may
      exact may.elim
    | flushClear _ at_pc | destroyClear at_pc =>
      rw [at_main] at at_pc
      cases at_pc
    | _ => exact ⟨rfl, rfl⟩
  rw [ackRank, ackRank, workers, same.1, same.2]

theorem waiting_main {caller : Caller} {j : Nat} (at_main : s.main = .flushWait j caller)
    (bound : j ≤ n) (taken : Stepped be s a t) : t.main = .flushReset caller ∨
      t.main = s.main ∧ (a = .main → ∃ i : Fin n, i = j ∧ s.flushFlag i = false) ∨
      a = .main ∧ j < n ∧ t.main = .flushWait (j + 1) caller := by
  cases taken with
  | flushSeen i at_pc =>
    rw [at_main] at at_pc
    cases at_pc
    exact .inr (.inr ⟨rfl, i.isLt, rfl⟩)
  | flushAllSeen at_pc =>
    rw [at_main] at at_pc
    cases at_pc
    exact .inl rfl
  | flushSleep i at_pc unseen =>
    rw [at_main] at at_pc
    cases at_pc
    exact .inr (.inl ⟨rfl, fun _ => ⟨i, rfl, unseen⟩⟩)
  | submit _ may =>
    rw [at_main] at may
    exact may.elim
  | pop | worked | execute | finish | sawFlushing | sawNoFlush | sawEmpty | sawTasks | setFlag
  | sawStoping | sawGoing | count => exact .inr (.inl ⟨rfl, nofun⟩)
  | updateNothing at_pc | updateSwap at_pc | flushRefused at_pc | flushBegin at_pc
  | destroyRefused at_pc | destroyUnflushed at_pc | destroyBegin at_pc | updateDone at_pc
  | invoke at_pc | callbackDone at_pc | flushClear _ at_pc | flushCleared at_pc | flushSet at_pc
  | flushReturn at_pc | destroyStop at_pc | destroyReset at_pc | destroySleep at_pc
  | destroyPast at_pc | joined _ at_pc | joinedAll at_pc | destroyClear at_pc =>
    rw [at_main] at at_pc
    cases at_pc

theorem counts {conns : Fin n → Conn} {flags : Fin n → Bool} {db : D}
    (reached : Reach (step be) (initial conns flags db) s) (i : Fin n) :
    (s.taskQueues i).count = 0 :=
  reached.invariant (I := fun s => ∀ i, (s.taskQueues i).count = 0) (fun _ => rfl)
    (fun _ _ _ _ none taken => count_next none (step_stepped taken)) i

theorem Waiting.open_ {caller : Caller} (waiting : Waiting caller s) (shake : Handshake s) :
    s.flushing = true ∧ s.stoping = false ∧ ∀ i, s.workers i ≠ .count ∧ s.workers i ≠ .exited := by
  obtain ⟨j, -, at_main⟩ := waiting
  have live : s.inited = true := shake.closing_inited (by simp [at_main, closing])
  have going : s.stoping = false := by
    rw [Bool.eq_false_iff, Ne, shake.stoping_iff]
    simp [at_main, stopOpen, live]
  refine ⟨shake.flushing_iff.mpr (by simp [at_main, flushOpen]), going, fun i => ⟨?_, ?_⟩⟩
  all_goals
    intro left
    have stopped := shake.leaving i (by simp [left])
    rw [going] at stopped
    cases stopped

theorem acked_of_rank {caller : Caller} (waiting : Waiting caller s) (shake : Handshake s)
    (done : ackRank i s = 0) : s.flushFlag i = true := by
  have staying := (waiting.open_ shake).2.2 i
  by_contra unset
  rw [ackRank, if_neg unset] at done
  cases pc : s.workers i <;> simp [pc] at done staying

theorem ackRank_le (i : Fin n) : ackRank i s ≤
    2 * ((batch (s.workers i)).length + (s.taskQueues i).tasks.length) + 6 := by
  unfold ackRank
  split
  · omega
  · cases pc : s.workers i <;> simp only [batch, List.length_nil] <;> omega

/-- While the main thread waits, the workers come nearer to their acknowledgements. -/
theorem waiting_next {conns : Fin n → Conn} {flags : Fin n → Bool} {db : D} {caller : Caller}
    (reached : Reach (step be) (initial conns flags db) s) (waiting : Waiting caller s)
    (taken : Stepped be s a t) : t.main = .flushReset caller ∨
      Waiting caller t ∧ ∀ i, ackRank i t ≤ ackRank i s ∧
        (a = .worker i → ackRank i t = 0 ∨ ackRank i t < ackRank i s) := by
  obtain ⟨flushing, going, staying⟩ := waiting.open_ (handshake reached)
  have acks : ∀ i, ackRank i t ≤ ackRank i s ∧
      (a = .worker i → ackRank i t = 0 ∨ ackRank i t < ackRank i s) := by
    intro i
    by_cases own : a = .worker i
    · subst own
      have lower := ackRank_worker (counts reached i) flushing going (staying i).1 taken
      exact ⟨by omega, fun _ => lower⟩
    · obtain ⟨j, -, at_main⟩ := waiting
      exact ⟨(ackRank_other ⟨j, caller, at_main⟩ taken own).le, fun own' => absurd own' own⟩
  obtain ⟨j, bound, at_main⟩ := waiting
  rcases waiting_main at_main bound taken with leaves | ⟨stays, -⟩ | ⟨-, more, goes⟩
  · exact .inl leaves
  · exact .inr ⟨⟨j, bound, stays.trans at_main⟩, acks⟩
  · exact .inr ⟨⟨j + 1, more, goes⟩, acks⟩

/-- The workers for which the main thread still waits, and its last look. -/
def turns (s : Engine Sql Conn D RS n) : Nat :=
  match s.main with
  | .flushWait j _ => n + 1 - j
  | _ => 0

def byMain : Action Sql n → Bool
  | .main => true
  | _ => false

variable {conns : Fin n → Conn} {flags : Fin n → Bool} {db : D} {caller : Caller}

/-- After enough steps of the workers all have acknowledged, unless the main thread has left. -/
theorem acknowledged (held : Reach (step be) (initial conns flags db) s ∧ Waiting caller s)
    {actions : List (Action Sql n)} (run : Leads (step be) s actions t)
    (enough : ∀ i, 2 * ((batch (s.workers i)).length + (s.taskQueues i).tasks.length) + 6 ≤
      actions.countP (byWorker i)) :
    (∃ before after v, actions = before ++ after ∧ Leads (step be) s before v ∧
      v.main = .flushReset caller) ∨
    (Reach (step be) (initial conns flags db) t ∧ Waiting caller t) ∧ ∀ i, ackRank i t = 0 := by
  by_cases left : ∃ before after v, actions = before ++ after ∧ Leads (step be) s before v ∧
      v.main = .flushReset caller
  · exact .inl left
  apply Or.inr
  have each : ∀ (rank : Engine Sql Conn D RS n → Nat) (p : Action Sql n → Bool),
      (∀ x y a, Reach (step be) (initial conns flags db) x ∧ Waiting caller x → step be x a = some y →
        y.main = .flushReset caller ∨ Waiting caller y ∧ rank y ≤ rank x ∧
          (p a = true → rank y = 0 ∨ rank y < rank x)) → rank s ≤ actions.countP p →
      (Reach (step be) (initial conns flags db) t ∧ Waiting caller t) ∧ rank t = 0 := by
    intro rank p next few
    refine (run.exhaust (Q := fun v => v.main = .flushReset caller)
      (I := fun x => Reach (step be) (initial conns flags db) x ∧ Waiting caller x)
      (fun x y a before taken => ?_) held few).resolve_left left
    exact (next x y a before taken).imp_right fun after =>
      ⟨⟨before.1.next taken, after.1⟩, after.2⟩
  have waits : ∀ x y a, Reach (step be) (initial conns flags db) x ∧ Waiting caller x →
      step be x a = some y → y.main = .flushReset caller ∨ Waiting caller y ∧ ∀ i,
        ackRank i y ≤ ackRank i x ∧ (a = .worker i → ackRank i y = 0 ∨ ackRank i y < ackRank i x) :=
    fun x y a before taken => waiting_next before.1 before.2 (step_stepped taken)
  refine ⟨(each (fun _ => 0) (fun _ => false) (fun x y a before taken => ?_) (Nat.zero_le _)).1,
    fun i => (each (ackRank i) (byWorker i) (fun x y a before taken => ?_)
      ((ackRank_le i).trans (enough i))).2⟩
  · exact (waits x y a before taken).imp_right fun after => ⟨after.1, le_rfl, nofun⟩
  · exact (waits x y a before taken).imp_right fun after =>
      ⟨after.1, (after.2 i).1, fun own => (after.2 i).2 (byWorker_iff.mp own)⟩

theorem looked_next (held : (Reach (step be) (initial conns flags db) s ∧ Waiting caller s) ∧
      ∀ i, ackRank i s = 0) (taken : step be s a = some t) :
    t.main = .flushReset caller ∨ ((Reach (step be) (initial conns flags db) t ∧ Waiting caller t) ∧
      ∀ i, ackRank i t = 0) ∧ turns t ≤ turns s ∧ (byMain a = true → turns t = 0 ∨ turns t < turns s) := by
  obtain ⟨⟨reached, waiting⟩, acked⟩ := held
  rcases waiting_next reached waiting (step_stepped taken) with left | ⟨waiting', acks⟩
  · exact .inl left
  refine .inr ⟨⟨⟨reached.next taken, waiting'⟩, fun i => Nat.le_zero.mp ((acks i).1.trans (acked i).le)⟩, ?_⟩
  obtain ⟨j, bound, at_main⟩ := waiting
  rcases waiting_main at_main bound (step_stepped taken) with left | ⟨stays, looks⟩ | ⟨-, more, goes⟩
  · obtain ⟨_, -, at_main'⟩ := waiting'
    rw [at_main'] at left
    cases left
  · refine ⟨by rw [turns, turns, stays], fun own => ?_⟩
    cases a with
    | main =>
      obtain ⟨i, -, unset⟩ := looks rfl
      rw [acked_of_rank ⟨j, bound, at_main⟩ (handshake reached) (acked i)] at unset
      cases unset
    | queryAsync | onUpdate | flush | destroy | worker => cases own
  · simp only [turns, goes, at_main]
    omega

end Flush

/-- `Flush` returns: once it waits, it has seen all acknowledgements when every worker has taken
two steps for each of its tasks and six more, and the main thread `n + 1` steps after that. -/
theorem flush_returns (be : Backend Sql Conn D RS) (conns : Fin n → Conn) (flags : Fin n → Bool)
    (db : D) (s t u : Engine Sql Conn D RS n) (reached : Reach (step be) (initial conns flags db) s)
    (caller : Caller) (waits : s.main = .flushWait 0 caller) (actions later : List (Action Sql n))
    (run : Leads (step be) s actions t) (run' : Leads (step be) t later u)
    (worked : ∀ i, 2 * ((batch (s.workers i)).length + (s.taskQueues i).tasks.length) + 6 ≤
      actions.countP (byWorker i))
    (looked : n + 1 ≤ later.countP byMain) :
    ∃ before after v, actions ++ later = before ++ after ∧ Leads (step be) s before v ∧
      v.main = .flushReset caller := by
  rcases acknowledged ⟨reached, ⟨0, Nat.zero_le n, waits⟩⟩ run worked with
    ⟨before, after, v, rfl, first, left⟩ | ⟨held, acked⟩
  · exact ⟨before, after ++ later, v, by rw [List.append_assoc], first, left⟩
  have most : turns t ≤ n + 1 := by
    obtain ⟨j, -, at_main⟩ := held.2
    simp only [turns, at_main]
    omega
  rcases run'.exhaust (I := fun x => (Reach (step be) (initial conns flags db) x ∧ Waiting caller x) ∧
      ∀ i, ackRank i x = 0) (p := byMain) (fun x y a => looked_next) ⟨held, acked⟩ (most.trans looked) with
    ⟨before, after, v, rfl, second, left⟩ | ⟨⟨⟨-, j, bound, at_main⟩, -⟩, none⟩
  · exact ⟨actions ++ before, after, v, by rw [List.append_assoc], run.append second, left⟩
  · rw [turns, at_main] at none
    simp only at none
    omega

def twoFlushing : Engine Nat Unit (List Nat) Nat 1 :=
  runTo (step logServer) twoTasks [.flush, .main, .main, .main]

theorem flush_returns_twoTasks : ∃ before after v,
    List.replicate 10 (.worker only) ++ List.replicate 2 .main = before ++ after ∧
      Leads (step logServer) twoFlushing before v ∧ v.main = .flushReset .user :=
  flush_returns logServer (fun _ => ()) (fun _ => false) [] twoFlushing
    (runTo (step logServer) twoFlushing (List.replicate 10 (.worker only))) _
    (runTo_reach (runTo_reach .start)) .user rfl _ _ (leads_runTo rfl) (leads_runTo rfl) (by decide)
    (by decide)

end LlbcDatabase.Engine
