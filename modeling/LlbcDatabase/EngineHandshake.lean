import LlbcDatabase.EngineSteps

/-! The handshake between the main thread and the workers: what each program
point says about the three shared flags, the acknowledgements and the count of
stopped workers, in every state an initialised engine can reach. -/

namespace LlbcDatabase.Engine

open Transition

variable {Sql Conn D RS : Type} {n : Nat}

/-- Inside `Flush` or `Destroy`. -/
@[grind =] def closing : MainPc Sql RS → Prop
  | .idle | .update _ | .callback _ => False
  | _ => True

/-- Between the store of `_flushing` and its reset. -/
@[grind =] def flushOpen : MainPc Sql RS → Prop
  | .flushWait _ _ | .flushReset _ => True
  | _ => False

/-- Past the store of `_stoping`. -/
@[grind =] def stopOpen : MainPc Sql RS → Prop
  | .destroyReset | .destroyPoll | .destroyJoin _ | .destroyClear => True
  | _ => False

/-- Past the wait for the workers. -/
@[grind =] def pastPoll : MainPc Sql RS → Prop
  | .destroyJoin _ | .destroyClear => True
  | _ => False

/-- The flag of shard `i` has been cleared by the `Flush` in progress. -/
@[grind =] def flagCleared (i : Nat) : MainPc Sql RS → Prop
  | .flushClear j _ => i < j
  | .flushSet _ | .flushWait _ _ | .flushReset _ => True
  | _ => False

/-- The `Flush` in progress, or the one `Destroy` made, has left its wait for shard `i`. -/
@[grind =] def shardSeen (i : Nat) : MainPc Sql RS → Prop
  | .flushWait j _ => i < j
  | .flushReset _ | .destroyStop | .destroyReset | .destroyPoll | .destroyJoin _ | .destroyClear =>
    True
  | _ => False

/-- The next thing worker `i` does with its queue is to take it whole, or there
is nothing in it. -/
@[grind =] def settled (s : Engine Sql Conn D RS n) (i : Fin n) : Prop :=
  s.workers i = .pop ∨ (s.taskQueues i).tasks = []

def isExited : WorkerPc Sql RS → Bool
  | .exited => true
  | _ => false

def exitedNum (workers : Fin n → WorkerPc Sql RS) : Nat :=
  (Finset.univ.filter fun i => isExited (workers i)).card

theorem not_flushOpen_afterFlush (caller : Caller) :
    flushOpen (afterFlush caller : MainPc Sql RS) = False := by cases caller <;> rfl

theorem not_stopOpen_afterFlush (caller : Caller) :
    stopOpen (afterFlush caller : MainPc Sql RS) = False := by cases caller <;> rfl

theorem not_pastPoll_afterFlush (caller : Caller) :
    pastPoll (afterFlush caller : MainPc Sql RS) = False := by cases caller <;> rfl

theorem not_flagCleared_afterFlush (i : Nat) (caller : Caller) :
    flagCleared i (afterFlush caller : MainPc Sql RS) = False := by cases caller <;> rfl

theorem closing_of_flagCleared {i : Nat} {pc : MainPc Sql RS} (h : flagCleared i pc) :
    closing pc := by cases pc <;> first | exact h | trivial

theorem closing_of_shardSeen {i : Nat} {pc : MainPc Sql RS} (h : shardSeen i pc) :
    closing pc := by cases pc <;> first | exact h | trivial

theorem not_closing_of_maySubmit {pc : MainPc Sql RS} (h : maySubmit pc) :
    ¬ closing pc := by cases pc <;> simp_all [maySubmit, closing]

theorem isExited_iff (pc : WorkerPc Sql RS) : isExited pc = true ↔ pc = .exited := by
  cases pc <;> simp [isExited]

theorem exitedNum_le (workers : Fin n → WorkerPc Sql RS) : exitedNum workers ≤ n := by
  have bound := Finset.card_filter_le Finset.univ fun i => (isExited (workers i)) = true
  simpa [exitedNum] using bound

theorem exitedNum_eq_iff (workers : Fin n → WorkerPc Sql RS) :
    exitedNum workers = n ↔ ∀ i, workers i = .exited := by
  have full := Finset.card_filter_eq_iff (s := Finset.univ) (p := fun i => isExited (workers i) = true)
  simpa [exitedNum, isExited_iff] using full

theorem exitedNum_update {workers : Fin n → WorkerPc Sql RS} {i : Fin n} {pc : WorkerPc Sql RS}
    (before : workers i ≠ .exited) (after : pc ≠ .exited) :
    exitedNum (Function.update workers i pc) = exitedNum workers := by
  unfold exitedNum
  congr 1
  ext j
  by_cases same : j = i
  · subst same
    simp [isExited_iff, before, after]
  · simp [Function.update_of_ne same]

theorem exitedNum_exit {workers : Fin n → WorkerPc Sql RS} {i : Fin n}
    (before : workers i ≠ .exited) :
    exitedNum (Function.update workers i .exited) = exitedNum workers + 1 := by
  unfold exitedNum
  have added : (Finset.univ.filter fun j => isExited (Function.update workers i .exited j)) =
      insert i (Finset.univ.filter fun j => isExited (workers j)) := by
    ext j
    by_cases same : j = i
    · subst same
      simp [isExited_iff]
    · simp [same]
  rw [added, Finset.card_insert_of_notMem]
  simp [isExited_iff, before]

structure Flags (s : Engine Sql Conn D RS n) : Prop where
  closing_inited : closing s.main → s.inited = true
  connNum : s.asyncConnNum = if s.inited then n else 0
  flushing_iff : s.flushing = true ↔ flushOpen s.main
  stoping_iff : s.stoping = true ↔ stopOpen s.main ∨ s.inited = false
  leaving : ∀ i, s.workers i = .count ∨ s.workers i = .exited → s.stoping = true

section Steps

variable {be : Backend Sql Conn D RS} {s t : Engine Sql Conn D RS n} {a : Action Sql n}

theorem Flags.initial {conns : Fin n → Conn} {flags : Fin n → Bool} {db : D} :
    Flags (Engine.initial conns flags db : Engine Sql Conn D RS n) := by
  constructor <;> simp [Engine.initial, closing, flushOpen, stopOpen]

theorem closing_next (h : Flags s) (taken : Stepped be s a t) (inside : closing t.main) :
    t.inited = true := by
  cases taken with
  | flushBegin _ inited | destroyBegin _ inited | destroyUnflushed _ inited => exact inited
  | flushClear _ at_pc | flushCleared at_pc | flushSet at_pc | flushSeen _ at_pc
  | flushAllSeen at_pc | flushReturn at_pc | destroyStop at_pc | destroyReset at_pc
  | destroyPast at_pc | joined _ at_pc | joinedAll at_pc =>
    exact h.closing_inited (by simp [at_pc, closing])
  | updateSwap | updateDone | invoke | callbackDone | destroyClear => exact inside.elim
  | _ => exact h.closing_inited inside

theorem connNum_next (h : Flags s) (taken : Stepped be s a t) :
    t.asyncConnNum = if t.inited then n else 0 := by
  cases taken with
  | destroyClear => rfl
  | _ => exact h.connNum

theorem flushing_next (h : Flags s) (taken : Stepped be s a t) :
    t.flushing = true ↔ flushOpen t.main := by
  have before := h.flushing_iff
  cases taken with
  | flushSet => exact iff_of_true rfl trivial
  | flushReturn => simp [not_flushOpen_afterFlush]
  | updateSwap at_pc | flushBegin at_pc | destroyBegin at_pc | destroyUnflushed at_pc
  | updateDone at_pc | invoke at_pc | callbackDone at_pc | flushClear _ at_pc | flushCleared at_pc
  | flushSeen _ at_pc | flushAllSeen at_pc | destroyStop at_pc | destroyReset at_pc
  | destroyPast at_pc | joined _ at_pc | joinedAll at_pc | destroyClear at_pc =>
    rwa [at_pc] at before
  | _ => exact before

theorem stoping_next (h : Flags s) (taken : Stepped be s a t) :
    t.stoping = true ↔ stopOpen t.main ∨ t.inited = false := by
  have before := h.stoping_iff
  cases taken with
  | destroyStop => exact iff_of_true rfl (.inl trivial)
  | destroyClear at_pc => exact iff_of_true (before.mpr (.inl (by simp [at_pc, stopOpen]))) (.inr rfl)
  | flushReturn at_pc =>
    rw [at_pc] at before
    simp only [not_stopOpen_afterFlush]
    exact before
  | updateSwap at_pc | flushBegin at_pc | destroyBegin at_pc | destroyUnflushed at_pc
  | updateDone at_pc | invoke at_pc | callbackDone at_pc | flushClear _ at_pc | flushCleared at_pc
  | flushSet at_pc | flushSeen _ at_pc | flushAllSeen at_pc | destroyReset at_pc
  | destroyPast at_pc | joined _ at_pc | joinedAll at_pc =>
    rwa [at_pc] at before
  | _ => exact before

theorem leaving_next (h : ∀ i, s.workers i = .count ∨ s.workers i = .exited → s.stoping = true)
    (taken : Stepped be s a t) (i : Fin n) (left : t.workers i = .count ∨ t.workers i = .exited) :
    t.stoping = true := by
  cases taken with
  | destroyStop => rfl
  | sawStoping j at_pc saw => exact saw
  | count j at_pc => exact h j (.inl at_pc)
  | pop j | worked j | execute j | finish j | sawFlushing j | sawNoFlush j | sawEmpty j
  | sawTasks j | setFlag j | sawGoing j =>
    by_cases same : i = j
    · simp [same] at left
    · exact h i (by simpa [same] using left)
  | _ => exact h i left

theorem Flags.next (h : Flags s) (taken : Stepped be s a t) : Flags t :=
  ⟨closing_next h taken, connNum_next h taken, flushing_next h taken, stoping_next h taken,
    leaving_next h.leaving taken⟩

theorem not_submit {key : UInt64} {sql : Sql} {info : TaskInfo} (inside : closing s.main)
    (taken : Stepped be s a t) : a ≠ .queryAsync key sql info := by
  intro submits
  subst submits
  cases taken with
  | submit _ may => exact not_closing_of_maySubmit may inside

theorem Flags.connNum_closing (h : Flags s) (inside : closing s.main) : s.asyncConnNum = n := by
  rw [h.connNum, h.closing_inited inside]
  rfl

theorem cleared_before (flagsHold : Flags s) (taken : Stepped be s a t) (i : Fin n)
    (cleared : flagCleared i t.main) : flagCleared i s.main ∨ t.flushFlag i = false := by
  cases taken with
  | flushReturn => simp [not_flagCleared_afterFlush] at cleared
  | flushClear j at_pc more =>
    by_cases same : i = j
    · right
      simp [same]
    · left
      have below : i.val < j.val + 1 := cleared
      have apart : i.val ≠ j.val := fun h => same (Fin.ext h)
      simp only [at_pc, flagCleared]
      omega
  | flushCleared at_pc past =>
    left
    have all := flagsHold.connNum_closing (by simp [at_pc, closing])
    have below := i.isLt
    simp only [at_pc, flagCleared]
    omega
  | flushSet at_pc | flushSeen _ at_pc | flushAllSeen at_pc =>
    exact .inl (by simp [at_pc, flagCleared])
  | flushBegin | destroyBegin => exact absurd cleared (Nat.not_lt_zero _)
  | updateSwap | destroyUnflushed | updateDone | invoke | callbackDone | destroyStop
  | destroyReset | destroyPast | joined | joinedAll | destroyClear => exact cleared.elim
  | _ => exact .inl cleared

theorem flag_before (taken : Stepped be s a t) (i : Fin n) (set : t.flushFlag i = true) :
    s.flushFlag i = true ∨ a = .worker i ∧ s.workers i = .setFlag := by
  cases taken with
  | flushClear j | setFlag j =>
    by_cases same : i = j
    · simp_all
    · simp_all
  | _ => exact .inl set

/-- The main thread leaves its wait for a shard on the shard's acknowledgement, and
its flag is still the one that was cleared. -/
theorem seen_before (flagsHold : Flags s) (taken : Stepped be s a t) (i : Fin n)
    (seen : shardSeen i t.main) :
    (flagCleared i t.main → flagCleared i s.main) ∧
    (shardSeen i s.main ∨ flagCleared i s.main ∧ s.flushFlag i = true) := by
  cases taken with
  | destroyUnflushed idle _ _ busy =>
    have inside := flagsHold.flushing_iff.mp busy
    simp [idle, flushOpen] at inside
  | flushReturn at_pc =>
    exact ⟨fun cleared => by simp [not_flagCleared_afterFlush] at cleared,
      .inl (by simp [at_pc, shardSeen])⟩
  | flushSeen j at_pc more set =>
    have open_ : flagCleared i s.main := by simp [at_pc, flagCleared]
    refine ⟨fun _ => open_, ?_⟩
    by_cases same : i = j
    · right
      exact ⟨open_, same ▸ set⟩
    · left
      have below : i.val < j.val + 1 := seen
      have apart : i.val ≠ j.val := fun h => same (Fin.ext h)
      simp only [at_pc, shardSeen]
      omega
  | flushAllSeen at_pc past =>
    have all := flagsHold.connNum_closing (by simp [at_pc, closing])
    have below := i.isLt
    refine ⟨fun _ => by simp [at_pc, flagCleared], .inl ?_⟩
    simp only [at_pc, shardSeen]
    omega
  | destroyStop at_pc | destroyReset at_pc | destroyPast at_pc | joined _ at_pc | joinedAll at_pc =>
    exact ⟨False.elim, .inl (by simp [at_pc, shardSeen])⟩
  | flushSet => exact absurd seen (Nat.not_lt_zero _)
  | updateSwap | flushBegin | destroyBegin | updateDone | invoke | callbackDone | flushClear
  | flushCleared | destroyClear => exact seen.elim
  | _ => exact ⟨id, .inl seen⟩

theorem setFlag_popped {i : Fin n} (taken : Stepped be s (.worker i) t)
    (storing : s.workers i = .setFlag) : t.workers i = .pop := by
  cases taken <;> simp_all

theorem settled_next {i : Fin n} (h : settled s i) (taken : Stepped be s a t)
    (quiet : ∀ key sql info, a ≠ .queryAsync key sql info) : settled t i := by
  cases taken with
  | submit => exact absurd rfl (quiet _ _ _)
  | pop j =>
    by_cases same : i = j
    · subst same
      exact .inr (by simp)
    · simpa [settled, same] using h
  | worked j at_pc | execute j at_pc | finish j at_pc | sawFlushing j at_pc
  | sawNoFlush j at_pc | sawEmpty j at_pc | sawTasks j at_pc | setFlag j at_pc
  | sawStoping j at_pc | sawGoing j at_pc | count j at_pc =>
    rcases h with pop | none
    · have other : i ≠ j := fun same => by simp [← same, pop] at at_pc
      exact .inl (by simp [other, pop])
    · exact .inr none
  | destroyClear => exact .inr rfl
  | _ => exact h

/-- The acknowledgements: a flag that was set after it was cleared was set by a
worker that takes its queue next, and no task arrives while `Flush` waits. -/
structure Handshake (s : Engine Sql Conn D RS n) : Prop extends Flags s where
  acked : ∀ i : Fin n, flagCleared i s.main → s.flushFlag i = true → settled s i
  seen : ∀ i : Fin n, shardSeen i s.main → settled s i
  counted : s.stopedNum ≤ exitedNum s.workers
  past : pastPoll s.main ∨ s.inited = false → ∀ i, s.workers i = .exited
  gone : s.inited = false → ∀ i, (s.taskQueues i).tasks = []

theorem acked_next (flagsHold : Flags s)
    (acked : ∀ i : Fin n, flagCleared i s.main → s.flushFlag i = true → settled s i)
    (taken : Stepped be s a t) :
    ∀ i : Fin n, flagCleared i t.main → t.flushFlag i = true → settled t i := by
  intro i cleared set
  rcases cleared_before flagsHold taken i cleared with before | unset
  · rcases flag_before taken i set with was | ⟨rfl, storing⟩
    · exact settled_next (acked i before was) taken fun _ _ _ =>
        not_submit (closing_of_flagCleared before) taken
    · exact .inl (setFlag_popped taken storing)
  · simp [unset] at set

theorem seen_next (h : Handshake s) (taken : Stepped be s a t) :
    ∀ i : Fin n, shardSeen i t.main → settled t i := by
  intro i seen
  rcases (seen_before h.toFlags taken i seen).2 with before | ⟨before, set⟩
  · exact settled_next (h.seen i before) taken fun _ _ _ =>
      not_submit (closing_of_shardSeen before) taken
  · exact settled_next (h.acked i before set) taken fun _ _ _ =>
      not_submit (closing_of_flagCleared before) taken

/-- The count and the number of workers that have left move together, save for the reset. -/
theorem count_cases (taken : Stepped be s a t) :
    t.stopedNum = s.stopedNum + 1 ∧ exitedNum t.workers = exitedNum s.workers + 1 ∨
    exitedNum t.workers = exitedNum s.workers ∧
      (t.stopedNum = s.stopedNum ∨ a = .main ∧ s.main = .destroyReset ∧ t.stopedNum = 0) := by
  cases taken with
  | destroyReset at_pc => exact .inr ⟨rfl, .inr ⟨rfl, at_pc, rfl⟩⟩
  | count i at_pc => exact .inl ⟨rfl, exitedNum_exit (by simp [at_pc])⟩
  | pop i at_pc | worked i at_pc | execute i at_pc | finish i at_pc | sawFlushing i at_pc
  | sawNoFlush i at_pc | sawEmpty i at_pc | sawTasks i at_pc | setFlag i at_pc
  | sawStoping i at_pc | sawGoing i at_pc =>
    exact .inr ⟨exitedNum_update (by simp [at_pc]) (by simp), .inl rfl⟩
  | _ => exact .inr ⟨rfl, .inl rfl⟩

theorem counted_next (counted : s.stopedNum ≤ exitedNum s.workers) (taken : Stepped be s a t) :
    t.stopedNum ≤ exitedNum t.workers := by
  have moved := count_cases taken
  omega

theorem past_next (h : Handshake s) (taken : Stepped be s a t) :
    pastPoll t.main ∨ t.inited = false → ∀ i, t.workers i = .exited := by
  have past := h.past
  cases taken with
  | destroyPast at_pc equal =>
    intro _
    have live : s.inited = true := h.closing_inited (by simp [at_pc, closing])
    have all : n ≤ exitedNum s.workers := by simpa [equal, h.connNum, live] using h.counted
    exact (exitedNum_eq_iff s.workers).mp (Nat.le_antisymm (exitedNum_le _) all)
  | joined _ at_pc | joinedAll at_pc | destroyClear at_pc =>
    exact fun _ => past (.inl (by simp [at_pc, pastPoll]))
  | submit | updateNothing | flushRefused | destroyRefused | flushSleep | destroySleep => exact past
  | flushReturn => exact fun gone => past (.inr (by simpa [not_pastPoll_afterFlush] using gone))
  | pop i at_pc | worked i at_pc | execute i at_pc | finish i at_pc | sawFlushing i at_pc
  | sawNoFlush i at_pc | sawEmpty i at_pc | sawTasks i at_pc | setFlag i at_pc
  | sawStoping i at_pc | sawGoing i at_pc | count i at_pc =>
    -- a worker that takes a step has not left
    intro gone
    have left := past gone i
    simp [at_pc] at left
  | _ => exact fun gone => past (.inr (by simpa [pastPoll] using gone))

theorem gone_next (h : Handshake s) (taken : Stepped be s a t) :
    t.inited = false → ∀ i, (t.taskQueues i).tasks = [] := by
  cases taken with
  | submit shard may live =>
    intro dead
    have none : s.asyncConnNum = 0 := by simpa [show s.inited = false from dead] using h.connNum
    exact absurd none live
  | destroyClear => exact fun _ _ => rfl
  | pop i at_pc =>
    intro dead
    have left := h.past (.inr dead) i
    simp [at_pc] at left
  | _ => exact h.gone

theorem Handshake.next (h : Handshake s) (taken : Stepped be s a t) : Handshake t where
  toFlags := h.toFlags.next taken
  acked := acked_next h.toFlags h.acked taken
  seen := seen_next h taken
  counted := counted_next h.counted taken
  past := past_next h taken
  gone := gone_next h taken

theorem Handshake.initial {conns : Fin n → Conn} {flags : Fin n → Bool} {db : D} :
    Handshake (Engine.initial conns flags db : Engine Sql Conn D RS n) where
  toFlags := Flags.initial
  acked := by simp [Engine.initial, flagCleared]
  seen := by simp [Engine.initial, shardSeen]
  counted := Nat.zero_le _
  past := by simp [Engine.initial, pastPoll]
  gone := by simp [Engine.initial]

theorem handshake {conns : Fin n → Conn} {flags : Fin n → Bool} {db : D}
    (reached : Reach (step be) (Engine.initial conns flags db) s) : Handshake s :=
  Reach.invariant Handshake.initial
    (fun _ _ _ _ held taken => held.next (step_stepped taken)) reached

theorem Handshake.left (h : Handshake s) (i : Fin n)
    (left : s.workers i = .count ∨ s.workers i = .exited) : (s.taskQueues i).tasks = [] := by
  rcases h.stoping_iff.mp (h.leaving i left) with stop | dead
  · have seen := h.seen i (by cases main : s.main <;> simp_all [stopOpen, shardSeen])
    rcases seen with pop | none
    · rcases left with left | left <;> simp [pop] at left
    · exact none
  · exact h.gone dead i

end Steps

end LlbcDatabase.Engine
