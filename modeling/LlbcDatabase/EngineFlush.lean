import LlbcDatabase.EngineOrder

/-! `Flush` as a barrier. A worker acknowledges when `Empty` says so, and `Empty`
does not look at the tasks; where every acknowledgement that counts is given on an
empty queue, the engine is drained when `Flush` returns. -/

namespace LlbcDatabase.Engine

open Transition CommutingRuns

variable {Sql Conn D RS : Type} {n : Nat}

/-- Nothing of shard `i` is waiting, taken or in its worker's hand. -/
@[grind =] def drained (s : Engine Sql Conn D RS n) (i : Fin n) : Prop :=
  (s.taskQueues i).tasks = [] ∧ batch (s.workers i) = [] ∧ inHand (s.workers i) = []

/-- A worker that stores its acknowledgement for the `Flush` in progress, which
has cleared the flag and not yet read it, has no task in its queue. -/
def honestFlag (s : Engine Sql Conn D RS n) (a : Action Sql n) : Prop :=
  ∀ i : Fin n, a = .worker i → s.workers i = .setFlag → flagCleared i s.main →
    ¬ shardSeen i s.main → (s.taskQueues i).tasks = []

instance (i : Nat) : (pc : MainPc Sql RS) → Decidable (flagCleared i pc)
  | .flushClear j _ => inferInstanceAs (Decidable (i < j))
  | .flushSet _ | .flushWait _ _ | .flushReset _ => isTrue trivial
  | .idle | .update _ | .callback _ | .destroyStop | .destroyReset | .destroyPoll
  | .destroyJoin _ | .destroyClear => isFalse id

instance (i : Nat) : (pc : MainPc Sql RS) → Decidable (shardSeen i pc)
  | .flushWait j _ => inferInstanceAs (Decidable (i < j))
  | .flushReset _ | .destroyStop | .destroyReset | .destroyPoll | .destroyJoin _
  | .destroyClear => isTrue trivial
  | .idle | .update _ | .callback _ | .flushClear _ _ | .flushSet _ => isFalse id

instance [DecidableEq Sql] [DecidableEq RS] (s : Engine Sql Conn D RS n) (a : Action Sql n) :
    Decidable (honestFlag s a) := by
  unfold honestFlag
  infer_instance

/-- What `Flush` is for: every shard is drained, and every task submitted has been
executed on its connection and is called back or waits for its callback. -/
structure Flushed (s : Engine Sql Conn D RS n) : Prop where
  drained : ∀ i, drained s i
  executed : ∀ i, (executedOn s i).map (·.task) = submittedTo s i
  placed : ∀ i, ofShard i (s.calledBack ++ s.finishTasks) = executedOn s i

section Steps

variable {be : Backend Sql Conn D RS} {s t : Engine Sql Conn D RS n} {a : Action Sql n}

theorem drained_next {i : Fin n} (h : drained s i) (taken : Stepped be s a t)
    (quiet : ∀ key sql info, a ≠ .queryAsync key sql info) : drained t i := by
  obtain ⟨queue, waiting, hand⟩ := h
  cases taken with
  | submit => exact absurd rfl (quiet _ _ _)
  | execute j at_pc | finish j at_pc =>
    -- this worker has a task
    have other : i ≠ j := by
      intro same
      simp [same, at_pc, batch, inHand] at waiting hand
    simpa [drained, other] using ⟨queue, waiting, hand⟩
  | pop j | worked j | sawFlushing j | sawNoFlush j | sawEmpty j | sawTasks j | setFlag j
  | sawStoping j | sawGoing j | count j =>
    by_cases same : i = j
    · subst same
      simp [drained, queue, batch, inHand]
    · simpa [drained, same] using ⟨queue, waiting, hand⟩
  | destroyClear => exact ⟨rfl, waiting, hand⟩
  | _ => exact ⟨queue, waiting, hand⟩

structure Barrier (s : Engine Sql Conn D RS n) : Prop where
  acked : ∀ i : Fin n, flagCleared i s.main → s.flushFlag i = true → drained s i
  seen : ∀ i : Fin n, flagCleared i s.main → shardSeen i s.main → drained s i

theorem Barrier.initial {conns : Fin n → Conn} {flags : Fin n → Bool} {db : D} :
    Barrier (Engine.initial conns flags db : Engine Sql Conn D RS n) := by
  constructor <;> simp [Engine.initial, flagCleared]

theorem Barrier.next (flagsHold : Flags s) (h : Barrier s) (honest : honestFlag s a)
    (taken : Stepped be s a t) : Barrier t := by
  have keeps : ∀ i, drained s i → flagCleared i s.main → drained t i := fun i at_rest cleared =>
    drained_next at_rest taken fun _ _ _ => not_submit (closing_of_flagCleared cleared) taken
  constructor
  · intro i cleared set
    rcases cleared_before flagsHold taken i cleared with before | unset
    · rcases flag_before taken i set with was | ⟨rfl, at_pc⟩
      · exact keeps i (h.acked i before was) before
      · by_cases past : shardSeen i s.main
        · exact keeps i (h.seen i before past) before
        · have none := honest i rfl at_pc before past
          exact keeps i ⟨none, by simp [at_pc, batch], by simp [at_pc, inHand]⟩ before
    · simp [unset] at set
  · intro i cleared seen
    obtain ⟨still, known⟩ := seen_before flagsHold taken i seen
    have before := still cleared
    rcases known with past | ⟨-, set⟩
    · exact keeps i (h.seen i before past) before
    · exact keeps i (h.acked i before set) before

variable {conns : Fin n → Conn} {flags : Fin n → Bool} {db : D}

theorem barrier (reached : ReachWhere (step be) honestFlag (Engine.initial conns flags db) s) :
    Barrier s :=
  ReachWhere.invariant Barrier.initial
    (fun _ _ _ before held honest taken =>
      held.next (handshake before.reach).toFlags honest (step_stepped taken)) reached

theorem Order.flushed (h : Order be s) (at_rest : ∀ i, drained s i) (kept : s.discarded = [])
    (local_none : localTasks s.main = []) : Flushed s where
  drained := at_rest
  executed i := by
    have queued := h.queued i
    simpa [(at_rest i).1, (at_rest i).2.1] using queued
  placed i := by
    have delivered := h.delivered i
    simpa [finished, (at_rest i).2.2, kept, local_none] using delivered

theorem flushReturn_flushed (reached : ReachWhere (step be) honestFlag (initial conns flags db) s)
    {caller : Caller} (returning : s.main = .flushReset caller)
    (taken : step be s .main = some t) : Flushed t := by
  have shake := handshake reached.reach
  have ordered : Order be t := order (reached.reach.next taken)
  have live : s.inited = true := shake.closing_inited (by simp [returning, closing])
  have kept := (order reached.reach).kept live
  have at_rest : ∀ i, drained s i := fun i =>
    (barrier reached).seen i (by simp [returning, flagCleared]) (by simp [returning, shardSeen])
  have next : ∀ i, drained t i := fun i =>
    drained_next (at_rest i) (step_stepped taken) (by simp)
  simp only [step, mainStep, returning, Option.some.injEq] at taken
  subst taken
  exact ordered.flushed next kept (localTasks_afterFlush caller)

end Steps

end LlbcDatabase.Engine
