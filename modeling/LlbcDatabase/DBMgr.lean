import LlbcDatabase.EngineFlush

/-! `DBMgr` with its registered databases, in the order of `_databases`. The one
main thread works on one database at a time; the workers of all of them run on. -/

namespace LlbcDatabase

open Transition

/-- Where `DBMgr::Flush` stands: before the call for database `j`, or in it. -/
inductive FlushLoop where
  | enter (j : Nat)
  | inside (j : Nat)
  deriving DecidableEq

structure DBMgr (Sql Conn D RS : Type) (k : Nat) (n : Fin k → Nat) where
  databases : (j : Fin k) → Engine Sql Conn D RS (n j)
  loop : Option FlushLoop

namespace DBMgr

variable {Sql Conn D RS : Type} {k : Nat} {n : Fin k → Nat}

inductive Call (Sql : Type) (k : Nat) (n : Fin k → Nat) where
  | db (j : Fin k) (a : Action Sql (n j))
  | flush
  | loop

def initial (conns : (j : Fin k) → Fin (n j) → Conn) (flags : (j : Fin k) → Fin (n j) → Bool)
    (db : Fin k → D) : DBMgr Sql Conn D RS k n where
  databases := fun j => Engine.initial (conns j) (flags j) (db j)
  loop := none

def isIdle : MainPc Sql RS → Bool
  | .idle => true
  | _ => false

def inCallback : MainPc Sql RS → Bool
  | .callback _ => true
  | _ => false

/-- A call needs a main thread that is in no other call, save that a callback may submit. -/
def mayStep (m : DBMgr Sql Conn D RS k n) {j : Fin k} : Action Sql (n j) → Bool
  | .main | .worker _ => true
  | .queryAsync _ _ _ => m.loop.isNone &&
    decide (∀ j, isIdle (m.databases j).main || inCallback (m.databases j).main)
  | .onUpdate | .flush | .destroy => m.loop.isNone && decide (∀ j, isIdle (m.databases j).main)

def setDatabase (m : DBMgr Sql Conn D RS k n) (j : Fin k) (s : Engine Sql Conn D RS (n j))
    (loop : Option FlushLoop) : DBMgr Sql Conn D RS k n :=
  { databases := Function.update m.databases j s, loop }

def step (be : Fin k → Backend Sql Conn D RS) (m : DBMgr Sql Conn D RS k n) :
    Call Sql k n → Option (DBMgr Sql Conn D RS k n)
  | .db j a =>
    if m.mayStep a then
      (Engine.step (be j) (m.databases j) a).map fun s => m.setDatabase j s m.loop
    else none
  | .flush =>
    if m.loop.isNone && decide (∀ j, isIdle (m.databases j).main) then
      some { m with loop := some (.enter 0) }
    else none
  | .loop =>
    match m.loop with
    | none => none
    | some (.enter j) =>
      if h : j < k then
        (Engine.step (be ⟨j, h⟩) (m.databases ⟨j, h⟩) .flush).map fun s =>
          m.setDatabase ⟨j, h⟩ s (some (.inside j))
      else some { m with loop := none }
    | some (.inside j) =>
      if h : j < k then
        if isIdle (m.databases ⟨j, h⟩).main then some { m with loop := some (.enter (j + 1)) }
        else none
      else none

/-- Every acknowledgement that counts is given on an empty queue, in every database. -/
def honestFlags (m : DBMgr Sql Conn D RS k n) : Call Sql k n → Prop
  | .db j a => Engine.honestFlag (m.databases j) a
  | .flush | .loop => True

instance [DecidableEq Sql] [DecidableEq RS] (m : DBMgr Sql Conn D RS k n) :
    (a : Call Sql k n) → Decidable (honestFlags m a)
  | .db j a => inferInstanceAs (Decidable (Engine.honestFlag (m.databases j) a))
  | .flush | .loop => isTrue trivial

section Steps

variable {be : Fin k → Backend Sql Conn D RS} {m m' : DBMgr Sql Conn D RS k n}

inductive Stepped (be : Fin k → Backend Sql Conn D RS) (m : DBMgr Sql Conn D RS k n) :
    Call Sql k n → DBMgr Sql Conn D RS k n → Prop where
  | db {j : Fin k} {a : Action Sql (n j)} {s : Engine Sql Conn D RS (n j)}
      (may : m.mayStep a = true) (taken : Engine.step (be j) (m.databases j) a = some s) :
      Stepped be m (.db j a) (m.setDatabase j s m.loop)
  | flush (quiet : m.loop = none) (idle : ∀ j, (m.databases j).main = .idle) :
      Stepped be m .flush { m with loop := some (.enter 0) }
  | enter (j : Fin k) {s : Engine Sql Conn D RS (n j)} (at_loop : m.loop = some (.enter j))
      (taken : Engine.step (be j) (m.databases j) .flush = some s) :
      Stepped be m .loop (m.setDatabase j s (some (.inside j)))
  | finish {j} (at_loop : m.loop = some (.enter j)) (past : k ≤ j) :
      Stepped be m .loop { m with loop := none }
  | leave (j : Fin k) (at_loop : m.loop = some (.inside j)) (idle : (m.databases j).main = .idle) :
      Stepped be m .loop { m with loop := some (.enter (j + 1)) }

theorem isIdle_iff {pc : MainPc Sql RS} : isIdle pc = true ↔ pc = .idle := by
  cases pc <;> simp [isIdle]

theorem step_stepped {a : Call Sql k n} (h : step be m a = some m') : Stepped be m a m' := by
  cases a with
  | db j a =>
    simp only [step] at h
    split at h
    case isTrue may =>
      obtain ⟨s, taken, rfl⟩ := Option.map_eq_some_iff.mp h
      exact .db may taken
    case isFalse => cases h
  | flush =>
    simp only [step] at h
    split at h
    case isTrue free =>
      simp only [Bool.and_eq_true, Option.isNone_iff_eq_none, decide_eq_true_eq, isIdle_iff] at free
      cases h
      exact .flush free.1 free.2
    case isFalse => cases h
  | loop =>
    simp only [step] at h
    split at h
    case h_1 => cases h
    case h_2 j at_loop =>
      split at h
      case isTrue inside =>
        obtain ⟨s, taken, rfl⟩ := Option.map_eq_some_iff.mp h
        exact .enter ⟨j, inside⟩ at_loop taken
      case isFalse past =>
        cases h
        exact .finish at_loop (by omega)
    case h_3 j at_loop =>
      split at h
      case isTrue inside =>
        split at h
        case isTrue idle =>
          cases h
          exact .leave ⟨j, inside⟩ at_loop (isIdle_iff.mp idle)
        case isFalse => cases h
      case isFalse => cases h

@[simp] theorem setDatabase_same (j : Fin k) (s : Engine Sql Conn D RS (n j))
    (loop : Option FlushLoop) : (m.setDatabase j s loop).databases j = s := by
  simp [setDatabase]

@[simp] theorem setDatabase_other {i j : Fin k} (other : i ≠ j) (s : Engine Sql Conn D RS (n j))
    (loop : Option FlushLoop) : (m.setDatabase j s loop).databases i = m.databases i := by
  simp [setDatabase, other]

variable {conns : (j : Fin k) → Fin (n j) → Conn} {flags : (j : Fin k) → Fin (n j) → Bool}
  {db : Fin k → D}

theorem databases_reach (reached : ReachWhere (step be) honestFlags (initial conns flags db) m)
    (i : Fin k) : ReachWhere (Engine.step (be i)) Engine.honestFlag
      (Engine.initial (conns i) (flags i) (db i)) (m.databases i) := by
  refine ReachWhere.invariant (I := fun m => ReachWhere (Engine.step (be i)) Engine.honestFlag
    (Engine.initial (conns i) (flags i) (db i)) (m.databases i)) .start ?_ reached
  intro m m' a _ held honest taken
  have stepped := step_stepped taken
  cases stepped with
  | @db j a s may moved =>
    by_cases same : i = j
    · subst same
      rw [setDatabase_same]
      exact held.next honest moved
    · rwa [setDatabase_other same]
  | @enter j s at_loop moved =>
    by_cases same : i = j
    · subst same
      rw [setDatabase_same]
      exact held.next (by intro _ h; cases h) moved
    · rwa [setDatabase_other same]
  | flush | finish | leave => exact held

def inUserFlush : MainPc Sql RS → Prop
  | .flushClear _ .user | .flushSet .user | .flushWait _ .user | .flushReset .user => True
  | _ => False

/-- The databases that the loop has passed, the current one included. -/
def visited : FlushLoop → Nat → Prop
  | .enter j, i => i < j
  | .inside j, i => i ≤ j

/-- While `DBMgr::Flush` runs, only its current database is in a call, and every
database it has passed is drained. -/
def Loop (m : DBMgr Sql Conn D RS k n) : Prop :=
  ∀ pos, m.loop = some pos → ∀ j : Fin k,
    ((m.databases j).main = .idle ∨ pos = .inside j ∧ inUserFlush (m.databases j).main) ∧
    (visited pos j → (m.databases j).main = .idle → (m.databases j).inited = true →
      ∀ i, (m.databases j).drained i)

theorem worker_frame {l : Nat} {be : Backend Sql Conn D RS} {s t : Engine Sql Conn D RS l}
    {i : Fin l} (taken : Engine.Stepped be s (.worker i) t) :
    t.main = s.main ∧ t.inited = s.inited := by
  cases taken <;> exact ⟨rfl, rfl⟩

theorem userFlush_next {l : Nat} {be : Backend Sql Conn D RS} {s t : Engine Sql Conn D RS l}
    (inside : inUserFlush s.main) (taken : Engine.Stepped be s .main t) :
    inUserFlush t.main ∨ s.main = .flushReset .user := by
  cases taken with
  | @flushReturn caller at_pc =>
    cases caller with
    | user => exact .inr at_pc
    | destroy => simp [at_pc, inUserFlush] at inside
  | @flushClear caller _ at_pc | @flushCleared _ caller at_pc | @flushSet caller at_pc
  | @flushSeen caller _ at_pc | @flushAllSeen _ caller at_pc =>
    left
    cases caller with
    | user => trivial
    | destroy => simp [at_pc, inUserFlush] at inside
  | flushSleep => exact .inl inside
  | _ => simp_all [inUserFlush]

/-- The database the loop has come to: its `Flush` goes on, or returns and leaves it drained. -/
theorem current_next {l : Nat} {be : Backend Sql Conn D RS} {s t : Engine Sql Conn D RS l}
    {conns : Fin l → Conn} {flags : Fin l → Bool} {db : D} {a : Action Sql l} {P V : Prop}
    (reached : ReachWhere (Engine.step be) Engine.honestFlag (Engine.initial conns flags db) s)
    (inside : a = .main ∨ ∃ i, a = .worker i) (place : s.main = .idle ∨ P ∧ inUserFlush s.main)
    (passed : V → s.main = .idle → s.inited = true → ∀ i, s.drained i)
    (taken : Engine.step be s a = some t) :
    (t.main = .idle ∨ P ∧ inUserFlush t.main) ∧
      (V → t.main = .idle → t.inited = true → ∀ i, t.drained i) := by
  have stepped := Engine.step_stepped taken
  rcases inside with rfl | ⟨w, rfl⟩
  · rcases place with idle | ⟨here, flushing⟩
    · simp [Engine.step, Engine.mainStep, idle] at taken
    · rcases userFlush_next flushing stepped with still | returning
      · exact ⟨.inr ⟨here, still⟩, fun _ idle => by simp [idle, inUserFlush] at still⟩
      · have done := Engine.flushReturn_flushed reached returning taken
        simp only [Engine.step, Engine.mainStep, returning, Option.some.injEq] at taken
        refine ⟨.inl ?_, fun _ _ _ => done.drained⟩
        rw [← taken]
        rfl
  · obtain ⟨main, live⟩ := worker_frame stepped
    rw [main, live]
    exact ⟨place, fun v idle live i =>
      Engine.drained_next (passed v idle live i) stepped (by simp)⟩

theorem Loop.next {a : Call Sql k n}
    (reached : ReachWhere (step be) honestFlags (initial conns flags db) m) (h : Loop m)
    (stepped : Stepped be m a m') : Loop m' := by
  intro pos at_pos i
  cases stepped with
  | @db j a s may taken =>
    have in_loop : m.loop = some pos := at_pos
    obtain ⟨place, passed⟩ := h pos in_loop i
    by_cases same : i = j
    · subst same
      rw [setDatabase_same]
      have inside : a = .main ∨ ∃ w, a = .worker w := by
        cases a <;> simp [mayStep, in_loop] at may ⊢
      exact current_next (databases_reach reached i) inside place passed taken
    · rw [setDatabase_other same]
      exact ⟨place, passed⟩
  | flush quiet idle =>
    cases at_pos
    exact ⟨.inl (idle i), fun past => absurd past (Nat.not_lt_zero _)⟩
  | @enter j s at_loop taken =>
    cases at_pos
    obtain ⟨place, passed⟩ := h _ at_loop i
    have idle : (m.databases i).main = .idle := by
      rcases place with idle | ⟨wrong, -⟩
      · exact idle
      · cases wrong
    by_cases same : i = j
    · subst same
      rw [setDatabase_same]
      have shake := Engine.handshake (databases_reach reached i).reach
      cases Engine.step_stepped taken with
      | flushRefused _ refused =>
        refine ⟨.inl idle, fun _ _ live => ?_⟩
        rcases refused with dead | busy
        · simp [dead] at live
        · have wrong := shake.flushing_iff.mp busy
          simp [idle, Engine.flushOpen] at wrong
      | flushBegin => exact ⟨.inr ⟨rfl, trivial⟩, fun _ wrong => by cases wrong⟩
    · rw [setDatabase_other same]
      refine ⟨.inl idle, fun past => passed ?_⟩
      have apart : i.val ≠ j.val := fun h => same (Fin.ext h)
      have below : i.val ≤ j.val := past
      show i.val < j.val
      omega
  | finish => cases at_pos
  | leave j at_loop idle =>
    cases at_pos
    obtain ⟨place, passed⟩ := h _ at_loop i
    have here : (m.databases i).main = .idle := by
      rcases place with idle' | ⟨current, -⟩
      · exact idle'
      · cases Fin.ext (FlushLoop.inside.inj current)
        exact idle
    exact ⟨.inl here, fun past => passed (Nat.le_of_lt_succ past)⟩

theorem loop_invariant (reached : ReachWhere (step be) honestFlags (initial conns flags db) m) : Loop m :=
  ReachWhere.invariant (by intro pos at_pos; cases at_pos)
    (fun _ _ _ before held _ taken => held.next before (step_stepped taken)) reached

theorem flushed (reached : ReachWhere (step be) honestFlags (initial conns flags db) m)
    (returns : step be m .loop = some m') (ended : m'.loop = none) (i : Fin k)
    (live : (m'.databases i).inited = true) :
    (m'.databases i).Flushed := by
  cases step_stepped returns with
  | enter | leave => cases ended
  | @finish j at_loop past => ?_
  obtain ⟨place, passed⟩ := loop_invariant reached _ at_loop i
  have idle : (m.databases i).main = .idle := by
    rcases place with idle | ⟨wrong, -⟩
    · exact idle
    · cases wrong
  have ordered := Engine.order (databases_reach reached i).reach
  refine ordered.flushed (passed ?_ idle live) (ordered.kept live) (by simp [idle, Engine.localTasks])
  exact Nat.lt_of_lt_of_le i.isLt past

end Steps

end DBMgr

/-- `Flush` is a barrier, for one database and for all registered ones, in every
run in which each acknowledgement that counts is given on an empty queue. -/
theorem flush_barrier {Sql Conn D RS : Type} :
    (∀ {n : Nat} (be : Backend Sql Conn D RS) (conns : Fin n → Conn) (flags : Fin n → Bool) (db : D)
      (s t : Engine Sql Conn D RS n) (caller : Caller),
      ReachWhere (Engine.step be) Engine.honestFlag (Engine.initial conns flags db) s →
      s.main = .flushReset caller → Engine.step be s .main = some t → t.Flushed) ∧
    ∀ {k : Nat} {n : Fin k → Nat} (be : Fin k → Backend Sql Conn D RS)
      (conns : (j : Fin k) → Fin (n j) → Conn) (flags : (j : Fin k) → Fin (n j) → Bool)
      (db : Fin k → D) (m m' : DBMgr Sql Conn D RS k n),
      ReachWhere (DBMgr.step be) DBMgr.honestFlags (DBMgr.initial conns flags db) m →
      DBMgr.step be m .loop = some m' → m'.loop = none →
      ∀ j, (m'.databases j).inited = true → (m'.databases j).Flushed :=
  ⟨fun _ _ _ _ _ _ _ reached returning taken => Engine.flushReturn_flushed reached returning taken,
    fun _ _ _ _ _ _ reached returns ended j live => DBMgr.flushed reached returns ended j live⟩

namespace Engine

/-- One task, executed before `Flush` reads the acknowledgement of its worker. -/
def flushedShard : Engine Nat Unit (List Nat) Nat 1 :=
  runTo (step logServer) (initial (fun _ => ()) (fun _ => false) [])
    [.queryAsync 0 10 .executeSql, .flush, .main, .main, .main, .worker only, .worker only, .worker only,
      .worker only, .worker only, .worker only, .worker only, .main, .main]

/-- The worker has taken an empty batch when a task is submitted; it then says
that its queue is empty, and `Flush` returns with the task still queued. -/
def leftTask : Engine Nat Unit (List Nat) Nat 1 :=
  runTo (step logServer) (initial (fun _ => ()) (fun _ => false) [])
    [.worker only, .worker only, .queryAsync 0 10 .executeSql, .flush, .main, .main, .main,
      .worker only, .worker only, .worker only, .main, .main]

end Engine

open Engine in
/-- The run of `flushedShard` under `DBMgr::Flush`, up to the end of its loop. -/
def flushedMgr : DBMgr Nat Unit (List Nat) Nat 1 fun _ => 1 :=
  runTo (DBMgr.step fun _ => Engine.logServer)
    (DBMgr.initial (fun _ _ => ()) (fun _ _ => false) fun _ => [])
    [.db only (.queryAsync 0 10 .executeSql), .flush, .loop, .db only .main, .db only .main,
      .db only .main, .db only (.worker only), .db only (.worker only), .db only (.worker only),
      .db only (.worker only), .db only (.worker only), .db only (.worker only),
      .db only (.worker only), .db only .main, .db only .main, .db only .main, .loop]

theorem flush_barrier_flushedShard :
    (∀ t, Engine.step Engine.logServer Engine.flushedShard .main = some t →
      t.finishTasks.length = 1 ∧ t.Flushed) ∧
    ∀ m, DBMgr.step (fun _ => Engine.logServer) flushedMgr .loop = some m →
      (m.databases 0).finishTasks.length = 1 ∧ (m.databases 0).Flushed := by
  constructor
  · intro t taken
    have flushed := flush_barrier.1 Engine.logServer (fun _ => ()) (fun _ => false) []
      Engine.flushedShard t .user (runTo_reachWhere .start rfl) rfl taken
    cases taken
    exact ⟨rfl, flushed⟩
  · intro m taken
    have flushed := flush_barrier.2 (fun _ => Engine.logServer) (fun _ _ => ())
      (fun _ _ => false) (fun _ => []) flushedMgr m (runTo_reachWhere .start rfl) taken
    cases taken
    exact ⟨rfl, flushed rfl 0 rfl⟩

theorem leftTask_not_flushed :
    Reach (Engine.step Engine.logServer) (Engine.initial (fun _ => ()) (fun _ => false) [])
      Engine.leftTask ∧
    Engine.leftTask.main = .flushReset .user ∧
    ∃ t, Engine.step Engine.logServer Engine.leftTask .main = some t ∧
      (t.taskQueues 0).tasks.length = 1 ∧ t.executed = [] ∧ ¬ t.Flushed := by
  refine ⟨runTo_reach .start, rfl, _, rfl, rfl, rfl, fun flushed => ?_⟩
  have none : (Engine.leftTask.taskQueues 0).tasks = [] := (flushed.drained 0).1
  exact absurd none (by decide)

end LlbcDatabase
