import LlbcDatabase.EngineOrder
import LlbcDatabase.MysqlDB

/-! One `MysqlDB` over `Init` and `Destroy` and `Init` again. Between the two calls the
object steps as the engine does that its vectors make up, one entry for each worker. -/

namespace LlbcDatabase

open Transition

structure Lifecycle (Sql Conn D RS : Type) where
  obj : MysqlDB Sql Conn RS
  main : MainPc Sql RS
  db : D
  submitted : List (AsyncTask Sql)

namespace Lifecycle

variable {Sql Conn D RS : Type}

inductive Call (Sql Conn : Type) where
  | init (cfg : DatabaseParam) (attempts : Attempts Conn)
  | queryAsync (key : UInt64) (sql : Sql) (info : TaskInfo)
  | onUpdate
  | flush
  | destroy
  | main
  | worker (i : Nat)

def new (db : D) : Lifecycle Sql Conn D RS := ⟨.new, .idle, db, []⟩

/-- The engine made up by vectors of `n` entries each. Its history is not kept. -/
def view (d : Lifecycle Sql Conn D RS) (n : Nat) : Option (Engine Sql Conn D RS n) :=
  if h : d.obj.asyncConns.length = n ∧ d.obj.asyncThreads.length = n ∧
      d.obj.taskQueues.length = n ∧ d.obj.flushFlag.length = n then
    some {
      inited := d.obj.inited
      asyncConnNum := d.obj.asyncConnNum
      stoping := d.obj.stoping
      flushing := d.obj.flushing
      stopedNum := d.obj.stopedNum
      asyncConns := fun i => d.obj.asyncConns.get (i.cast h.1.symm)
      taskQueues := fun i => d.obj.taskQueues.get (i.cast h.2.2.1.symm)
      flushFlag := fun i => d.obj.flushFlag.get (i.cast h.2.2.2.symm)
      finishTasks := d.obj.finishTasks
      workers := fun i => d.obj.asyncThreads.get (i.cast h.2.1.symm)
      main := d.main
      db := d.db
      submitted := d.submitted
      executed := []
      calledBack := []
      discarded := [] }
  else none

/-- The object with the members of an engine. -/
def write (d : Lifecycle Sql Conn D RS) {n : Nat} (s : Engine Sql Conn D RS n) :
    Lifecycle Sql Conn D RS where
  obj := { d.obj with
    inited := s.inited
    asyncConnNum := s.asyncConnNum
    stoping := s.stoping
    flushing := s.flushing
    stopedNum := s.stopedNum
    asyncConns := List.ofFn s.asyncConns
    asyncThreads := List.ofFn s.workers
    taskQueues := List.ofFn s.taskQueues
    flushFlag := List.ofFn s.flushFlag
    finishTasks := s.finishTasks }
  main := s.main
  db := s.db
  submitted := s.submitted

def act (be : Backend Sql Conn D RS) (d : Lifecycle Sql Conn D RS)
    (a : Action Sql d.obj.asyncThreads.length) : Option (Lifecycle Sql Conn D RS) :=
  (d.view d.obj.asyncThreads.length).bind fun s => (Engine.step be s a).map d.write

def step (be : Backend Sql Conn D RS) (d : Lifecycle Sql Conn D RS) :
    Call Sql Conn → Option (Lifecycle Sql Conn D RS)
  | .init cfg attempts =>
    match d.main, d.obj.init cfg attempts with
    | .idle, (true, obj) => some { d with obj }
    | _, _ => none
  | .queryAsync key sql info => d.act be (.queryAsync key sql info)
  | .onUpdate => d.act be .onUpdate
  | .flush => d.act be .flush
  | .destroy => d.act be .destroy
  | .main =>
    match d.main with
    | .destroyClear => some { d with obj := d.obj.clear, main := .idle }
    | _ => d.act be .main
  | .worker i =>
    if h : i < d.obj.asyncThreads.length then d.act be (.worker ⟨i, h⟩) else none

/-- A call of `Destroy` is in progress, the `Flush` it makes included. -/
def destroying : MainPc Sql RS → Prop
  | .flushClear _ .destroy | .flushSet .destroy | .flushWait _ .destroy | .flushReset .destroy => True
  | .destroyStop | .destroyReset | .destroyPoll | .destroyJoin _ | .destroyClear => True
  | _ => False

def initsGoing (d : Lifecycle Sql Conn D RS) : Call Sql Conn → Prop
  | .init _ _ => d.obj.stoping = false
  | _ => True

instance (d : Lifecycle Sql Conn D RS) : (c : Call Sql Conn) → Decidable (initsGoing d c)
  | .init _ _ => inferInstanceAs (Decidable (d.obj.stoping = false))
  | .queryAsync _ _ _ | .onUpdate | .flush | .destroy | .main | .worker _ => isTrue trivial

def leftLoop (pc : WorkerPc Sql RS) : Prop := pc = .count ∨ pc = .exited

structure Sized (d : Lifecycle Sql Conn D RS) : Prop where
  asyncConns : d.obj.asyncConns.length = d.obj.asyncConnNum
  asyncThreads : d.obj.asyncThreads.length = d.obj.asyncConnNum
  taskQueues : d.obj.taskQueues.length = d.obj.asyncConnNum
  flushFlag : d.obj.flushFlag.length = d.obj.asyncConnNum
  inited_iff : d.obj.inited = true ↔ 0 < d.obj.asyncConnNum

structure Staying (d : Lifecycle Sql Conn D RS) : Prop where
  left : ∀ pc ∈ d.obj.asyncThreads, leftLoop pc → d.obj.stoping = true
  stoping : d.obj.stoping = true → Engine.stopOpen d.main ∨ d.obj.inited = false

section Steps

variable {be : Backend Sql Conn D RS} {d t : Lifecycle Sql Conn D RS}

inductive Stepped (be : Backend Sql Conn D RS) (d : Lifecycle Sql Conn D RS) :
    Call Sql Conn → Lifecycle Sql Conn D RS → Prop where
  | init {cfg attempts obj} (idle : d.main = .idle) (ok : d.obj.init cfg attempts = (true, obj)) :
      Stepped be d (.init cfg attempts) { d with obj }
  | act {c} {n : Nat} {s s' : Engine Sql Conn D RS n} {a : Action Sql n}
      (shown : d.view n = some s) (running : d.main = .destroyClear → a ≠ .main)
      (taken : Engine.Stepped be s a s') : Stepped be d c (d.write s')
  | clear (at_pc : d.main = .destroyClear) :
      Stepped be d .main { d with obj := d.obj.clear, main := .idle }

theorem act_stepped {a : Action Sql d.obj.asyncThreads.length} {c : Call Sql Conn}
    (running : d.main = .destroyClear → a ≠ .main) (h : d.act be a = some t) :
    Stepped be d c t := by
  obtain ⟨s, shown, moved⟩ := Option.bind_eq_some_iff.mp h
  obtain ⟨s', taken, rfl⟩ := Option.map_eq_some_iff.mp moved
  exact .act shown running (Engine.step_stepped taken)

theorem step_stepped {c : Call Sql Conn} (h : step be d c = some t) : Stepped be d c t := by
  cases c with
  | init cfg attempts =>
    simp only [step] at h
    split at h
    case h_1 idle ok =>
      cases h
      exact .init idle ok
    case h_2 => cases h
  | main =>
    simp only [step] at h
    split at h
    case h_1 at_pc =>
      cases h
      exact .clear at_pc
    case h_2 other => exact act_stepped (fun at_pc => absurd at_pc other) h
  | worker i =>
    simp only [step] at h
    split at h
    case isTrue => exact act_stepped (by simp) h
    case isFalse => cases h
  | queryAsync | onUpdate | flush | destroy => exact act_stepped (by simp) h

theorem view_some {n : Nat} {s : Engine Sql Conn D RS n} (shown : d.view n = some s) :
    d.obj.asyncThreads.length = n ∧ s.inited = d.obj.inited ∧
      s.asyncConnNum = d.obj.asyncConnNum ∧ s.stoping = d.obj.stoping ∧ s.main = d.main ∧
      ∀ i, s.workers i ∈ d.obj.asyncThreads := by
  unfold view at shown
  split at shown
  case isTrue sizes =>
    obtain rfl := Option.some.inj shown
    exact ⟨sizes.2.1, rfl, rfl, rfl, rfl, fun i => List.get_mem _ _⟩
  case isFalse => cases shown

variable {n : Nat} {s s' : Engine Sql Conn D RS n} {a : Action Sql n}

theorem stepped_num (running : s.main = .destroyClear → a ≠ .main)
    (taken : Engine.Stepped be s a s') :
    s'.asyncConnNum = s.asyncConnNum ∧ s'.inited = s.inited := by
  cases taken with
  | destroyClear at_pc => exact absurd rfl (running at_pc)
  | _ => exact ⟨rfl, rfl⟩

theorem stepped_stoping (h : s.stoping = true → Engine.stopOpen s.main ∨ s.inited = false)
    (taken : Engine.Stepped be s a s') (stops : s'.stoping = true) :
    Engine.stopOpen s'.main ∨ s'.inited = false := by
  cases taken with
  | destroyStop | destroyReset | destroyPast | joined | joinedAll => exact .inl trivial
  | destroyClear => exact .inr rfl
  | _ => simp_all [Engine.stopOpen, Engine.maySubmit]

theorem Sized.init (h : Sized d) {cfg : DatabaseParam} {attempts : Attempts Conn}
    {obj : MysqlDB Sql Conn RS} (ok : d.obj.init cfg attempts = (true, obj)) :
    Sized { d with obj } ∧ (∀ pc ∈ obj.asyncThreads, pc = .pop) ∧ obj.stoping = d.obj.stoping := by
  have through := MysqlDB.init_case d.obj cfg attempts
  rw [ok] at through
  cases through with
  | done idle sync all =>
    have none : d.obj.asyncConnNum = 0 := by
      have initialised := h.inited_iff
      rw [idle] at initialised
      simpa using initialised
    have conns := h.asyncConns
    have threads := h.asyncThreads
    have queues := h.taskQueues
    have flags := h.flushFlag
    rw [none] at conns threads queues flags
    refine ⟨⟨?_, ?_, ?_, ?_, ?_⟩, ?_, rfl⟩
    · simp only [MysqlDB.connectAll_length, conns, all, Nat.zero_add]
    · simp [threads]
    · simp [queues]
    · simp [flags]
    · simpa using MysqlDB.connNum_pos cfg
    · intro pc member
      simpa [List.length_eq_zero_iff.mp threads] using (List.mem_replicate.mp (by
        simpa [List.length_eq_zero_iff.mp threads] using member)).2

theorem Sized.next {c : Call Sql Conn} (h : Sized d) (taken : Stepped be d c t) : Sized t := by
  cases taken with
  | init idle ok => exact (h.init ok).1
  | act shown running moved =>
    obtain ⟨threads, inited, num, -, main, -⟩ := view_some shown
    obtain ⟨same, live⟩ := stepped_num (fun at_pc => running (main ▸ at_pc)) moved
    have all := h.asyncThreads
    have initialised := h.inited_iff
    refine ⟨?_, ?_, ?_, ?_, ?_⟩ <;> simp only [write, List.length_ofFn, same, live, inited, num]
    · omega
    · omega
    · omega
    · omega
    · exact initialised
  | clear => constructor <;> simp [MysqlDB.clear]

theorem Staying.next {c : Call Sql Conn} (sized : Sized d) (h : Staying d) (going : initsGoing d c)
    (taken : Stepped be d c t) : Staying t := by
  cases taken with
  | init idle ok =>
    obtain ⟨-, pops, stoping⟩ := sized.init ok
    constructor
    · intro pc member left
      simp [pops pc member, leftLoop] at left
    · intro stops
      rw [stoping, going] at stops
      cases stops
  | act shown running moved =>
    obtain ⟨-, inited, -, stoping, main, workers⟩ := view_some shown
    constructor
    · intro pc member left
      obtain ⟨i, rfl⟩ := (List.mem_ofFn' _ _).mp member
      refine Engine.leaving_next (fun j left => ?_) moved i left
      rw [stoping]
      exact h.left _ (workers j) left
    · refine stepped_stoping (fun stops => ?_) moved
      rw [main, inited]
      exact h.stoping (stoping ▸ stops)
  | clear =>
    constructor
    · intro pc member
      simp [MysqlDB.clear] at member
    · exact fun _ => .inr rfl

theorem sized {db : D} (reached : Reach (step be) (new db) d) : Sized d :=
  Reach.invariant (by constructor <;> simp [new, MysqlDB.new])
    (fun _ _ _ _ held taken => held.next (step_stepped taken)) reached

theorem staying {db : D} (reached : ReachWhere (step be) initsGoing (new db) d) : Staying d :=
  ReachWhere.invariant (by constructor <;> simp [new, MysqlDB.new])
    (fun _ _ _ before held going taken =>
      held.next (sized before.reach) going (step_stepped taken)) reached

theorem stopOpen_destroying {pc : MainPc Sql RS} (stops : Engine.stopOpen pc) : destroying pc := by
  cases pc <;> trivial

end Steps

end Lifecycle

/-- While an object is initialised its vectors have `_asyncConnNum` entries each, so that
every key has a worker; and in every run in which `Init` finds `_stoping` false, all of
the workers are in their loops unless `Destroy` is in progress. -/
theorem lifecycle_working {Sql Conn D RS : Type} (be : Backend Sql Conn D RS) (db : D) :
    (∀ d, Reach (Lifecycle.step be) (Lifecycle.new db) d → d.obj.inited = true →
      d.obj.asyncConns.length = d.obj.asyncConnNum ∧
      d.obj.asyncThreads.length = d.obj.asyncConnNum ∧
      d.obj.taskQueues.length = d.obj.asyncConnNum ∧
      d.obj.flushFlag.length = d.obj.asyncConnNum ∧
      ∀ key, shardOf d.obj.asyncConnNum key < d.obj.asyncThreads.length) ∧
    ∀ d, ReachWhere (Lifecycle.step be) Lifecycle.initsGoing (Lifecycle.new db) d →
      d.obj.inited = true → ¬ Lifecycle.destroying d.main →
        ∀ pc ∈ d.obj.asyncThreads, ¬ Lifecycle.leftLoop pc := by
  constructor
  · intro d reached live
    have sizes := Lifecycle.sized reached
    refine ⟨sizes.asyncConns, sizes.asyncThreads, sizes.taskQueues, sizes.flushFlag, fun key => ?_⟩
    rw [sizes.asyncThreads]
    exact Nat.mod_lt _ (sizes.inited_iff.mp live)
  · intro d reached live quiet pc member left
    have stays := Lifecycle.staying reached
    rcases stays.stoping (stays.left pc member left) with stops | dead
    · exact quiet (Lifecycle.stopOpen_destroying stops)
    · rw [live] at dead
      cases dead

namespace Lifecycle

open CText

def start : Call Nat Unit := .init ⟨ascii "game", 1⟩ ⟨some (), fun _ => some (), fun _ => false⟩

/-- A task, and a `Flush` that waits for the worker. -/
def flushing : Lifecycle Nat Unit (List Nat) Nat :=
  runTo (step Engine.logServer) (new [])
    [start, .queryAsync 7 10 .executeSql, .worker 0, .worker 0, .flush, .main, .main, .main]

theorem lifecycle_working_flushing :
    flushing.main = .flushWait 0 .user ∧ flushing.obj.asyncThreads.length = 1 ∧
    ∀ pc ∈ flushing.obj.asyncThreads, ¬ leftLoop pc := by
  have h := lifecycle_working Engine.logServer ([] : List Nat)
  have sizes := h.1 flushing (runTo_reach .start) rfl
  exact ⟨rfl, sizes.2.1, h.2 flushing (runTo_reachWhere .start rfl) rfl id⟩

/-- `Destroy` and a second `Init`, then five steps of the new worker. -/
def startedAgain : Lifecycle Nat Unit (List Nat) Nat :=
  runTo (step Engine.logServer) (new [])
    ([start, .destroy, .main, .main, .main] ++ List.replicate 5 (.worker 0) ++
      List.replicate 5 .main ++ List.replicate 5 (.worker 0) ++ List.replicate 4 .main ++
      [start] ++ List.replicate 5 (.worker 0))

/-- `_stoping` is still true, so the new worker leaves its loop at once. -/
theorem startedAgain_left :
    Reach (step Engine.logServer) (new []) startedAgain ∧ startedAgain.obj.inited = true ∧
    startedAgain.main = .idle ∧ startedAgain.obj.asyncConnNum = 1 ∧
    startedAgain.obj.asyncThreads = [.exited] :=
  ⟨runTo_reach .start, by decide +kernel⟩

end Lifecycle

end LlbcDatabase
