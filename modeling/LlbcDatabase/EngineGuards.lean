import LlbcDatabase.Lifecycle

/-! What the public calls of `MysqlDB` ask of it: a queue for every key, and a synchronous
connection. Both are there just while it is initialised, and no call but `Flush` and
`Destroy` looks whether it is. -/

namespace LlbcDatabase

open Transition CText

/-- What a call on an engine that is not there runs into. -/
inductive EngineFault where
  | divideByZero
  | outOfRange
  | nullPointer
  deriving DecidableEq

inductive SyncCall (F : Type) where
  | query (sql : Bytes) (mode : Mode)
  | execute (sql : Bytes)
  | makeDefRecord (tableName : Bytes)
  | insert (record : Record F)
  | update (record : Record F)
  | delete (record : Record F)

namespace MysqlDB

variable {Sql Conn RS : Type}

def addAsyncTask (db : MysqlDB Sql Conn RS) (task : AsyncTask Sql) :
    Except EngineFault (MysqlDB Sql Conn RS) :=
  if db.asyncConnNum = 0 then .error .divideByZero
  else
    let shard := shardOf db.asyncConnNum task.key
    match db.taskQueues[shard]? with
    | none => .error .outOfRange
    | some taskQueue => .ok { db with taskQueues := db.taskQueues.set shard (taskQueue.push task) }

/-- `_syncConn->`. -/
def useSyncConn (db : MysqlDB Sql Conn RS) : Except EngineFault (Option Conn) :=
  match db.syncConn with
  | none => .error .nullPointer
  | some conn => .ok conn

/-- The connection that a call goes on with, or none if it returns before it uses one:
`Update` and `Delete` of a record that is not in edit mode. -/
def syncCall {F : Type} (db : MysqlDB Sql Conn RS) :
    SyncCall F → Except EngineFault (Option (Option Conn))
  | .query _ _ | .execute _ | .makeDefRecord _ | .insert _ => db.useSyncConn.map some
  | .update record | .delete record =>
    if record.mode ≠ .edit then .ok none else db.useSyncConn.map some

end MysqlDB

namespace Lifecycle

variable {Sql Conn D RS : Type}

section Attempt

/-- The connections that a thread has; those behind them are left of an `Init` that failed. -/
def cut (d : Lifecycle Sql Conn D RS) : Lifecycle Sql Conn D RS :=
  { d with obj := { d.obj with asyncConns := d.obj.asyncConns.take d.obj.asyncThreads.length } }

def actCut (be : Backend Sql Conn D RS) (d : Lifecycle Sql Conn D RS)
    (a : Action Sql d.obj.asyncThreads.length) : Option (Lifecycle Sql Conn D RS) :=
  (act be d.cut a).map fun t => { t with obj := { t.obj with
    asyncConns := t.obj.asyncConns ++ d.obj.asyncConns.drop d.obj.asyncThreads.length } }

/-- A step of the object, with calls of `Init` that may fail. -/
def attempt (be : Backend Sql Conn D RS) (d : Lifecycle Sql Conn D RS) :
    Call Sql Conn → Option (Lifecycle Sql Conn D RS)
  | .init cfg attempts =>
    match d.main with
    | .idle => some { d with obj := (d.obj.init cfg attempts).2 }
    | _ => none
  | .queryAsync key sql info =>
    let task := { id := d.submitted.length, key, sql, info }
    match d.main, d.obj.addAsyncTask task with
    | .idle, .ok obj | .callback _, .ok obj => some { d with obj, submitted := d.submitted ++ [task] }
    | _, _ => none
  | .onUpdate => d.actCut be .onUpdate
  | .flush => d.actCut be .flush
  | .destroy => d.actCut be .destroy
  | .main =>
    match d.main with
    | .destroyClear => some { d with obj := d.obj.clear, main := .idle }
    | _ => d.actCut be .main
  | .worker i =>
    if h : i < d.obj.asyncThreads.length then d.actCut be (.worker ⟨i, h⟩) else none

structure Equipped (d : Lifecycle Sql Conn D RS) : Prop where
  queues : d.obj.inited = true → d.obj.taskQueues.length = d.obj.asyncConnNum
  some_ : d.obj.inited = true → 0 < d.obj.asyncConnNum
  sync : d.obj.inited = true → ∃ conn, d.obj.syncConn = some (some conn)
  none : d.obj.inited = false → d.obj.taskQueues = []

variable {be : Backend Sql Conn D RS} {d t : Lifecycle Sql Conn D RS}

theorem actCut_kept {a : Action Sql d.obj.asyncThreads.length}
    (running : d.main = .destroyClear → a ≠ .main) (h : d.actCut be a = some t) :
    t.obj.inited = d.obj.inited ∧ t.obj.asyncConnNum = d.obj.asyncConnNum ∧
      t.obj.syncConn = d.obj.syncConn ∧ t.obj.taskQueues.length = d.obj.taskQueues.length := by
  obtain ⟨s, moved, rfl⟩ := Option.map_eq_some_iff.mp h
  obtain ⟨e, shown, stepped⟩ := Option.bind_eq_some_iff.mp moved
  obtain ⟨e', taken, rfl⟩ := Option.map_eq_some_iff.mp stepped
  obtain ⟨-, inited, num, -, main, -⟩ := view_some shown
  have same := stepped_num (fun at_pc => running (main.symm.trans at_pc)) (Engine.step_stepped taken)
  have queues : d.obj.taskQueues.length = d.obj.asyncThreads.length := by
    unfold view at shown
    split at shown
    case isTrue sizes => exact sizes.2.2.1
    case isFalse => cases shown
  refine ⟨same.2.trans inited, same.1.trans num, rfl, ?_⟩
  rw [queues]
  exact List.length_ofFn

theorem Equipped.act {a : Action Sql d.obj.asyncThreads.length} (h : Equipped d)
    (running : d.main = .destroyClear → a ≠ .main) (moved : d.actCut be a = some t) :
    Equipped t := by
  obtain ⟨inited, num, sync, queues⟩ := actCut_kept running moved
  constructor <;> rw [inited] <;> intro live
  · rw [queues, num]
    exact h.queues live
  · rw [num]
    exact h.some_ live
  · rw [sync]
    exact h.sync live
  · rw [← List.length_eq_zero_iff, queues, h.none live]
    rfl

theorem Equipped.init (h : Equipped d) (cfg : DatabaseParam) (attempts : Attempts Conn) :
    Equipped { d with obj := (d.obj.init cfg attempts).2 } := by
  have through := MysqlDB.init_case d.obj cfg attempts
  generalize d.obj.init cfg attempts = result at through
  cases through with
  | refused live => exact h
  | unsynced idle sync | unconnected idle sync short =>
    constructor <;> simp only [idle, Bool.false_eq_true, false_imp_iff, true_imp_iff]
    exact h.none idle
  | done idle sync all =>
    constructor <;> simp only [true_imp_iff, Bool.true_eq_false, false_imp_iff]
    · rw [h.none idle, List.nil_append, List.length_replicate]
    · exact MysqlDB.connNum_pos cfg
    · exact ⟨_, rfl⟩

theorem addAsyncTask_ok {obj after : MysqlDB Sql Conn RS} {task : AsyncTask Sql}
    (done : obj.addAsyncTask task = .ok after) :
    ∃ taskQueues, after = { obj with taskQueues } ∧ taskQueues.length = obj.taskQueues.length := by
  simp only [MysqlDB.addAsyncTask] at done
  split_ifs at done
  split at done
  · cases done
  · cases done
    exact ⟨_, rfl, List.length_set⟩

theorem Equipped.queryAsync (h : Equipped d) {task : AsyncTask Sql} {obj : MysqlDB Sql Conn RS}
    (done : d.obj.addAsyncTask task = .ok obj) (submitted : List (AsyncTask Sql)) :
    Equipped { d with obj, submitted } := by
  obtain ⟨taskQueues, rfl, length⟩ := addAsyncTask_ok done
  refine ⟨fun live => length.trans (h.queues live), h.some_, h.sync, fun dead => ?_⟩
  rw [← List.length_eq_zero_iff, length, h.none dead]
  rfl

theorem Equipped.next {c : Call Sql Conn} (h : Equipped d) (taken : attempt be d c = some t) :
    Equipped t := by
  cases c with
  | init cfg attempts =>
    simp only [attempt] at taken
    split at taken
    · cases taken
      exact h.init cfg attempts
    · cases taken
  | queryAsync key sql info =>
    simp only [attempt] at taken
    split at taken
    case h_1 done | h_2 done =>
      cases taken
      exact h.queryAsync done _
    case h_3 => cases taken
  | main =>
    simp only [attempt] at taken
    split at taken
    case h_1 =>
      cases taken
      constructor <;> simp [MysqlDB.clear]
    case h_2 other => exact h.act (fun at_pc => absurd at_pc other) taken
  | worker i =>
    simp only [attempt] at taken
    split at taken
    case isTrue => exact h.act (by simp) taken
    case isFalse => cases taken
  | onUpdate | flush | destroy => exact h.act (by simp) taken

theorem equipped {db : D} (reached : Reach (attempt be) (new db) d) : Equipped d :=
  Reach.invariant (by constructor <;> simp [new, MysqlDB.new])
    (fun _ _ _ _ held taken => held.next taken) reached

end Attempt

section Guards

structure Guarded (F : Type) (obj : MysqlDB Sql Conn RS) : Prop where
  async : ∀ task, ∃ after, obj.addAsyncTask task = .ok after
  sync : ∀ call : SyncCall F, ∃ conn, obj.syncCall call = .ok conn
  refused : obj.inited = false →
    (∀ task, obj.addAsyncTask task = .ok obj) ∧ ∀ call : SyncCall F, obj.syncCall call = .ok none

variable {be : Backend Sql Conn D RS} {d : Lifecycle Sql Conn D RS}

theorem Equipped.addAsyncTask_live (h : Equipped d) (live : d.obj.inited = true)
    (task : AsyncTask Sql) : ∃ after, d.obj.addAsyncTask task = .ok after := by
  have positive := h.some_ live
  have inside : shardOf d.obj.asyncConnNum task.key < d.obj.taskQueues.length := by
    rw [h.queues live]
    exact Nat.mod_lt _ positive
  simp only [MysqlDB.addAsyncTask, List.getElem?_eq_getElem inside]
  rw [if_neg (by omega)]
  exact ⟨_, rfl⟩

theorem Equipped.addAsyncTask_dead (h : Equipped d) (dead : d.obj.inited = false)
    (task : AsyncTask Sql) : d.obj.addAsyncTask task =
      .error (if d.obj.asyncConnNum = 0 then .divideByZero else .outOfRange) := by
  unfold MysqlDB.addAsyncTask
  rw [h.none dead]
  split_ifs <;> rfl

theorem syncCall_some {F : Type} {obj : MysqlDB Sql Conn RS} {conn : Option Conn}
    (sync : obj.syncConn = some conn) (call : SyncCall F) :
    ∃ used, obj.syncCall call = .ok used := by
  have use : obj.useSyncConn = .ok conn := by rw [MysqlDB.useSyncConn, sync]
  cases call with
  | update record | delete record =>
    rw [MysqlDB.syncCall, use]
    split_ifs
    · exact ⟨_, rfl⟩
    · exact ⟨_, rfl⟩
  | _ => exact ⟨_, by rw [MysqlDB.syncCall, use]; rfl⟩

theorem query_not_refused {F : Type} (obj : MysqlDB Sql Conn RS) :
    obj.syncCall (.query [] .read : SyncCall F) ≠ .ok none := by
  rw [MysqlDB.syncCall]
  cases obj.useSyncConn <;> simp [Except.map]

end Guards

end Lifecycle

/-- In every state that calls of any outcome can reach, the calls on the object are safe
just when it is initialised; otherwise `QueryAsync` divides by zero or, after an `Init`
that failed, looks for a queue where there is none. -/
theorem guarded_iff {Sql Conn D RS : Type} (F : Type) (be : Backend Sql Conn D RS) (db : D)
    {d : Lifecycle Sql Conn D RS} (reached : Reach (Lifecycle.attempt be) (Lifecycle.new db) d) :
    (Lifecycle.Guarded F d.obj ↔ d.obj.inited = true) ∧
    (d.obj.inited = false → ∀ task, d.obj.addAsyncTask task =
      .error (if d.obj.asyncConnNum = 0 then .divideByZero else .outOfRange)) := by
  have equipped := Lifecycle.equipped reached
  refine ⟨⟨fun guarded => ?_, fun live => ?_⟩, equipped.addAsyncTask_dead⟩
  · by_contra dead
    exact Lifecycle.query_not_refused d.obj
      ((guarded.refused (by simpa using dead)).2 (.query [] .read))
  · obtain ⟨conn, sync⟩ := equipped.sync live
    refine ⟨equipped.addAsyncTask_live live, Lifecycle.syncCall_some sync, fun dead => ?_⟩
    rw [live] at dead
    cases dead

namespace Lifecycle

/-- `Init`, a task, and the worker at its queue. -/
def working : Lifecycle Nat Unit (List Nat) Nat :=
  runTo (attempt Engine.logServer) (new []) [start, .queryAsync 7 10 .executeSql, .worker 0]

theorem guarded_working : Guarded Unit working.obj :=
  (guarded_iff Unit Engine.logServer ([] : List Nat) (runTo_reach .start)).1.mpr rfl

/-- `Init` and the whole of `Destroy`. -/
def destroyed : Lifecycle Nat Unit (List Nat) Nat :=
  runTo (attempt Engine.logServer) (new [])
    ([start, .destroy, .main, .main, .main] ++ List.replicate 5 (Call.worker 0) ++
      List.replicate 5 Call.main ++ List.replicate 5 (Call.worker 0) ++ List.replicate 4 Call.main)

/-- A second `Init` whose asynchronous connection fails. -/
def halfInit : Call Nat Unit := .init ⟨ascii "game", 1⟩ ⟨some (), fun _ => none, fun _ => false⟩

theorem destroyed_not_guarded :
    Reach (attempt Engine.logServer) (new []) destroyed ∧ destroyed.obj.inited = false ∧
    destroyed.main = .idle ∧ destroyed.obj.name = ascii "game" ∧
    destroyed.obj.addAsyncTask ⟨1, 7, 10, .executeSql⟩ = .error .divideByZero ∧
    destroyed.obj.syncCall (.query (ascii "select 1") .read : SyncCall Unit) =
      .error .nullPointer ∧
    (runTo (attempt Engine.logServer) destroyed [halfInit]).obj.addAsyncTask
      ⟨1, 7, 10, .executeSql⟩ = .error .outOfRange ∧
    ¬ Guarded Unit destroyed.obj := by
  have fault : destroyed.obj.syncCall (.query (ascii "select 1") .read : SyncCall Unit) =
    .error .nullPointer := rfl
  refine ⟨runTo_reach .start, rfl, rfl, rfl, rfl, fault, rfl, fun guarded => ?_⟩
  obtain ⟨conn, used⟩ := guarded.sync (.query (ascii "select 1") .read)
  rw [fault] at used
  cases used

end Lifecycle

end LlbcDatabase
