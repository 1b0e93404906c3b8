import LlbcDatabase.Library.Transition
import LlbcDatabase.AsyncTaskQueue
import LlbcDatabase.Record

/-! The asynchronous engine `MysqlDB`: one main thread, `n` workers with a task
queue and a connection each, and the shared finish queue. One step is one atomic
access or one critical section. What a connection does with a statement is the
parameter `Backend`, so everything here holds of any client and server. -/

namespace LlbcDatabase

open Transition

/-- What `TaskQuery` and `TaskQuerySql` add to a task. -/
inductive TaskInfo where
  | query (mode : Mode)
  | executeSql
  deriving DecidableEq

/-- `id` stands for the task object and `key` for the key it was submitted with. -/
structure AsyncTask (Sql : Type) where
  id : Nat
  key : UInt64
  sql : Sql
  info : TaskInfo
  deriving DecidableEq

inductive TaskResult (RS : Type) where
  | recordset (result : Option RS)
  | flag (result : Bool)
  deriving DecidableEq

/-- A task whose `task.result` has been stored by `AsyncDoWork`. -/
structure Executed (Sql RS : Type) where
  task : AsyncTask Sql
  result : TaskResult RS
  deriving DecidableEq

/-- The two public overloads of `MysqlConnect::Query` on a connection `Conn`
to a server whose state is `D`. -/
structure Backend (Sql Conn D RS : Type) where
  query : Sql → Mode → Conn → D → Option RS × Conn × D
  execute : Sql → Conn → D → Bool × Conn × D

def asyncDoWork {Sql Conn D RS : Type} (be : Backend Sql Conn D RS) (task : AsyncTask Sql)
    (conn : Conn) (db : D) : TaskResult RS × Conn × D :=
  match task.info with
  | .query mode =>
    let (result, conn, db) := be.query task.sql mode conn db
    (.recordset result, conn, db)
  | .executeSql =>
    let (result, conn, db) := be.execute task.sql conn db
    (.flag result, conn, db)

/-- Where a worker stands in `AsyncWorkFunc`; `finish` is the end of
`AsyncDoWork`, before the task is pushed to the finish queue. -/
inductive WorkerPc (Sql RS : Type) where
  | pop
  | work (tasks : List (AsyncTask Sql))
  | finish (done : Executed Sql RS) (tasks : List (AsyncTask Sql))
  | readFlushing
  | readEmpty
  | setFlag
  | readStoping
  | count
  | exited
  deriving DecidableEq

/-- Who called `Flush`: user code, or `Destroy`, which goes on after it. -/
inductive Caller where
  | user
  | destroy
  deriving DecidableEq

/-- Where the main thread stands. `update` holds the swapped local queue of
`OnUpdate` and `callback` what is left of it while a callback runs. -/
inductive MainPc (Sql RS : Type) where
  | idle
  | update (tasks : List (Executed Sql RS))
  | callback (tasks : List (Executed Sql RS))
  | flushClear (i : Nat) (caller : Caller)
  | flushSet (caller : Caller)
  | flushWait (i : Nat) (caller : Caller)
  | flushReset (caller : Caller)
  | destroyStop
  | destroyReset
  | destroyPoll
  | destroyJoin (i : Nat)
  | destroyClear
  deriving DecidableEq

/-- The members of `MysqlDB`, the threads and the server. The last four fields
are history: no step reads them except to number a new task. -/
structure Engine (Sql Conn D RS : Type) (n : Nat) where
  inited : Bool
  asyncConnNum : Nat
  stoping : Bool
  flushing : Bool
  stopedNum : Nat
  asyncConns : Fin n → Conn
  taskQueues : Fin n → AsyncTaskQueue (AsyncTask Sql)
  flushFlag : Fin n → Bool
  finishTasks : List (Executed Sql RS)
  workers : Fin n → WorkerPc Sql RS
  main : MainPc Sql RS
  db : D
  submitted : List (AsyncTask Sql)
  executed : List (Fin n × Executed Sql RS)
  calledBack : List (Executed Sql RS)
  discarded : List (Executed Sql RS)

inductive Action (Sql : Type) (n : Nat) where
  | queryAsync (key : UInt64) (sql : Sql) (info : TaskInfo)
  | onUpdate
  | flush
  | destroy
  | main
  | worker (i : Fin n)
  deriving DecidableEq

/-- The worker of an engine with one connection. -/
def only : Fin 1 := 0

/-- `key % _asyncConnNum`, the shard of a key on an engine with `n` connections. -/
def shardOf (n : Nat) (key : UInt64) : Nat := key.toNat % n

namespace Engine

variable {Sql Conn D RS : Type} {n : Nat}

/-- The engine when `Init` has succeeded; the acknowledgement flags are allocated
without an initial value. -/
def initial (conns : Fin n → Conn) (flags : Fin n → Bool) (db : D) : Engine Sql Conn D RS n where
  inited := true
  asyncConnNum := n
  stoping := false
  flushing := false
  stopedNum := 0
  asyncConns := conns
  taskQueues := fun _ => .empty
  flushFlag := flags
  finishTasks := []
  workers := fun _ => .pop
  main := .idle
  db := db
  submitted := []
  executed := []
  calledBack := []
  discarded := []

def goto (s : Engine Sql Conn D RS n) (pc : MainPc Sql RS) : Engine Sql Conn D RS n :=
  { s with main := pc }

def workerGoto (s : Engine Sql Conn D RS n) (i : Fin n) (pc : WorkerPc Sql RS) :
    Engine Sql Conn D RS n :=
  { s with workers := Function.update s.workers i pc }

/-- `AddAsyncTask`: `none` is a remainder by zero or an index outside `_taskQueues`. -/
def addAsyncTask (s : Engine Sql Conn D RS n) (task : AsyncTask Sql) :
    Option (Engine Sql Conn D RS n) :=
  if s.asyncConnNum = 0 then none
  else if h : shardOf s.asyncConnNum task.key < n then
    let shard : Fin n := ⟨shardOf s.asyncConnNum task.key, h⟩
    some { s with
      taskQueues := Function.update s.taskQueues shard ((s.taskQueues shard).push task)
      submitted := s.submitted ++ [task] }
  else none

def queryAsync (s : Engine Sql Conn D RS n) (key : UInt64) (sql : Sql) (info : TaskInfo) :
    Option (Engine Sql Conn D RS n) :=
  s.addAsyncTask { id := s.submitted.length, key, sql, info }

/-- `OnUpdate` up to the end of its critical section. -/
def onUpdate (s : Engine Sql Conn D RS n) : Engine Sql Conn D RS n :=
  match s.finishTasks with
  | [] => s
  | tasks => { s with finishTasks := [], main := .update tasks }

/-- Where the main thread goes when `Flush` returns. -/
def afterFlush : Caller → MainPc Sql RS
  | .user => .idle
  | .destroy => .destroyStop

/-- `Flush` up to its first loop. -/
def flush (s : Engine Sql Conn D RS n) (caller : Caller) : Engine Sql Conn D RS n :=
  if !s.inited || s.flushing then s.goto (afterFlush caller)
  else s.goto (.flushClear 0 caller)

/-- `Destroy` up to the call of `Flush` and into it. -/
def destroy (s : Engine Sql Conn D RS n) : Engine Sql Conn D RS n :=
  if !s.inited || s.stoping then s else s.flush .destroy

/-- The end of `Destroy`, when every worker has been joined. -/
def clear (s : Engine Sql Conn D RS n) : Engine Sql Conn D RS n :=
  { s with
    discarded := s.discarded ++ s.finishTasks
    finishTasks := []
    taskQueues := fun _ => .empty
    asyncConnNum := 0
    inited := false
    main := .idle }

def mainStep (s : Engine Sql Conn D RS n) : Option (Engine Sql Conn D RS n) :=
  match s.main with
  | .idle => none
  | .update [] => some (s.goto .idle)
  | .update (done :: tasks) =>
    some { s with main := .callback tasks, calledBack := s.calledBack ++ [done] }
  | .callback tasks => some (s.goto (.update tasks))
  | .flushClear i caller =>
    if i < s.asyncConnNum then
      if h : i < n then
        some { s with
          flushFlag := Function.update s.flushFlag ⟨i, h⟩ false
          main := .flushClear (i + 1) caller }
      else none
    else some (s.goto (.flushSet caller))
  | .flushSet caller => some { s with flushing := true, main := .flushWait 0 caller }
  | .flushWait i caller =>
    if i < s.asyncConnNum then
      if h : i < n then
        some (if s.flushFlag ⟨i, h⟩ then s.goto (.flushWait (i + 1) caller) else s)
      else none
    else some (s.goto (.flushReset caller))
  | .flushReset caller => some { s with flushing := false, main := afterFlush caller }
  | .destroyStop => some { s with stoping := true, main := .destroyReset }
  | .destroyReset => some { s with stopedNum := 0, main := .destroyPoll }
  | .destroyPoll =>
    some (if s.stopedNum ≠ s.asyncConnNum then s else s.goto (.destroyJoin 0))
  | .destroyJoin i =>
    if h : i < n then
      match s.workers ⟨i, h⟩ with
      | .exited => some (s.goto (.destroyJoin (i + 1)))
      | _ => none
    else some (s.goto .destroyClear)
  | .destroyClear => some s.clear

/-- The next step of worker `i` in `AsyncWorkFunc`. -/
def workerStep (be : Backend Sql Conn D RS) (s : Engine Sql Conn D RS n) (i : Fin n) :
    Option (Engine Sql Conn D RS n) :=
  match s.workers i with
  | .pop =>
    let (tasks, queue) := (s.taskQueues i).timePopAll
    some { s with
      taskQueues := Function.update s.taskQueues i queue
      workers := Function.update s.workers i (.work tasks) }
  | .work [] => some (s.workerGoto i .readFlushing)
  | .work (task :: tasks) =>
    let (result, conn, db) := asyncDoWork be task (s.asyncConns i) s.db
    some { s with
      asyncConns := Function.update s.asyncConns i conn
      db := db
      workers := Function.update s.workers i (.finish ⟨task, result⟩ tasks)
      executed := s.executed ++ [(i, ⟨task, result⟩)] }
  | .finish done tasks =>
    some { s with
      finishTasks := s.finishTasks ++ [done]
      workers := Function.update s.workers i (.work tasks) }
  | .readFlushing => some (s.workerGoto i (if s.flushing then .readEmpty else .readStoping))
  | .readEmpty => some (s.workerGoto i (if (s.taskQueues i).isEmpty then .setFlag else .readStoping))
  | .setFlag =>
    some { s with
      flushFlag := Function.update s.flushFlag i true
      workers := Function.update s.workers i .pop }
  | .readStoping => some (s.workerGoto i (if s.stoping then .count else .pop))
  | .count =>
    some { s with
      stopedNum := s.stopedNum + 1
      workers := Function.update s.workers i .exited }
  | .exited => none

/-- Public calls are made from an idle main thread; a callback may submit further tasks. -/
def step (be : Backend Sql Conn D RS) (s : Engine Sql Conn D RS n) :
    Action Sql n → Option (Engine Sql Conn D RS n)
  | .queryAsync key sql info =>
    match s.main with
    | .idle | .callback _ => s.queryAsync key sql info
    | _ => none
  | .onUpdate => match s.main with
    | .idle => some s.onUpdate
    | _ => none
  | .flush => match s.main with
    | .idle => some (s.flush .user)
    | _ => none
  | .destroy => match s.main with
    | .idle => some s.destroy
    | _ => none
  | .main => s.mainStep
  | .worker i => s.workerStep be i

end Engine

end LlbcDatabase
