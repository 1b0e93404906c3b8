import LlbcDatabase.Engine

/-! The members of `MysqlDB` that `Init` fills and `Destroy` clears, as the source
has them: vectors that `Init` appends to. -/

namespace LlbcDatabase

open CText

/-- `DatabaseParam`, without what only `Connect` reads. -/
structure DatabaseParam where
  name : Bytes
  asyncConnNum : Int32

/-- What the attempts to connect come to in one call of `Init`, in their order, and
what the new acknowledgement flags happen to hold. -/
structure Attempts (Conn : Type) where
  sync : Option Conn
  async : Nat → Option Conn
  flags : Nat → Bool

/-- `syncConn` is null, or an object that may have failed to connect. A thread is
given by where it stands. -/
structure MysqlDB (Sql Conn RS : Type) where
  inited : Bool
  asyncConnNum : Nat
  name : Bytes
  stoping : Bool
  flushing : Bool
  stopedNum : Nat
  syncConn : Option (Option Conn)
  asyncConns : List Conn
  asyncThreads : List (WorkerPc Sql RS)
  taskQueues : List (AsyncTaskQueue (AsyncTask Sql))
  flushFlag : List Bool
  finishTasks : List (Executed Sql RS)

namespace MysqlDB

variable {Sql Conn RS : Type}

def new : MysqlDB Sql Conn RS where
  inited := false
  asyncConnNum := 0
  name := []
  stoping := false
  flushing := false
  stopedNum := 0
  syncConn := none
  asyncConns := []
  asyncThreads := []
  taskQueues := []
  flushFlag := []
  finishTasks := []

/-- `std::max<int>(cfg._asyncConnNum, 1)`. -/
def connNum (cfg : DatabaseParam) : Nat := (max cfg.asyncConnNum.toInt 1).toNat

/-- The first loop of `Init`, from attempt `i` on. -/
def connectAll (async : Nat → Option Conn) : Nat → Nat → List Conn → Bool × List Conn
  | _, 0, asyncConns => (true, asyncConns)
  | i, rest + 1, asyncConns =>
    match async i with
    | none => (false, asyncConns)
    | some conn => connectAll async (i + 1) rest (asyncConns ++ [conn])

/-- The second loop of `Init`. -/
def startAll (flags : Nat → Bool) : Nat → Nat → MysqlDB Sql Conn RS → MysqlDB Sql Conn RS
  | _, 0, db => db
  | i, rest + 1, db =>
    startAll flags (i + 1) rest { db with
      flushFlag := db.flushFlag ++ [flags i]
      taskQueues := db.taskQueues ++ [.empty]
      asyncThreads := db.asyncThreads ++ [.pop] }

def init (db : MysqlDB Sql Conn RS) (cfg : DatabaseParam) (attempts : Attempts Conn) :
    Bool × MysqlDB Sql Conn RS :=
  if db.inited then (false, db)
  else
    let db := { db with syncConn := some attempts.sync }
    if attempts.sync.isNone then (false, db)
    else
      let db := { db with asyncConnNum := connNum cfg }
      let (connected, asyncConns) := connectAll attempts.async 0 db.asyncConnNum db.asyncConns
      let db := { db with asyncConns }
      if !connected then (false, db)
      else
        let db := startAll attempts.flags 0 db.asyncConnNum db
        (true, { db with name := cfg.name, inited := true })

/-- What `Destroy` does once its threads are joined. -/
def clear (db : MysqlDB Sql Conn RS) : MysqlDB Sql Conn RS :=
  { db with
    asyncThreads := []
    finishTasks := []
    syncConn := none
    asyncConns := []
    taskQueues := []
    flushFlag := []
    asyncConnNum := 0
    inited := false }

/-- `Destroy` as one call, which returns when every worker is counted and joined. -/
def destroy (db : MysqlDB Sql Conn RS) : MysqlDB Sql Conn RS :=
  if !db.inited || db.stoping then db
  else { db with flushing := false, stoping := true, stopedNum := db.asyncConnNum }.clear

/-- The number of attempts that connect before the first one that fails, out of `rest`
from attempt `i` on. -/
def connectedNum (async : Nat → Option Conn) : Nat → Nat → Nat
  | _, 0 => 0
  | i, rest + 1 => if (async i).isSome then connectedNum async (i + 1) rest + 1 else 0

theorem connNum_pos (cfg : DatabaseParam) : 0 < connNum cfg := by
  unfold connNum
  omega

theorem connectedNum_eq_zero_iff (async : Nat → Option Conn) (i : Nat) {rest : Nat} (some : 0 < rest) :
    connectedNum async i rest = 0 ↔ async i = none := by
  obtain ⟨k, rfl⟩ : ∃ k, rest = k + 1 := ⟨rest - 1, by omega⟩
  rw [connectedNum]
  cases async i <;> simp

theorem connectAll_length (async : Nat → Option Conn) (i rest : Nat) (asyncConns : List Conn) :
    (connectAll async i rest asyncConns).2.length =
      asyncConns.length + connectedNum async i rest := by
  induction rest generalizing i asyncConns with
  | zero => rfl
  | succ rest ih =>
    rw [connectAll, connectedNum]
    cases async i with
    | none => rfl
    | some conn =>
      have later := ih (i + 1) (asyncConns ++ [conn])
      simp only [List.length_append, List.length_singleton] at later
      simp only [Option.isSome_some, if_true]
      omega

theorem connectAll_ok_iff (async : Nat → Option Conn) (i rest : Nat) (asyncConns : List Conn) :
    (connectAll async i rest asyncConns).1 = true ↔ connectedNum async i rest = rest := by
  induction rest generalizing i asyncConns with
  | zero => simp [connectAll, connectedNum]
  | succ rest ih =>
    rw [connectAll, connectedNum]
    cases async i with
    | none => simp
    | some conn => simpa using ih (i + 1) (asyncConns ++ [conn])

theorem connectAll_extends (async : Nat → Option Conn) (i rest : Nat) (asyncConns : List Conn) :
    asyncConns <+: (connectAll async i rest asyncConns).2 := by
  induction rest generalizing i asyncConns with
  | zero => exact List.prefix_rfl
  | succ rest ih =>
    rw [connectAll]
    cases async i with
    | none => exact List.prefix_rfl
    | some conn => exact (List.prefix_append _ _).trans (ih (i + 1) (asyncConns ++ [conn]))

theorem startAll_eq (flags : Nat → Bool) (i rest : Nat) (db : MysqlDB Sql Conn RS) :
    startAll flags i rest db = { db with
      flushFlag := db.flushFlag ++ (List.range' i rest).map flags
      taskQueues := db.taskQueues ++ List.replicate rest .empty
      asyncThreads := db.asyncThreads ++ List.replicate rest .pop } := by
  induction rest generalizing i db with
  | zero => simp [startAll]
  | succ rest ih =>
    rw [startAll, ih]
    simp [List.range'_succ, List.replicate_succ]

inductive InitCase (db : MysqlDB Sql Conn RS) (cfg : DatabaseParam) (attempts : Attempts Conn) :
    Bool × MysqlDB Sql Conn RS → Prop where
  | refused (live : db.inited = true) : InitCase db cfg attempts (false, db)
  | unsynced (idle : db.inited = false) (sync : attempts.sync = none) :
      InitCase db cfg attempts (false, { db with syncConn := some none })
  | unconnected {conn} (idle : db.inited = false) (sync : attempts.sync = some conn)
      (short : connectedNum attempts.async 0 (connNum cfg) ≠ connNum cfg) :
      InitCase db cfg attempts (false, { db with
        syncConn := some (some conn)
        asyncConnNum := connNum cfg
        asyncConns := (connectAll attempts.async 0 (connNum cfg) db.asyncConns).2 })
  | done {conn} (idle : db.inited = false) (sync : attempts.sync = some conn)
      (all : connectedNum attempts.async 0 (connNum cfg) = connNum cfg) :
      InitCase db cfg attempts (true, { db with
        inited := true
        asyncConnNum := connNum cfg
        name := cfg.name
        syncConn := some (some conn)
        asyncConns := (connectAll attempts.async 0 (connNum cfg) db.asyncConns).2
        asyncThreads := db.asyncThreads ++ List.replicate (connNum cfg) .pop
        taskQueues := db.taskQueues ++ List.replicate (connNum cfg) .empty
        flushFlag := db.flushFlag ++ (List.range' 0 (connNum cfg)).map attempts.flags })

theorem init_case (db : MysqlDB Sql Conn RS) (cfg : DatabaseParam) (attempts : Attempts Conn) :
    InitCase db cfg attempts (db.init cfg attempts) := by
  by_cases live : db.inited = true
  · have same : db.init cfg attempts = (false, db) := by simp [init, live]
    rw [same]
    exact .refused live
  have idle : db.inited = false := by simpa using live
  cases sync : attempts.sync with
  | none =>
    have same : db.init cfg attempts = (false, { db with syncConn := some none }) := by
      simp [init, idle, sync]
    rw [same]
    exact .unsynced idle sync
  | some conn =>
    have ok := connectAll_ok_iff attempts.async 0 (connNum cfg) db.asyncConns
    by_cases all : connectedNum attempts.async 0 (connNum cfg) = connNum cfg
    · have connected := ok.mpr all
      simp only [init, idle, sync, connected, startAll_eq, Bool.false_eq_true, if_false,
        Option.isNone_some, Bool.not_true]
      exact .done idle sync all
    · have failed : (connectAll attempts.async 0 (connNum cfg) db.asyncConns).1 = false := by
        simpa [all] using ok
      have through := InitCase.unconnected idle sync all
      rw [idle] at through
      simpa only [init, idle, sync, failed, Bool.false_eq_true, if_false, Option.isNone_some,
        Bool.not_false, if_true] using through

/-- The lists and the number that a failed `Init` is to leave alone. -/
def SameLists (db db' : MysqlDB Sql Conn RS) : Prop :=
  db'.asyncConns = db.asyncConns ∧ db'.taskQueues = db.taskQueues ∧
    db'.flushFlag = db.flushFlag ∧ db'.asyncThreads = db.asyncThreads ∧
    db'.asyncConnNum = db.asyncConnNum

theorem connectAll_same_iff (async : Nat → Option Conn) (cfg : DatabaseParam)
    (asyncConns : List Conn) :
    (connectAll async 0 (connNum cfg) asyncConns).2 = asyncConns ↔ async 0 = none := by
  rw [← connectedNum_eq_zero_iff async 0 (connNum_pos cfg)]
  have length := connectAll_length async 0 (connNum cfg) asyncConns
  constructor
  · intro same
    rw [same] at length
    omega
  · intro none
    have whole : asyncConns.length = (connectAll async 0 (connNum cfg) asyncConns).2.length := by
      omega
    exact ((connectAll_extends async 0 (connNum cfg) asyncConns).eq_of_length whole).symm

theorem failed_unchanged_iff {db : MysqlDB Sql Conn RS} {cfg : DatabaseParam}
    {attempts : Attempts Conn} (failed : (db.init cfg attempts).1 = false) :
    (db.init cfg attempts).2.asyncThreads = db.asyncThreads ∧
    (SameLists db (db.init cfg attempts).2 ↔
      db.inited = true ∨ attempts.sync = none ∨
        attempts.async 0 = none ∧ db.asyncConnNum = connNum cfg) := by
  have through := init_case db cfg attempts
  generalize db.init cfg attempts = result at through failed
  cases through with
  | refused live => simp [SameLists, live]
  | unsynced idle sync => simp [SameLists, sync]
  | unconnected idle sync short =>
    have kept := connectAll_same_iff attempts.async cfg db.asyncConns
    simp only [SameLists, kept, idle, sync, true_and, Bool.false_eq_true, reduceCtorEq, false_or]
    rw [eq_comm (a := connNum cfg)]
  | done => cases failed

def initAll (db : MysqlDB Sql Conn RS) : List (DatabaseParam × Attempts Conn) →
    MysqlDB Sql Conn RS
  | [] => db
  | (cfg, attempts) :: rest => (db.init cfg attempts).2.initAll rest

def AllFail (db : MysqlDB Sql Conn RS) : List (DatabaseParam × Attempts Conn) → Prop
  | [] => True
  | (cfg, attempts) :: rest =>
    (db.init cfg attempts).1 = false ∧ (db.init cfg attempts).2.AllFail rest

def leftNum (cfg : DatabaseParam) (attempts : Attempts Conn) : Nat :=
  if attempts.sync.isNone then 0 else connectedNum attempts.async 0 (connNum cfg)

theorem failed_left {db : MysqlDB Sql Conn RS} {cfg : DatabaseParam} {attempts : Attempts Conn}
    (idle : db.inited = false) (failed : (db.init cfg attempts).1 = false) :
    (db.init cfg attempts).2.inited = false ∧
    (db.init cfg attempts).2.asyncConns.length = db.asyncConns.length + leftNum cfg attempts := by
  have through := init_case db cfg attempts
  generalize db.init cfg attempts = result at through failed
  cases through with
  | refused live => simp [idle] at live
  | unsynced _ sync => simp [idle, leftNum, sync]
  | unconnected _ sync short => simp [idle, leftNum, sync, connectAll_length]
  | done => cases failed

theorem initAll_left {db : MysqlDB Sql Conn RS} {tries : List (DatabaseParam × Attempts Conn)}
    (idle : db.inited = false) (failed : db.AllFail tries) :
    (db.initAll tries).inited = false ∧
    (db.initAll tries).asyncConns.length =
      db.asyncConns.length + (tries.map fun p => leftNum p.1 p.2).sum := by
  induction tries generalizing db with
  | nil => exact ⟨idle, rfl⟩
  | cons p rest ih =>
    obtain ⟨here, later⟩ := failed
    obtain ⟨still, left⟩ := failed_left idle here
    obtain ⟨ended, total⟩ := ih still later
    refine ⟨ended, ?_⟩
    rw [initAll, total, left, List.map_cons, List.sum_cons, Nat.add_assoc]

theorem leftNum_eq_zero_iff (cfg : DatabaseParam) (attempts : Attempts Conn) :
    leftNum cfg attempts = 0 ↔ attempts.sync = none ∨ attempts.async 0 = none := by
  unfold leftNum
  cases sync : attempts.sync with
  | none => simp
  | some conn => simpa using connectedNum_eq_zero_iff attempts.async 0 (connNum_pos cfg)

theorem done_connNum_iff {db : MysqlDB Sql Conn RS} {cfg : DatabaseParam} {attempts : Attempts Conn}
    (ok : (db.init cfg attempts).1 = true) :
    (db.init cfg attempts).2.asyncConns.length = (db.init cfg attempts).2.asyncConnNum ↔
      db.asyncConns.length = 0 := by
  have through := init_case db cfg attempts
  generalize db.init cfg attempts = result at through ok
  cases through with
  | done _ _ all =>
    have length := connectAll_length attempts.async 0 (connNum cfg) db.asyncConns
    simp only [length, all]
    omega
  | _ => cases ok

end MysqlDB

/-- A failed `Init` starts no worker, and leaves the lists and the number of
connections alone just when it was refused, failed at the synchronous connection, or
failed at the first asynchronous one with that number in place already. After failed
calls a successful one leaves as many connections as that number just when every one
of them failed at its synchronous or its first asynchronous connection. -/
theorem init_atomic_iff {Sql Conn RS : Type} :
    (∀ (db : MysqlDB Sql Conn RS) (cfg : DatabaseParam) (attempts : Attempts Conn),
      (db.init cfg attempts).1 = false →
        (db.init cfg attempts).2.asyncThreads = db.asyncThreads ∧
        (MysqlDB.SameLists db (db.init cfg attempts).2 ↔
          db.inited = true ∨ attempts.sync = none ∨
            attempts.async 0 = none ∧ db.asyncConnNum = MysqlDB.connNum cfg)) ∧
    ∀ (db : MysqlDB Sql Conn RS) (tries : List (DatabaseParam × Attempts Conn))
      (cfg : DatabaseParam) (attempts : Attempts Conn),
      db.inited = false → db.asyncConns = [] → db.AllFail tries →
      ((db.initAll tries).init cfg attempts).1 = true →
        (((db.initAll tries).init cfg attempts).2.asyncConns.length =
            ((db.initAll tries).init cfg attempts).2.asyncConnNum ↔
          ∀ p ∈ tries, p.2.sync = none ∨ p.2.async 0 = none) := by
  refine ⟨fun db cfg attempts => MysqlDB.failed_unchanged_iff, ?_⟩
  intro db tries cfg attempts idle none failed ok
  rw [MysqlDB.done_connNum_iff ok, (MysqlDB.initAll_left idle failed).2, none, List.length_nil,
    Nat.zero_add, List.sum_eq_zero_iff, List.forall_mem_map]
  exact forall₂_congr fun p _ => MysqlDB.leftNum_eq_zero_iff p.1 p.2

namespace MysqlDB

def twoConns : DatabaseParam := ⟨ascii "game", 2⟩

/-- The first `k` attempts connect, the synchronous one first. -/
def firstConnect (k : Nat) : Attempts Nat where
  sync := if 0 < k then some 0 else none
  async i := if i + 1 < k then some (i + 1) else none
  flags _ := false

def noDB : MysqlDB Nat Nat Nat := new

theorem init_atomic_firstConnect :
    SameLists noDB (noDB.init twoConns (firstConnect 0)).2 ∧
    ((noDB.initAll [(twoConns, firstConnect 0), (twoConns, firstConnect 1)]).init twoConns
      (firstConnect 3)).2.asyncConns.length = 2 := by
  have first := init_atomic_iff.1 noDB twoConns (firstConnect 0) rfl
  have later := init_atomic_iff.2 noDB [(twoConns, firstConnect 0), (twoConns, firstConnect 1)]
    twoConns (firstConnect 3) rfl rfl ⟨rfl, rfl, trivial⟩ rfl
  refine ⟨first.2.mpr (.inr (.inl rfl)), later.mpr ?_⟩
  simp [firstConnect]

/-- The second asynchronous connection fails: the first one and the number stay, and
the next `Init` leaves three connections for two workers. -/
theorem secondConnect_left :
    (noDB.init twoConns (firstConnect 2)).1 = false ∧
    ¬ SameLists noDB (noDB.init twoConns (firstConnect 2)).2 ∧
    ((noDB.initAll [(twoConns, firstConnect 2)]).init twoConns (firstConnect 3)).1 = true ∧
    ((noDB.initAll [(twoConns, firstConnect 2)]).init twoConns (firstConnect 3)).2.asyncConns =
      [1, 1, 2] ∧
    ((noDB.initAll [(twoConns, firstConnect 2)]).init twoConns
      (firstConnect 3)).2.asyncConnNum = 2 := by
  refine ⟨rfl, fun same => ?_, rfl, rfl, rfl⟩
  have none : (noDB.init twoConns (firstConnect 2)).2.asyncConns = [] := same.1
  cases none

end MysqlDB

end LlbcDatabase
