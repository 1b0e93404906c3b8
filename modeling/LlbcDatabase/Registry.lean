import LlbcDatabase.Library.Transition
import LlbcDatabase.Library.SqlWriting
import LlbcDatabase.Record
import LlbcDatabase.MysqlDB

/-! The registry of `DBMgr`: `_databases` and `_defaultDB`, with the engines they
point to. A pointer to an engine is its number in `engines`. -/

namespace LlbcDatabase

open CText SqlText Transition

/-- `engines` holds every engine that has been initialised, in the order of creation. -/
structure Registry (Sql Conn RS : Type) where
  databases : List (Bytes × Nat)
  defaultDB : Option Nat
  engines : List (MysqlDB Sql Conn RS)

/-- A section `Database<i>` of the configuration, without what only `Connect` reads. -/
structure DatabaseSection where
  name : Bytes
  connect : UInt32
  default : UInt32

structure IniConfig where
  num : UInt32
  getSection : Bytes → Option DatabaseSection

def DatabaseSection.param (dbSession : DatabaseSection) : DatabaseParam :=
  ⟨dbSession.name, dbSession.connect.toInt32⟩

/-- `cfgName.format("Database%d", i)`. -/
def cfgName (i : Nat) : Bytes := ascii "Database" ++ signedDecimal (s32 i)

/-- The values of the loop counter. At the largest `num` it wraps, and the second visit
of section 1 ends the loop at the latest, with a repeated name. -/
def cfgIndices (num : UInt32) : List Nat :=
  List.range' 1 num.toNat ++ if num.toNat + 1 = 2 ^ 32 then [0, 1] else []

namespace Registry

variable {Sql Conn RS : Type}

def new : Registry Sql Conn RS := ⟨[], none, []⟩

/-- `CreateMysqlDB`: an engine whose `Init` fails is deleted. -/
def createMysqlDB (r : Registry Sql Conn RS) (cfg : DatabaseParam) (attempts : Attempts Conn) :
    Option Nat × Registry Sql Conn RS :=
  match MysqlDB.new.init cfg attempts with
  | (false, _) => (none, r)
  | (true, db) => (some r.engines.length, { r with engines := r.engines ++ [db] })

/-- `_databases[name].reset(db)` for a name that is not there. -/
def register (r : Registry Sql Conn RS) (name : Bytes) (db : Nat) : Registry Sql Conn RS :=
  { r with databases := r.databases ++ [(name, db)] }

def createDatabase (r : Registry Sql Conn RS) (cfg : DatabaseParam) (attempts : Attempts Conn) :
    Option Nat × Registry Sql Conn RS :=
  if (r.databases.lookup cfg.name).isSome then (none, r)
  else match r.createMysqlDB cfg attempts with
    | (none, r) => (none, r)
    | (some newDB, r) => (some newDB, r.register cfg.name newDB)

/-- `DestroyDatabase`: a name that is found is reported as missing, and for one that is
not found the end of the map is used as an entry. -/
def destroyDatabase (r : Registry Sql Conn RS) (dbConnName : Bytes) :
    Except Fault (Registry Sql Conn RS) :=
  if (r.databases.lookup dbConnName).isSome then .ok r else .error .outOfRange

def getDatabase (r : Registry Sql Conn RS) (dbConnName : Bytes) : Option Nat :=
  r.databases.lookup dbConnName

def getDefaultDatabase (r : Registry Sql Conn RS) : Option Nat := r.defaultDB

/-- The loop of `OnDestroy`, which calls `Destroy` on each registered engine. -/
def destroyAll : List Nat → List (MysqlDB Sql Conn RS) → List (MysqlDB Sql Conn RS)
  | [], engines => engines
  | db :: rest, engines => destroyAll rest (engines.modify db MysqlDB.destroy)

def onDestroy (r : Registry Sql Conn RS) : Registry Sql Conn RS :=
  { r with databases := [], engines := destroyAll (r.databases.map (·.2)) r.engines }

/-- The loop of `OnInitialize` over the sections that are left, and its end. -/
def openAll (cfg : IniConfig) (attempts : Nat → Attempts Conn) :
    Registry Sql Conn RS → List Nat → Bool × Registry Sql Conn RS
  | r, [] => (r.defaultDB.isSome, r)
  | r, i :: rest =>
    match cfg.getSection (cfgName i) with
    | none => (false, r)
    | some dbSession =>
      if (r.databases.lookup dbSession.name).isSome then (false, r)
      else match r.createMysqlDB dbSession.param (attempts i) with
        | (none, r) => (false, r)
        | (some newDB, r) =>
          if 0 < dbSession.default then
            if r.defaultDB.isSome then (false, r)
            else openAll cfg attempts
              ({ r with defaultDB := some newDB }.register dbSession.name newDB) rest
          else openAll cfg attempts (r.register dbSession.name newDB) rest

/-- `OnInitialize`; `attempts i` is what the connections of section `i` come to. -/
def onInitialize (r : Registry Sql Conn RS) (cfg : IniConfig) (attempts : Nat → Attempts Conn) :
    Bool × Registry Sql Conn RS :=
  if cfg.num = 0 then (true, r) else openAll cfg attempts r (cfgIndices cfg.num)

inductive Call (Conn : Type) where
  | onInitialize (cfg : IniConfig) (attempts : Nat → Attempts Conn)
  | onDestroy
  | createDatabase (cfg : DatabaseParam) (attempts : Attempts Conn)
  | destroyDatabase (dbConnName : Bytes)
  | getDatabase (dbConnName : Bytes)
  | getDefaultDatabase

def step (r : Registry Sql Conn RS) : Call Conn → Option (Registry Sql Conn RS)
  | .onInitialize cfg attempts => some (r.onInitialize cfg attempts).2
  | .onDestroy => some r.onDestroy
  | .createDatabase cfg attempts => some (r.createDatabase cfg attempts).2
  | .destroyDatabase dbConnName => (r.destroyDatabase dbConnName).toOption
  | .getDatabase _ | .getDefaultDatabase => some r

def running (r : Registry Sql Conn RS) (db : Nat) : Prop :=
  ∃ engine, r.engines[db]? = some engine ∧ engine.inited = true

end Registry

def Attempts.connected {Conn : Type} (attempts : Attempts Conn) (cfg : DatabaseParam) : Bool :=
  attempts.sync.isSome &&
    MysqlDB.connectedNum attempts.async 0 (MysqlDB.connNum cfg) == MysqlDB.connNum cfg

theorem MysqlDB.new_init (Sql RS : Type) {Conn : Type} (cfg : DatabaseParam) (attempts : Attempts Conn) :
    ((new : MysqlDB Sql Conn RS).init cfg attempts).1 = attempts.connected cfg ∧
    ((new : MysqlDB Sql Conn RS).init cfg attempts).2.stoping = false ∧
    (attempts.connected cfg = true →
      ((new : MysqlDB Sql Conn RS).init cfg attempts).2.inited = true) := by
  have through := init_case (new : MysqlDB Sql Conn RS) cfg attempts
  generalize (new : MysqlDB Sql Conn RS).init cfg attempts = result at through
  cases through with
  | refused live => cases live
  | unsynced _ sync => simp [Attempts.connected, sync, new]
  | unconnected _ sync short => simp [Attempts.connected, sync, short, new]
  | done _ sync all => simp [Attempts.connected, sync, all, new]

namespace Registry

variable {Sql Conn RS : Type} {r : Registry Sql Conn RS}

theorem createMysqlDB_eq (cfg : DatabaseParam) (attempts : Attempts Conn) :
    r.createMysqlDB cfg attempts =
      if attempts.connected cfg then
        (some r.engines.length, { r with engines := r.engines ++ [(MysqlDB.new.init cfg attempts).2] })
      else (none, r) := by
  have outcome := (MysqlDB.new_init Sql RS cfg attempts).1
  unfold createMysqlDB
  rw [← outcome]
  split
  case h_1 failed => simp [failed]
  case h_2 made => simp [made]

end Registry

end LlbcDatabase
