import LlbcDatabase.Record

/-! `MysqlConnect` over what libmysqlclient documents: a stored result set with its
row cursor, and a connection that refuses a command while a result set waits to be
stored. What the server answers is the parameter `Server`. -/

namespace LlbcDatabase

open CText

abbrev Row := List (Option Buffer)

def cellLength : Option Buffer → Nat
  | some b => b.bytes.length
  | none => 0

def columnMax (rows : List Row) (i : Nat) : Nat :=
  (rows.map fun row => cellLength (row.getD i none)).foldr max 0

/-- A stored result set, with what the client library promises about it. -/
structure StoredResult where
  fields : List MysqlField
  rows : List Row
  nonempty : fields ≠ []
  few : fields.length ≤ 4096
  rect : ∀ row ∈ rows, row.length = fields.length
  maxLength : ∀ (i : Nat) (h : i < fields.length), fields[i].maxLength.toNat = columnMax rows i

structure MysqlRes where
  result : StoredResult
  dataCursor : List Row
  currentRow : Option Row

def mysqlDataSeek (res : MysqlRes) (offset : Nat) : MysqlRes :=
  { res with dataCursor := res.result.rows.drop offset, currentRow := none }

/-- `mysql_fetch_lengths`: null while no row is current. -/
def mysqlFetchLengths (res : MysqlRes) : Option (List UInt64) :=
  res.currentRow.map fun row => row.map fun cell => UInt64.ofNat (cellLength cell)

/-- `_records`, with null pointers until `WriteRecord`. -/
abbrev Recordset (F : Type) := List (Option (Record F))

def Recordset.new {F : Type} (recordNum : Nat) : Recordset F := List.replicate recordNum none

section Read

variable {F C : Type} [CDouble F] (look : C → MysqlField → Option DBFieldInfo × C)

/-- The row loop of `Query`, over the rows that `mysql_fetch_row` returns. -/
def readRows (dbFields : List MysqlField) (colLens : Option (List UInt64)) (mode : Mode) :
    C → Nat → Recordset F → List Row → Except Fault (Option (Recordset F)) × C
  | c, idx, recSet, [] =>
    (if idx = recSet.length then .ok (some recSet) else .error .assertion, c)
  | c, idx, recSet, row :: rest =>
    match createRecord look c (some row) dbFields colLens mode with
    | (none, c) => (.ok none, c)
    | (some newRec, c) =>
      if idx < recSet.length then
        readRows dbFields colLens mode c (idx + 1) (recSet.set idx (some newRec)) rest
      else (.error .outOfRange, c)

/-- `Query(sql, mode)` from the stored result on. -/
def readResult (c : C) (result : StoredResult) (mode : Mode) :
    Except Fault (Option (Recordset F)) × C :=
  let res := mysqlDataSeek ⟨result, result.rows, none⟩ 0
  let colLens := mysqlFetchLengths res
  let recSet := Recordset.new (result.rows.length % 2 ^ 32)
  readRows look result.fields colLens mode c 0 recSet res.dataCursor

/-- The lengths are asked for before any row is current, so there are none. -/
theorem readResult_eq (c : C) (result : StoredResult) (mode : Mode) :
    (readResult look c result mode : Except Fault (Option (Recordset F)) × C) =
      readRows look result.fields none mode c 0 (Recordset.new (result.rows.length % 2 ^ 32))
        result.rows := rfl

/-- `MakeDefRecord` from the stored result on. -/
def readDefRecord (c : C) (result : StoredResult) : Option (Record F) × C :=
  let colLens := mysqlFetchLengths ⟨result, result.rows, none⟩
  createRecord look c none result.fields colLens .edit

end Read

inductive Reply where
  | error
  | done
  | rows (result : StoredResult)

structure Server (D : Type) where
  run : Bytes → D → Reply × D

/-- A connection; `pending` is a result set that has not been stored. -/
structure MysqlConnect where
  opened : Bool
  pending : Option StoredResult

namespace MysqlConnect

variable {F C D : Type} [CDouble F]

/-- `mysql_real_query`, out of sync while a result set is pending. -/
def mysqlRealQuery (server : Server D) (sql : Bytes) (conn : MysqlConnect) (db : D) :
    Bool × MysqlConnect × D :=
  match conn.pending with
  | some _ => (false, conn, db)
  | none => match server.run (cstr sql) db with
    | (.error, db) => (false, conn, db)
    | (.done, db) => (true, conn, db)
    | (.rows result, db) => (true, { conn with pending := some result }, db)

def mysqlStoreResult (conn : MysqlConnect) : Option StoredResult × MysqlConnect :=
  (conn.pending, { conn with pending := none })

/-- `Query(sql, MYSQL_RES **res)`; `store` says that `res` is not null. -/
def queryRes (server : Server D) (sql : Bytes) (store : Bool) (conn : MysqlConnect) (db : D) :
    Bool × Option StoredResult × MysqlConnect × D :=
  if !conn.opened then (false, none, conn, db)
  else match mysqlRealQuery server sql conn db with
    | (false, conn, db) => (false, none, conn, db)
    | (true, conn, db) =>
      if store then
        let (res, conn) := mysqlStoreResult conn
        (true, res, conn, db)
      else (true, none, conn, db)

/-- `Query(sql, mode)`. -/
def query (server : Server D) (look : C → MysqlField → Option DBFieldInfo × C) (sql : Bytes)
    (mode : Mode) (conn : MysqlConnect) (db : D) (c : C) :
    Except Fault (Option (Recordset F)) × MysqlConnect × D × C :=
  match queryRes server sql true conn db with
  | (true, some result, conn, db) =>
    let (recSet, c) := readResult look c result mode
    (recSet, conn, db, c)
  | (_, _, conn, db) => (.ok none, conn, db, c)

/-- `Query(sql)`. -/
def execute (server : Server D) (sql : Bytes) (conn : MysqlConnect) (db : D) :
    Bool × MysqlConnect × D :=
  let (ok, _, conn, db) := queryRes server sql false conn db
  (ok, conn, db)

def makeDefRecord (server : Server D) (look : C → MysqlField → Option DBFieldInfo × C)
    (tableName : Bytes) (conn : MysqlConnect) (db : D) (c : C) :
    Option (Record F) × MysqlConnect × D × C :=
  let sql := snprintf 255 (ascii "select * from " ++ cstr tableName ++ ascii " limit 0")
  match queryRes server sql true conn db with
  | (true, some result, conn, db) =>
    let (newRec, c) := readDefRecord look c result
    (newRec, conn, db, c)
  | (_, _, conn, db) => (none, conn, db, c)

end MysqlConnect

end LlbcDatabase
