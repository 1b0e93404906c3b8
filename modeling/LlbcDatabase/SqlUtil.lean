import LlbcDatabase.Library.SqlAssignment
import LlbcDatabase.Record

/-! `SqlUtil`: the condition, the operation and the three statements built of a
record. A `false` leaves the caller's string as it was. -/

namespace LlbcDatabase

open CText SqlText

/-- A `MYSQL` handle: its two escape functions, with what is documented of them. -/
structure Mysql where
  escapeString : Bytes → Bytes
  realEscapeString : Bytes → Bytes
  escapes : ∀ value, escapeString value = escape value
  realEscapes : ∀ value, realEscapeString value = escape value

def isFieldNum : FieldType → Bool
  | .tiny | .year | .short | .int24 | .long | .longlong | .float | .double => true
  | _ => false

/-- The `` `%s`= `` of the formats. -/
def named (name : CString) (value : Bytes) : Bytes := ascii "`" ++ name.bytes ++ ascii "`=" ++ value

namespace SqlUtil

variable {F : Type} [CDouble F]

/-- The index `BuildCondition` and `BuildOperation` start from. -/
def keyIdx (record : Record F) : Int :=
  if record.autoIncIdx < 0 then record.keyIdx else record.autoIncIdx

/-- Their guard, which compares a negative index as an unsigned number. -/
def noKey (record : Record F) : Bool :=
  keyIdx record < 0 && record.getFieldNum ≤ u32 (keyIdx record)

/-- `BuildCondition`, which does not use its handle. -/
def buildCondition (record : Record F) (cond : Bytes) : Except Fault (Bool × Bytes) := do
  if noKey record then return (false, cond)
  let keyField ← record.getField (u32 (keyIdx record))
  if isFieldNum keyField.info.type then
    let value ← record.getInt (u32 (keyIdx record))
    return (true, snprintf 1023 (named keyField.info.name (signedDecimal value.toInt)))
  else
    let keyVal ← record.getStr (u32 (keyIdx record))
    return (true, snprintf 1023 (named keyField.info.name (ascii "'" ++ cstr keyVal ++ ascii "'")))

/-- `BuildFormatSql`: the string it leaves in a buffer of `formatSize` zeros. -/
def buildFormatSql (handle : Mysql) (field : BaseField F) (formatSize : Nat) :
    Except Fault Bytes := do
  let unsigned := field.info.attr &&& UNSIGNED_FLAG ≠ 0
  match field.info.type with
  | .string | .varString | .date | .datetime =>
    let value ← field.getStr
    if value.isEmpty then return snprintf formatSize (named field.info.name (ascii "''"))
    let sqlBuf := handle.escapeString value
    -- the escaped bytes and their terminator go to a buffer of `2 * size` bytes
    if 2 * value.length < sqlBuf.length + 1 then throw .overrun
    return snprintf formatSize (named field.info.name (ascii "'" ++ cstr sqlBuf ++ ascii "'"))
  | .double | .float =>
    let value ← field.getDouble
    return snprintf formatSize (named field.info.name (CDouble.format value))
  | .tiny | .short =>
    let value ← field.getInt
    if unsigned then
      return snprintf formatSize (named field.info.name (decimal value.toUInt64.toNat))
    return snprintf formatSize (named field.info.name (signedDecimal value.toInt32.toInt))
  | .long | .longlong =>
    let value ← field.getInt
    if unsigned then
      return snprintf formatSize (named field.info.name (decimal value.toUInt64.toNat))
    return snprintf formatSize (named field.info.name (signedDecimal value.toInt))
  | .tinyBlob | .blob | .mediumBlob | .longBlob =>
    let value ← field.getStr
    let format := snprintf formatSize (named field.info.name (ascii "'"))
    let escaped := handle.realEscapeString value
    -- the quote and the terminator follow the escaped bytes unchecked
    if formatSize < format.length + escaped.length + 2 then throw .overrun
    return cstr (format ++ escaped ++ ascii "'")
  | _ => throw .assertion

/-- What the first loop of `BuildOperation` makes of `maxFeildStrLen` at a changed field. -/
def maxFieldStrLen (max : Int) (field : BaseField F) : Int :=
  if isFieldNum field.info.type && max = 0 then 20
  else if u32 max < field.info.len.toNat then s32 (field.info.len * 2).toNat
  else max

/-- The first loop of `BuildOperation`. -/
def collectFields : Int → List (BaseField F) → List (Option (BaseField F)) →
    Except Fault (Int × List (BaseField F))
  | max, updateFields, [] => .ok (max, updateFields)
  | _, _, none :: _ => .error .outOfRange
  | max, updateFields, some field :: rest =>
    if field.changed then collectFields (maxFieldStrLen max field) (updateFields ++ [field]) rest
    else collectFields max updateFields rest

/-- The second loop of `BuildOperation`. -/
def formatFields (handle : Mysql) (formatSize : Nat) :
    Bool → Bytes → List (BaseField F) → Except Fault Bytes
  | _, strFormat, [] => .ok strFormat
  | first, strFormat, field :: rest => do
    let sqlBuf ← buildFormatSql handle field formatSize
    if first then formatFields handle formatSize false (strFormat ++ sqlBuf) rest
    else formatFields handle formatSize false (strFormat ++ ascii "," ++ sqlBuf) rest

def buildOperation (handle : Mysql) (record : Record F) (cond : Bytes) :
    Except Fault (Bool × Bytes) := do
  if noKey record then return (false, cond)
  let (max, updateFields) ← collectFields 0 [] record.fields
  if updateFields.isEmpty then return (true, cond)
  let size := s32 (max + 128)
  -- a negative size is no size of a vector, and an empty vector has no first element
  if size < 0 then throw .badAlloc
  if size = 0 then throw .outOfRange
  let text ← formatFields handle size.toNat true [] updateFields
  return (true, text)

def updateText (table op cond : Bytes) : Bytes :=
  ascii "update `" ++ table ++ ascii "` set " ++ op ++ ascii " where " ++ cond ++ ascii " limit 1"

def insertText (table op : Bytes) : Bytes := ascii "insert into `" ++ table ++ ascii "` set " ++ op

def delText (table cond : Bytes) : Bytes :=
  ascii "delete from `" ++ table ++ ascii "` where " ++ cond ++ ascii " limit 1"

def buildUpdateSql (handle : Mysql) (record : Record F) (sql : Bytes) :
    Except Fault (Bool × Bytes) := do
  let (built, cond) ← buildCondition record []
  if !built then return (false, sql)
  let (built, op) ← buildOperation handle record []
  if !built then return (false, sql)
  if op.isEmpty then return (true, sql)
  let table := record.tableName.bytes
  let buffSize := cond.length + op.length + table.length + 128
  return (true, snprintf buffSize (updateText table (cstr op) (cstr cond)))

def buildDelSql (record : Record F) (sql : Bytes) : Except Fault (Bool × Bytes) := do
  let (built, cond) ← buildCondition record []
  if !built then return (false, sql)
  return (true, snprintf 1023 (delText record.tableName.bytes (cstr cond)))

def buildInsertSql (handle : Mysql) (record : Record F) (sql : Bytes) :
    Except Fault (Bool × Bytes) := do
  let (built, op) ← buildOperation handle record []
  if !built then return (false, sql)
  if op.isEmpty then return (false, sql)
  let table := record.tableName.bytes
  let buffSize := op.length + table.length + 128
  return (true, snprintf buffSize (insertText table (cstr op)))

end SqlUtil

end LlbcDatabase
