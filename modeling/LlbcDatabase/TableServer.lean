import LlbcDatabase.Library.ObjectStore
import LlbcDatabase.Library.SqlStatement
import LlbcDatabase.IntegerColumns
import LlbcDatabase.RecordWriteBack

/-! A table on the server, with one integer key. `Serves` is what is documented of the
server's answers to the statements on a single row; `keepTable` is a server that keeps to it. -/

namespace LlbcDatabase

open CText SqlText SqlUtil ObjectStore

/-- The name of a column, whatever the case. -/
def DBFieldInfo.lowerName (info : DBFieldInfo) : Bytes := info.name.bytes.map toLower

/-- A `char` loses the blanks at its end, and a date is not kept as text. -/
def keepsText : FieldType → Bytes → Bool
  | .varString, _ | .tinyBlob, _ | .blob, _ | .mediumBlob, _ | .longBlob, _ => true
  | .string, value => value.getLast? ≠ some 32
  | _, _ => false

/-- The values that a column keeps as they are, and that a record reads as they are. -/
def DBFieldInfo.Holds (info : DBFieldInfo) : Literal → Prop
  | .int v => isInteger info.type = true ∧ columnRange info v ∧ v < 2 ^ 63
  | .text value => keepsText info.type value = true ∧ value.length ≤ info.len.toNat

instance (info : DBFieldInfo) : (value : Literal) → Decidable (info.Holds value)
  | .int _ => inferInstanceAs (Decidable (_ ∧ _ ∧ _))
  | .text _ => inferInstanceAs (Decidable (_ ∧ _))

/-- What NULL is read as. -/
def DBFieldInfo.zero (info : DBFieldInfo) : Literal := if isText info.type then .text [] else .int 0

theorem isText_of_keepsText {type : FieldType} {value : Bytes}
    (keeps : keepsText type value = true) : isText type = true := by
  cases type <;> first | rfl | cases keeps

/-- A cell of a row, none when it is NULL. -/
abbrev Cell := Option Literal

/-- A row by the names of its columns. -/
abbrev TableRow := Bytes → Cell

def cellBytes : Literal → Bytes
  | .int v => signedDecimal v
  | .text value => value

/-- The row that a value of the key column names. -/
def keyOf : Literal → Option Int
  | .int k => some k
  | .text _ => none

theorem keyOf_iff {value : Literal} {k : Int} : keyOf value = some k ↔ value = .int k := by
  cases value <;> simp [keyOf]

/-- A table whose key is one integer column, with names that need no escapes. -/
structure Schema where
  table : CString
  columns : List DBFieldInfo
  key : Nat
  default : TableRow
  bare : bareName table.bytes = true
  short : table.bytes.length ≤ 64
  few : columns.length ≤ 4096
  names : ∀ c ∈ columns, 96 ∉ c.name.bytes ∧ c.name.bytes.length ≤ 64
  distinct : (columns.map (·.lowerName)).Nodup
  exact_ : ∀ c ∈ columns, isExact c.type = true
  inside : key < columns.length
  integer : isInteger columns[key].type = true
  primary : ∀ (j : Nat) (h : j < columns.length), columns[j].attr &&& PRI_KEY_FLAG ≠ 0 ↔ j = key
  auto : ∀ (j : Nat) (h : j < columns.length), columns[j].attr &&& AUTO_INCREMENT_FLAG ≠ 0 → j = key
  defaults : ∀ c ∈ columns, ∀ v ∈ default c.lowerName, c.Holds v

namespace Schema

variable (schema : Schema)

def keyColumn : DBFieldInfo := schema.columns.get ⟨schema.key, schema.inside⟩

def keyName : Bytes := schema.keyColumn.lowerName

def column (name : Bytes) : Option DBFieldInfo := schema.columns.find? fun c => c.lowerName = name

def zero (name : Bytes) : Literal := ((schema.column name).map (·.zero)).getD (.int 0)

/-- Rows as objects see them. -/
def layout : Layout Int Bytes Cell Literal where
  read name cell := cell.getD (schema.zero name)
  keep := some
  read_keep _ _ := rfl
  key := schema.keyName
  keyOf := keyOf
  blank := schema.zero
  default := schema.default

/-- Every cell is held by its column, and the key is the row's. -/
def Held (k : Int) (row : TableRow) : Prop :=
  row schema.keyName = some (.int k) ∧ ∀ c ∈ schema.columns, ∀ v ∈ row c.lowerName, c.Holds v

/-- The assignment names a column that holds its value. -/
def Takes (a : Assignment) : Prop :=
  ∃ c ∈ schema.columns, c.lowerName = a.name.map toLower ∧ c.Holds a.value

instance (a : Assignment) : Decidable (schema.Takes a) :=
  inferInstanceAs (Decidable (∃ c ∈ schema.columns, _))

/-- What a result says of one of its columns. Its default is not sent with the rows. -/
structure Describes (c : DBFieldInfo) (f : MysqlField) : Prop where
  table : f.orgTable = some schema.table
  name : f.orgName = some c.name
  type : f.type = c.type
  flags : f.flags = c.attr
  length : f.length.toUInt32 = c.len
  default : f.default = none

/-- The cells of a row as they are sent. -/
def sends (row : TableRow) : List (Option Bytes) :=
  schema.columns.map fun c => (row c.lowerName).map cellBytes

theorem mem_keyColumn : schema.keyColumn ∈ schema.columns := List.getElem_mem schema.inside

variable {schema}

theorem noTick : 96 ∉ schema.table.bytes := by
  have letters := schema.bare
  have tick : isLetter 96 = false ∧ SqlText.isDigit 96 = false := by decide
  cases table : schema.table.bytes with
  | nil => exact List.not_mem_nil
  | cons c rest =>
    rw [table, bareName, Bool.and_eq_true, List.all_eq_true] at letters
    intro member
    rcases List.mem_cons.mp member with rfl | later
    · rw [tick.1] at letters
      cases letters.1
    · have letter := letters.2 96 later
      rw [tick.1, tick.2] at letter
      cases letter

theorem row_iff {o : Object Bytes Literal} {k : Int} :
    o.row schema.layout = some k ↔ o.value schema.keyName = .int k := keyOf_iff

theorem column_of_mem {c : DBFieldInfo} (member : c ∈ schema.columns) :
    schema.column c.lowerName = some c := by
  cases found : schema.column c.lowerName with
  | none => simpa using List.find?_eq_none.mp found c member
  | some d =>
    have same := List.find?_some found
    rw [List.inj_on_of_nodup_map schema.distinct (List.mem_of_find?_eq_some found) member
      (by simpa using same)]

theorem zero_of_mem {c : DBFieldInfo} (member : c ∈ schema.columns) :
    schema.zero c.lowerName = c.zero := by
  rw [zero, column_of_mem member]
  rfl

end Schema

/-- The cells of a row after a list of assignments, of which the last one to a column counts. -/
def assign (as : List Assignment) (row : TableRow) : TableRow := fun name =>
  match as.reverse.find? fun a => a.name.map toLower = name with
  | some a => some a.value
  | none => row name

theorem assign_other {as : List Assignment} {name : Bytes}
    (other : ∀ a ∈ as, a.name.map toLower ≠ name) (row : TableRow) : assign as row name = row name := by
  have missing : (as.reverse.find? fun a => a.name.map toLower = name) = none :=
    List.find?_eq_none.mpr fun a member => by simpa using other a (List.mem_reverse.mp member)
  rw [assign, missing]

/-- What is documented of a server with this table: a statement that is answered with an
error has done nothing, and what the others do to the rows. `rows` are the table's rows. -/
structure Serves {D : Type} (schema : Schema) (server : Server D) (rows : D → Int → Option TableRow) :
    Prop where
  held : ∀ db k row, rows db k = some row → schema.Held k row
  select : ∀ sql db name k, readStatement sql = some (.select schema.table.bytes ⟨name, .int k⟩) →
    name.map toLower = schema.keyName → rows (server.run sql db).2 = rows db ∧
      ((server.run sql db).1 = .error ∨ ∃ result, (server.run sql db).1 = .rows result ∧
        List.Forall₂ schema.Describes schema.columns result.fields ∧
        result.rows.map (·.map (·.map (·.bytes))) = ((rows db k).map schema.sends).toList)
  describe : ∀ sql db, readStatement sql = some (.describe schema.table.bytes) →
    rows (server.run sql db).2 = rows db ∧
      ((server.run sql db).1 = .error ∨ ∃ result, (server.run sql db).1 = .rows result ∧
        List.Forall₂ schema.Describes schema.columns result.fields ∧ result.rows = [])
  update : ∀ sql db as name k, readStatement sql =
      some (.update schema.table.bytes as ⟨name, .int k⟩) → name.map toLower = schema.keyName →
    (∀ a ∈ as, schema.Takes a ∧ (a.name.map toLower = schema.keyName → a.value = .int k)) →
      (server.run sql db).1 = .error ∧ rows (server.run sql db).2 = rows db ∨
      (server.run sql db).1 = .done ∧ rows (server.run sql db).2 =
        Function.update (rows db) k ((rows db k).map (assign as))
  delete : ∀ sql db name k, readStatement sql = some (.delete schema.table.bytes ⟨name, .int k⟩) →
    name.map toLower = schema.keyName →
      (server.run sql db).1 = .error ∧ rows (server.run sql db).2 = rows db ∨
      (server.run sql db).1 = .done ∧
        rows (server.run sql db).2 = Function.update (rows db) k none
  /-- An insert without the key is given one by the server. -/
  insert : ∀ sql db as, readStatement sql = some (.insert schema.table.bytes as) →
    (∀ a ∈ as, schema.Takes a) →
      (server.run sql db).1 = .error ∧ rows (server.run sql db).2 = rows db ∨
      (server.run sql db).1 = .done ∧ ∃ k base, rows db k = none ∧
        rows (server.run sql db).2 = Function.update (rows db) k (some (assign as base)) ∧
        if ∃ a ∈ as, a.name.map toLower = schema.keyName then base = schema.default
        else base = Function.update schema.default schema.keyName (some (.int k))

section Keeping

variable (schema : Schema)

instance (k : Int) (row : TableRow) : Decidable (schema.Held k row) :=
  inferInstanceAs (Decidable (_ ∧ ∀ c ∈ schema.columns, ∀ v ∈ row c.lowerName, c.Holds v))

structure KeptTable where
  row : Int → Option TableRow
  held : ∀ k cells, row k = some cells → schema.Held k cells
  next : Int

variable {schema}

theorem Schema.held_update {row : Int → Option TableRow} {k : Int} {cells : Option TableRow}
    (held : ∀ j old, row j = some old → schema.Held j old)
    (here : ∀ new, cells = some new → schema.Held k new) (j : Int) (new : TableRow)
    (found : Function.update row k cells j = some new) : schema.Held j new := by
  by_cases same : j = k
  · subst same
    rw [Function.update_self] at found
    exact here new found
  · rw [Function.update_of_ne same] at found
    exact held j new found

namespace KeptTable

def put (t : KeptTable schema) (k : Int) (cells : TableRow) (held : schema.Held k cells) :
    KeptTable schema where
  row := Function.update t.row k (some cells)
  held := Schema.held_update t.held fun _ same => Option.some.inj same ▸ held
  next := max t.next (k + 1)

def remove (t : KeptTable schema) (k : Int) : KeptTable schema where
  row := Function.update t.row k none
  held := Schema.held_update t.held nofun
  next := t.next

/-- What is not inserted in a row. A row without a key is given the next one. -/
def base (t : KeptTable schema) (as : List Assignment) : TableRow :=
  if ∃ a ∈ as, a.name.map toLower = schema.keyName then schema.default
  else Function.update schema.default schema.keyName (some (.int t.next))

def add (t : KeptTable schema) (cells : TableRow) : Option (KeptTable schema) :=
  match cells schema.keyName with
  | some (.int k) =>
    if held : t.row k = none ∧ schema.Held k cells then some (t.put k cells held.2) else none
  | _ => none

theorem add_cases (t : KeptTable schema) (cells : TableRow) : t.add cells = none ∨
    ∃ k after, t.add cells = some after ∧ cells schema.keyName = some (.int k) ∧ t.row k = none ∧
      after.row = Function.update t.row k (some cells) := by
  unfold add
  split
  case h_1 k own =>
    by_cases held : t.row k = none ∧ schema.Held k cells
    · exact .inr ⟨k, _, dif_pos held, own, held.1, rfl⟩
    · exact .inl (dif_neg held)
  case h_2 => exact .inl rfl

end KeptTable

variable (schema)

def Schema.lines (rows : List TableRow) : List Row :=
  rows.map fun row => (schema.sends row).map (·.map fun bytes => ⟨bytes, fun _ => 0⟩)

def Schema.described (rows : List TableRow) : List MysqlField :=
  schema.columns.mapIdx fun j c => ⟨some schema.table, some c.name, c.type, c.attr, c.len.toUInt64,
    UInt64.ofNat (columnMax (schema.lines rows) j), none⟩

/-- The result set of a list of rows, if its cells are not longer than lengths can say. -/
def Schema.answer (rows : List TableRow) : Reply :=
  if small : ∀ j < schema.columns.length, columnMax (schema.lines rows) j < 2 ^ 64 then
    .rows {
      fields := schema.described rows
      rows := schema.lines rows
      nonempty := by
        have inside := schema.inside
        rw [← List.length_pos_iff, Schema.described, List.length_mapIdx]
        omega
      few := by
        rw [Schema.described, List.length_mapIdx]
        exact schema.few
      rect := by
        intro line member
        obtain ⟨row, -, rfl⟩ := List.mem_map.mp member
        simp [Schema.described, Schema.sends]
      maxLength := by
        intro j inside
        rw [Schema.described, List.length_mapIdx] at inside
        simp only [Schema.described, List.getElem_mapIdx]
        exact UInt64.toNat_ofNat_of_lt' (small j inside) }
  else .error

/-- A server with one table. A write that would break a row is answered with an error. -/
def keepTable : Server (KeptTable schema) where
  run sql t := match readStatement sql with
    | some (.select table ⟨name, .int k⟩) =>
      if table = schema.table.bytes ∧ name.map toLower = schema.keyName then
        (schema.answer (t.row k).toList, t)
      else (.error, t)
    | some (.describe table) =>
      if table = schema.table.bytes then (schema.answer [], t) else (.error, t)
    | some (.update table as ⟨name, .int k⟩) =>
      if table = schema.table.bytes ∧ name.map toLower = schema.keyName then
        match t.row k with
        | none => (.done, t)
        | some cells =>
          if held : schema.Held k (assign as cells) then (.done, t.put k _ held) else (.error, t)
      else (.error, t)
    | some (.delete table ⟨name, .int k⟩) =>
      if table = schema.table.bytes ∧ name.map toLower = schema.keyName then (.done, t.remove k)
      else (.error, t)
    | some (.insert table as) =>
      if table = schema.table.bytes then
        match t.add (assign as (t.base as)) with
        | some after => (.done, after)
        | none => (.error, t)
      else (.error, t)
    | _ => (.error, t)

variable {schema}

theorem Schema.answer_cases (rows : List TableRow) : schema.answer rows = .error ∨
    ∃ result, schema.answer rows = .rows result ∧
      List.Forall₂ schema.Describes schema.columns result.fields ∧
      result.rows.map (·.map (·.map (·.bytes))) = rows.map schema.sends := by
  by_cases small : ∀ j < schema.columns.length, columnMax (schema.lines rows) j < 2 ^ 64
  swap
  · exact .inl (dif_neg small)
  refine .inr ⟨_, dif_pos small, ?_, ?_⟩
  · rw [List.forall₂_iff_get]
    refine ⟨by simp [Schema.described], fun j h h' => ?_⟩
    constructor <;> simp [Schema.described]
  · simp [Schema.lines, Function.comp_def]

theorem keepTable_serves (schema : Schema) : Serves schema (keepTable schema) KeptTable.row where
  held db := db.held
  select sql db name k read key := by
    have ran : (keepTable schema).run sql db = (schema.answer (db.row k).toList, db) := by
      simp [keepTable, read, key]
    rw [ran]
    refine ⟨rfl, (schema.answer_cases (db.row k).toList).imp_right ?_⟩
    rintro ⟨result, answer, described, sent⟩
    exact ⟨result, answer, described, by rw [sent]; cases db.row k <;> rfl⟩
  describe sql db read := by
    have ran : (keepTable schema).run sql db = (schema.answer [], db) := by simp [keepTable, read]
    rw [ran]
    refine ⟨rfl, (schema.answer_cases []).imp_right ?_⟩
    rintro ⟨result, answer, described, sent⟩
    exact ⟨result, answer, described, List.map_eq_nil_iff.mp sent⟩
  update sql db as name k read key _ := by
    cases row : db.row k with
    | none =>
      refine .inr ⟨by simp [keepTable, read, key, row], ?_⟩
      rw [Option.map_none, ← row, Function.update_eq_self]
      simp [keepTable, read, key, row]
    | some cells =>
      by_cases held : schema.Held k (assign as cells)
      · exact .inr (by simp [keepTable, read, key, row, held, KeptTable.put])
      · exact .inl (by simp [keepTable, read, key, row, held])
  delete sql db name k read key := .inr (by simp [keepTable, read, key, KeptTable.remove])
  insert sql db as read _ := by
    rcases db.add_cases (assign as (db.base as)) with refused | ⟨k, after, added, own, free, stored⟩
    · exact .inl (by simp [keepTable, read, refused])
    refine .inr ⟨by simp [keepTable, read, added], k, db.base as, free,
      by simp [keepTable, read, added, stored], ?_⟩
    by_cases keyed : ∃ a ∈ as, a.name.map toLower = schema.keyName
    · rw [if_pos keyed]
      exact if_pos keyed
    · have numbered : db.base as = _ := if_neg keyed
      rw [assign_other fun a member same => keyed ⟨a, member, same⟩, numbered,
        Function.update_self] at own
      cases own
      rw [if_neg keyed]
      exact numbered

end Keeping

/-- `player (id int auto_increment, name varchar(32), gold int)`. -/
def player : Schema where
  table := CString.lit "player"
  columns := [⟨CString.lit "id", .long, PRI_KEY_FLAG ||| AUTO_INCREMENT_FLAG, 11⟩,
    ⟨CString.lit "name", .varString, 0, 32⟩, ⟨CString.lit "gold", .long, 0, 11⟩]
  key := 0
  default := fun _ => none
  bare := by decide
  short := by decide
  few := by decide
  names := by decide
  distinct := by decide
  exact_ := by decide
  inside := by decide
  integer := by decide
  primary := by decide
  auto := by decide
  defaults := nofun

/-- The rows of two players. -/
def players : KeptTable player where
  row k := if k = 1 ∨ k = 2 then some fun name =>
      if name = ascii "id" then some (.int k)
      else if name = ascii "name" then some (.text (ascii "ann"))
      else if name = ascii "gold" then some (.int 5) else none
    else none
  held := by
    intro k cells row
    split_ifs at row with own
    cases row
    rcases own with rfl | rfl <;> decide
  next := 3

end LlbcDatabase
