import LlbcDatabase.Field
import LlbcDatabase.Library.MemoTable

/-! `QueryDBFieldInfo`, `Record` and `CreateRecord`. How a column's description is
looked up is a parameter of `CreateRecord`, so that it runs on the cache of the
engine, on fresh descriptions, and with a log of its lookups. -/

namespace LlbcDatabase

open CText MemoTable

/-- `enum class MODE`. -/
inductive Mode where
  | none
  | read
  | edit
  deriving DecidableEq

/-- `MYSQL_FIELD`, as far as it is read. -/
structure MysqlField where
  orgTable : Option CString
  orgName : Option CString
  type : FieldType
  flags : UInt32
  length : UInt64
  maxLength : UInt64
  default : Option Buffer

namespace MysqlField

/-- The description `QueryDBFieldInfo` builds on a miss. -/
def info (f : MysqlField) : Option DBFieldInfo :=
  match f.orgTable, f.orgName with
  | some _, some name => some ⟨name, f.type, f.flags, f.length.toUInt32⟩
  | _, _ => none

/-- The key of a column: `"%s.%s"` in a buffer of 1024 bytes, in lower case. -/
def findKey (table name : CString) : Bytes :=
  (snprintf 1023 (table.bytes ++ ascii "." ++ name.bytes)).map toLower

def key (f : MysqlField) : Option Bytes :=
  match f.orgTable, f.orgName with
  | some table, some name => some (findKey table name)
  | _, _ => none

end MysqlField

abbrev FieldInfoCache := Table Bytes DBFieldInfo

def queryDBFieldInfo (fieldInfos : FieldInfoCache) (field : MysqlField) :
    Option DBFieldInfo × FieldInfoCache :=
  match field.orgTable, field.orgName with
  | some table, some name =>
    let found := memo fieldInfos (MysqlField.findKey table name)
      ⟨name, field.type, field.flags, field.length.toUInt32⟩
    (some found.1, found.2)
  | _, _ => (none, fieldInfos)

theorem key_info (f : MysqlField) :
    f.key = none ∧ f.info = none ∨ ∃ k v, f.key = some k ∧ f.info = some v := by
  unfold MysqlField.key MysqlField.info
  split
  · exact .inr ⟨_, _, rfl, rfl⟩
  · exact .inl ⟨rfl, rfl⟩

theorem queryDBFieldInfo_none {f : MysqlField} (key : f.key = none) (cache : FieldInfoCache) :
    queryDBFieldInfo cache f = (none, cache) := by
  cases table : f.orgTable <;> cases name : f.orgName <;>
    simp_all [MysqlField.key, queryDBFieldInfo]

theorem queryDBFieldInfo_some {f : MysqlField} {k : Bytes} {v : DBFieldInfo} (key : f.key = some k)
    (info : f.info = some v) (cache : FieldInfoCache) :
    queryDBFieldInfo cache f = (some (memo cache k v).1, (memo cache k v).2) := by
  cases table : f.orgTable <;> cases name : f.orgName <;>
    simp_all [MysqlField.key, MysqlField.info, queryDBFieldInfo]

theorem queryDBFieldInfo_extends (cache : FieldInfoCache) (f : MysqlField) :
    Extends cache (queryDBFieldInfo cache f).2 := by
  rcases key_info f with ⟨key, -⟩ | ⟨k, v, key, info⟩
  · rw [queryDBFieldInfo_none key]
    exact Extends.refl cache
  · rw [queryDBFieldInfo_some key info]
    exact memo_extends cache k v

/-- `sint32` and `uint32` of an integer. -/
def s32 (v : Int) : Int := v.bmod (2 ^ 32)

def u32 (v : Int) : Nat := (v % 2 ^ 32).toNat

/-- `_fields` holds null pointers until `WriteField`. -/
structure Record (F : Type) where
  mode : Mode
  tableName : CString
  fields : List (Option (BaseField F))
  fieldName2Idx : CString → Option Nat
  keyIdx : Int
  autoIncIdx : Int

namespace Record

variable {F : Type}

def new (fieldNum : Nat) (tableName : CString) (mode : Mode) : Record F where
  mode := mode
  tableName := tableName
  fields := List.replicate fieldNum none
  fieldName2Idx := fun _ => none
  keyIdx := -1
  autoIncIdx := -1

def getFieldNum (r : Record F) : Nat := r.fields.length

/-- `GetField` and the use of what it returns: a null pointer and an index outside
`_fields` are faults. -/
def getField (r : Record F) (idx : Nat) : Except Fault (BaseField F) :=
  match r.fields[idx]? with
  | some (some field) => .ok field
  | _ => .error .outOfRange

def getInt [CDouble F] (r : Record F) (idx : Nat) : Except Fault Int64 := do
  (← r.getField idx).getInt

def getStr (r : Record F) (idx : Nat) : Except Fault Bytes := do
  (← r.getField idx).getStr

def setKeyIdx (r : Record F) (idx : Int) : Record F := { r with keyIdx := idx }

def setAutoIncIdx (r : Record F) (idx : Int) : Record F := { r with autoIncIdx := idx }

def writeField (r : Record F) (idx : Nat) (field : BaseField F) : Record F :=
  { r with
    fieldName2Idx := Function.update r.fieldName2Idx field.info.name (some idx)
    fields := r.fields.set idx (some field) }

/-- What `CreateRecord` notes of the flags of column `i`. -/
def noteFlags (r : Record F) (i : Nat) (dbField : MysqlField) : Record F :=
  let r := if dbField.flags &&& PRI_KEY_FLAG ≠ 0 then r.setKeyIdx (s32 i) else r
  if dbField.flags &&& AUTO_INCREMENT_FLAG ≠ 0 then r.setAutoIncIdx (s32 i) else r

theorem noteFlags_eq (r : Record F) (i : Nat) (dbField : MysqlField) :
    r.noteFlags i dbField = { r with
      keyIdx := if dbField.flags &&& PRI_KEY_FLAG ≠ 0 then s32 i else r.keyIdx
      autoIncIdx := if dbField.flags &&& AUTO_INCREMENT_FLAG ≠ 0 then s32 i else r.autoIncIdx } := by
  by_cases primary : dbField.flags &&& PRI_KEY_FLAG = 0 <;>
    by_cases auto : dbField.flags &&& AUTO_INCREMENT_FLAG = 0 <;>
      simp [noteFlags, setKeyIdx, setAutoIncIdx, primary, auto]

end Record

section CreateRecord

variable {F C : Type} [CDouble F]

/-- The length `CreateRecord` passes for column `i`. -/
def cellLen (colLens : Option (List UInt64)) (i : Nat) (field : MysqlField) : UInt32 :=
  match colLens with
  | some lens => (lens.getD i 0).toUInt32
  | none => field.maxLength.toUInt32

/-- The buffer `CreateRecord` passes for column `i`: its cell, or its default. -/
def cellValue (row : Option (List (Option Buffer))) (i : Nat) (field : MysqlField) :
    Option Buffer :=
  match row with
  | some cells => cells.getD i none
  | none => field.default

/-- The loop of `CreateRecord` from column `i` on. -/
def createFields (look : C → MysqlField → Option DBFieldInfo × C)
    (row : Option (List (Option Buffer))) (colLens : Option (List UInt64)) :
    C → Nat → Record F → List MysqlField → Option (Record F) × C
  | c, _, newRec, [] => (some newRec, c)
  | c, i, newRec, dbField :: rest =>
    match look c dbField with
    | (none, c) => (none, c)
    | (some fieldInfo, c) =>
      let newRec := newRec.noteFlags i dbField
      match FieldFactory.createField fieldInfo with
      | none => (none, c)
      | some baseField =>
        let baseField := (baseField.setValue (cellValue row i dbField) (cellLen colLens i dbField)).2
        createFields look row colLens c (i + 1) (newRec.writeField i baseField) rest

def recordTable (dbFields : List MysqlField) : CString :=
  match dbFields.head?.bind (·.orgTable) with
  | some table => table
  | none => ⟨[], noNul_nil⟩

def createRecord (look : C → MysqlField → Option DBFieldInfo × C) (c : C)
    (row : Option (List (Option Buffer))) (dbFields : List MysqlField)
    (colLens : Option (List UInt64)) (mode : Mode) : Option (Record F) × C :=
  createFields look row colLens c 0 (Record.new dbFields.length (recordTable dbFields) mode) dbFields

/-- The field `CreateRecord` builds from what a lookup found. -/
def made (F : Type) [CDouble F] (found : Option DBFieldInfo) : Option (BaseField F) :=
  found.bind FieldFactory.createField

theorem made_isSome (found : Option DBFieldInfo) :
    (made F found).isSome = (found.bind FieldFactory.createKind).isSome := by
  cases found with
  | none => rfl
  | some info =>
    cases kind : FieldFactory.createKind info with
    | none => simp [made, kind, FieldFactory.createField_none kind]
    | some k => simp [made, kind, FieldFactory.createField_some kind]

theorem createFields_cons (look : C → MysqlField → Option DBFieldInfo × C)
    (row : Option (List (Option Buffer))) (colLens : Option (List UInt64)) (c : C) (i : Nat)
    (newRec : Record F) (dbField : MysqlField) (rest : List MysqlField) :
    createFields look row colLens c i newRec (dbField :: rest) =
      match made F (look c dbField).1 with
      | none => (none, (look c dbField).2)
      | some baseField => createFields look row colLens (look c dbField).2 (i + 1)
          ((newRec.noteFlags i dbField).writeField i
            (baseField.setValue (cellValue row i dbField) (cellLen colLens i dbField)).2) rest := by
  simp only [createFields]
  split
  case h_1 c' looked => simp [looked, made]
  case h_2 info c' looked =>
    cases field : (FieldFactory.createField info : Option (BaseField F)) <;>
      simp [looked, made, field]

/-- The descriptions one call of `CreateRecord` uses, if it gets to the end. -/
def columnInfos (look : C → MysqlField → Option DBFieldInfo × C) :
    C → List MysqlField → Option (List DBFieldInfo) × C
  | c, [] => (some [], c)
  | c, dbField :: rest =>
    match look c dbField with
    | (none, c) => (none, c)
    | (some info, c) =>
      match FieldFactory.createKind info with
      | none => (none, c)
      | some _ =>
        let (infos, c) := columnInfos look c rest
        (infos.map (info :: ·), c)

def lastFlagged (flag : UInt32) : Nat → List MysqlField → Int → Int
  | _, [], idx => idx
  | i, dbField :: rest, idx =>
    lastFlagged flag (i + 1) rest (if dbField.flags &&& flag ≠ 0 then s32 i else idx)

/-- The field made for column `i` from a description. -/
def madeField (row : Option (List (Option Buffer))) (colLens : Option (List UInt64)) (i : Nat)
    (dbField : MysqlField) (info : DBFieldInfo) : Option (BaseField F) :=
  (FieldFactory.createField info).map fun baseField =>
    (baseField.setValue (cellValue row i dbField) (cellLen colLens i dbField)).2

structure Filled (row : Option (List (Option Buffer))) (colLens : Option (List UInt64)) (i : Nat)
    (dbFields : List MysqlField) (infos : List DBFieldInfo) (before after : Record F) : Prop where
  mode : after.mode = before.mode
  tableName : after.tableName = before.tableName
  keyIdx : after.keyIdx = lastFlagged PRI_KEY_FLAG i dbFields before.keyIdx
  autoIncIdx : after.autoIncIdx = lastFlagged AUTO_INCREMENT_FLAG i dbFields before.autoIncIdx
  fieldNum : after.fields.length = before.fields.length
  infoNum : infos.length = dbFields.length
  kept : ∀ j < i, after.fields[j]? = before.fields[j]?
  column : ∀ (j : Nat) (h : j < dbFields.length) (h' : j < infos.length),
    after.fields[i + j]? = some (madeField row colLens (i + j) dbFields[j] infos[j])

theorem Filled.cons {row : Option (List (Option Buffer))} {colLens : Option (List UInt64)} {i : Nat}
    {dbField : MysqlField} {rest : List MysqlField} {info : DBFieldInfo} {infos : List DBFieldInfo}
    {before after : Record F} {field : BaseField F}
    (made : madeField row colLens i dbField info = some field) (inside : i < before.fields.length)
    (filled : Filled row colLens (i + 1) rest infos
      ((before.noteFlags i dbField).writeField i field) after) :
    Filled row colLens i (dbField :: rest) (info :: infos) before after := by
  rw [Record.noteFlags_eq] at filled
  refine ⟨filled.mode, filled.tableName, filled.keyIdx, filled.autoIncIdx, ?_, ?_, ?_, ?_⟩
  · rw [filled.fieldNum, Record.writeField, List.length_set]
  · rw [List.length_cons, List.length_cons, filled.infoNum]
  · intro j below
    rw [filled.kept j (by omega), Record.writeField, List.getElem?_set_ne (by omega)]
  · intro j h h'
    cases j with
    | zero =>
      rw [filled.kept (i + 0) (by omega), Record.writeField, Nat.add_zero,
        List.getElem?_set_self inside]
      exact congrArg some made.symm
    | succ j =>
      have next := filled.column j (by simpa using h) (by simpa using h')
      rw [show i + (j + 1) = i + 1 + j by omega]
      exact next

/-- The loop gets to the end just when `columnInfos` does, and then fills the record. -/
theorem createFields_filled (look : C → MysqlField → Option DBFieldInfo × C)
    (row : Option (List (Option Buffer))) (colLens : Option (List UInt64)) (c : C) (i : Nat)
    (before : Record F) (dbFields : List MysqlField)
    (room : before.fields.length = i + dbFields.length) :
    (createFields look row colLens c i before dbFields).2 = (columnInfos look c dbFields).2 ∧
    match (columnInfos look c dbFields).1 with
    | none => (createFields look row colLens c i before dbFields).1 = none
    | some infos => ∃ after, (createFields look row colLens c i before dbFields).1 = some after ∧
        Filled row colLens i dbFields infos before after := by
  induction dbFields generalizing c i before with
  | nil =>
    refine ⟨rfl, before, rfl, rfl, rfl, rfl, rfl, rfl, rfl, fun _ _ => rfl, ?_⟩
    intro j h
    exact absurd h (Nat.not_lt_zero j)
  | cons dbField rest ih =>
    simp only [createFields, columnInfos]
    split
    · exact ⟨rfl, rfl⟩
    · rename_i info c' looked
      cases created : FieldFactory.createKind info with
      | none => simp only [FieldFactory.createField_none created, and_self]
      | some kind =>
        simp only [FieldFactory.createField_some created]
        generalize made : (BaseField.setValue (⟨info, kind, created, kind.zero, false⟩ : BaseField F)
          (cellValue row i dbField) (cellLen colLens i dbField)).2 = field
        have next := ih c' (i + 1) ((before.noteFlags i dbField).writeField i field) (by
          rw [Record.noteFlags_eq, Record.writeField, List.length_set, room, List.length_cons]
          omega)
        refine ⟨next.1, ?_⟩
        have rest_filled := next.2
        cases infosEq : (columnInfos look c' rest).1 with
        | none =>
          rw [infosEq] at rest_filled
          exact rest_filled
        | some infos =>
          rw [infosEq] at rest_filled
          obtain ⟨after, same, filled⟩ := rest_filled
          refine ⟨after, same, filled.cons ?_ ?_⟩
          · rw [madeField, FieldFactory.createField_some created]
            exact congrArg some made
          · rw [room, List.length_cons]
            omega

theorem columnInfos_cons (look : C → MysqlField → Option DBFieldInfo × C) (c : C)
    (dbField : MysqlField) (rest : List MysqlField) :
    (columnInfos look c (dbField :: rest)).2 =
      if ((look c dbField).1.bind FieldFactory.createKind).isSome
      then (columnInfos look (look c dbField).2 rest).2 else (look c dbField).2 := by
  simp only [columnInfos]
  split
  case h_1 c' looked => simp [looked]
  case h_2 info c' looked => cases made : FieldFactory.createKind info <;> simp [looked, made]

theorem columnInfos_keeps {look : C → MysqlField → Option DBFieldInfo × C} {I : C → Prop}
    (keeps : ∀ c dbField, I c → I (look c dbField).2) {c : C} (held : I c)
    (dbFields : List MysqlField) : I (columnInfos look c dbFields).2 := by
  induction dbFields generalizing c with
  | nil => exact held
  | cons dbField rest ih =>
    rw [columnInfos_cons]
    split
    · exact ih (keeps c dbField held)
    · exact keeps c dbField held

theorem columnInfos_kinds {look : C → MysqlField → Option DBFieldInfo × C} {c : C}
    {dbFields : List MysqlField} {infos : List DBFieldInfo}
    (all : (columnInfos look c dbFields).1 = some infos) :
    ∀ info ∈ infos, ∃ kind, FieldFactory.createKind info = some kind := by
  induction dbFields generalizing c infos with
  | nil =>
    cases all
    exact fun info member => absurd member List.not_mem_nil
  | cons dbField rest ih =>
    simp only [columnInfos] at all
    split at all
    · cases all
    · rename_i info c' looked
      cases created : FieldFactory.createKind info with
      | none => simp [created] at all
      | some kind =>
        simp only [created, Option.map_eq_some_iff] at all
        obtain ⟨later, found, rfl⟩ := all
        intro i member
        rcases List.mem_cons.mp member with rfl | member
        · exact ⟨kind, created⟩
        · exact ih found i member

end CreateRecord

/-- Columns that have been looked up once get the same descriptions again, and the
cache does not change any more. -/
theorem columnInfos_again {cache : FieldInfoCache} {dbFields : List MysqlField}
    {infos : List DBFieldInfo} (all : (columnInfos queryDBFieldInfo cache dbFields).1 = some infos)
    {later : FieldInfoCache} (kept : Extends (columnInfos queryDBFieldInfo cache dbFields).2 later) :
    columnInfos queryDBFieldInfo later dbFields = (some infos, later) := by
  induction dbFields generalizing cache infos with
  | nil =>
    cases all
    rfl
  | cons f rest ih =>
    rcases key_info f with ⟨key, info⟩ | ⟨k, v, key, info⟩
    · simp [columnInfos, queryDBFieldInfo_none key] at all
    · have first := memo_lookup cache k v
      simp only [columnInfos, queryDBFieldInfo_some key info] at all kept ⊢
      cases created : FieldFactory.createKind (memo cache k v).1 with
      | none => simp [created] at all
      | some kind =>
        simp only [created, Option.map_eq_some_iff] at all kept
        obtain ⟨tail, found, rfl⟩ := all
        have grown : Extends (memo cache k v).2
            (columnInfos queryDBFieldInfo (memo cache k v).2 rest).2 :=
          columnInfos_keeps (I := Extends (memo cache k v).2)
            (fun c g held => held.trans (queryDBFieldInfo_extends c g)) (Extends.refl _) rest
        have hit := kept k _ (grown k _ first)
        rw [memo_hit hit]
        simp only [created, ih found kept, Option.map_some]

end LlbcDatabase
