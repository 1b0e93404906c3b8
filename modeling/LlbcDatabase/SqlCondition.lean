import LlbcDatabase.SqlUtil

/-! The condition of an update or a delete: which rows its comparison is true of, and
when its text says what the comparison says. -/

namespace LlbcDatabase

open CText SqlText

namespace SqlUtil

variable {F : Type} [CDouble F]

/-- What `BuildCondition` compares the key column with. -/
def keyLiteral (field : BaseField F) : Except Fault Literal :=
  if isFieldNum field.info.type then field.getInt.map fun value => .int value.toInt
  else field.getStr.map .text

/-- The comparison that `BuildCondition` prints. -/
def keyComparison (record : Record F) : Except Fault (Option (CString × Literal)) := do
  if noKey record then return none
  let keyField ← record.getField (u32 (keyIdx record))
  let literal ← keyLiteral keyField
  return some (keyField.info.name, literal)

def printComparison : CString × Literal → Bytes
  | (name, .int v) => named name (signedDecimal v)
  | (name, .text value) => named name (ascii "'" ++ cstr value ++ ascii "'")

theorem buildCondition_eq (record : Record F) (cond : Bytes) :
    buildCondition record cond = (keyComparison record).map fun
      | none => (false, cond)
      | some comparison => (true, snprintf 1023 (printComparison comparison)) := by
  unfold buildCondition keyComparison keyLiteral
  by_cases keyless : noKey record = true
  · simp [keyless, Except.map, pure, Except.pure]
  cases at_key : record.getField (u32 (keyIdx record)) with
  | error fault => simp [keyless, bind, Except.bind, Except.map]
  | ok keyField =>
    by_cases num : isFieldNum keyField.info.type = true
    · cases value : keyField.getInt <;>
        simp [keyless, at_key, num, value, Record.getInt, bind, Except.bind, Except.map, pure,
          Except.pure, printComparison]
    · cases value : keyField.getStr <;>
        simp [keyless, at_key, num, value, Record.getStr, bind, Except.bind, Except.map, pure,
          Except.pure, printComparison]

section Statements

variable {record : Record F} {cond : Bytes}

theorem noNul_buildCondition (built : buildCondition record [] = .ok (true, cond)) : 0 ∉ cond := by
  rw [buildCondition_eq] at built
  cases compared : keyComparison record with
  | error fault => simp [compared, Except.map] at built
  | ok found =>
    cases found with
    | none => simp [compared, Except.map] at built
    | some comparison =>
      obtain ⟨name, literal⟩ := comparison
      simp only [compared, Except.map, Except.ok.injEq, Prod.mk.injEq, true_and] at built
      rw [← built]
      refine noNul_snprintf ?_
      cases literal with
      | int v => simp [printComparison, named, ascii, name.noNul, noNul_signedDecimal]
      | text value => simp [printComparison, named, ascii, name.noNul, noNul_cstr]

theorem buildUpdateSql_eq {handle : Mysql} {op : Bytes}
    (condition : buildCondition record [] = .ok (true, cond))
    (operation : buildOperation handle record [] = .ok (true, op)) (sql : Bytes) :
    buildUpdateSql handle record sql =
      .ok (true, if op = [] then sql else updateText record.tableName.bytes (cstr op) cond) := by
  simp only [buildUpdateSql, condition, operation, bind, Except.bind, pure, Except.pure,
    Bool.not_true, Bool.false_eq_true, if_false, List.isEmpty_iff,
    cstr_eq_self (noNul_buildCondition condition)]
  by_cases none : op = []
  · simp only [none, if_true]
  · have short := cstr_length_le op
    simp only [none, if_false]
    rw [snprintf_eq_self]
    simp [updateText, ascii]
    omega

theorem buildDelSql_eq (condition : buildCondition record [] = .ok (true, cond)) (sql : Bytes) :
    buildDelSql record sql = .ok (true, snprintf 1023 (delText record.tableName.bytes cond)) := by
  simp only [buildDelSql, condition, bind, Except.bind, pure, Except.pure, Bool.not_true,
    Bool.false_eq_true, if_false, cstr_eq_self (noNul_buildCondition condition)]

theorem buildDelSql_whole_iff (condition : buildCondition record [] = .ok (true, cond))
    (sql : Bytes) :
    buildDelSql record sql = .ok (true, delText record.tableName.bytes cond) ↔
      record.tableName.bytes.length + cond.length ≤ 993 := by
  have length : (delText record.tableName.bytes cond).length =
      record.tableName.bytes.length + cond.length + 29 := by
    simp [delText, ascii]
    omega
  rw [buildDelSql_eq condition]
  constructor
  · intro whole
    have same := congrArg List.length (Prod.mk.inj (Except.ok.inj whole)).2
    rw [snprintf, List.length_take, length] at same
    omega
  · intro short
    rw [snprintf_eq_self (by omega)]

end Statements

omit [CDouble F] in
theorem noKey_of_getField {record : Record F} {field : BaseField F}
    (at_key : record.getField (u32 (keyIdx record)) = .ok field) : noKey record = false := by
  have inside : u32 (keyIdx record) < record.fields.length := by
    by_contra outside
    simp [Record.getField, List.getElem?_eq_none (Nat.not_lt.mp outside)] at at_key
  have outside : ¬ record.getFieldNum ≤ u32 (keyIdx record) := Nat.not_le.mpr inside
  simp [noKey, outside]

theorem buildCondition_noKey {record : Record F} (keyless : noKey record = true) (cond : Bytes) :
    buildCondition record cond = .ok (false, cond) := by
  rw [buildCondition, if_pos keyless]
  rfl

theorem buildOperation_noKey (handle : Mysql) {record : Record F} (keyless : noKey record = true)
    (cond : Bytes) : buildOperation handle record cond = .ok (false, cond) := by
  rw [buildOperation, if_pos keyless]
  rfl

theorem keyed_of_operation {handle : Mysql} {record : Record F} {cond op : Bytes}
    (operation : buildOperation handle record cond = .ok (true, op)) : noKey record = false := by
  by_contra keyless
  rw [buildOperation_noKey handle (by simpa using keyless)] at operation
  cases operation

def printable (type : FieldType) : Bool := isFieldNum type || isText type

omit [CDouble F] in
theorem not_str_of_isFieldNum (field : BaseField F) (num : isFieldNum field.info.type = true) :
    field.kind ≠ .str := by
  intro str
  have text := (FieldFactory.createKind_str field.info).mp (str ▸ field.created)
  cases type : field.info.type <;> simp [type, isFieldNum, isText] at num text

theorem keyLiteral_ok_iff (field : BaseField F) :
    (∃ literal, keyLiteral field = .ok literal) ↔ printable field.info.type = true := by
  unfold keyLiteral printable
  by_cases num : isFieldNum field.info.type = true
  · have other := not_str_of_isFieldNum field num
    obtain ⟨info, kind, created, val, changed⟩ := field
    cases kind <;> simp_all [BaseField.getInt, FieldKind.getInt, Except.map]
  · rw [if_neg num]
    have str := FieldFactory.createKind_str field.info
    rw [field.created, Option.some.injEq] at str
    obtain ⟨info, kind, created, val, changed⟩ := field
    cases kind <;> simp_all [BaseField.getStr, FieldKind.getStr, Except.map]

section Rows

def lastColumn (flag : UInt32) : List MysqlField → Option Nat
  | [] => none
  | f :: rest => match lastColumn flag rest with
    | some j => some (j + 1)
    | none => if f.flags &&& flag ≠ 0 then some 0 else none

/-- The last column that counts up, or else the last one of the primary key. -/
def keyColumn (columns : List MysqlField) : Option Nat :=
  (lastColumn AUTO_INCREMENT_FLAG columns).or (lastColumn PRI_KEY_FLAG columns)

theorem lastColumn_isSome {flag : UInt32} {columns : List MysqlField}
    (flagged : ∃ f ∈ columns, f.flags &&& flag ≠ 0) : ∃ k, lastColumn flag columns = some k := by
  induction columns with
  | nil => simp at flagged
  | cons f rest ih =>
    by_cases later : ∃ g ∈ rest, g.flags &&& flag ≠ 0
    · obtain ⟨k, last⟩ := ih later
      exact ⟨k + 1, by simp [lastColumn, last]⟩
    · have here : f.flags &&& flag ≠ 0 := by
        obtain ⟨g, member, marked⟩ := flagged
        rcases List.mem_cons.mp member with rfl | member
        · exact marked
        · exact absurd ⟨g, member, marked⟩ later
      cases last : lastColumn flag rest with
      | none => exact ⟨0, by simp [lastColumn, last, here]⟩
      | some j => exact ⟨j + 1, by simp [lastColumn, last]⟩

theorem lastColumn_flagged {flag : UInt32} {columns : List MysqlField} {k : Nat}
    (last : lastColumn flag columns = some k) :
    ∃ column, columns[k]? = some column ∧ column.flags &&& flag ≠ 0 := by
  induction columns generalizing k with
  | nil => simp [lastColumn] at last
  | cons f rest ih =>
    simp only [lastColumn] at last
    split at last
    case h_1 j later =>
      obtain rfl := Option.some.inj last
      exact ih later
    case h_2 later =>
      split at last
      · obtain rfl := Option.some.inj last
        exact ⟨f, rfl, by assumption⟩
      · cases last

theorem lastColumn_lt {flag : UInt32} {columns : List MysqlField} {k : Nat}
    (last : lastColumn flag columns = some k) : k < columns.length := by
  obtain ⟨column, at_k, -⟩ := lastColumn_flagged last
  exact (List.getElem?_eq_some_iff.mp at_k).1

theorem lastFlagged_eq (flag : UInt32) (i : Nat) (columns : List MysqlField) (idx : Int) :
    lastFlagged flag i columns idx = match lastColumn flag columns with
      | some j => s32 (i + j : Nat)
      | none => idx := by
  induction columns generalizing i idx with
  | nil => rfl
  | cons f rest ih =>
    rw [lastFlagged, ih, lastColumn]
    cases last : lastColumn flag rest with
    | some j =>
      simp only
      rw [show i + 1 + j = i + (j + 1) by omega]
    | none => by_cases here : f.flags &&& flag = 0 <;> simp [here]

theorem s32_of_lt {k : Nat} (small : k < 2 ^ 31) : s32 k = k := by
  rw [s32, Int.bmod_eq_of_le] <;> omega

variable {C : Type} {look : C → MysqlField → Option DBFieldInfo × C} {c c' : C}
  {row : Option (List (Option Buffer))} {columns : List MysqlField}
  {colLens : Option (List UInt64)} {mode : Mode} {record : Record F}

theorem loaded_filled (loaded : createRecord look c row columns colLens mode = (some record, c')) :
    ∃ infos, (columnInfos look c columns).1 = some infos ∧
      Filled row colLens 0 columns infos (Record.new columns.length (recordTable columns) mode)
        record := by
  have filled := (createFields_filled look row colLens c 0
    (Record.new columns.length (recordTable columns) mode : Record F) columns
    (by simp [Record.new])).2
  rw [← createRecord, loaded] at filled
  cases infos : (columnInfos look c columns).1 with
  | none => simp [infos] at filled
  | some found =>
    simp only [infos, Option.some.injEq, exists_eq_left'] at filled
    exact ⟨found, rfl, filled⟩

theorem keyColumn_lt {k : Nat} (chosen : keyColumn columns = some k) : k < columns.length := by
  rw [keyColumn, Option.or_eq_some_iff] at chosen
  rcases chosen with last | ⟨-, last⟩
  · exact lastColumn_lt last
  · exact lastColumn_lt last

theorem loaded_keyIdx (few : columns.length < 2 ^ 31)
    (loaded : createRecord look c row columns colLens mode = (some record, c')) {k : Nat}
    (chosen : keyColumn columns = some k) : keyIdx record = k ∧ u32 (keyIdx record) = k := by
  obtain ⟨infos, -, filled⟩ := loaded_filled loaded
  have auto := filled.autoIncIdx
  have primary := filled.keyIdx
  rw [lastFlagged_eq] at auto primary
  have inside := keyColumn_lt chosen
  have same : s32 (0 + k : Nat) = k := by rw [Nat.zero_add, s32_of_lt (by omega)]
  have index : keyIdx record = k := by
    rw [keyColumn, Option.or_eq_some_iff] at chosen
    rcases chosen with last | ⟨none, last⟩
    · simp only [last, same] at auto
      rw [keyIdx, auto, if_neg (by omega)]
    · simp only [none] at auto
      simp only [last, same] at primary
      rw [keyIdx, auto, primary]
      rfl
  refine ⟨index, ?_⟩
  rw [index, u32]
  omega

theorem loaded_field (loaded : createRecord look c row columns colLens mode = (some record, c'))
    {j : Nat} (inside : j < columns.length) :
    ∃ field, record.fields[j]? = some (some field) ∧ field.changed = false := by
  obtain ⟨infos, found, filled⟩ := loaded_filled loaded
  have inside' : j < infos.length := by rw [filled.infoNum]; exact inside
  obtain ⟨kind, created⟩ := columnInfos_kinds found infos[j] (List.getElem_mem inside')
  have column := filled.column j inside inside'
  rw [Nat.zero_add, madeField, FieldFactory.createField_some created] at column
  exact ⟨_, column, rfl⟩

omit [CDouble F] in
theorem exists_map_some {fields : List (Option (BaseField F))}
    (present : ∀ o ∈ fields, ∃ f, o = some f) :
    ∃ fs : List (BaseField F), fields = fs.map some := by
  have all : fields ∈ Set.range (List.map (some : BaseField F → _)) := by
    rw [Set.range_list_map]
    intro o member
    obtain ⟨f, rfl⟩ := present o member
    exact ⟨f, rfl⟩
  obtain ⟨fs, same⟩ := all
  exact ⟨fs, same.symm⟩

theorem loaded_fields (loaded : createRecord look c row columns colLens mode = (some record, c')) :
    ∃ fields : List (BaseField F), record.fields = fields.map some ∧
      fields.length = columns.length ∧ ∀ f ∈ fields, f.changed = false := by
  obtain ⟨infos, -, filled⟩ := loaded_filled loaded
  have num : record.fields.length = columns.length := by
    rw [filled.fieldNum, Record.new, List.length_replicate]
  have all : ∀ o ∈ record.fields, ∃ f, o = some f := by
    intro o member
    obtain ⟨i, inside, rfl⟩ := List.mem_iff_getElem.mp member
    obtain ⟨f, at_i, -⟩ := loaded_field loaded (j := i) (by omega)
    rw [List.getElem?_eq_getElem inside] at at_i
    exact ⟨f, Option.some.inj at_i⟩
  obtain ⟨fields, same⟩ := exists_map_some all
  refine ⟨fields, same, by rw [← num, same, List.length_map], fun f member => ?_⟩
  obtain ⟨i, inside, rfl⟩ := List.mem_iff_getElem.mp member
  obtain ⟨g, at_i, unchanged⟩ := loaded_field loaded (j := i)
    (by rw [← num, same, List.length_map]; exact inside)
  rw [same, List.getElem?_map, List.getElem?_eq_getElem inside] at at_i
  cases at_i
  exact unchanged

theorem loaded_key (few : columns.length < 2 ^ 31)
    (loaded : createRecord look c row columns colLens mode = (some record, c')) {k : Nat}
    (chosen : keyColumn columns = some k) :
    ∃ field, record.fields[k]? = some (some field) ∧
      record.getField (u32 (keyIdx record)) = .ok field := by
  obtain ⟨field, column, -⟩ := loaded_field loaded (keyColumn_lt chosen)
  have index := (loaded_keyIdx few loaded chosen).2
  exact ⟨field, column, by simp [Record.getField, index, column]⟩

theorem lastFlagged_elim {flag : UInt32} (few : columns.length < 2 ^ 31) :
    lastFlagged flag 0 columns (-1) = (lastColumn flag columns).elim (-1) fun k => (k : Int) := by
  rw [lastFlagged_eq]
  cases last : lastColumn flag columns with
  | none => rfl
  | some k =>
    have inside := lastColumn_lt last
    rw [Option.elim_some]
    change s32 (0 + k : Nat) = k
    rw [Nat.zero_add]
    exact s32_of_lt (by omega)

theorem loaded_noKey (few : columns.length < 2 ^ 31)
    (loaded : createRecord look c row columns colLens mode = (some record, c')) :
    noKey record = false ↔ keyColumn columns ≠ none := by
  cases chosen : keyColumn columns with
  | some k =>
    obtain ⟨field, -, at_key⟩ := loaded_key few loaded chosen
    simp [noKey_of_getField at_key]
  | none =>
    obtain ⟨infos, -, filled⟩ := loaded_filled loaded
    rw [keyColumn, Option.or_eq_none_iff] at chosen
    have auto := filled.autoIncIdx
    have primary := filled.keyIdx
    rw [Record.new, lastFlagged_elim few, chosen.1] at auto
    rw [Record.new, lastFlagged_elim few, chosen.2] at primary
    have index : keyIdx record = -1 := by
      rw [keyIdx, auto, primary]
      rfl
    have num : record.getFieldNum = columns.length := by
      rw [Record.getFieldNum, filled.fieldNum, Record.new, List.length_replicate]
    have last : u32 (-1) = 4294967295 := by decide
    simp [noKey, index, num, last]
    omega

/-- Column `j` is called `name`, whatever the case. -/
def Named (columns : List MysqlField) (name : CString) (j : Nat) : Prop :=
  ∃ column own, columns[j]? = some column ∧ column.orgName = some own ∧
    own.bytes.map toLower = name.bytes.map toLower

variable {V : Type}

/-- A row, as the values of its columns, meets a comparison. -/
def Meets (columns : List MysqlField) (denote : Literal → V) (values : List V)
    (comparison : CString × Literal) : Prop :=
  ∃ j, Named columns comparison.1 j ∧ values[j]? = some (denote comparison.2)

/-- The condition built of the record is true of the first row and not of the second. -/
def Identifies (record : Record F) (columns : List MysqlField) (denote : Literal → V)
    (first second : List V) : Prop :=
  ∃ comparison, keyComparison record = .ok (some comparison) ∧
    Meets columns denote first comparison ∧ ¬ Meets columns denote second comparison

theorem keyComparison_of_key {field : BaseField F}
    (at_key : record.getField (u32 (keyIdx record)) = .ok field) :
    keyComparison record = (keyLiteral field).map fun literal => some (field.info.name, literal) := by
  unfold keyComparison
  simp only [noKey_of_getField at_key, at_key, bind, Except.bind, Bool.false_eq_true, if_false]
  cases keyLiteral field <;> rfl

theorem identifies_of_key {field : BaseField F}
    (at_key : record.getField (u32 (keyIdx record)) = .ok field) (denote : Literal → V)
    (first second : List V) :
    Identifies record columns denote first second ↔ ∃ literal, keyLiteral field = .ok literal ∧
      Meets columns denote first (field.info.name, literal) ∧
      ¬ Meets columns denote second (field.info.name, literal) := by
  unfold Identifies
  rw [keyComparison_of_key at_key]
  cases keyLiteral field <;> simp [Except.map]

theorem keyColumn_isSome (primary : ∃ f ∈ columns, f.flags &&& PRI_KEY_FLAG ≠ 0) :
    ∃ k, keyColumn columns = some k := by
  obtain ⟨p, last⟩ := lastColumn_isSome primary
  cases auto : lastColumn AUTO_INCREMENT_FLAG columns with
  | some k => exact ⟨k, by simp [keyColumn, auto]⟩
  | none => exact ⟨p, by simp [keyColumn, auto, last]⟩

/-- The condition built of a loaded record identifies its row just when the key column
is described with a type that is printed and a name whose column holds the key in this
row and not in the other. Where only the key column has that name, this says that
the rows differ in it. -/
theorem condition_identifies_iff (few : columns.length ≤ 4096)
    (primary : ∃ f ∈ columns, f.flags &&& PRI_KEY_FLAG ≠ 0)
    (loaded : createRecord look c row columns colLens mode = (some record, c'))
    (denote : Literal → V) (first second : List V)
    (faithful : ∀ k field literal, keyColumn columns = some k →
      record.fields[k]? = some (some field) → keyLiteral field = .ok literal →
      first[k]? = some (denote literal)) :
    ∃ k field, keyColumn columns = some k ∧ record.fields[k]? = some (some field) ∧
      (Identifies record columns denote first second ↔
        printable field.info.type = true ∧ ∃ key, first[k]? = some key ∧
          (∃ j, Named columns field.info.name j ∧ first[j]? = some key) ∧
          ¬ ∃ j, Named columns field.info.name j ∧ second[j]? = some key) ∧
      ((∀ j, Named columns field.info.name j ↔ j = k) →
        (Identifies record columns denote first second ↔
          printable field.info.type = true ∧ first[k]? ≠ second[k]?)) := by
  obtain ⟨k, chosen⟩ := keyColumn_isSome primary
  obtain ⟨field, column, at_key⟩ := loaded_key (by omega) loaded chosen
  have general : Identifies record columns denote first second ↔
      printable field.info.type = true ∧ ∃ key, first[k]? = some key ∧
        (∃ j, Named columns field.info.name j ∧ first[j]? = some key) ∧
        ¬ ∃ j, Named columns field.info.name j ∧ second[j]? = some key := by
    rw [identifies_of_key at_key, ← keyLiteral_ok_iff]
    constructor
    · intro ⟨literal, value, held, other⟩
      exact ⟨⟨literal, value⟩, _, faithful k field literal chosen column value, held, other⟩
    · intro ⟨⟨literal, value⟩, key, own, held, other⟩
      obtain rfl : key = denote literal :=
        Option.some.inj (own.symm.trans (faithful k field literal chosen column value))
      exact ⟨literal, value, held, other⟩
  refine ⟨k, field, chosen, column, general, fun own => ?_⟩
  rw [general]
  simp only [own, exists_eq_left]
  refine and_congr_right fun printed => ?_
  obtain ⟨literal, value⟩ := (keyLiteral_ok_iff field).mpr printed
  have key := faithful k field literal chosen column value
  simp [key, eq_comm]

/-- A table with the two key columns `a` and `b`. -/
def twoKeys : List MysqlField :=
  [⟨some ⟨ascii "t", by decide⟩, some ⟨ascii "a", by decide⟩, .long, PRI_KEY_FLAG, 11, 1, none⟩,
    ⟨some ⟨ascii "t", by decide⟩, some ⟨ascii "b", by decide⟩, .long, PRI_KEY_FLAG, 11, 1, none⟩]

/-- The record of the row `(1, 1)`. -/
def twoKeysLoaded : Option (Record Unit) × FieldInfoCache :=
  createRecord queryDBFieldInfo []
    (some [some ⟨ascii "1", fun _ => 0⟩, some ⟨ascii "1", fun _ => 0⟩]) twoKeys none .edit

def intValue : Literal → Int
  | .int v => v
  | .text _ => 0

theorem twoKeys_named (j : Nat) : Named twoKeys ⟨ascii "b", by decide⟩ j ↔ j = 1 := by
  constructor
  · intro ⟨column, own, at_j, called, same⟩
    match j with
    | 0 =>
      cases at_j
      cases called
      exact absurd same (by decide)
    | 1 => rfl
    | j + 2 => simp [twoKeys] at at_j
  · rintro rfl
    exact ⟨_, _, rfl, rfl, rfl⟩

/-- Rows that differ in the last key column. -/
theorem condition_identifies_lastKey : ∃ record, twoKeysLoaded.1 = some record ∧
    Identifies record twoKeys intValue [1, 1] [1, 2] := by
  have faithful : ∀ k field literal, keyColumn twoKeys = some k →
      (twoKeysLoaded.1.map (·.fields[k]?)) = some (some (some field)) →
      keyLiteral field = .ok literal → [1, 1][k]? = some (intValue literal) := by
    intro k field literal chosen column value
    cases chosen
    cases column
    cases value
    rfl
  obtain ⟨record, loaded⟩ : ∃ record, twoKeysLoaded.1 = some record := ⟨_, rfl⟩
  have made : twoKeysLoaded = (some record, twoKeysLoaded.2) := Prod.ext loaded rfl
  have h := condition_identifies_iff (by decide) ⟨_, .head _, by decide⟩ made intValue [1, 1] [1, 2]
    fun k field literal chosen column => faithful k field literal chosen (by simp [loaded, column])
  obtain ⟨k, field, chosen, column, -, own⟩ := h
  cases chosen
  cases loaded
  cases column
  exact ⟨_, rfl, (own twoKeys_named).mpr ⟨rfl, by decide⟩⟩

/-- Rows that differ in `a` alone both meet the condition, which names only `b`. -/
theorem twoKeys_not_identified : ∃ record, twoKeysLoaded.1 = some record ∧
    buildCondition record [] = .ok (true, ascii "`b`=1") ∧
    ¬ Identifies record twoKeys intValue [1, 1] [2, 1] := by
  refine ⟨_, rfl, rfl, fun ⟨comparison, compared, _, other⟩ => ?_⟩
  have only : comparison = (⟨ascii "b", by decide⟩, .int 1) :=
    (Option.some.inj (Except.ok.inj compared)).symm
  rw [only] at other
  exact other ⟨1, ⟨_, _, rfl, rfl, rfl⟩, rfl⟩

end Rows

section Text

theorem named_quoted (name : CString) (value : Bytes) :
    named name (ascii "'" ++ value ++ ascii "'") = rawComparison name.bytes value := by
  simp [named, rawComparison, ascii]

theorem not_isFieldNum_of_isText {type : FieldType} (text : isText type = true) :
    isFieldNum type = false := by
  cases type <;> simp_all [isText, isFieldNum]

theorem buildCondition_text {record : Record F} {field : BaseField F} {keyVal : Bytes}
    (at_key : record.getField (u32 (keyIdx record)) = .ok field)
    (text : isText field.info.type = true) (held : field.getStr = .ok keyVal) (cond : Bytes) :
    buildCondition record cond =
      .ok (true, snprintf 1023 (rawComparison field.info.name.bytes (cstr keyVal))) := by
  have literal : keyLiteral field = .ok (.text keyVal) := by
    simp [keyLiteral, not_isFieldNum_of_isText text, held, Except.map]
  have comparison : keyComparison record = .ok (some (field.info.name, .text keyVal)) := by
    rw [keyComparison_of_key at_key, literal]
    rfl
  rw [buildCondition_eq, comparison, ← named_quoted]
  rfl

/-- `cond` is a comparison of `name` with `keyVal`, by itself and in every statement
that has it between blanks or at its end. -/
def Reads (cond name keyVal : Bytes) : Prop :=
  tokens cond = [.ident name, .symbol 61, .str keyVal] ∧
    ∀ front rest, (scan .gap front).2 = .gap → Stops rest →
      tokens (front ++ cond ++ rest) =
        (scan .gap front).1 ++ .ident name :: .symbol 61 :: .str keyVal :: tokens rest

theorem rawComparison_length (name value : Bytes) :
    (rawComparison name value).length = name.length + value.length + 5 := by
  simp [rawComparison]
  omega

theorem reads_rawComparison {name keyVal : Bytes} (noTick : 96 ∉ name)
    (safe : plain keyVal = true) : Reads (rawComparison name keyVal) name keyVal := by
  refine ⟨(tokens_rawComparison_iff _ _).mpr ⟨noTick, safe⟩, fun front rest closed stops => ?_⟩
  rw [tokens, List.append_assoc, lex_append, closed, lex_rawComparison noTick safe stops]
  rfl

theorem buildCondition_whole {record : Record F} {field : BaseField F} {keyVal : Bytes}
    (at_key : record.getField (u32 (keyIdx record)) = .ok field)
    (text : isText field.info.type = true) (held : field.getStr = .ok keyVal)
    (noNul : 0 ∉ keyVal) (fits : field.info.name.bytes.length + keyVal.length ≤ 1017)
    (cond : Bytes) :
    buildCondition record cond = .ok (true, rawComparison field.info.name.bytes keyVal) := by
  have length := rawComparison_length field.info.name.bytes keyVal
  rw [buildCondition_text at_key text held, cstr_eq_self noNul, snprintf_eq_self (by omega)]

/-- The text of a condition on a string key reads as the comparison of the key just
when the name has no backtick, the key has no NUL and is plain, and both fit. -/
theorem condition_literal_iff (record : Record F) {field : BaseField F} {keyVal : Bytes}
    (at_key : record.getField (u32 (keyIdx record)) = .ok field)
    (text : isText field.info.type = true) (held : field.getStr = .ok keyVal) :
    (∀ cond, ∃ built, buildCondition record cond = .ok (true, built) ∧
      Reads built field.info.name.bytes keyVal) ↔
    96 ∉ field.info.name.bytes ∧ 0 ∉ keyVal ∧ plain keyVal = true ∧
      field.info.name.bytes.length + keyVal.length ≤ 1017 := by
  constructor
  · intro all
    obtain ⟨built, done, reads, -⟩ := all []
    rw [buildCondition_text at_key text held, Except.ok.injEq, Prod.mk.injEq] at done
    obtain ⟨-, rfl⟩ := done
    have bound := comparison_length reads
    have length := rawComparison_length field.info.name.bytes (cstr keyVal)
    have cut := cstr_length_le keyVal
    have whole : (rawComparison field.info.name.bytes (cstr keyVal)).length ≤ 1022 := by
      simp only [snprintf, List.length_take] at bound
      omega
    rw [snprintf_eq_self (by omega)] at bound reads
    have noNul : 0 ∉ keyVal := (cstr_length_eq_iff keyVal).mp (by omega)
    rw [cstr_eq_self noNul] at reads length whole
    obtain ⟨noTick, safe⟩ := (tokens_rawComparison_iff _ _).mp reads
    exact ⟨noTick, noNul, safe, by omega⟩
  · intro ⟨noTick, noNul, safe, fits⟩ cond
    exact ⟨_, buildCondition_whole at_key text held noNul fits cond, reads_rawComparison noTick safe⟩

theorem scan_delete {table : Bytes} (noTick : 96 ∉ table) :
    scan .gap (ascii "delete from `" ++ (table ++ ascii "` where ")) =
      ([.word (ascii "delete"), .word (ascii "from"), .ident table, .word (ascii "where")],
        .gap) := by
  have opening : scan .gap (ascii "delete from `") =
    ([.word (ascii "delete"), .word (ascii "from")], .ident []) := rfl
  have closing : scan (.ident table) (ascii "` where ") =
    ([.ident table, .word (ascii "where")], .gap) := rfl
  rw [scan_append, opening, scan_append]
  simp [scan_ident noTick, closing]

theorem buildDelSql_reads {record : Record F} {field : BaseField F} {keyVal : Bytes}
    (at_key : record.getField (u32 (keyIdx record)) = .ok field)
    (text : isText field.info.type = true) (held : field.getStr = .ok keyVal)
    (table : 96 ∉ record.tableName.bytes) (noTick : 96 ∉ field.info.name.bytes)
    (noNul : 0 ∉ keyVal) (safe : plain keyVal = true)
    (fits : record.tableName.bytes.length + field.info.name.bytes.length + keyVal.length ≤ 988)
    (sql : Bytes) :
    ∃ built, buildDelSql record sql = .ok (true, built) ∧
      tokens built = [.word (ascii "delete"), .word (ascii "from"),
        .ident record.tableName.bytes, .word (ascii "where"), .ident field.info.name.bytes,
        .symbol 61, .str keyVal, .word (ascii "limit"), .number (ascii "1")] := by
  have length := rawComparison_length field.info.name.bytes keyVal
  have whole : delText record.tableName.bytes (rawComparison field.info.name.bytes keyVal) =
      ascii "delete from `" ++ (record.tableName.bytes ++ ascii "` where ") ++
        rawComparison field.info.name.bytes keyVal ++ 32 :: ascii "limit 1" := by
    simp [delText, ascii]
  have read := (reads_rawComparison noTick safe).2 _ (32 :: ascii "limit 1")
    (by rw [scan_delete table]) (Stops.blank _)
  refine ⟨delText record.tableName.bytes (rawComparison field.info.name.bytes keyVal), ?_, ?_⟩
  · have condition := buildCondition_whole at_key text held noNul (by omega) []
    exact (buildDelSql_whole_iff condition sql).mpr (by omega)
  · rw [whole, read, scan_delete table]
    rfl

/-- A record of the table `t` with the one column `k`, a string and its key. -/
def keyRecord (keyVal : Bytes) : Record Unit where
  mode := .edit
  tableName := ⟨ascii "t", by decide⟩
  fields := [some ⟨⟨⟨ascii "k", by decide⟩, .varString, PRI_KEY_FLAG, 64⟩, .str, rfl, keyVal, false⟩]
  fieldName2Idx := fun _ => some 0
  keyIdx := 0
  autoIncIdx := -1

theorem condition_literal_plain : ∃ built,
    buildCondition (keyRecord (ascii "50\\%")) [] = .ok (true, built) ∧
      Reads built (ascii "k") (ascii "50\\%") :=
  (condition_literal_iff (keyRecord (ascii "50\\%")) rfl rfl rfl).mpr
    ⟨by decide, by decide, by decide, by decide⟩ []

/-- The key `' or '1'='1` closes the literal, and the delete is without a condition. -/
theorem condition_literal_closed :
    (∃ built, buildCondition (keyRecord (ascii "' or '1'='1")) [] = .ok (true, built) ∧
      tokens built ≠ [.ident (ascii "k"), .symbol 61, .str (ascii "' or '1'='1")]) ∧
    ∃ sql, buildDelSql (keyRecord (ascii "' or '1'='1")) [] = .ok (true, sql) ∧
      tokens sql = [.word (ascii "delete"), .word (ascii "from"), .ident (ascii "t"),
        .word (ascii "where"), .ident (ascii "k"), .symbol 61, .str [], .word (ascii "or"),
        .str (ascii "1"), .symbol 61, .str (ascii "1"), .word (ascii "limit"),
        .number (ascii "1")] :=
  ⟨⟨_, rfl, by decide⟩, _, rfl, by decide⟩

end Text

end SqlUtil

end LlbcDatabase
