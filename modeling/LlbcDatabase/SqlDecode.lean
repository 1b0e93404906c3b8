import LlbcDatabase.Library.SqlSetList
import LlbcDatabase.SqlCondition

/-! The assignments of an insert or an update read back as the changed fields with
their values, as long as no string fills its scratch buffer with escapes. -/

namespace LlbcDatabase

open CText SqlText

variable {F : Type} [CDouble F]

/-- The value of a field, a `double` by its digits. -/
def FieldKind.literal : (k : FieldKind) → k.Data F → Literal
  | .u8, v => .int v.toNat
  | .u16, v => .int v.toNat
  | .u32, v => .int v.toNat
  | .u64, v => .int v.toNat
  | .s8, v => .int v.toInt
  | .s16, v => .int v.toInt
  | .s32, v => .int v.toInt
  | .s64, v => .int v.toInt
  | .dbl, v => .text (CDouble.format v)
  | .str, v => .text v

/-- What an insert or an update has to say of a field. -/
def BaseField.edit (f : BaseField F) : Assignment := ⟨f.info.name.bytes, f.kind.literal f.val⟩

/-- The string and date types, which are escaped in a buffer of their own. -/
def isQuoted : FieldType → Bool
  | .string | .varString | .date | .datetime => true
  | _ => false

def isInteger : FieldType → Bool
  | .tiny | .short | .long | .longlong => true
  | _ => false

theorem isFieldNum_of_isInteger {type : FieldType} (integer : isInteger type = true) :
    isFieldNum type = true := by
  cases type <;> simp_all [isInteger, isFieldNum]

namespace SqlUtil

theorem named_int (name : CString) (v : Int) :
    named name (signedDecimal v) = (⟨name.bytes, .int v⟩ : Assignment).print := by
  simp [named, Assignment.print, Literal.print, ascii]

theorem signedDecimal_natCast (n : Nat) : signedDecimal n = decimal n := by
  simp [signedDecimal]

theorem named_nat (name : CString) (n : Nat) :
    named name (decimal n) = (⟨name.bytes, .int n⟩ : Assignment).print := by
  rw [← named_int, signedDecimal_natCast]

theorem named_text (name : CString) (value : Bytes) :
    named name (ascii "'" ++ escape value ++ ascii "'") =
      (⟨name.bytes, .text value⟩ : Assignment).print := by
  simp [named, Assignment.print, Literal.print, ascii]

theorem buildFormatSql_integer (handle : Mysql) (field : BaseField F)
    (integer : isInteger field.info.type = true) (formatSize : Nat) :
    buildFormatSql handle field formatSize = .ok (snprintf formatSize field.edit.print) := by
  obtain ⟨info, kind, created, val, changed⟩ := field
  unfold FieldFactory.createKind at created
  by_cases unsigned : info.attr &&& UNSIGNED_FLAG = 0 <;>
    cases type : info.type <;> simp only [type, isInteger, Bool.false_eq_true] at integer <;>
      simp only [type, unsigned, if_true, if_false, Option.some.injEq] at created <;>
        subst created <;>
          simp [buildFormatSql, type, unsigned, BaseField.getInt, FieldKind.getInt, bind,
            Except.bind, pure, Except.pure, named_int, named_nat, BaseField.edit,
            FieldKind.literal]

theorem text_field (field : BaseField F) (text : isText field.info.type = true) :
    ∃ value, field.getStr = .ok value ∧ field.edit.value = .text value := by
  have str := (FieldFactory.createKind_str field.info).mpr text
  obtain ⟨info, kind, created, val, changed⟩ := field
  obtain rfl : kind = .str := Option.some.inj (created.symm.trans str)
  exact ⟨val, rfl, rfl⟩

/-- The scratch buffer of a string has no room for the terminator. -/
def overruns (field : BaseField F) : Bool :=
  isQuoted field.info.type && match field.edit.value with
    | .text value => !value.isEmpty && value.all special
    | .int _ => false

theorem escape_full_iff (value : Bytes) :
    2 * value.length < (escape value).length + 1 ↔ value.all special = true := by
  have most := List.countP_le_length (p := special) (l := value)
  rw [escape_length, List.all_eq_true, ← List.countP_eq_length]
  omega

theorem isText_of_isQuoted {type : FieldType} (quoted : isQuoted type = true) :
    isText type = true := by
  cases type <;> simp_all [isQuoted, isText]

theorem buildFormatSql_quoted (handle : Mysql) {field : BaseField F}
    (quoted : isQuoted field.info.type = true) (formatSize : Nat) :
    buildFormatSql handle field formatSize =
      if overruns field then .error .overrun else .ok (snprintf formatSize field.edit.print) := by
  obtain ⟨value, held, literal⟩ := text_field field (isText_of_isQuoted quoted)
  have print : field.edit.print = named field.info.name (ascii "'" ++ escape value ++ ascii "'") := by
    rw [named_text, ← literal]
    rfl
  have format : buildFormatSql handle field formatSize =
      if value.isEmpty then .ok (snprintf formatSize (named field.info.name (ascii "''")))
      else if 2 * value.length < (escape value).length + 1 then .error .overrun
      else .ok (snprintf formatSize
        (named field.info.name (ascii "'" ++ cstr (escape value) ++ ascii "'"))) := by
    rw [← handle.escapes value]
    cases type : field.info.type <;> simp only [type, isQuoted, Bool.false_eq_true] at quoted <;>
      simp only [buildFormatSql, type, held, bind, Except.bind, pure, Except.pure] <;>
        split_ifs <;> rfl
  rw [format, overruns, quoted, literal, print, cstr_eq_self (noNul_escape value)]
  by_cases empty : value = []
  · simp [empty, escape, ascii]
  · have some_ : value.isEmpty = false := by simpa using empty
    simp only [some_, escape_full_iff, Bool.false_eq_true, Bool.not_false, Bool.true_and, if_false]

theorem buildFormatSql_blob (handle : Mysql) {field : BaseField F}
    (text : isText field.info.type = true) (blob : isQuoted field.info.type = false)
    {formatSize : Nat} (fits : field.edit.print.length < formatSize) :
    buildFormatSql handle field formatSize = .ok field.edit.print := by
  obtain ⟨value, held, literal⟩ := text_field field text
  have print : named field.info.name (ascii "'") ++ escape value ++ ascii "'" = field.edit.print := by
    have whole : named field.info.name (ascii "'" ++ escape value ++ ascii "'") =
        field.edit.print := by
      rw [named_text, ← literal]
      rfl
    simpa [named] using whole
  have room : (named field.info.name (ascii "'")).length + (escape value).length + 1 <
      formatSize := by
    rw [← print] at fits
    simpa [ascii, Nat.add_assoc] using fits
  have format : buildFormatSql handle field formatSize =
      let format := snprintf formatSize (named field.info.name (ascii "'"))
      if formatSize < format.length + (escape value).length + 2 then .error .overrun
      else .ok (cstr (format ++ escape value ++ ascii "'")) := by
    rw [← handle.realEscapes value]
    cases type : field.info.type <;>
      simp only [type, isText, isQuoted, reduceCtorEq] at text blob <;>
      simp only [buildFormatSql, type, held, bind, Except.bind, pure, Except.pure] <;>
        split_ifs <;> rfl
  rw [format, snprintf_eq_self (by omega), if_neg (by omega), print,
    cstr_eq_self (noNul_print field.info.name.noNul)]

/-- The types whose assignments are exact. -/
def isExact (type : FieldType) : Bool := isInteger type || isText type

omit [CDouble F] in
theorem kind_exact {f : BaseField F} (exact_ : isExact f.info.type = true) : f.kind ≠ .dbl := by
  have created := f.created
  unfold FieldFactory.createKind at created
  intro double
  rw [double] at created
  by_cases unsigned : f.info.attr &&& UNSIGNED_FLAG = 0 <;> cases type : f.info.type <;>
    simp [type, unsigned, isExact, isInteger, isText] at exact_ created

/-- Written in a buffer that it fits, a field is its edit, or overruns its scratch buffer. -/
theorem buildFormatSql_edit (handle : Mysql) {field : BaseField F}
    (exact_ : isExact field.info.type = true) {formatSize : Nat}
    (fits : field.edit.print.length < formatSize) :
    buildFormatSql handle field formatSize =
      if overruns field then .error .overrun else .ok field.edit.print := by
  by_cases quoted : isQuoted field.info.type = true
  · rw [buildFormatSql_quoted handle quoted, snprintf_eq_self fits]
  · have safe : overruns field = false := by simp [overruns, quoted]
    rw [safe]
    by_cases text : isText field.info.type = true
    · exact buildFormatSql_blob handle text (by simpa using quoted) fits
    · have integer : isInteger field.info.type = true := by simpa [isExact, text] using exact_
      rw [buildFormatSql_integer handle field integer, snprintf_eq_self fits]
      rfl

section Format

variable {handle : Mysql} {formatSize : Nat} {fields : List (BaseField F)}
  {text : BaseField F → Bytes}

theorem formatFields_rest
    (each : ∀ field ∈ fields, buildFormatSql handle field formatSize = .ok (text field))
    (strFormat : Bytes) :
    formatFields handle formatSize false strFormat fields =
      .ok (strFormat ++ (fields.map text).flatMap (44 :: ·)) := by
  induction fields generalizing strFormat with
  | nil => simp [formatFields]
  | cons field rest ih =>
    have later := ih fun f member => each f (.tail _ member)
    simp [formatFields, each field (.head _), bind, Except.bind, later, ascii]

theorem formatFields_ok
    (each : ∀ field ∈ fields, buildFormatSql handle field formatSize = .ok (text field)) :
    formatFields handle formatSize true [] fields = .ok (commaList (fields.map text)) := by
  cases fields with
  | nil => rfl
  | cons field rest =>
    have later := formatFields_rest fun f member => each f (.tail _ member)
    simp [formatFields, each field (.head _), bind, Except.bind, later, commaList]

end Format

theorem commaList_print (as : List Assignment) : commaList (as.map (·.print)) = printList as := by
  cases as with
  | nil => rfl
  | cons a as => rw [printList_cons, List.map_cons, commaList, List.flatMap_map]

theorem formatFields_each {handle : Mysql} {formatSize : Nat} {first : Bool} {strFormat op : Bytes}
    {fields : List (BaseField F)}
    (built : formatFields handle formatSize first strFormat fields = .ok op) :
    ∀ field ∈ fields, ∃ text, buildFormatSql handle field formatSize = .ok text := by
  induction fields generalizing first strFormat with
  | nil => exact fun field member => absurd member List.not_mem_nil
  | cons field rest ih =>
    cases formatted : buildFormatSql handle field formatSize with
    | error fault => simp [formatFields, formatted, bind, Except.bind] at built
    | ok text =>
      intro f member
      rcases List.mem_cons.mp member with rfl | member
      · exact ⟨text, formatted⟩
      · simp only [formatFields, formatted, bind, Except.bind] at built
        split at built
        · exact ih built f member
        · exact ih built f member

section Statements

def bufferSize (fields : List (BaseField F)) : Int :=
  s32 ((fields.filter (·.changed)).foldl maxFieldStrLen 0 + 128)

def edits (fields : List (BaseField F)) : List Assignment :=
  (fields.filter (·.changed)).map (·.edit)

omit [CDouble F] in
theorem collectFields_filter (max : Int) (updateFields fields : List (BaseField F)) :
    collectFields max updateFields (fields.map some) =
      .ok ((fields.filter (·.changed)).foldl maxFieldStrLen max,
        updateFields ++ fields.filter (·.changed)) := by
  induction fields generalizing max updateFields with
  | nil => simp [collectFields]
  | cons field rest ih => cases changed : field.changed <;> simp [collectFields, changed, ih]

variable {handle : Mysql} {record : Record F} {fields : List (BaseField F)}

theorem buildOperation_eq (filled : record.fields = fields.map some)
    (keyed : noKey record = false) (some_ : fields.filter (·.changed) ≠ [])
    (room : 0 < bufferSize fields) (cond : Bytes) :
    buildOperation handle record cond =
      (formatFields handle (bufferSize fields).toNat true [] (fields.filter (·.changed))).map
        fun text => (true, text) := by
  have size : s32 ((fields.filter (·.changed)).foldl maxFieldStrLen 0 + 128) =
    bufferSize fields := rfl
  have positive : ¬ bufferSize fields < 0 := by omega
  have nonzero : bufferSize fields ≠ 0 := by omega
  simp only [buildOperation, keyed, filled, collectFields_filter, bind, Except.bind,
    List.nil_append, size, Bool.false_eq_true, if_false, List.isEmpty_iff, some_, positive, nonzero]
  cases formatFields handle (bufferSize fields).toNat true [] (fields.filter (·.changed)) <;> rfl

theorem buildOperation_none (filled : record.fields = fields.map some)
    (keyed : noKey record = false) (none : fields.filter (·.changed) = []) (cond : Bytes) :
    buildOperation handle record cond = .ok (true, cond) := by
  simp [buildOperation, keyed, filled, collectFields_filter, none, bind, Except.bind, pure,
    Except.pure]

theorem buildOperation_texts (filled : record.fields = fields.map some)
    (keyed : noKey record = false) {text : BaseField F → Bytes}
    (each : ∀ f ∈ fields.filter (·.changed), 0 < bufferSize fields ∧
      buildFormatSql handle f (bufferSize fields).toNat = .ok (text f)) :
    buildOperation handle record [] =
      .ok (true, commaList ((fields.filter (·.changed)).map text)) := by
  by_cases none : fields.filter (·.changed) = []
  · rw [buildOperation_none filled keyed none, none]
    rfl
  · obtain ⟨f, member⟩ := List.exists_mem_of_ne_nil _ none
    rw [buildOperation_eq filled keyed none (each f member).1,
      formatFields_ok fun f member => (each f member).2]
    rfl

theorem buildFormatSql_changed (handle : Mysql)
    (types : ∀ f ∈ fields, f.changed = true → isExact f.info.type = true)
    (fits : ∀ f ∈ fields, f.changed = true → f.edit.print.length < bufferSize fields) :
    ∀ f ∈ fields.filter (·.changed), 0 < bufferSize fields ∧
      buildFormatSql handle f (bufferSize fields).toNat =
        if overruns f then .error .overrun else .ok f.edit.print := by
  intro f member
  obtain ⟨inside, changed⟩ := List.mem_filter.mp member
  have room := fits f inside changed
  exact ⟨by omega, buildFormatSql_edit handle (types f inside changed) (by omega)⟩

theorem buildOperation_edits (filled : record.fields = fields.map some)
    (keyed : noKey record = false)
    (each : ∀ f ∈ fields.filter (·.changed), 0 < bufferSize fields ∧
      buildFormatSql handle f (bufferSize fields).toNat =
        if overruns f then .error .overrun else .ok f.edit.print)
    (safe : ∀ f ∈ fields.filter (·.changed), overruns f = false) :
    buildOperation handle record [] = .ok (true, printList (edits fields)) := by
  have written : ∀ f ∈ fields.filter (·.changed), 0 < bufferSize fields ∧
      buildFormatSql handle f (bufferSize fields).toNat = .ok f.edit.print := by
    intro f member
    have ⟨room, format⟩ := each f member
    rw [safe f member] at format
    exact ⟨room, format⟩
  rw [buildOperation_texts filled keyed written, edits, ← commaList_print, List.map_map]
  rfl

theorem safe_of_buildOperation (filled : record.fields = fields.map some)
    (keyed : noKey record = false)
    (each : ∀ f ∈ fields.filter (·.changed), 0 < bufferSize fields ∧
      buildFormatSql handle f (bufferSize fields).toNat =
        if overruns f then .error .overrun else .ok f.edit.print) {built : Bool × Bytes}
    (operation : buildOperation handle record [] = .ok built) :
    ∀ f ∈ fields.filter (·.changed), overruns f = false := by
  intro f member
  rw [buildOperation_eq filled keyed (List.ne_nil_of_mem member) (each f member).1] at operation
  cases formatted : formatFields handle (bufferSize fields).toNat true []
      (fields.filter (·.changed)) with
  | error fault => simp [formatted, Except.map] at operation
  | ok op =>
    obtain ⟨text, written⟩ := formatFields_each formatted f member
    rw [(each f member).2] at written
    cases full : overruns f with
    | false => rfl
    | true => simp [full] at written

/-- Both statements are built whole, and read back as the table and the edits. Without
an edit there is no insert, and the update leaves its string as it was. -/
structure Decodes (handle : Mysql) (record : Record F) (edits : List Assignment) : Prop where
  insert : ∀ sql, ∃ text, buildInsertSql handle record sql = .ok (!edits.isEmpty, text) ∧
    (edits ≠ [] → text = insertText record.tableName.bytes (printList edits) ∧
      readInsert text = some (record.tableName.bytes, edits))
  update : ∀ cond, buildCondition record [] = .ok (true, cond) → ∀ sql, ∃ text,
    buildUpdateSql handle record sql = .ok (true, text) ∧
    (edits ≠ [] → text = updateText record.tableName.bytes (printList edits) cond ∧
      readUpdate text = some (record.tableName.bytes, edits))

theorem printList_ne_nil {as : List Assignment} (some_ : as ≠ []) : printList as ≠ [] := by
  cases as with
  | nil => exact absurd rfl some_
  | cons a as => simp [printList_cons, Assignment.print]

theorem decodes_of_operation (table : 96 ∉ record.tableName.bytes) {edits : List Assignment}
    (names : ∀ a ∈ edits, 96 ∉ a.name ∧ 0 ∉ a.name)
    (operation : buildOperation handle record [] = .ok (true, printList edits)) :
    Decodes handle record edits := by
  have noNul : cstr (printList edits) = printList edits :=
    cstr_eq_self (noNul_printList fun a member => (names a member).2)
  have noTick : ∀ a ∈ edits, 96 ∉ a.name := fun a member => (names a member).1
  by_cases none : edits = []
  · subst none
    constructor
    · intro sql
      refine ⟨sql, ?_, fun some_ => absurd rfl some_⟩
      simp [buildInsertSql, operation, printList, bind, Except.bind, pure, Except.pure]
    · intro cond built sql
      refine ⟨sql, ?_, fun some_ => absurd rfl some_⟩
      exact buildUpdateSql_eq built operation sql
  · have op := printList_ne_nil none
    constructor
    · intro sql
      refine ⟨insertText record.tableName.bytes (printList edits), ?_, fun _ =>
        ⟨rfl, readInsert_print table noTick none⟩⟩
      simp only [buildInsertSql, operation, bind, Except.bind, pure, Except.pure, noNul]
      rw [snprintf_eq_self (by simp [insertText, ascii]; omega)]
      simp [none, op]
    · intro cond built sql
      refine ⟨updateText record.tableName.bytes (printList edits) cond, ?_, fun _ => ⟨rfl, ?_⟩⟩
      · rw [buildUpdateSql_eq built operation, noNul, if_neg op]
      · have read := readUpdate_print table noTick none (cond ++ ascii " limit 1")
        simpa [updateText] using read

/-- For a record with a key, names without a backtick and exact types, whose assignments
fit their buffer, the statements decode just when no changed string overruns. -/
theorem written_decodes_iff (filled : record.fields = fields.map some) (keyed : 0 ≤ keyIdx record)
    (table : 96 ∉ record.tableName.bytes) (names : ∀ f ∈ fields, 96 ∉ f.info.name.bytes)
    (types : ∀ f ∈ fields, f.changed = true → isExact f.info.type = true)
    (fits : ∀ f ∈ fields, f.changed = true → f.edit.print.length < bufferSize fields) :
    Decodes handle record (edits fields) ↔
      ∀ f ∈ fields, f.changed = true → overruns f = false := by
  have key : noKey record = false := by simp [noKey, Int.not_lt.mpr keyed]
  have each := buildFormatSql_changed handle types fits
  constructor
  · intro decoded f inside changed
    obtain ⟨text, done, -⟩ := decoded.insert []
    cases operation : buildOperation handle record [] with
    | error fault => simp [buildInsertSql, operation, bind, Except.bind] at done
    | ok built =>
      have safe := safe_of_buildOperation filled key each operation
      exact safe f (List.mem_filter.mpr ⟨inside, changed⟩)
  · intro safe
    refine decodes_of_operation table (fun a member => ?_)
      (buildOperation_edits filled key each fun f member => ?_)
    · obtain ⟨f, changed, rfl⟩ := List.mem_map.mp member
      exact ⟨names f (List.mem_filter.mp changed).1, f.info.name.noNul⟩
    · obtain ⟨inside, changed⟩ := List.mem_filter.mp member
      exact safe f inside changed

/-- The client library by its documentation. -/
def client : Mysql := ⟨escape, escape, fun _ => rfl, fun _ => rfl⟩

/-- An unchanged key and two edited columns. -/
def editedFields (score : UInt8) (title : Bytes) : List (BaseField Unit) :=
  [⟨⟨⟨ascii "id", by decide⟩, .long, PRI_KEY_FLAG, 11⟩, .s32, rfl, 7, false⟩,
    ⟨⟨⟨ascii "score", by decide⟩, .tiny, UNSIGNED_FLAG, 3⟩, .u8, rfl, score, true⟩,
    ⟨⟨⟨ascii "title", by decide⟩, .varString, 0, 64⟩, .str, rfl, title, true⟩]

def editedRecord (score : UInt8) (title : Bytes) : Record Unit where
  mode := .edit
  tableName := CString.lit "t"
  fields := (editedFields score title).map some
  fieldName2Idx := fun _ => none
  keyIdx := 0
  autoIncIdx := -1

theorem written_decodes_edited :
    ∃ text, buildInsertSql client (editedRecord 200 (ascii "it's" ++ [0])) [] = .ok (true, text) ∧
      readInsert text = some (ascii "t",
        [⟨ascii "score", .int 200⟩, ⟨ascii "title", .text (ascii "it's" ++ [0])⟩]) := by
  have decoded : Decodes client (editedRecord 200 (ascii "it's" ++ [0]))
      (edits (editedFields 200 (ascii "it's" ++ [0]))) :=
    (written_decodes_iff rfl (by decide) (by decide) (by decide) (by decide) (by decide)).mpr
      (by decide)
  obtain ⟨text, built, read⟩ := decoded.insert []
  exact ⟨text, built, (read (by decide)).2⟩

/-- The string `'` escapes to as many bytes as its scratch buffer has, and no terminator. -/
theorem quote_not_written :
    (∀ f ∈ editedFields 0 (ascii "'"), f.changed = true → isExact f.info.type = true ∧
      f.edit.print.length < bufferSize (editedFields 0 (ascii "'"))) ∧
    buildInsertSql client (editedRecord 0 (ascii "'")) [] = .error .overrun ∧
    buildUpdateSql client (editedRecord 0 (ascii "'")) [] = .error .overrun ∧
    ¬ Decodes client (editedRecord 0 (ascii "'")) (edits (editedFields 0 (ascii "'"))) := by
  have overrun : buildInsertSql client (editedRecord 0 (ascii "'")) [] = .error .overrun := rfl
  refine ⟨by decide, overrun, rfl, fun decoded => ?_⟩
  obtain ⟨text, built, -⟩ := decoded.insert []
  rw [overrun] at built
  cases built

end Statements

end SqlUtil

end LlbcDatabase
