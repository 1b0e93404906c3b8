import LlbcDatabase.ColumnText
import LlbcDatabase.RecordWriteBack

/-! The four tables of column types: what `CreateField` accepts, what `SetValue` reads,
what `BuildFormatSql` writes and what `BuildCondition` compares. -/

namespace LlbcDatabase

open CText SqlText SqlUtil

variable {F : Type} [CDouble F]

section Load

def isAccepted (type : FieldType) : Bool :=
  isExact type || isFloating type || type = .newdecimal || type = .timestamp

theorem createKind_isSome (info : DBFieldInfo) :
    (FieldFactory.createKind info).isSome = isAccepted info.type := by
  by_cases unsigned : info.attr &&& UNSIGNED_FLAG = 0 <;>
    cases type : info.type <;> simp [FieldFactory.createKind, type, unsigned] <;> rfl

omit [CDouble F] in
theorem isAccepted_type (f : BaseField F) : isAccepted f.info.type = true := by
  rw [← createKind_isSome, f.created]
  rfl

/-- `SetValue` stores a value: what the field held before makes no difference. -/
def Stores (f : BaseField F) (value : Option Buffer) (len : UInt32) : Prop :=
  ∀ old old' : f.kind.Data F,
    (f.kind.setValue f.info.type value len old).2 = (f.kind.setValue f.info.type value len old').2

theorem setValue_number {type : FieldType} (number : readsInt type || isFloating type)
    {k : FieldKind} (other : k ≠ .str) (value : Option Buffer) (len : UInt32)
    (old old' : k.Data F) :
    (k.setValue type value len old).1 = readsInt type ∧
      (k.setValue type value len old).2 = (k.setValue type value len old').2 := by
  cases k <;> first
    | exact absurd rfl other
    | cases type <;> first | exact ⟨rfl, rfl⟩ | cases number

theorem setValue_text {type : FieldType} (text : isText type = true) (value : Option Buffer)
    (len : UInt32) (old old' : FieldKind.str.Data F) :
    (FieldKind.str.setValue type value len old).1 = true ∧
      (FieldKind.str.setValue type value len old).2 = (FieldKind.str.setValue type value len old').2 := by
  cases type <;> first | exact ⟨rfl, rfl⟩ | cases text

theorem setValue_stores (f : BaseField F) (value : Option Buffer) (len : UInt32) :
    Stores f value len ∧ (f.setValue value len).1 = !isFloating f.info.type := by
  have known := isAccepted_type f
  obtain ⟨info, kind, created, val, changed⟩ := f
  by_cases text : isText info.type = true
  · obtain rfl : kind = .str :=
      Option.some.inj (created.symm.trans ((FieldFactory.createKind_str info).mpr text))
    have notFloating : isFloating info.type = false := by
      cases type : info.type <;> simp [type, isText, isFloating] at text ⊢
    rw [notFloating]
    exact ⟨fun old old' => (setValue_text text value len old old').2,
      (setValue_text text value len val val).1⟩
  · have other : kind ≠ .str := by
      rintro rfl
      exact text ((FieldFactory.createKind_str info).mp created)
    have number : (readsInt info.type || isFloating info.type) = true ∧
        readsInt info.type = !isFloating info.type := by
      cases type : info.type <;>
        simp [type, isText, isAccepted, isExact, isInteger, isFloating, readsInt] at text known ⊢
    rw [← number.2]
    exact ⟨fun old old' => (setValue_number number.1 other value len old old').2,
      (setValue_number number.1 other value len val val).1⟩

end Load

section Usable

/-- The assignment of a field is written in every buffer that it fits. -/
def Writable (f : BaseField F) : Prop :=
  ∀ (handle : Mysql) (formatSize : Nat), f.assignment.length < formatSize →
    ∃ text, buildFormatSql handle f formatSize = .ok text

/-- There is a condition for every record that has the field for its key. -/
def Comparable (f : BaseField F) : Prop :=
  ∀ record : Record F, record.getField (u32 (keyIdx record)) = .ok f →
    ∃ cond, buildCondition record [] = .ok (true, cond)

theorem comparable_iff (f : BaseField F) : Comparable f ↔ printable f.info.type = true := by
  rw [← keyLiteral_ok_iff]
  constructor
  · intro all
    let record : Record F := ⟨.edit, ⟨[], noNul_nil⟩, [some f], fun _ => none, 0, -1⟩
    have at_key : record.getField (u32 (keyIdx record)) = .ok f := rfl
    obtain ⟨cond, condition⟩ := all record at_key
    rw [buildCondition_eq, keyComparison_of_key at_key] at condition
    cases literal : keyLiteral f with
    | ok value => exact ⟨value, rfl⟩
    | error fault => simp [literal, Except.map] at condition
  · rintro ⟨value, literal⟩ record at_key
    rw [buildCondition_eq, keyComparison_of_key at_key, literal]
    exact ⟨_, rfl⟩

theorem writable_iff (f : BaseField F) :
    Writable f ↔ isWritable f.info.type = true ∧ overruns f = false := by
  have known := isAccepted_type f
  by_cases writable : isWritable f.info.type = true
  · rw [and_iff_right writable]
    constructor
    · intro all
      obtain ⟨text, written⟩ := all client (f.assignment.length + 1) (by omega)
      rw [buildFormatSql_assignment client writable (by omega)] at written
      cases full : overruns f with
      | false => rfl
      | true =>
        rw [full] at written
        cases written
    · intro safe handle formatSize fits
      rw [buildFormatSql_assignment handle writable fits, safe]
      exact ⟨_, rfl⟩
  · refine iff_of_false (fun all => ?_) fun both => writable both.1
    obtain ⟨text, written⟩ := all client (f.assignment.length + 1) (by omega)
    cases type : f.info.type <;>
      simp [type, isWritable, isAccepted, isExact, isInteger, isText, isFloating] at writable known <;>
        simp only [buildFormatSql, type] at written <;> cases written

/-- A column that `CreateField` accepts is loaded honestly, and after every call of a
setter of its kind it can be written and be a key, just when it is an integer or a text
and its string leaves room in its scratch buffer for a terminator. -/
theorem column_usable_iff {info : DBFieldInfo} {field g : BaseField F}
    (created : FieldFactory.createField info = some field) (value : Option Buffer) (len : UInt32)
    {s : Setting F} (set : (field.setValue value len).2.set s = .ok g) :
    (Writable g ∧ Comparable g ∧ ((field.setValue value len).1 = true ↔ Stores field value len)) ↔
      isExact info.type = true ∧ overruns g = false := by
  obtain ⟨stored, honest⟩ := setValue_stores field value len
  have described : field.info = info ∧ g.info = info := by
    cases kind : FieldFactory.createKind info with
    | none =>
      rw [FieldFactory.createField_none kind] at created
      cases created
    | some k =>
      rw [FieldFactory.createField_some kind] at created
      obtain rfl := Option.some.inj created
      exact ⟨rfl, (BaseField.set_ok set).1⟩
  rw [writable_iff, comparable_iff, honest, described.1, described.2]
  have known : isAccepted info.type = true := described.2 ▸ isAccepted_type g
  have tables : (isWritable info.type = true ∧ printable info.type = true ∧
      (!isFloating info.type) = true) ↔ isExact info.type = true := by
    cases type : info.type <;> rw [type] at known <;>
      first | exact absurd known (by decide) | decide
  rw [← tables, iff_true_right stored]
  tauto

def title : DBFieldInfo := ⟨CString.lit "title", .varString, 0, 64⟩

theorem column_usable_title : ∃ field g : BaseField Unit,
    FieldFactory.createField title = some field ∧
    (field.setValue none 0).2.set (.str (CString.lit "it's")) = .ok g ∧ Writable g ∧ Comparable g := by
  have created : FieldFactory.createField title =
      some (⟨title, .str, rfl, [], false⟩ : BaseField Unit) := rfl
  have set : ((⟨title, .str, rfl, [], false⟩ : BaseField Unit).setValue none 0).2.set
      (.str (CString.lit "it's")) = .ok ⟨title, .str, rfl, ascii "it's", true⟩ := rfl
  have usable := (column_usable_iff created none 0 set).mpr ⟨rfl, by decide⟩
  exact ⟨_, _, created, set, usable.1, usable.2.1⟩

def ratio : DBFieldInfo := ⟨CString.lit "ratio", .float, 0, 12⟩

/-- A decimal that is loaded and set can neither be written nor be a key, and a `float` is
stored and reported as not stored. -/
theorem price_not_usable :
    (∃ field g : BaseField Int, FieldFactory.createField price = some field ∧
      (field.setValue (some ⟨ascii "1.25", fun _ => 0⟩) 4).2.set (.double 3) = .ok g ∧
      buildFormatSql client g 200 = .error .assertion ∧ ¬ Writable g ∧ ¬ Comparable g) ∧
    ∃ field : BaseField Int, FieldFactory.createField ratio = some field ∧
      (field.setValue (some ⟨ascii "7", fun _ => 0⟩) 1).1 = false ∧
      (field.setValue (some ⟨ascii "7", fun _ => 0⟩) 1).2.getDouble = .ok 7 ∧
      ¬ ((field.setValue (some ⟨ascii "7", fun _ => 0⟩) 1).1 = true ↔
        Stores field (some ⟨ascii "7", fun _ => 0⟩) 1) := by
  constructor
  · refine ⟨_, ⟨price, .dbl, rfl, 3, true⟩, rfl, rfl, rfl, fun writable => ?_, fun comparable => ?_⟩
    · exact absurd ((writable_iff _).mp writable).1 (by decide)
    · exact absurd ((comparable_iff _).mp comparable) (by decide)
  · refine ⟨⟨ratio, .dbl, rfl, 0, false⟩, rfl, rfl, rfl, fun honest => ?_⟩
    exact absurd (honest.mpr (setValue_stores _ _ _).1) (by decide)

end Usable

end LlbcDatabase
