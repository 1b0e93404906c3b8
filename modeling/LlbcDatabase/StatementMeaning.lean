import LlbcDatabase.Library.SqlStatement
import LlbcDatabase.DeleteStatement

/-! What the server reads of the statements of a record: an insert and an update of its
edits, and the update and the delete of one row that has its key. -/

namespace LlbcDatabase

open CText SqlText

namespace SqlUtil

variable {F : Type} [CDouble F]

section Comparison

/-- The comparison is written whole and read back. -/
def Legible (comparison : CString × Literal) : Prop :=
  96 ∉ comparison.1.bytes ∧ comparisonLength comparison ≤ 1022 ∧ match comparison.2 with
    | .int _ => True
    | .text value => 0 ∉ value ∧ plain value = true

instance : (comparison : CString × Literal) → Decidable (Legible comparison)
  | (_, .int _) => inferInstanceAs (Decidable (_ ∧ _ ∧ True))
  | (_, .text _) => inferInstanceAs (Decidable (_ ∧ _ ∧ _ ∧ _))

def condition (comparison : CString × Literal) : Assignment := ⟨comparison.1.bytes, comparison.2⟩

theorem whereText_compares {comparison : CString × Literal} (legible : Legible comparison) :
    Compares (whereText comparison) (condition comparison) ∧
      (whereText comparison).length = comparisonLength comparison := by
  obtain ⟨noTick, fits, value⟩ := legible
  have length := printComparison_length comparison
  rw [whereText, snprintf_eq_self (by omega)]
  refine ⟨?_, length⟩
  obtain ⟨name, literal⟩ := comparison
  cases literal with
  | int v =>
    rw [printComparison, named_int]
    exact compares_print noTick
  | text keyVal =>
    rw [printComparison, cstr_eq_self value.1, named_quoted]
    exact compares_raw noTick value.2

theorem buildCondition_where {record : Record F} {comparison : CString × Literal}
    (compared : keyComparison record = .ok (some comparison)) :
    buildCondition record [] = .ok (true, whereText comparison) := by
  rw [buildCondition_eq, compared]
  rfl

end Comparison

section Statements

variable {handle : Mysql} {record : Record F} {comparison : CString × Literal}
  {as : List Assignment}

theorem insert_reads (table : 96 ∉ record.tableName.bytes)
    (names : ∀ a ∈ as, 96 ∉ a.name ∧ 0 ∉ a.name)
    (operation : buildOperation handle record [] = .ok (true, printList as)) (sql : Bytes) :
    ∃ text, buildInsertSql handle record sql = .ok (!as.isEmpty, text) ∧
      if as = [] then text = sql
      else cstr text = text ∧ readStatement text = some (.insert record.tableName.bytes as) := by
  obtain ⟨text, built, written⟩ := (decodes_of_operation table names operation).insert sql
  refine ⟨text, built, ?_⟩
  by_cases none : as = []
  · rw [if_pos none]
    subst none
    simp [buildInsertSql, operation, printList, bind, Except.bind, pure, Except.pure] at built
    exact built.symm
  · have list := noNul_printList fun a member => (names a member).2
    have whole : 0 ∉ insertText record.tableName.bytes (printList as) := by
      simp [insertText, ascii, record.tableName.noNul, list]
    rw [if_neg none, (written none).1]
    exact ⟨cstr_eq_self whole, readStatement_insert table (fun a member => (names a member).1) none⟩

theorem update_reads (table : 96 ∉ record.tableName.bytes)
    (names : ∀ a ∈ as, 96 ∉ a.name ∧ 0 ∉ a.name)
    (operation : buildOperation handle record [] = .ok (true, printList as))
    (compared : keyComparison record = .ok (some comparison)) (legible : Legible comparison)
    (sql : Bytes) :
    ∃ text, buildUpdateSql handle record sql = .ok (true, text) ∧
      if as = [] then text = sql
      else cstr text = text ∧ readStatement text =
        some (.update record.tableName.bytes as (condition comparison)) := by
  have list := noNul_printList fun a member => (names a member).2
  have clause := noNul_buildCondition (buildCondition_where compared)
  have built := buildUpdateSql_eq (buildCondition_where compared) operation sql
  rw [cstr_eq_self list] at built
  refine ⟨_, built, ?_⟩
  by_cases none : as = []
  · rw [if_pos none, if_pos (by rw [none]; rfl)]
  · have whole : 0 ∉ updateText record.tableName.bytes (printList as) (whereText comparison) := by
      simp [updateText, ascii, record.tableName.noNul, list, clause]
    rw [if_neg none, if_neg (printList_ne_nil none)]
    exact ⟨cstr_eq_self whole, readStatement_update table (fun a member => (names a member).1) none
      (whereText_compares legible).1⟩

theorem delete_reads (table : 96 ∉ record.tableName.bytes)
    (compared : keyComparison record = .ok (some comparison)) (legible : Legible comparison)
    (fits : record.tableName.bytes.length + comparisonLength comparison ≤ 993) (sql : Bytes) :
    ∃ text, buildDelSql record sql = .ok (true, text) ∧ cstr text = text ∧
      readStatement text = some (.delete record.tableName.bytes (condition comparison)) := by
  obtain ⟨compares, length⟩ := whereText_compares legible
  have clause := noNul_buildCondition (buildCondition_where compared)
  have built := (buildDelSql_whole_iff (buildCondition_where compared) sql).mpr (by omega)
  have whole : 0 ∉ delText record.tableName.bytes (whereText comparison) := by
    simp [delText, ascii, record.tableName.noNul, clause]
  exact ⟨_, built, cstr_eq_self whole, readStatement_delete table compares⟩

end Statements

end SqlUtil

end LlbcDatabase
