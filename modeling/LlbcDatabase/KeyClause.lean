import LlbcDatabase.RecordSetters
import LlbcDatabase.SqlDecode

/-! The condition in the texts of an update and a delete, and the comparison that it is made
of, which the setters change only through the key field. -/

namespace LlbcDatabase

open CText SqlText

namespace SqlUtil

variable {F : Type} [CDouble F]

section Where

variable {record : Record F} {handle : Mysql} {sql : Bytes}

def whereText (comparison : CString × Literal) : Bytes := snprintf 1023 (printComparison comparison)

theorem noKey_of_keyComparison (none : keyComparison record = .ok Option.none) :
    noKey record = true := by
  by_contra keyed
  rw [keyComparison, if_neg keyed] at none
  obtain ⟨field, -, later⟩ := bind_ok.mp none
  obtain ⟨literal, -, same⟩ := bind_ok.mp later
  cases same

theorem buildCondition_ok {built : Bool × Bytes} (done : buildCondition record [] = .ok built) :
    built = (false, []) ∧ noKey record = true ∨
    ∃ comparison, keyComparison record = .ok (some comparison) ∧
      built = (true, whereText comparison) ∧ cstr built.2 = built.2 := by
  obtain ⟨found, compared, same⟩ := map_ok.mp ((buildCondition_eq record []).symm.trans done)
  cases found with
  | none => exact .inl ⟨same.symm, noKey_of_keyComparison compared⟩
  | some comparison =>
    rw [← same] at done ⊢
    exact .inr ⟨comparison, compared, rfl, cstr_eq_self (noNul_buildCondition done)⟩

theorem updateText_ne_nil (table op cond : Bytes) : updateText table op cond ≠ [] := by
  simp [updateText, ascii]

end Where

section Frame

variable {start record : Record F}

omit [CDouble F] in
theorem keyIdx_frame (frame : Record.SameFrame start record) : keyIdx record = keyIdx start := by
  rw [keyIdx, keyIdx, frame.keyIdx, frame.autoIncIdx]

omit [CDouble F] in
theorem noKey_frame (frame : Record.SameFrame start record) : noKey record = noKey start := by
  simp only [noKey, keyIdx_frame frame, Record.getFieldNum, frame.fieldNum]
  rfl

theorem keyComparison_frame (frame : Record.SameFrame start record) {field : BaseField F}
    (at_key : start.getField (u32 (keyIdx start)) = .ok field) {changed : Bool}
    (found : record.getField (u32 (keyIdx start)) = .ok (field.tagChanged changed)) :
    keyComparison record = keyComparison start := by
  rw [← keyIdx_frame frame] at found
  have value := keyComparison_of_key found
  rw [keyComparison_of_key at_key]
  exact value

end Frame

section Columns

theorem named_first {first : MysqlField} {rest : List MysqlField} {own : CString}
    (called : first.orgName = some own)
    (other : ∀ f ∈ rest, f.orgName.map (·.bytes.map toLower) ≠ some (own.bytes.map toLower))
    (j : Nat) : Named (first :: rest) own j ↔ j = 0 := by
  constructor
  · rintro ⟨column, name, at_j, named, same⟩
    cases j with
    | zero => rfl
    | succ j =>
      have elsewhere := other column (List.mem_of_getElem? at_j)
      rw [named, Option.map_some, same] at elsewhere
      exact absurd rfl elsewhere
  · rintro rfl
    exact ⟨first, own, rfl, called, rfl⟩

def players : List MysqlField :=
  [⟨some (CString.lit "player"), some (CString.lit "id"), .long, PRI_KEY_FLAG, 11, 1, none⟩,
    ⟨some (CString.lit "player"), some (CString.lit "name"), .varString, 0, 64, 3, none⟩]

/-- The record of the row `(7, 'bob')`. -/
def loadPlayer : Option (Record Unit) × FieldInfoCache :=
  createRecord queryDBFieldInfo [] (some [some ⟨ascii "7", fun _ => 0⟩, some ⟨ascii "bob", fun _ => 0⟩])
    players none .edit

def player : Record Unit := loadPlayer.1.getD (Record.new 0 (CString.lit "player") .edit)

def editPlayer (calls : List (SetterCall Unit)) : Record Unit :=
  (player.callAll calls).toOption.getD player

/-- The key is set to 8 and back. -/
def restored : List (SetterCall Unit) :=
  [⟨.inl 0, .int 8⟩, ⟨.inr (ascii "name"), .str (CString.lit "rob")⟩, ⟨.inr (ascii "id"), .int 7⟩]

end Columns

end SqlUtil

end LlbcDatabase
