import LlbcDatabase.KeyClause

/-! The clause `where .. limit 1` of an update and of a delete. The update has a buffer
of the size of its parts, and the delete one of 1024 bytes. -/

namespace LlbcDatabase

open CText SqlText

namespace SqlUtil

variable {F : Type} [CDouble F]

section Operation

omit [CDouble F] in
theorem maxFieldStrLen_even {max : Int} (even : 2 ∣ max) (field : BaseField F) :
    2 ∣ maxFieldStrLen max field := by
  unfold maxFieldStrLen
  split_ifs
  · decide
  · have doubled : (field.info.len * 2).toNat % 2 = 0 := by
      rw [UInt32.toNat_mul, show UInt32.toNat 2 = 2 from rfl]
      omega
    rw [s32, Int.bmod_def]
    omega
  · exact even

omit [CDouble F] in
theorem collectFields_ok {max : Int} {updateFields : List (BaseField F)}
    {fields : List (Option (BaseField F))} {size : Int} {collected : List (BaseField F)}
    (done : collectFields max updateFields fields = .ok (size, collected)) (even : 2 ∣ max) :
    2 ∣ size ∧ updateFields ⊆ collected ∧ ∀ f, some f ∈ fields → f.changed = true → f ∈ collected := by
  induction fields generalizing max updateFields with
  | nil =>
    cases done
    exact ⟨even, fun _ member => member, fun f member => absurd member List.not_mem_nil⟩
  | cons field rest ih =>
    cases field with
    | none => cases done
    | some g =>
      simp only [collectFields] at done
      split_ifs at done with changed
      · obtain ⟨even', earlier, later⟩ := ih done (maxFieldStrLen_even even g)
        refine ⟨even', fun f member => earlier (List.mem_append_left _ member), ?_⟩
        intro f member marked
        rcases List.mem_cons.mp member with here | member
        · obtain rfl := Option.some.inj here
          exact earlier (by simp)
        · exact later f member marked
      · obtain ⟨even', earlier, later⟩ := ih done even
        refine ⟨even', earlier, fun f member marked => ?_⟩
        rcases List.mem_cons.mp member with here | member
        · obtain rfl := Option.some.inj here
          exact absurd marked changed
        · exact later f member marked

theorem snprintf_named {size : Nat} (room : 1 < size) (name : CString) (value : Bytes) :
    ∃ rest, snprintf size (named name value) = 96 :: rest := by
  obtain ⟨n, rfl⟩ : ∃ n, size = n + 2 := ⟨size - 2, by omega⟩
  simp [snprintf, named, ascii]

theorem buildFormatSql_ne_nil {handle : Mysql} {field : BaseField F} {size : Nat} {text : Bytes}
    (written : buildFormatSql handle field size = .ok text) (room : 1 < size) : text ≠ [] := by
  have begins : ∀ value after, cstr (snprintf size (named field.info.name value) ++ after) ≠ [] ∧
      snprintf size (named field.info.name value) ≠ [] := by
    intro value after
    obtain ⟨rest, same⟩ := snprintf_named room field.info.name value
    simp [same, cstr]
  cases type : field.info.type <;> simp only [buildFormatSql, type] at written <;>
    first
    | cases written
    | obtain ⟨value, -, later⟩ := bind_ok.mp written
  case double | float =>
    cases later
    exact (begins _ []).2
  case string | varString | date | datetime | tiny | short | long | longlong =>
    split_ifs at later <;> cases later <;> exact (begins _ []).2
  case tinyBlob | blob | mediumBlob | longBlob =>
    split_ifs at later <;> cases later
    rw [List.append_assoc]
    exact (begins _ _).1

theorem formatFields_prefix {handle : Mysql} {size : Nat} {first : Bool} {strFormat op : Bytes}
    {fields : List (BaseField F)}
    (built : formatFields handle size first strFormat fields = .ok op) : strFormat <+: op := by
  induction fields generalizing first strFormat with
  | nil =>
    cases built
    exact List.prefix_refl _
  | cons field rest ih =>
    obtain ⟨text, -, later⟩ := bind_ok.mp built
    split_ifs at later
    · exact (List.prefix_append _ _).trans (ih later)
    · rw [List.append_assoc] at later
      exact (List.prefix_append _ _).trans (ih later)

theorem operation_ne_nil {handle : Mysql} {record : Record F} {op : Bytes}
    (edited : ∃ f, some f ∈ record.fields ∧ f.changed = true)
    (built : buildOperation handle record [] = .ok (true, op)) : op ≠ [] := by
  obtain ⟨f, inside, changed⟩ := edited
  unfold buildOperation at built
  split_ifs at built with keyless
  · cases built
  obtain ⟨⟨max, updateFields⟩, collected, later⟩ := bind_ok.mp built
  obtain ⟨even, -, kept⟩ := collectFields_ok collected (by decide)
  have member := kept f inside changed
  cases updateFields with
  | nil => exact absurd member List.not_mem_nil
  | cons g rest =>
    simp only [List.isEmpty_cons, Bool.false_eq_true, if_false] at later
    split_ifs at later
    · cases later
    · cases later
    · cases later
    obtain ⟨text, formatted, same⟩ := bind_ok.mp later
    obtain rfl := (Prod.mk.inj (Except.ok.inj same)).2
    obtain ⟨first, written, more⟩ := bind_ok.mp formatted
    have room : 1 < (s32 (max + 128)).toNat := by
      have half : 2 ∣ s32 (max + 128) := by
        rw [s32, Int.bmod_def]
        omega
      omega
    have some_ := buildFormatSql_ne_nil written room
    have front : first <+: text := formatFields_prefix more
    exact fun none => some_ (List.prefix_nil.mp (none ▸ front))

end Operation

section Clause

def whereClause (cond : Bytes) : Bytes := ascii "where " ++ cond ++ ascii " limit 1"

def comparisonLength : CString × Literal → Nat
  | (name, .int v) => name.bytes.length + (signedDecimal v).length + 3
  | (name, .text keyVal) => name.bytes.length + (cstr keyVal).length + 5

theorem printComparison_length (comparison : CString × Literal) :
    (printComparison comparison).length = comparisonLength comparison := by
  obtain ⟨name, literal⟩ := comparison
  cases literal <;> simp [printComparison, comparisonLength, named, ascii] <;> omega

theorem delText_eq (table cond : Bytes) :
    delText table cond = ascii "delete from `" ++ table ++ ascii "` " ++ whereClause cond := by
  simp [delText, whereClause, ascii]

theorem updateText_eq (table op cond : Bytes) : updateText table op cond =
    ascii "update `" ++ table ++ ascii "` set " ++ op ++ ascii " " ++ whereClause cond := by
  simp [updateText, whereClause, ascii]

theorem buildCondition_complete {record : Record F} {comparison : CString × Literal}
    (compared : keyComparison record = .ok (some comparison))
    (complete : comparisonLength comparison ≤ 1022) :
    buildCondition record [] = .ok (true, printComparison comparison) := by
  have length := printComparison_length comparison
  rw [buildCondition_eq, compared]
  exact congrArg (fun text => Except.ok (true, text)) (snprintf_eq_self (by omega))

/-- The update of a record with a changed field ends in the clause of the condition, and
the delete ends in the same clause, with nothing cut, just when the table name and the
comparison of the key fit its buffer. -/
theorem delete_clause_iff {record : Record F} {handle : Mysql} {comparison : CString × Literal}
    {sql update : Bytes} (compared : keyComparison record = .ok (some comparison))
    (complete : comparisonLength comparison ≤ 1022)
    (edited : ∃ f, some f ∈ record.fields ∧ f.changed = true)
    (built : buildUpdateSql handle record sql = .ok (true, update)) :
    ∃ cond, buildCondition record [] = .ok (true, cond) ∧
      (∃ op, update = ascii "update `" ++ record.tableName.bytes ++ ascii "` set " ++ op ++
        ascii " " ++ whereClause cond) ∧
      (buildDelSql record sql = .ok (true, ascii "delete from `" ++ record.tableName.bytes ++
          ascii "` " ++ whereClause cond) ↔
        record.tableName.bytes.length + comparisonLength comparison ≤ 993) := by
  have condition := buildCondition_complete compared complete
  refine ⟨printComparison comparison, condition, ?_, ?_⟩
  · obtain ⟨found, condition', later⟩ := bind_ok.mp built
    obtain rfl := Except.ok.inj (condition'.symm.trans condition)
    obtain ⟨⟨some_, op⟩, operation, later⟩ := bind_ok.mp later
    cases some_ with
    | false => cases later
    | true =>
      have changed := operation_ne_nil edited operation
      have same := ok_snd built (buildUpdateSql_eq condition operation sql)
      rw [if_neg changed] at same
      exact ⟨cstr op, same.trans (updateText_eq _ _ _)⟩
  · rw [← delText_eq, buildDelSql_whole_iff condition, printComparison_length]

/-- A table `t` with a key of `n` letters and an edited number. -/
def longKey (n : Nat) : Record Unit where
  mode := .edit
  tableName := CString.lit "t"
  fields :=
    [some ⟨⟨CString.lit "k", .varString, PRI_KEY_FLAG, 1000⟩, .str, rfl, List.replicate n 97, false⟩,
      some ⟨⟨CString.lit "v", .long, 0, 11⟩, .s32, rfl, 1, true⟩]
  fieldName2Idx := fun _ => none
  keyIdx := 0
  autoIncIdx := -1

def longComparison (n : Nat) : CString × Literal := (CString.lit "k", .text (List.replicate n 97))

theorem longKey_compared (n : Nat) :
    keyComparison (longKey n) = .ok (some (longComparison n)) := rfl

theorem longComparison_length (n : Nat) : comparisonLength (longComparison n) = n + 6 := by
  have noNul : (0 : UInt8) ∉ List.replicate n 97 := by simp
  rw [longComparison, comparisonLength, cstr_eq_self noNul, List.length_replicate]
  change 1 + n + 5 = n + 6
  omega

theorem longKey_updated {n : Nat} (short : n ≤ 1016) : ∃ update,
    buildUpdateSql client (longKey n) [] = .ok (true, update) := by
  have condition := buildCondition_complete (longKey_compared n)
    (by rw [longComparison_length]; omega)
  have operation : buildOperation client (longKey n) [] = .ok (true, ascii "`v`=1") := rfl
  exact ⟨_, buildUpdateSql_eq condition operation []⟩

theorem delete_clause_longKey : ∃ cond, buildCondition (longKey 986) [] = .ok (true, cond) ∧
    buildDelSql (longKey 986) [] = .ok (true, ascii "delete from `" ++ ascii "t" ++ ascii "` " ++
      whereClause cond) := by
  obtain ⟨update, built⟩ := longKey_updated (n := 986) (by decide)
  obtain ⟨cond, condition, -, whole⟩ := delete_clause_iff (longKey_compared 986)
    (by rw [longComparison_length]; decide) ⟨_, .tail _ (.head _), rfl⟩ built
  refine ⟨cond, condition, whole.mpr ?_⟩
  rw [longComparison_length]
  decide

/-- A key of 994 letters leaves the delete without its limit, and it is still a statement. -/
theorem longKey_delete_unlimited : ∃ cond update,
    buildCondition (longKey 994) [] = .ok (true, cond) ∧ cond.length = 1000 ∧
    buildUpdateSql client (longKey 994) [] = .ok (true, update) ∧
    buildDelSql (longKey 994) [] = .ok (true, ascii "delete from `t` where " ++ cond) ∧
    ¬ ∃ front, ascii "delete from `t` where " ++ cond = front ++ whereClause cond := by
  obtain ⟨update, built⟩ := longKey_updated (n := 994) (by decide)
  have complete : comparisonLength (longComparison 994) ≤ 1022 := by
    rw [longComparison_length]
    decide
  have condition := buildCondition_complete (longKey_compared 994) complete
  have length : (printComparison (longComparison 994)).length = 1000 := by
    rw [printComparison_length, longComparison_length]
  have quoted : ∃ front, printComparison (longComparison 994) = front ++ [39] :=
    ⟨ascii "`k`='" ++ cstr (List.replicate 994 97), by
      simp only [printComparison, longComparison, named, List.append_assoc]
      rfl⟩
  generalize printComparison (longComparison 994) = cond at condition length quoted
  refine ⟨cond, update, condition, length, built, ?_, ?_⟩
  · have cut : snprintf 1023 (delText (ascii "t") cond) = ascii "delete from `t` where " ++ cond := by
      have parts : delText (ascii "t") cond =
          (ascii "delete from `t` where " ++ cond) ++ ascii " limit 1" := by simp [delText, ascii]
      rw [parts, snprintf, List.take_left']
      rw [List.length_append, length]
      rfl
    rw [buildDelSql_eq condition, ← cut]
    rfl
  · rintro ⟨front, same⟩
    obtain ⟨start, rfl⟩ := quoted
    have limit : whereClause (start ++ [39]) =
        (ascii "where " ++ (start ++ [39]) ++ ascii " limit ") ++ [49] := by
      simp [whereClause, ascii]
    rw [limit, ← List.append_assoc, ← List.append_assoc] at same
    exact absurd (List.append_inj_right' same rfl) (by decide)

end Clause

end SqlUtil

end LlbcDatabase
