import LlbcDatabase.RecordWrites

/-! The guard that `BuildCondition` and `BuildOperation` start with. Its second comparison is
one of unsigned numbers, so it holds of the index -1 and of no index of a column. -/

namespace LlbcDatabase

open CText SqlText SqlUtil Transition

namespace SqlUtil

variable {F : Type} [CDouble F]

section Columns

variable {columns : List MysqlField} {k : Nat}

def IsKey (column : MysqlField) : Prop :=
  column.flags &&& PRI_KEY_FLAG ≠ 0 ∨ column.flags &&& AUTO_INCREMENT_FLAG ≠ 0

def Keyed (columns : List MysqlField) : Prop := ∃ column ∈ columns, IsKey column

theorem keyColumn_isKey (chosen : keyColumn columns = some k) :
    ∃ column, columns[k]? = some column ∧ IsKey column := by
  rw [keyColumn, Option.or_eq_some_iff] at chosen
  rcases chosen with last | ⟨-, last⟩
  · obtain ⟨column, at_k, counts⟩ := lastColumn_flagged last
    exact ⟨column, at_k, .inr counts⟩
  · obtain ⟨column, at_k, primary⟩ := lastColumn_flagged last
    exact ⟨column, at_k, .inl primary⟩

theorem keyed_iff : Keyed columns ↔ keyColumn columns ≠ none := by
  rw [Option.ne_none_iff_exists']
  constructor
  · rintro ⟨column, member, primary | counts⟩
    · exact keyColumn_isSome ⟨column, member, primary⟩
    · obtain ⟨k, last⟩ := lastColumn_isSome ⟨column, member, counts⟩
      exact ⟨k, by rw [keyColumn, last, Option.some_or]⟩
  · rintro ⟨k, chosen⟩
    obtain ⟨column, at_k, key⟩ := keyColumn_isKey chosen
    exact ⟨column, List.mem_of_getElem? at_k, key⟩

end Columns

section Guards

variable {record : Record F}

theorem buildCondition_false_iff (cond : Bytes) :
    (∃ out, buildCondition record cond = .ok (false, out)) ↔ noKey record = true := by
  constructor
  · rintro ⟨out, built⟩
    obtain ⟨found, compared, same⟩ := map_ok.mp ((buildCondition_eq record cond).symm.trans built)
    cases found with
    | none => exact noKey_of_keyComparison compared
    | some comparison => cases same
  · intro keyless
    exact ⟨cond, buildCondition_noKey keyless cond⟩

theorem buildOperation_false_iff (handle : Mysql) (cond : Bytes) :
    (∃ out, buildOperation handle record cond = .ok (false, out)) ↔ noKey record = true := by
  constructor
  · rintro ⟨out, built⟩
    by_contra keyed
    rw [buildOperation, if_neg keyed] at built
    obtain ⟨⟨max, updateFields⟩, -, later⟩ := bind_ok.mp built
    dsimp only at later
    split_ifs at later
    · cases later
    · cases later
    · cases later
    · cases later
    obtain ⟨text, -, same⟩ := bind_ok.mp later
    cases same
  · intro keyless
    exact ⟨cond, buildOperation_noKey handle keyless cond⟩

end Guards

end SqlUtil

namespace RecordWrites

variable {F S C : Type} [CDouble F]

structure KeyGuard (query : Bytes → S → Bool × S) (columns : List MysqlField) (record : Record F) :
    Prop where
  condition : ∀ cond, (∃ out, buildCondition record cond = .ok (false, out)) ↔ ¬ Keyed columns
  operation : ∀ handle cond,
    (∃ out, buildOperation handle record cond = .ok (false, out)) ↔ ¬ Keyed columns
  passed : noKey record = false → ∃ (k : Nat) (column : MysqlField) (field : BaseField F),
    keyIdx record = k ∧ columns[k]? = some column ∧ IsKey column ∧
    u32 (keyIdx record) < record.getFieldNum ∧ record.getField (u32 (keyIdx record)) = .ok field
  silent : ¬ Keyed columns → ∀ handle s, update query handle record s = .ok (false, record, s) ∧
    delete query record s = .ok (false, s)

/-- A record without a key is not written, and no field of it is read. -/
theorem noKey_silent {record : Record F} (keyless : noKey record = true)
    (query : Bytes → S → Bool × S) (handle : Mysql) (s : S) :
    update query handle record s = .ok (false, record, s) ∧
    delete query record s = .ok (false, s) := by
  have condition := buildCondition_noKey keyless []
  constructor
  · by_cases mode : record.mode = .edit
    · simp [update, mode, buildUpdateSql, condition, bind, Except.bind, pure, Except.pure]
    · exact update_mode mode
  · simp [delete, buildDelSql, condition, bind, Except.bind, pure, Except.pure]

variable {look : C → MysqlField → Option DBFieldInfo × C} {c c' : C} {row : Option Row}
  {columns : List MysqlField} {colLens : Option (List UInt64)} {mode : Mode}
  {query : Bytes → S → Bool × S} {handle : Mysql} {start record : Record F} {s t : S}

theorem life_frame (life : Reach (step query handle) (start, s) (record, t)) :
    Record.SameFrame start record :=
  life.invariant (I := fun r => Record.SameFrame start r.1) (Record.SameFrame.refl _)
    fun _ _ _ _ frame taken => frame.trans (step_frame taken)

theorem life_field (life : Reach (step query handle) (start, s) (record, t)) {k : Nat}
    (present : ∃ field, start.fields[k]? = some (some field)) :
    ∃ field, record.fields[k]? = some (some field) :=
  life.invariant (I := fun r => ∃ field, r.1.fields[k]? = some (some field)) present
    fun _ _ _ _ held taken => by
      obtain ⟨field, at_k⟩ := held
      obtain ⟨new, found, -⟩ := step_field taken at_k
      exact ⟨new, found⟩

/-- The guards are exact for every record that `CreateRecord` makes, whatever has been called
on it since. -/
theorem key_guard (few : columns.length < 2 ^ 31)
    (loaded : createRecord look c row columns colLens mode = (some start, c'))
    (life : Reach (step query handle) (start, s) (record, t)) : KeyGuard query columns record := by
  have frame := life_frame life
  have guard : noKey record = true ↔ ¬ Keyed columns := by
    rw [keyed_iff, noKey_frame frame, ← loaded_noKey few loaded, Bool.not_eq_false]
  refine ⟨fun cond => ?_, fun handle cond => ?_, fun keyed => ?_, fun keyless handle s => ?_⟩
  · rw [buildCondition_false_iff, guard]
  · rw [buildOperation_false_iff, guard]
  · rw [noKey_frame frame, loaded_noKey few loaded, Option.ne_none_iff_exists'] at keyed
    obtain ⟨k, chosen⟩ := keyed
    obtain ⟨column, at_k, key⟩ := keyColumn_isKey chosen
    obtain ⟨index, unsigned⟩ := loaded_keyIdx few loaded chosen
    obtain ⟨first, present, -⟩ := loaded_key few loaded chosen
    obtain ⟨field, found⟩ := life_field life ⟨first, present⟩
    rw [keyIdx_frame frame, unsigned]
    exact ⟨k, column, field, index, at_k, key, (List.getElem?_eq_some_iff.mp found).1,
      Record.getField_ok.mpr found⟩
  · exact noKey_silent (guard.mpr keyless) query handle s

def takes (sql : Bytes) (sent : List Bytes) : Bool × List Bytes := (true, sent ++ [sql])

theorem key_guard_restored : KeyGuard takes players (editPlayer restored) := by
  have called : runTo (step takes client) (player, []) (restored.map Call.set) =
    (editPlayer restored, []) := rfl
  have life : Reach (step takes client) (player, []) (editPlayer restored, []) :=
    called ▸ runTo_reach .start
  exact key_guard (by decide) (show loadPlayer = (some player, loadPlayer.2) from rfl) life

end RecordWrites

end LlbcDatabase
