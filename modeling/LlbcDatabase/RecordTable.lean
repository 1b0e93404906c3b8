import LlbcDatabase.QueryRows
import LlbcDatabase.KeyClause

/-! What a loaded record takes from the columns of its result: the table of the first one,
the last flagged ones as its keys, and for every name the last column that has it. -/

namespace LlbcDatabase

open CText SqlUtil

section Names

/-- The map of the names after `WriteField` of the columns from `i` on. -/
def writeNames : (CString → Option Nat) → Nat → List DBFieldInfo → CString → Option Nat
  | names, _, [] => names
  | names, i, info :: rest => writeNames (Function.update names info.name (some i)) (i + 1) rest

theorem writeNames_other {names : CString → Option Nat} {i : Nat} {infos : List DBFieldInfo}
    {name : CString} (other : name ∉ infos.map (·.name)) :
    writeNames names i infos name = names name := by
  induction infos generalizing names i with
  | nil => rfl
  | cons info rest ih =>
    rw [List.map_cons, List.mem_cons, not_or] at other
    rw [writeNames, ih other.2, Function.update_of_ne other.1]

theorem writeNames_iff (names : CString → Option Nat) (i : Nat) (infos : List DBFieldInfo) :
    (∀ (j : Nat) (h : j < infos.length), writeNames names i infos infos[j].name = some (i + j)) ↔
      (infos.map (·.name)).Nodup := by
  induction infos generalizing names i with
  | nil => simp
  | cons info rest ih =>
    rw [List.map_cons, List.nodup_cons, ← ih (Function.update names info.name (some i)) (i + 1)]
    constructor
    · intro own
      have later : ∀ (j : Nat) (h : j < rest.length),
          writeNames (Function.update names info.name (some i)) (i + 1) rest rest[j].name =
            some (i + 1 + j) := by
        intro j h
        have next := own (j + 1) (by simpa using h)
        rw [show i + 1 + j = i + (j + 1) by omega]
        exact next
      refine ⟨fun member => ?_, later⟩
      obtain ⟨other, inside, same⟩ := List.mem_map.mp member
      obtain ⟨j, h, rfl⟩ := List.getElem_of_mem inside
      have first : writeNames (Function.update names info.name (some i)) (i + 1) rest info.name =
          some (i + 0) := own 0 (by simp)
      have last := later j h
      rw [same, first, Option.some.injEq] at last
      omega
    · rintro ⟨fresh, later⟩ j h
      cases j with
      | zero =>
        change writeNames (Function.update names info.name (some i)) (i + 1) rest info.name = _
        rw [writeNames_other fresh, Function.update_self]
        rfl
      | succ j =>
        have next := later j (by simpa using h)
        rw [show i + (j + 1) = i + 1 + j by omega]
        exact next

variable {F C : Type} [CDouble F] {look : C → MysqlField → Option DBFieldInfo × C}

theorem createFields_names {row : Option Row} {colLens : Option (List UInt64)} {c : C} {i : Nat}
    {before after : Record F} {dbFields : List MysqlField} {infos : List DBFieldInfo}
    (all : (columnInfos look c dbFields).1 = some infos)
    (made : (createFields look row colLens c i before dbFields).1 = some after) :
    after.fieldName2Idx = writeNames before.fieldName2Idx i infos := by
  induction dbFields generalizing c i before infos with
  | nil =>
    cases all
    cases made
    rfl
  | cons dbField rest ih =>
    simp only [columnInfos, createFields] at all made
    split at all
    · cases all
    · rename_i info c' looked
      rw [looked] at made
      cases created : FieldFactory.createKind info with
      | none => simp [created] at all
      | some kind =>
        simp only [created, FieldFactory.createField_some created] at all made
        obtain ⟨tail, found, rfl⟩ := Option.map_eq_some_iff.mp all
        rw [ih found made, writeNames, Record.noteFlags_eq]
        rfl

end Names

section Table

variable {F : Type} [CDouble F]

def OfTable (columns : List MysqlField) (table : CString) (j : Nat) : Prop :=
  ∃ column, columns[j]? = some column ∧ column.orgTable = some table

/-- Field `i` is collected for the `set` of an update, after calls of setters. -/
def Updates (record : Record F) (i : Nat) : Prop :=
  ∃ calls after size updateFields field, record.callAll calls = .ok after ∧ after.mode = .edit ∧
    noKey after = false ∧ collectFields 0 [] after.fields = .ok (size, updateFields) ∧
    after.fields[i]? = some (some field) ∧ field ∈ updateFields

structure StaysInTable (columns : List MysqlField) (record : Record F) : Prop where
  key : ∀ idx, idx = record.keyIdx ∨ idx = record.autoIncIdx → 0 ≤ idx →
    OfTable columns record.tableName idx.toNat
  update : ∀ i, Updates record i → OfTable columns record.tableName i
  name : ∀ i field, record.fields[i]? = some (some field) →
    record.getFieldIdx field.info.name.bytes = .ok i

theorem exists_set (f : BaseField F) : ∃ s g, f.set s = .ok g := by
  obtain ⟨info, kind, created, val, changed⟩ := f
  by_cases str : kind = .str
  · subst str
    exact ⟨.str ⟨[], noNul_nil⟩, _, rfl⟩
  · refine ⟨.int 0, ⟨info, kind, created, kind.ofInt 0, true⟩, ?_⟩
    cases kind <;> first | rfl | exact absurd rfl str

theorem updates_iff {record : Record F} {fields : List (BaseField F)}
    (filled : record.fields = fields.map some) (few : fields.length < 2 ^ 32) (i : Nat) :
    Updates record i ↔ record.mode = .edit ∧ noKey record = false ∧ i < fields.length := by
  constructor
  · rintro ⟨calls, after, size, updateFields, field, called, mode, keyed, -, at_i, -⟩
    have frame := Record.callAll_frame called
    refine ⟨frame.mode ▸ mode, noKey_frame frame ▸ keyed, ?_⟩
    have inside := (List.getElem?_eq_some_iff.mp at_i).1
    rwa [frame.fieldNum, filled, List.length_map] at inside
  · rintro ⟨mode, keyed, inside⟩
    obtain ⟨s, g, set⟩ := exists_set fields[i]
    have index : (UInt32.ofNat i).toNat = i := by
      rw [UInt32.toNat_ofNat']
      omega
    let after := { record with fields := (fields.set i g).map some }
    have called : record.call ⟨.inl (UInt32.ofNat i), s⟩ = .ok after := by
      have at_i : record.getField i = .ok fields[i] := by
        rw [Record.getField_ok, filled, List.getElem?_map, List.getElem?_eq_getElem inside]
        rfl
      rw [Record.call_eq, Record.target, index]
      simp [Record.onField, Except.bind, bind, at_i, set, filled, List.map_set, pure, Except.pure,
        after]
    refine ⟨[⟨.inl (UInt32.ofNat i), s⟩], after, _, _, g, ?_, mode, ?_,
      collectFields_filter 0 [] (fields.set i g), ?_, ?_⟩
    · simp [Record.callAll, called, bind, Except.bind]
    · exact (noKey_frame (Record.call_frame called)).trans keyed
    · simp [after, inside]
    · rw [List.nil_append, List.mem_filter]
      exact ⟨List.mem_set inside g, (BaseField.set_ok set).2.2⟩

end Table

section Loaded

variable {F C : Type} [CDouble F] {look : C → MysqlField → Option DBFieldInfo × C} {c c' : C}
  {row : Option Row} {columns : List MysqlField} {colLens : Option (List UInt64)} {mode : Mode}
  {record : Record F} {infos : List DBFieldInfo}

theorem elim_index {last : Option Nat} {idx : Int} (same : idx = last.elim (-1) fun k => (k : Int))
    {p : Nat → Prop} : (0 ≤ idx → p idx.toNat) ↔ ∀ k, last = some k → p k := by
  cases last with
  | none =>
    rw [Option.elim_none] at same
    simp [same]
  | some k =>
    rw [Option.elim_some] at same
    simp [same]

theorem Filled.info {before after : Record F}
    (filled : Filled row colLens 0 columns infos before after)
    (kinds : ∀ info ∈ infos, ∃ kind, FieldFactory.createKind info = some kind) (j : Nat)
    (h : j < infos.length) :
    ∃ field, after.fields[j]? = some (some field) ∧ field.info = infos[j] := by
  obtain ⟨kind, created⟩ := kinds infos[j] (List.getElem_mem h)
  have column := filled.column j (filled.infoNum ▸ h) h
  rw [Nat.zero_add, madeField, FieldFactory.createField_some created] at column
  exact ⟨_, column, rfl⟩

omit [CDouble F] in
theorem getFieldIdx_name (r : Record F) (name : CString) (i : Nat) :
    r.getFieldIdx name.bytes = .ok i ↔ r.fieldName2Idx name = some i := by
  obtain ⟨bytes, noNul⟩ := name
  rw [Record.getFieldIdx, dif_pos noNul]
  cases r.fieldName2Idx ⟨bytes, noNul⟩ <;> simp

theorem loaded_names_iff
    (loaded : createRecord look c row columns colLens mode = (some record, c')) :
    (∀ i field, record.fields[i]? = some (some field) →
      record.getFieldIdx field.info.name.bytes = .ok i) ↔
    ((lookups look c columns).map (Option.map (·.name))).Nodup := by
  obtain ⟨infos, all, filled⟩ := loaded_filled loaded
  have kinds := columnInfos_kinds all
  have names : record.fieldName2Idx = writeNames (fun _ => none) 0 infos :=
    createFields_names all (congrArg Prod.fst loaded)
  have distinct : ((lookups look c columns).map (Option.map (·.name))).Nodup ↔
      (infos.map (·.name)).Nodup := by
    rw [columnInfos_lookups all, List.map_map, ← List.nodup_map_iff (Option.some_injective CString),
      List.map_map]
    rfl
  have num : record.fields.length = infos.length := by
    rw [filled.fieldNum, Record.new, List.length_replicate, filled.infoNum]
  rw [distinct, ← writeNames_iff (fun _ => none) 0 infos]
  simp only [getFieldIdx_name, names, Nat.zero_add]
  constructor
  · intro own j h
    obtain ⟨field, at_j, info⟩ := filled.info kinds j h
    rw [← info]
    exact own j field at_j
  · intro own i field at_i
    have inside : i < infos.length := num ▸ (List.getElem?_eq_some_iff.mp at_i).1
    obtain ⟨field', at_i', info⟩ := filled.info kinds i inside
    rw [at_i, Option.some.injEq, Option.some.injEq] at at_i'
    rw [at_i', info]
    exact own i inside

end Loaded

section Stays

variable {F : Type} [CDouble F] {cache cache' : FieldInfoCache} {row : Option Row}
  {columns : List MysqlField} {colLens : Option (List UInt64)} {mode : Mode} {record : Record F}

/-- A loaded record stays within its table and its names just when the last primary column
and the last one that counts up are of the table of the first column, every column is if
there is such a key and the record can be edited, and the columns have distinct names. -/
theorem stays_in_table_iff (few : columns.length ≤ 4096)
    (loaded : createRecord queryDBFieldInfo cache row columns colLens mode = (some record, cache')) :
    StaysInTable columns record ↔
      (∀ k, lastColumn PRI_KEY_FLAG columns = some k ∨ lastColumn AUTO_INCREMENT_FLAG columns = some k →
        OfTable columns (recordTable columns) k) ∧
      (mode = .edit → keyColumn columns ≠ none → ∀ i < columns.length,
        OfTable columns (recordTable columns) i) ∧
      ((lookups queryDBFieldInfo cache columns).map (Option.map (·.name))).Nodup := by
  obtain ⟨infos, -, filled⟩ := loaded_filled loaded
  obtain ⟨fields, same, num, -⟩ := loaded_fields loaded
  have table : record.tableName = recordTable columns := filled.tableName
  have editable : record.mode = mode := filled.mode
  have primary := filled.keyIdx
  have auto := filled.autoIncIdx
  rw [Record.new, lastFlagged_elim (by omega)] at primary auto
  have keys : (∀ idx, idx = record.keyIdx ∨ idx = record.autoIncIdx → 0 ≤ idx →
      OfTable columns record.tableName idx.toNat) ↔
      ∀ k, lastColumn PRI_KEY_FLAG columns = some k ∨ lastColumn AUTO_INCREMENT_FLAG columns = some k →
        OfTable columns (recordTable columns) k := by
    simp only [forall_eq, or_imp, forall_and, table, elim_index primary,
      elim_index auto]
  have updates : (∀ i, Updates record i → OfTable columns record.tableName i) ↔
      (mode = .edit → keyColumn columns ≠ none → ∀ i < columns.length,
        OfTable columns (recordTable columns) i) := by
    simp only [updates_iff same (by omega), editable, loaded_noKey (by omega) loaded, num, table]
    exact ⟨fun all edits keyed i inside => all i ⟨edits, keyed, inside⟩,
      fun all i found => all found.1 found.2.1 i found.2.2⟩
  rw [← keys, ← updates, ← loaded_names_iff loaded]
  exact ⟨fun stays => ⟨stays.key, stays.update, stays.name⟩, fun all => ⟨all.1, all.2.1, all.2.2⟩⟩

theorem stays_in_table_player : StaysInTable players player := by
  have loaded : loadPlayer = (some player, loadPlayer.2) := rfl
  refine (stays_in_table_iff (by decide) loaded).mpr ⟨fun k last => ?_, fun _ _ i inside => ?_,
    by decide⟩
  · obtain rfl : k = 0 := by
      rcases last with last | last <;> cases last
      rfl
    exact ⟨_, rfl, rfl⟩
  · have two : i < 2 := inside
    obtain rfl | rfl : i = 0 ∨ i = 1 := by omega
    · exact ⟨_, rfl, rfl⟩
    · exact ⟨_, rfl, rfl⟩

/-- `select player.id, guild.id, guild.name` of two tables with a key each. -/
def guildColumns : List MysqlField :=
  [⟨some (CString.lit "player"), some (CString.lit "id"), .long, PRI_KEY_FLAG, 11, 1, none⟩,
    ⟨some (CString.lit "guild"), some (CString.lit "id"), .long, PRI_KEY_FLAG, 11, 1, none⟩,
    ⟨some (CString.lit "guild"), some (CString.lit "name"), .varString, 0, 64, 3, none⟩]

def loadGuild : Option (Record Unit) × FieldInfoCache :=
  createRecord queryDBFieldInfo [] (some [some ⟨ascii "7", fun _ => 0⟩, some ⟨ascii "3", fun _ => 0⟩,
    some ⟨ascii "red", fun _ => 0⟩]) guildColumns none .edit

def guildRecord : Record Unit := loadGuild.1.getD (Record.new 0 (CString.lit "player") .edit)

/-- The record of the join updates the guild's columns in the table of players, by the id
of the guild, and the name `id` leads to the guild's. -/
theorem guild_not_in_table : loadGuild.1 = some guildRecord ∧
    guildRecord.tableName = CString.lit "player" ∧ guildRecord.keyIdx = 1 ∧
    guildRecord.getFieldIdx (ascii "id") = .ok 1 ∧
    (∃ after, guildRecord.call ⟨.inl 2, .str (CString.lit "blue")⟩ = .ok after ∧
      buildUpdateSql client after [] =
        .ok (true, ascii "update `player` set `name`='blue' where `id`=3 limit 1")) ∧
    ¬ StaysInTable guildColumns guildRecord := by
  refine ⟨rfl, rfl, rfl, rfl, ⟨_, rfl, rfl⟩, fun stays => ?_⟩
  obtain ⟨column, at_1, table⟩ := stays.key 1 (.inl rfl) (by decide)
  cases at_1
  exact absurd table (by decide)

end Stays

end LlbcDatabase
