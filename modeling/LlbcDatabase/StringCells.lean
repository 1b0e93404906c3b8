import LlbcDatabase.MysqlConnect

/-! String and blob cells as `Query` returns them. Every cell of a column is read
with the column's largest length, so the bytes are exact just when all cells of the
column that are not NULL have one length. -/

namespace LlbcDatabase

open CText MemoTable

def cellText : Option Buffer → Bytes
  | some b => b.bytes
  | none => []

/-- Cells of column `i` that are not NULL all have one length, and it fits `uint32`. -/
def oneLength (rows : List Row) (i : Nat) : Prop :=
  ∀ row ∈ rows, ∀ b, row.getD i none = some b → b.bytes.length < 2 ^ 32 ∧
    ∀ row' ∈ rows, ∀ b', row'.getD i none = some b' → b'.bytes.length = b.bytes.length

theorem columnMax_le {rows : List Row} {i L : Nat}
    (bound : ∀ row ∈ rows, cellLength (row.getD i none) ≤ L) : columnMax rows i ≤ L := by
  induction rows with
  | nil => exact Nat.zero_le L
  | cons row rest ih =>
    exact max_le (bound row (.head _)) (ih fun r member => bound r (.tail _ member))

theorem le_columnMax {rows : List Row} {row : Row} (member : row ∈ rows) (i : Nat) :
    cellLength (row.getD i none) ≤ columnMax rows i := by
  induction rows with
  | nil => exact absurd member List.not_mem_nil
  | cons first rest ih =>
    rcases List.mem_cons.mp member with rfl | later
    · exact le_max_left _ _
    · exact le_trans (ih later) (le_max_right _ _)

theorem maxLength_exact_iff (result : StoredResult) (i : Nat) (h : i < result.fields.length) :
    (∀ row ∈ result.rows, ∀ b, row.getD i none = some b →
      result.fields[i].maxLength.toUInt32.toNat = b.bytes.length) ↔ oneLength result.rows i := by
  have largest := result.maxLength i h
  constructor
  · intro exact_read row member b cell
    have length := exact_read row member b cell
    refine ⟨?_, fun row' member' b' cell' => ?_⟩
    · rw [← length]
      exact UInt32.toNat_lt _
    · rw [← exact_read row' member' b' cell', length]
  · intro one row member b cell
    obtain ⟨small, same⟩ := one row member b cell
    have upper : columnMax result.rows i ≤ b.bytes.length := by
      refine columnMax_le fun row' member' => ?_
      cases cell' : row'.getD i none with
      | none => exact Nat.zero_le _
      | some b' => exact (same row' member' b' cell').le
    have lower : b.bytes.length ≤ columnMax result.rows i := by
      have reached := le_columnMax member i
      rwa [cell] at reached
    rw [UInt64.toNat_toUInt32, largest]
    omega

section Rows

variable {F : Type} [CDouble F]

structure FilledRows (dbFields : List MysqlField) (infos : List DBFieldInfo)
    (colLens : Option (List UInt64)) (mode : Mode) (idx : Nat) (rows : List Row)
    (before after : Recordset F) : Prop where
  size : after.length = before.length
  kept : ∀ j < idx, after[j]? = before[j]?
  record : ∀ (r : Nat) (h : r < rows.length), ∃ newRec, after[idx + r]? = some (some newRec) ∧
    Filled (some rows[r]) colLens 0 dbFields infos
      (Record.new dbFields.length (recordTable dbFields) mode) newRec

variable {C : Type} {look : C → MysqlField → Option DBFieldInfo × C} {c c' : C}
  {dbFields : List MysqlField} {infos : List DBFieldInfo}

theorem createRecord_filled (all : columnInfos look c dbFields = (some infos, c')) (row : Option Row)
    (colLens : Option (List UInt64)) (mode : Mode) :
    ∃ newRec : Record F, createRecord look c row dbFields colLens mode = (some newRec, c') ∧
      Filled row colLens 0 dbFields infos
        (Record.new dbFields.length (recordTable dbFields) mode) newRec := by
  have built := createFields_filled (F := F) look row colLens c 0
    (Record.new dbFields.length (recordTable dbFields) mode) dbFields (by simp [Record.new])
  rw [all] at built
  obtain ⟨state, newRec, same, filled⟩ := built
  exact ⟨newRec, Prod.ext same state, filled⟩

theorem readRows_filled (first : columnInfos look c dbFields = (some infos, c'))
    (again : columnInfos look c' dbFields = (some infos, c')) (colLens : Option (List UInt64))
    (mode : Mode) (idx : Nat) (recSet : Recordset F) (rows : List Row)
    (room : recSet.length = idx + rows.length) :
    ∃ after, (readRows look dbFields colLens mode c idx recSet rows).1 = .ok (some after) ∧
      FilledRows dbFields infos colLens mode idx rows recSet after := by
  induction rows generalizing c idx recSet with
  | nil =>
    refine ⟨recSet, ?_, rfl, fun _ _ => rfl, fun r h => absurd h (Nat.not_lt_zero r)⟩
    simp only [readRows]
    rw [if_pos (by simpa using room.symm)]
  | cons row rest ih =>
    obtain ⟨newRec, created, filled⟩ :=
      createRecord_filled (F := F) first (some row) colLens mode
    simp only [readRows, created]
    rw [List.length_cons] at room
    rw [if_pos (by omega)]
    obtain ⟨after, same, rows_filled⟩ :=
      ih again (idx + 1) (recSet.set idx (some newRec)) (by rw [List.length_set]; omega)
    refine ⟨after, same, ?_, ?_, ?_⟩
    · rw [rows_filled.size, List.length_set]
    · intro j below
      rw [rows_filled.kept j (by omega), List.getElem?_set_ne (by omega)]
    · intro r h
      cases r with
      | zero =>
        refine ⟨newRec, ?_, filled⟩
        rw [rows_filled.kept (idx + 0) (by omega), Nat.add_zero,
          List.getElem?_set_self (by omega)]
      | succ r =>
        have next := rows_filled.record r (by simpa using h)
        rw [show idx + (r + 1) = idx + 1 + r by omega]
        exact next

theorem readRows_overflow (first : columnInfos look c dbFields = (some infos, c'))
    (again : columnInfos look c' dbFields = (some infos, c')) (colLens : Option (List UInt64))
    (mode : Mode) (idx : Nat) (recSet : Recordset F) (rows : List Row)
    (inside : idx ≤ recSet.length) (beyond : recSet.length < idx + rows.length) :
    (readRows look dbFields colLens mode c idx recSet rows).1 = .error .outOfRange := by
  induction rows generalizing c idx recSet with
  | nil =>
    simp only [List.length_nil] at beyond
    omega
  | cons row rest ih =>
    obtain ⟨newRec, created, -⟩ := createRecord_filled (F := F) first (some row) colLens mode
    simp only [readRows, created]
    rw [List.length_cons] at beyond
    split
    · exact ih again (idx + 1) _ (by rw [List.length_set]; omega) (by rw [List.length_set]; omega)
    · rfl

theorem readRows_refused (refused : (columnInfos look c dbFields).1 = none)
    (colLens : Option (List UInt64)) (mode : Mode) (idx : Nat) (recSet : Recordset F) (row : Row)
    (rest : List Row) :
    (readRows look dbFields colLens mode c idx recSet (row :: rest)).1 = .ok none := by
  have built := createFields_filled (F := F) look (some row) colLens c 0
    (Record.new dbFields.length (recordTable dbFields) mode) dbFields (by simp [Record.new])
  rw [refused] at built
  simp only [readRows, createRecord]
  split
  case h_1 => rfl
  case h_2 newRec c' created => simp [created] at built

end Rows

section Cells

variable {F : Type} [CDouble F]

/-- Every cell of a string or blob column comes back as its own bytes. -/
def readsCells (result : StoredResult) : Except Fault (Option (Recordset F)) → Prop
  | .error _ => False
  | .ok none => True
  | .ok (some recSet) => ∀ (r : Nat) (hr : r < result.rows.length) (c : Nat)
      (hc : c < result.fields.length), isText result.fields[c].type = true →
      ∃ newRec, recSet[r]? = some (some newRec) ∧
        newRec.getStr c = .ok (cellText (result.rows[r].getD c none))

/-- No column is refused, and then: fewer than 2 ^ 32 rows, and every string column
is described as one and has cells of one length. -/
def readable (result : StoredResult) : Option (List DBFieldInfo) → Prop
  | none => True
  | some infos => result.rows.length < 2 ^ 32 ∧
      ∀ (c : Nat) (h : c < result.fields.length), isText result.fields[c].type = true →
        (result.rows ≠ [] → ∃ info, infos[c]? = some info ∧ isText info.type = true) ∧
        oneLength result.rows c

theorem getStr_filled {row : Row} {dbFields : List MysqlField} {infos : List DBFieldInfo}
    {before after : Record F} (filled : Filled (some row) none 0 dbFields infos before after)
    (kinds : ∀ info ∈ infos, ∃ kind, FieldFactory.createKind info = some kind) (c : Nat)
    (h : c < dbFields.length) (h' : c < infos.length) :
    after.getStr c =
      if isText infos[c].type then
        .ok (match row.getD c none with
          | some b => b.read dbFields[c].maxLength.toUInt32.toNat
          | none => [])
      else .error .assertion := by
  obtain ⟨kind, created⟩ := kinds infos[c] (List.getElem_mem h')
  have column := filled.column c h h'
  rw [Nat.zero_add, madeField, FieldFactory.createField_some created, Option.map_some] at column
  simp only [Record.getStr, Record.getField, column]
  exact FieldKind.getStr_setValue created _ _ _

theorem getStr_exact_iff {row : Row} {dbFields : List MysqlField} {infos : List DBFieldInfo}
    {before after : Record F} (filled : Filled (some row) none 0 dbFields infos before after)
    (kinds : ∀ info ∈ infos, ∃ kind, FieldFactory.createKind info = some kind) (c : Nat)
    (h : c < dbFields.length) (h' : c < infos.length) :
    after.getStr c = .ok (cellText (row.getD c none)) ↔ isText infos[c].type = true ∧
      ∀ b, row.getD c none = some b →
        dbFields[c].maxLength.toUInt32.toNat = b.bytes.length := by
  rw [getStr_filled filled kinds c h h']
  by_cases text : isText infos[c].type = true
  · rw [if_pos text]
    cases cell : row.getD c none with
    | none => simp [cellText, text]
    | some b => simp [cellText, text, Buffer.read_eq_iff]
  · simp [text]

theorem filledRows_readsCells_iff (result : StoredResult) {infos : List DBFieldInfo} {mode : Mode}
    {before after : Recordset F}
    (filled : FilledRows result.fields infos none mode 0 result.rows before after)
    (kinds : ∀ info ∈ infos, ∃ kind, FieldFactory.createKind info = some kind)
    (length : infos.length = result.fields.length) :
    readsCells result (.ok (some after)) ↔
      ∀ (c : Nat) (h : c < result.fields.length), isText result.fields[c].type = true →
        (result.rows ≠ [] → ∃ info, infos[c]? = some info ∧ isText info.type = true) ∧
        oneLength result.rows c := by
  constructor
  · intro reads c h text
    have h' : c < infos.length := length ▸ h
    have exact_row : ∀ row ∈ result.rows, isText infos[c].type = true ∧
        ∀ b, row.getD c none = some b →
          result.fields[c].maxLength.toUInt32.toNat = b.bytes.length := by
      intro row member
      obtain ⟨r, hr, rfl⟩ := List.getElem_of_mem member
      obtain ⟨newRec, at_row, str⟩ := reads r hr c h text
      obtain ⟨built, at_row', record⟩ := filled.record r hr
      rw [Nat.zero_add, at_row, Option.some.injEq, Option.some.injEq] at at_row'
      subst at_row'
      exact (getStr_exact_iff record kinds c h h').mp str
    constructor
    · intro some
      obtain ⟨row, member⟩ := List.exists_mem_of_ne_nil _ some
      exact ⟨infos[c], List.getElem?_eq_getElem h', (exact_row row member).1⟩
    · exact (maxLength_exact_iff result c h).mp fun row member => (exact_row row member).2
  · intro readable r hr c h text
    obtain ⟨described, one⟩ := readable c h text
    obtain ⟨newRec, at_row, record⟩ := filled.record r hr
    rw [Nat.zero_add] at at_row
    have h' : c < infos.length := length ▸ h
    obtain ⟨info, at_column, isStr⟩ := described (List.ne_nil_of_length_pos (Nat.zero_lt_of_lt hr))
    rw [List.getElem?_eq_getElem h', Option.some.injEq] at at_column
    refine ⟨newRec, at_row, (getStr_exact_iff record kinds c h h').mpr ⟨at_column ▸ isStr, ?_⟩⟩
    exact (maxLength_exact_iff result c h).mpr one _ (List.getElem_mem hr)

theorem readResult_cells_iff (cache : FieldInfoCache) (result : StoredResult) (mode : Mode) :
    readsCells (F := F) result (readResult queryDBFieldInfo cache result mode).1 ↔
      readable result (columnInfos queryDBFieldInfo cache result.fields).1 := by
  rw [readResult_eq]
  cases all : (columnInfos queryDBFieldInfo cache result.fields).1 with
  | none =>
    cases rows : result.rows with
    | nil => simp [readRows, Recordset.new, readsCells, readable, rows]
    | cons row rest =>
      rw [readRows_refused all]
      simp [readsCells, readable]
  | some infos =>
    have first : columnInfos queryDBFieldInfo cache result.fields =
        (some infos, (columnInfos queryDBFieldInfo cache result.fields).2) := Prod.ext all rfl
    have again := columnInfos_again all (Extends.refl _)
    have kinds := columnInfos_kinds all
    by_cases few : result.rows.length < 2 ^ 32
    · obtain ⟨after, same, filled⟩ := readRows_filled (F := F) first again none mode 0
        (Recordset.new (result.rows.length % 2 ^ 32)) result.rows
        (by rw [Recordset.new, List.length_replicate, Nat.mod_eq_of_lt few, Nat.zero_add])
      obtain ⟨newRec, -, record⟩ := createRecord_filled (F := F) first none none mode
      rw [same, filledRows_readsCells_iff result filled kinds record.infoNum]
      simp only [readable, few, true_and]
    · have wraps : result.rows.length % 2 ^ 32 < result.rows.length :=
        Nat.lt_of_lt_of_le (Nat.mod_lt _ (by decide)) (Nat.le_of_not_lt few)
      rw [readRows_overflow first again none mode 0 _ result.rows (Nat.zero_le _)
        (by rw [Recordset.new, List.length_replicate, Nat.zero_add]; exact wraps)]
      simp only [readsCells, readable, few, false_and]

/-- What `Query(sql, mode)` returns has every string and blob cell of the result set
byte for byte just when the cells of each such column have one length. -/
theorem query_cells_iff {D : Type} (server : Server D) (sql : Bytes) (mode : Mode)
    (conn : MysqlConnect) (db db' : D) (cache : FieldInfoCache) (result : StoredResult)
    (opened : conn.opened = true) (synced : conn.pending = none)
    (replied : server.run (cstr sql) db = (.rows result, db')) :
    readsCells (F := F) result (conn.query server queryDBFieldInfo sql mode db cache).1 ↔
      readable result (columnInfos queryDBFieldInfo cache result.fields).1 := by
  rw [← readResult_cells_iff (F := F) cache result mode]
  simp [MysqlConnect.query, MysqlConnect.queryRes, MysqlConnect.mysqlRealQuery,
    MysqlConnect.mysqlStoreResult, opened, synced, replied]

end Cells

/-- Two rows of one `VARCHAR` column; the bytes behind each cell happen to be `#`. -/
def nameTable (a b : Bytes) (small : max a.length b.length < 2 ^ 64) : StoredResult where
  fields := [⟨some ⟨ascii "player", by decide⟩, some ⟨ascii "name", by decide⟩, .varString, 0, 128,
    UInt64.ofNat (max a.length b.length), none⟩]
  rows := [[some ⟨a, fun _ => 35⟩], [some ⟨b, fun _ => 35⟩]]
  nonempty := by simp
  few := by simp
  rect := by simp
  maxLength i h := by
    have first : i = 0 := by simpa using h
    subst first
    have whole : (UInt64.ofNat (max a.length b.length)).toNat = max a.length b.length :=
      UInt64.toNat_ofNat_of_lt' small
    simpa [columnMax, cellLength] using whole

/-- A server that answers every statement with one result set. -/
def answers (result : StoredResult) : Server Unit := ⟨fun _ db => (.rows result, db)⟩

theorem nameTable_oneLength {a b : Bytes} {small : max a.length b.length < 2 ^ 64}
    (same : a.length = b.length) (short : b.length < 2 ^ 32) :
    oneLength (nameTable a b small).rows 0 := by
  have lengths : ∀ row ∈ (nameTable a b small).rows, ∀ c, row.getD 0 none = some c →
      c.bytes.length = b.length := by
    intro row member c cell
    simp only [nameTable, List.mem_cons, List.not_mem_nil, or_false] at member
    rcases member with rfl | rfl
    · cases cell
      exact same
    · cases cell
      rfl
  intro row member c cell
  refine ⟨by rw [lengths row member c cell]; exact short, fun row' member' c' cell' => ?_⟩
  rw [lengths row member c cell, lengths row' member' c' cell']

theorem query_cells_nameTable :
    readsCells (F := Unit) (nameTable (ascii "ab") (ascii "cd") (by decide))
      ((MysqlConnect.mk true none).query (answers (nameTable (ascii "ab") (ascii "cd") (by decide)))
        queryDBFieldInfo (ascii "select name from player") .read () []).1 := by
  refine (query_cells_iff _ _ .read _ () () [] (nameTable (ascii "ab") (ascii "cd") (by decide))
    rfl rfl rfl).mpr ⟨by decide, fun c h _ => ?_⟩
  have first : c = 0 := by simpa [nameTable] using h
  subst first
  exact ⟨fun _ => ⟨_, rfl, rfl⟩, nameTable_oneLength rfl (by decide)⟩

/-- With a longer cell in the column the first row's `a` comes back with its
terminator, as two bytes. -/
theorem query_cells_ragged :
    ∃ (recSet : Recordset Unit) (newRec : Record Unit),
      ((MysqlConnect.mk true none).query (answers (nameTable (ascii "a") (ascii "bb") (by decide)))
        queryDBFieldInfo (ascii "select name from player") .read () []).1 = .ok (some recSet) ∧
      recSet[0]? = some (some newRec) ∧ newRec.getStr 0 = .ok [97, 0] ∧
      ¬ readsCells (nameTable (ascii "a") (ascii "bb") (by decide)) (.ok (some recSet)) := by
  refine ⟨_, _, rfl, rfl, rfl, fun reads => ?_⟩
  obtain ⟨newRec, at_row, str⟩ := reads 0 (by decide) 0 (by decide) rfl
  cases at_row
  exact absurd str (by decide)

end LlbcDatabase
