import LlbcDatabase.RecordTable
import LlbcDatabase.StatementMeaning
import LlbcDatabase.TableServer

/-! Records as objects over the rows of a table: a record holds the values of its object and
flags the columns that were set, its setters set the object, and its edits write the object. -/

namespace LlbcDatabase

open CText SqlText SqlUtil ObjectStore RecordWriteBack

variable {F : Type}

section Settings

def DBFieldInfo.wrap (info : DBFieldInfo) (v : Int) : Int :=
  if info.attr &&& UNSIGNED_FLAG = 0 then v.bmod (2 ^ intBits info.type)
  else v % 2 ^ intBits info.type

variable [CDouble F]

def DBFieldInfo.stored (info : DBFieldInfo) : Setting F → Option Literal
  | .int v => if isInteger info.type then some (.int (info.wrap v.toInt)) else none
  | .double v => if isInteger info.type then some (.int (info.wrap (CDouble.toInt v).toInt)) else none
  | .str v => if isText info.type then some (.text v.bytes) else none
  | .blob v len => if isText info.type then some (.text (v.read len.toNat)) else none

theorem literal_wrap {info : DBFieldInfo} {kind : FieldKind}
    (created : FieldFactory.createKind info = some kind) (integer : isInteger info.type = true)
    (v : Int64) : kind.literal (kind.ofInt v : kind.Data F) = .int (info.wrap v.toInt) := by
  have whole := toNat_toUInt64 v
  unfold FieldFactory.createKind at created
  unfold DBFieldInfo.wrap
  by_cases unsigned : info.attr &&& UNSIGNED_FLAG = 0
  · cases type : info.type <;> simp only [type, isInteger, Bool.false_eq_true] at integer <;>
      simp only [type, unsigned, if_true, Option.some.injEq] at created <;> subst created
    · simp [FieldKind.ofInt, FieldKind.literal, unsigned, intBits]
    · simp [FieldKind.ofInt, FieldKind.literal, unsigned, intBits]
    · simp [FieldKind.ofInt, FieldKind.literal, unsigned, intBits]
    · simp [FieldKind.ofInt, FieldKind.literal, unsigned, intBits]
  · cases type : info.type <;> simp only [type, isInteger, Bool.false_eq_true] at integer <;>
      simp only [type, unsigned, if_false, Option.some.injEq] at created <;> subst created <;>
        simp [FieldKind.ofInt, FieldKind.literal, unsigned, intBits] <;> omega

theorem set_stored {f g : BaseField F} {s : Setting F} (exact_ : isExact f.info.type = true)
    (done : f.set s = .ok g) : f.info.stored s = some g.edit.value := by
  obtain ⟨val, converted, rfl⟩ := map_ok.mp done
  have created := f.created
  by_cases text : isText f.info.type = true
  · have str := (FieldFactory.createKind_str f.info).mpr text
    obtain ⟨info, kind, _, old, changed⟩ := f
    obtain rfl : kind = .str := Option.some.inj (created.symm.trans str)
    cases s with
    | int | double => cases converted
    | str v =>
      cases converted
      simp only at text
      simp [DBFieldInfo.stored, text, BaseField.tagChanged, BaseField.edit, FieldKind.literal]
    | blob v len =>
      cases converted
      simp only at text
      simp [DBFieldInfo.stored, text, BaseField.tagChanged, BaseField.edit, FieldKind.literal]
  · have integer : isInteger f.info.type = true := by simpa [isExact, text] using exact_
    have notStr : f.kind ≠ .str := fun str => text ((FieldFactory.createKind_str f.info).mp (str ▸ created))
    have notDouble : f.kind ≠ .dbl := kind_exact exact_
    have wraps := fun v => literal_wrap (F := F) created integer v
    obtain ⟨info, kind, _, old, changed⟩ := f
    simp only at integer wraps notStr notDouble
    cases s with
    | int v =>
      have number : kind.convert (.int v : Setting F) = .ok (kind.ofInt v) := by
        cases kind <;> first | rfl | exact absurd rfl notStr
      cases number.symm.trans converted
      simp [DBFieldInfo.stored, integer, BaseField.tagChanged, BaseField.edit, wraps]
    | double v =>
      have number : kind.convert (.double v : Setting F) = .ok (kind.ofInt (CDouble.toInt v)) := by
        cases kind <;> first | rfl | exact absurd rfl notStr | exact absurd rfl notDouble
      cases number.symm.trans converted
      simp [DBFieldInfo.stored, integer, BaseField.tagChanged, BaseField.edit, wraps]
    | str | blob => cases kind <;> first | exact absurd rfl notStr | cases converted

end Settings

section Represents

variable [CDouble F]

/-- A record of the table: a field for each column with the object's value of it, which is
flagged when the object's column was set. -/
structure Represents (schema : Schema) (record : Record F) (o : Object Bytes Literal) : Prop where
  table : record.tableName = schema.table
  key : keyIdx record = schema.key
  editable : o.editable = decide (record.mode = .edit)
  names : record.fieldName2Idx = writeNames (fun _ => none) 0 schema.columns
  filled : record.fields = (cells record).map some
  infos : (cells record).map (·.info) = schema.columns
  value : ∀ f ∈ cells record, o.value (columnName f) = f.edit.value
  changed : ∀ f ∈ cells record, f.changed = true ↔ columnName f ∈ o.dirty
  dirty : ∀ i ∈ o.dirty, ∃ f ∈ cells record, columnName f = i

namespace Represents

variable {schema : Schema} {record : Record F} {o : Object Bytes Literal}

theorem column (h : Represents schema record o) {f : BaseField F} (member : f ∈ cells record) :
    f.info ∈ schema.columns := by
  rw [← h.infos]
  exact List.mem_map_of_mem member

theorem distinct (h : Represents schema record o) : ((cells record).map columnName).Nodup := by
  have names := schema.distinct
  rw [← h.infos, List.map_map] at names
  exact names

theorem keyField (h : Represents schema record o) : ∃ f ∈ cells record,
    record.getField (u32 (keyIdx record)) = .ok f ∧ f.info = schema.keyColumn := by
  have inside := schema.inside
  have few := schema.few
  have length : (cells record).length = schema.columns.length := by rw [← h.infos, List.length_map]
  have index : u32 (keyIdx record) = schema.key := by
    rw [h.key, u32]
    omega
  have at_key : (cells record)[schema.key]? = some (cells record)[schema.key] :=
    List.getElem?_eq_getElem (by omega)
  have info := congrArg (·[schema.key]?) h.infos
  simp only [List.getElem?_map, at_key, Option.map_some, List.getElem?_eq_getElem inside,
    Option.some.injEq] at info
  exact ⟨_, List.getElem_mem _, by rw [index]; exact (getField_cells h.filled).mpr at_key, info⟩

theorem keyed (h : Represents schema record o) : noKey record = false := by
  have key := h.key
  simp [noKey, key]

theorem comparison (h : Represents schema record o) {k : Int}
    (named : o.row schema.layout = some k) (small : k < 2 ^ 63) :
    keyComparison record = .ok (some (schema.keyColumn.name, .int k)) := by
  obtain ⟨f, member, at_key, info⟩ := h.keyField
  have integer : isInteger f.info.type = true := by
    rw [info]
    exact schema.integer
  have value : f.edit.value = .int k := by
    have own : columnName f = schema.keyName := by rw [columnName, info]; rfl
    rw [← h.value f member, own]
    exact Schema.row_iff.mp named
  obtain ⟨i, read, same⟩ := getInt_integer f integer value
  rw [keyComparison_of_key at_key, keyLiteral, if_pos (isFieldNum_of_isInteger integer), read]
  simp [Except.map, same.mpr small, info]

theorem assign_edits (h : Represents schema record o) (row : TableRow) :
    assign (edits (cells record)) row = o.write schema.layout row := by
  have own : ∀ a ∈ edits (cells record), ∃ f ∈ cells record, f.edit = a ∧ columnName f ∈ o.dirty := by
    intro a member
    obtain ⟨f, inside, rfl⟩ := List.mem_map.mp member
    obtain ⟨inside, changed⟩ := List.mem_filter.mp inside
    exact ⟨f, inside, rfl, (h.changed f inside).mp changed⟩
  funext name
  unfold assign
  cases found : (edits (cells record)).reverse.find? fun a => a.name.map toLower = name with
  | some a =>
    have member := List.mem_reverse.mp (List.mem_of_find?_eq_some found)
    have called := List.find?_some found
    obtain ⟨f, inside, rfl, dirty⟩ := own a member
    have same : columnName f = name := of_decide_eq_true called
    rw [← same, Object.write_dirty schema.layout dirty, h.value f inside]
    rfl
  | none =>
    have untouched : name ∉ o.dirty := by
      intro dirty
      obtain ⟨f, inside, rfl⟩ := h.dirty name dirty
      have changed := (h.changed f inside).mpr dirty
      have listed : f.edit ∈ (edits (cells record)).reverse :=
        List.mem_reverse.mpr (List.mem_map_of_mem (List.mem_filter.mpr ⟨inside, changed⟩))
      have other := List.find?_eq_none.mp found f.edit listed
      exact other (by simp [BaseField.edit, columnName])
    exact (Object.write_other schema.layout untouched row).symm

theorem edits_eq_nil (h : Represents schema record o) : edits (cells record) = [] ↔ o.dirty = ∅ := by
  rw [edits, List.map_eq_nil_iff, List.filter_eq_nil_iff, Finset.eq_empty_iff_forall_notMem]
  constructor
  · intro clean i dirty
    obtain ⟨f, member, rfl⟩ := h.dirty i dirty
    exact clean f member ((h.changed f member).mpr dirty)
  · intro clean f member changed
    exact clean _ ((h.changed f member).mp changed)

theorem keyed_iff (h : Represents schema record o) :
    (∃ f ∈ cells record, columnName f = schema.keyName ∧ f.changed = true) ↔
      schema.keyName ∈ o.dirty := by
  constructor
  · rintro ⟨f, inside, called, changed⟩
    rw [← called]
    exact (h.changed f inside).mp changed
  · intro dirty
    obtain ⟨f, inside, own⟩ := h.dirty _ dirty
    exact ⟨f, inside, own, (h.changed f inside).mpr (own ▸ dirty)⟩

theorem edits_key (h : Represents schema record o) :
    (∃ a ∈ edits (cells record), a.name.map toLower = schema.keyName) ↔ schema.keyName ∈ o.dirty := by
  rw [← h.keyed_iff]
  constructor
  · rintro ⟨a, member, called⟩
    obtain ⟨f, inside, rfl⟩ := List.mem_map.mp member
    obtain ⟨inside, changed⟩ := List.mem_filter.mp inside
    exact ⟨f, inside, called, changed⟩
  · rintro ⟨f, inside, called, changed⟩
    exact ⟨f.edit, List.mem_map_of_mem (List.mem_filter.mpr ⟨inside, changed⟩), called⟩

theorem edits_own (h : Represents schema record o) {k : Int} (named : o.row schema.layout = some k)
    {a : Assignment} (member : a ∈ edits (cells record)) (key : a.name.map toLower = schema.keyName) :
    a.value = .int k := by
  obtain ⟨f, inside, rfl⟩ := List.mem_map.mp member
  have inside := (List.mem_filter.mp inside).1
  have value := h.value f inside
  rw [show columnName f = schema.keyName from key] at value
  rw [← value]
  exact Schema.row_iff.mp named

theorem clsEditFlag (h : Represents schema record o) :
    ∃ after, record.clsEditFlag = .ok after ∧ Represents schema after o.clean := by
  have cleared := Record.clsFlags_some (cells record)
  rw [← h.filled] at cleared
  let fields := ((cells record).map (·.tagChanged false)).map some
  have same : cells { record with fields } = (cells record).map (·.tagChanged false) :=
    cells_of_filled rfl
  refine ⟨{ record with fields }, by rw [Record.clsEditFlag, cleared]; rfl, ?_⟩
  refine ⟨h.table, h.key, h.editable, h.names, ?_, ?_, ?_, ?_, ?_⟩
  · rw [same]
  · rw [same, List.map_map]
    exact h.infos
  · intro f member
    rw [same] at member
    obtain ⟨g, inside, rfl⟩ := List.mem_map.mp member
    exact h.value g inside
  · intro f member
    rw [same] at member
    obtain ⟨g, inside, rfl⟩ := List.mem_map.mp member
    simp [Object.clean, BaseField.tagChanged]
  · exact fun i dirty => absurd dirty (Finset.notMem_empty i)

end Represents

section Setters

/-- The column that a setter call addresses, by its place or by its exact name. -/
def Schema.target (schema : Schema) : UInt32 ⊕ Bytes → Option DBFieldInfo
  | .inl idx => schema.columns[idx.toNat]?
  | .inr name => schema.columns.find? fun c => c.name.bytes = name

/-- The column that a setter call sets, and the value. -/
def Schema.means (schema : Schema) (c : SetterCall F) : Option (Bytes × Literal) :=
  (schema.target c.field).bind fun info => (info.stored c.value).map fun v => (info.lowerName, v)

variable {schema : Schema} {record after : Record F} {o : Object Bytes Literal}

theorem Represents.target (h : Represents schema record o) {field : UInt32 ⊕ Bytes} {i : Nat}
    (addressed : record.target field = .ok i) : schema.target field = schema.columns[i]? := by
  cases field with
  | inl idx =>
    cases addressed
    rfl
  | inr name =>
    have names : (schema.columns.map (·.name)).Nodup := by
      have lower := schema.distinct
      rw [show schema.columns.map (·.lowerName) =
        (schema.columns.map (·.name)).map (·.bytes.map toLower) by rw [List.map_map]; rfl] at lower
      exact lower.of_map _
    simp only [Record.target, Record.getFieldIdx] at addressed
    split at addressed
    case isFalse => cases addressed
    case isTrue noNul =>
      cases found : record.fieldName2Idx ⟨name, noNul⟩ with
      | none => simp [found] at addressed
      | some j =>
        obtain rfl : j = i := by simpa [found] using addressed
        rw [h.names] at found
        have listed : (⟨name, noNul⟩ : CString) ∈ schema.columns.map (·.name) := by
          by_contra other
          rw [writeNames_other other] at found
          cases found
        obtain ⟨c, member, called⟩ := List.mem_map.mp listed
        obtain ⟨k, inside, rfl⟩ := List.getElem_of_mem member
        have own := (writeNames_iff (fun _ => none) 0 schema.columns).mpr names k inside
        rw [called, found, Option.some.injEq, Nat.zero_add] at own
        subst own
        rw [List.getElem?_eq_getElem inside]
        have same : schema.columns[j].name.bytes = name := congrArg CString.bytes called
        cases first : schema.columns.find? fun c => c.name.bytes = name with
        | none =>
          have missing := List.find?_eq_none.mp first _ member
          exact absurd same (by simpa using missing)
        | some d =>
          have matched := List.find?_some first
          have equal : d.name = schema.columns[j].name := by
            rw [CString.mk.injEq]
            rw [same]
            simpa using matched
          rw [Schema.target, first,
            List.inj_on_of_nodup_map names (List.mem_of_find?_eq_some first) member equal]

omit [CDouble F] in
theorem mem_set_column {fields : List (BaseField F)} {i : Nat} {old new f : BaseField F}
    (distinct : (fields.map columnName).Nodup) (at_i : fields[i]? = some old)
    (member : f ∈ fields.set i new) : f = new ∨ f ∈ fields ∧ columnName f ≠ columnName old := by
  obtain ⟨j, at_j⟩ := List.mem_iff_getElem?.mp member
  by_cases here : i = j
  · subst here
    rw [List.getElem?_set_self (List.getElem?_eq_some_iff.mp at_i).1] at at_j
    exact .inl (Option.some.inj at_j).symm
  · rw [List.getElem?_set_ne here] at at_j
    refine .inr ⟨List.mem_of_getElem? at_j, fun same => here ?_⟩
    have first : (fields.map columnName)[i]? = some (columnName old) := by
      rw [List.getElem?_map, at_i, Option.map_some]
    have second : (fields.map columnName)[j]? = some (columnName old) := by
      rw [List.getElem?_map, at_j, Option.map_some, same]
    exact (List.getElem?_inj (List.getElem?_eq_some_iff.mp first).1 distinct).mp
      (first.trans second.symm)

theorem Represents.call (h : Represents schema record o) {c : SetterCall F}
    (done : record.call c = .ok after) :
    ∃ i v, schema.means c = some (i, v) ∧ Represents schema after (o.set i v) := by
  obtain ⟨idx, old, new, addressed, at_idx, stored, rfl⟩ := Record.call_ok done
  have at_cells : (cells record)[idx]? = some old :=
    (getField_cells h.filled).mp (Record.getField_ok.mpr at_idx)
  have member := List.mem_of_getElem? at_cells
  have at_column : schema.columns[idx]? = some old.info := by
    rw [← h.infos, List.getElem?_map, at_cells, Option.map_some]
  have value := set_stored (schema.exact_ _ (h.column member)) stored
  obtain ⟨info, -, tagged⟩ := BaseField.set_ok stored
  have own : columnName new = columnName old := by rw [columnName, info]; rfl
  refine ⟨columnName old, new.edit.value, ?_, ?_⟩
  · rw [Schema.means, h.target addressed, at_column, Option.bind_some, value, Option.map_some]
    rfl
  have filled : record.fields.set idx (some new) = ((cells record).set idx new).map some := by
    rw [List.map_set, ← h.filled]
  have same : cells { record with fields := record.fields.set idx (some new) } =
      (cells record).set idx new := cells_of_filled filled
  refine ⟨h.table, h.key, h.editable, h.names, ?_, ?_, ?_, ?_, ?_⟩
  · rw [same]
    exact filled
  · obtain ⟨bound, info_at⟩ := List.getElem?_eq_some_iff.mp at_column
    rw [same, List.map_set, h.infos, info, ← info_at, List.set_getElem_self]
  · intro f inside
    rw [same] at inside
    rcases mem_set_column h.distinct at_cells inside with rfl | ⟨inside, other⟩
    · rw [own]
      exact Function.update_self ..
    · rw [← h.value f inside]
      exact Function.update_of_ne other ..
  · intro f inside
    rw [same] at inside
    rcases mem_set_column h.distinct at_cells inside with rfl | ⟨inside, other⟩
    · simp [Object.set, own, tagged]
    · rw [h.changed f inside, Object.set, Finset.mem_insert, or_iff_right other]
  · intro i dirty
    have inside : new ∈ (cells record).set idx new :=
      List.mem_set (List.getElem?_eq_some_iff.mp at_cells).1 new
    rw [same]
    rcases Finset.mem_insert.mp dirty with rfl | before
    · exact ⟨new, inside, own⟩
    · obtain ⟨f, member', rfl⟩ := h.dirty i before
      by_cases here : f = old
      · exact ⟨new, inside, by rw [own, here]⟩
      · obtain ⟨j, at_j⟩ := List.mem_iff_getElem?.mp member'
        have elsewhere : idx ≠ j := by
          rintro rfl
          rw [at_cells, Option.some.injEq] at at_j
          exact here at_j.symm
        exact ⟨f, List.mem_of_getElem? (by rw [List.getElem?_set_ne elsewhere, at_j]), rfl⟩

end Setters

section Loading

variable {schema : Schema} {cache cache' : FieldInfoCache}

/-- What the cache says of the columns of the table is what they are. -/
def Schema.Fresh (schema : Schema) (cache : FieldInfoCache) : Prop :=
  ∀ c ∈ schema.columns, ∀ v, cache.lookup (MysqlField.findKey schema.table c.name) = some v → v = c

omit [CDouble F] in
theorem Schema.findKey_injective {c d : DBFieldInfo} (first : c ∈ schema.columns)
    (second : d ∈ schema.columns)
    (same : MysqlField.findKey schema.table c.name = MysqlField.findKey schema.table d.name) :
    c = d := by
  have short := schema.short
  have dot : (ascii ".").length = 1 := rfl
  have whole : ∀ e ∈ schema.columns, MysqlField.findKey schema.table e.name =
      (schema.table.bytes ++ ascii ".").map toLower ++ e.lowerName := by
    intro e member
    have bound := (schema.names e member).2
    rw [MysqlField.findKey, snprintf_eq_self (by simp only [List.length_append]; omega),
      List.map_append]
    rfl
  rw [whole c first, whole d second, List.append_cancel_left_eq] at same
  exact List.inj_on_of_nodup_map schema.distinct first second same

omit [CDouble F] in
theorem Schema.Describes.look {c : DBFieldInfo} {f : MysqlField} (described : schema.Describes c f)
    (member : c ∈ schema.columns) (fresh : schema.Fresh cache) :
    (queryDBFieldInfo cache f).1 = some c ∧ schema.Fresh (queryDBFieldInfo cache f).2 := by
  have key : f.key = some (MysqlField.findKey schema.table c.name) := by
    rw [MysqlField.key, described.table, described.name]
  have info : f.info = some c := by
    rw [MysqlField.info, described.table, described.name, described.type, described.flags,
      described.length]
  rw [queryDBFieldInfo_some key info]
  have kept : schema.Fresh (MemoTable.memo cache (MysqlField.findKey schema.table c.name) c).2 := by
    intro d inside v found
    rcases MemoTable.memo_source found with old | ⟨same, rfl⟩
    · exact fresh d inside v old
    · exact Schema.findKey_injective member inside same.symm
  exact ⟨congrArg some (kept c member _ (MemoTable.memo_lookup cache _ c)), kept⟩

omit [CDouble F] in
theorem Schema.columnInfos {columns : List DBFieldInfo} {fields : List MysqlField}
    (described : List.Forall₂ schema.Describes columns fields)
    (members : ∀ c ∈ columns, c ∈ schema.columns) (fresh : schema.Fresh cache) :
    (columnInfos queryDBFieldInfo cache fields).1 = some columns ∧
      schema.Fresh (columnInfos queryDBFieldInfo cache fields).2 := by
  induction described generalizing cache with
  | nil => exact ⟨rfl, fresh⟩
  | @cons c f columns fields first rest ih =>
    have member := members c (.head _)
    obtain ⟨found, kept⟩ := first.look member fresh
    have later := ih (fun d inside => members d (.tail _ inside)) kept
    have created : ∃ kind, FieldFactory.createKind c = some kind := by
      by_cases text : isText c.type = true
      · exact ⟨.str, (FieldFactory.createKind_str c).mpr text⟩
      · exact createKind_integer (by simpa [isExact, text] using schema.exact_ c member)
    obtain ⟨kind, created⟩ := created
    cases looked : queryDBFieldInfo cache f with
    | mk info next =>
      rw [looked] at found later
      simp only at found later
      subst found
      simp [LlbcDatabase.columnInfos, looked, created, later]

theorem loaded_value {c : DBFieldInfo} {kind : FieldKind} (exact_ : isExact c.type = true)
    (created : FieldFactory.createKind c = some kind) {cell : Cell} (held : ∀ v ∈ cell, c.Holds v)
    {b : Option Buffer} (sent : b.map (·.bytes) = cell.map cellBytes) {len : UInt32}
    (own : ∀ x, b = some x → x.bytes.length < 2 ^ 32 → len.toNat = x.bytes.length) :
    ((⟨c, kind, created, kind.zero, false⟩ : BaseField F).setValue b len).2.edit.value =
      cell.getD c.zero := by
  by_cases text : isText c.type = true
  · have str := (FieldFactory.createKind_str c).mpr text
    obtain rfl : kind = .str := Option.some.inj (created.symm.trans str)
    have read := FieldKind.getStr_setValue (F := F) created b len []
    rw [if_pos text] at read
    cases b with
    | none =>
      obtain rfl : cell = none := by simpa using sent.symm
      rw [Option.getD_none, DBFieldInfo.zero, if_pos text]
      exact congrArg Literal.text (Except.ok.inj read)
    | some x =>
      obtain ⟨v, rfl, bytes⟩ : ∃ v, cell = some v ∧ cellBytes v = x.bytes := by
        cases cell with
        | none => cases sent
        | some v => exact ⟨v, rfl, (Option.some.inj sent).symm⟩
      have holds := held v rfl
      cases v with
      | int v =>
        have integer := holds.1
        cases type : c.type <;> simp [type, isText, isInteger] at text integer
      | text content =>
        have bound := c.len.toNat_lt
        have short := holds.2
        have same : x.bytes = content := bytes.symm
        have length := own x rfl (by rw [same]; omega)
        simp only at read
        rw [(x.read_eq_iff _).mpr length, same] at read
        exact congrArg Literal.text (Except.ok.inj read)
  · have integer : isInteger c.type = true := by simpa [isExact, text] using exact_
    have reads := readsInt_of_isInteger integer
    cases b with
    | none =>
      obtain rfl : cell = none := by simpa using sent.symm
      have zero : (kind.setValue c.type none len kind.zero : Bool × kind.Data F).2 = kind.ofInt 0 := by
        have other := not_str_of_readsInt created reads
        cases kind <;> first
          | exact absurd rfl other
          | (cases type : c.type <;> first | rfl | simp [type, readsInt] at reads)
      have range : c.wrap 0 = 0 := by
        unfold DBFieldInfo.wrap
        split <;> simp
      have literal := literal_wrap (F := F) created integer 0
      rw [show (0 : Int64).toInt = 0 from rfl, range] at literal
      simp [BaseField.edit, BaseField.setValue, zero, literal, DBFieldInfo.zero, text]
    | some x =>
      obtain ⟨v, rfl, bytes⟩ : ∃ v, cell = some v ∧ cellBytes v = x.bytes := by
        cases cell with
        | none => cases sent
        | some v => exact ⟨v, rfl, (Option.some.inj sent).symm⟩
      have holds := held v rfl
      cases v with
      | int v =>
        have same : x.bytes = signedDecimal v := bytes.symm
        rw [load_int created reads, same, cstr_eq_self (noNul_signedDecimal v), atoll_signedDecimal]
        have literal := literal_clamp (F := F) created integer holds.2.1
        rw [min_eq_left (by have small := holds.2.2; omega)] at literal
        exact literal
      | text content => exact absurd (isText_of_keepsText holds.1) text

omit [CDouble F] in
theorem Schema.keyColumn_fields {fields : List MysqlField}
    (described : List.Forall₂ schema.Describes schema.columns fields) :
    SqlUtil.keyColumn fields = some schema.key := by
  have length := described.length_eq
  have flags : ∀ {flag : UInt32} {k : Nat}, lastColumn flag fields = some k →
      ∃ h : k < schema.columns.length, schema.columns[k].attr &&& flag ≠ 0 := by
    intro flag k last
    obtain ⟨f, at_k, flagged⟩ := lastColumn_flagged last
    have bound := (List.getElem?_eq_some_iff.mp at_k).1
    have inside : k < schema.columns.length := by omega
    have own := described.get inside bound
    rw [List.getElem?_eq_getElem bound, Option.some.injEq] at at_k
    refine ⟨inside, ?_⟩
    rw [List.get_eq_getElem, List.get_eq_getElem, at_k] at own
    rw [← own.flags]
    exact flagged
  have bound : schema.key < fields.length := length ▸ schema.inside
  have own := described.get schema.inside bound
  have primary : ∃ f ∈ fields, f.flags &&& PRI_KEY_FLAG ≠ 0 := by
    refine ⟨fields[schema.key], List.getElem_mem bound, ?_⟩
    rw [List.get_eq_getElem, List.get_eq_getElem] at own
    rw [own.flags]
    exact (schema.primary schema.key schema.inside).mpr rfl
  obtain ⟨k, chosen⟩ := keyColumn_isSome primary
  rw [chosen]
  rw [SqlUtil.keyColumn, Option.or_eq_some_iff] at chosen
  rcases chosen with last | ⟨-, last⟩
  · obtain ⟨inside, flagged⟩ := flags last
    rw [schema.auto k inside flagged]
  · obtain ⟨inside, flagged⟩ := flags last
    rw [(schema.primary k inside).mp flagged]

structure Loads (schema : Schema) (row : Option Row) (f : MysqlField) (j : Nat) (cell : Cell) :
    Prop where
  sent : (cellValue row j f).map (·.bytes) = cell.map cellBytes
  length : ∀ x, cellValue row j f = some x → x.bytes.length < 2 ^ 32 →
    (cellLen none j f).toNat = x.bytes.length

/-- A record made of a described row, or of none, is the object loaded from its cells. -/
theorem Schema.createRecord {fields : List MysqlField}
    (described : List.Forall₂ schema.Describes schema.columns fields) (fresh : schema.Fresh cache)
    (row : Option Row) (mode : Mode) (read : TableRow)
    (held : ∀ c ∈ schema.columns, ∀ v ∈ read c.lowerName, c.Holds v)
    (loads : ∀ (j : Nat) (h : j < schema.columns.length) (h' : j < fields.length),
      Loads schema row fields[j] j (read schema.columns[j].lowerName)) :
    ∃ (record : Record F) (cache' : FieldInfoCache),
      LlbcDatabase.createRecord queryDBFieldInfo cache row fields none mode = (some record, cache') ∧
      schema.Fresh cache' ∧
      Represents schema record (Object.load schema.layout (decide (mode = .edit)) read) := by
  obtain ⟨infos, kept⟩ := Schema.columnInfos described (fun _ member => member) fresh
  have kinds := columnInfos_kinds infos
  have whole : LlbcDatabase.columnInfos queryDBFieldInfo cache fields =
      (some schema.columns, (LlbcDatabase.columnInfos queryDBFieldInfo cache fields).2) :=
    Prod.ext infos rfl
  obtain ⟨record, made, filled⟩ := createRecord_filled (F := F) whole row none mode
  have length := described.length_eq
  have few := schema.few
  obtain ⟨fs, same, num, unchanged⟩ := loaded_fields made
  have own : cells record = fs := cells_of_filled same
  have at_j : ∀ (j : Nat) (h : j < schema.columns.length), ∃ (kind : FieldKind)
      (created : FieldFactory.createKind schema.columns[j] = some kind), (cells record)[j]? =
        some ((⟨schema.columns[j], kind, created, kind.zero, false⟩ : BaseField F).setValue
          (cellValue row j fields[j]) (cellLen none j fields[j])).2 := by
    intro j h
    obtain ⟨kind, created⟩ := kinds _ (List.getElem_mem h)
    have column := filled.column j (by omega) h
    rw [Nat.zero_add, madeField, FieldFactory.createField_some created, same, List.getElem?_map]
      at column
    refine ⟨kind, created, ?_⟩
    rw [own]
    exact Option.map_injective (Option.some_injective _) column
  have infos_eq : (cells record).map (·.info) = schema.columns := by
    refine List.ext_getElem (by rw [List.length_map, own, num, length]) fun j h h' => ?_
    obtain ⟨kind, created, found⟩ := at_j j h'
    rw [List.getElem_map, (List.getElem?_eq_some_iff.mp found).2]
    rfl
  have table : recordTable fields = schema.table := by
    have inside := schema.inside
    have first := described.get (show 0 < schema.columns.length by omega) (by omega)
    rw [List.get_eq_getElem, List.get_eq_getElem] at first
    rw [recordTable, List.head?_eq_getElem?, List.getElem?_eq_getElem (by omega), Option.bind_some,
      first.table]
  refine ⟨record, _, made, kept, ?_, ?_, ?_, ?_, ?_, infos_eq, ?_, ?_, ?_⟩
  · rw [filled.tableName]
    exact table
  · exact (loaded_keyIdx (by omega) made (Schema.keyColumn_fields described)).1
  · rw [filled.mode]
    rfl
  · exact createFields_names infos (congrArg Prod.fst made)
  · rw [own]
    exact same
  · intro f member
    obtain ⟨j, at_f⟩ := List.mem_iff_getElem?.mp member
    have bound : j < schema.columns.length := by
      have inside := (List.getElem?_eq_some_iff.mp at_f).1
      rw [own, num] at inside
      omega
    obtain ⟨kind, created, found⟩ := at_j j bound
    have inside := List.getElem_mem bound
    obtain ⟨sent, exactly⟩ := loads j bound (by omega)
    rw [at_f, Option.some.injEq] at found
    subst found
    have value := loaded_value (F := F) (schema.exact_ _ inside) created
      (held _ inside) sent exactly
    rw [value, ← Schema.zero_of_mem inside]
    rfl
  · intro f member
    rw [own] at member
    simp [unchanged f member, Object.load]
  · exact fun i dirty => absurd dirty (Finset.notMem_empty i)

end Loading

end Represents

end LlbcDatabase
