import LlbcDatabase.Library.WriteBack
import LlbcDatabase.RecordWrites

/-! A record that is edited and updated over and over, next to the row it was loaded
from. The record's fields are the cells of a write-back cache, its flags say which
of them are unsaved, and an update that succeeds is a save. -/

namespace LlbcDatabase

open CText SqlText SqlUtil Transition

variable {F : Type} [CDouble F]

section Texts

def isFloating : FieldType → Bool
  | .float | .double => true
  | _ => false

def isWritable (type : FieldType) : Bool := isExact type || isFloating type

/-- A value as a statement has it. -/
def FieldKind.text : (k : FieldKind) → k.Data F → Bytes
  | .dbl, v => CDouble.format v
  | k, v => (k.literal v).print

theorem FieldKind.text_literal {k : FieldKind} (other : k ≠ .dbl) (v : k.Data F) :
    k.text v = (k.literal v).print := by
  cases k <;> first | exact absurd rfl other | rfl

/-- What an update has to write of a field. -/
def BaseField.assignment (f : BaseField F) : Bytes := setText f.info.name.bytes (f.kind.text f.val)

namespace SqlUtil

theorem named_eq (name : CString) (value : Bytes) : named name value = setText name.bytes value := by
  simp [named, setText, ascii]

omit [CDouble F] in
theorem kind_floating {f : BaseField F} (floating : isFloating f.info.type = true) :
    f.kind = .dbl := by
  have created := f.created
  unfold FieldFactory.createKind at created
  cases type : f.info.type <;> simp only [type, isFloating, Bool.false_eq_true] at floating <;>
    simp only [type, ite_self, Option.some.injEq] at created <;> exact created.symm

theorem assignment_exact {f : BaseField F} (exact_ : isExact f.info.type = true) :
    f.assignment = f.edit.print := by
  rw [BaseField.assignment, FieldKind.text_literal (kind_exact exact_)]
  rfl

theorem buildFormatSql_floating (handle : Mysql) {f : BaseField F}
    (floating : isFloating f.info.type = true) (formatSize : Nat) :
    buildFormatSql handle f formatSize = .ok (snprintf formatSize f.assignment) := by
  have double := kind_floating floating
  obtain ⟨info, kind, created, val, changed⟩ := f
  obtain rfl : kind = .dbl := double
  cases type : info.type <;> simp only [type, isFloating, Bool.false_eq_true] at floating <;>
    simp [buildFormatSql, type, BaseField.getDouble, FieldKind.getDouble, bind, Except.bind, pure,
      Except.pure, named_eq, BaseField.assignment, FieldKind.text]

theorem buildFormatSql_assignment (handle : Mysql) {f : BaseField F}
    (writable : isWritable f.info.type = true) {formatSize : Nat}
    (fits : f.assignment.length < formatSize) :
    buildFormatSql handle f formatSize =
      if overruns f then .error .overrun else .ok f.assignment := by
  by_cases exact_ : isExact f.info.type = true
  · rw [assignment_exact exact_] at fits ⊢
    exact buildFormatSql_edit handle exact_ fits
  · have floating : isFloating f.info.type = true := by simpa [isWritable, exact_] using writable
    have safe : overruns f = false := by
      cases type : f.info.type <;> simp [type, isFloating] at floating <;>
        simp [overruns, type, isQuoted]
    rw [buildFormatSql_floating handle floating, snprintf_eq_self fits, safe]
    rfl

/-- The digits of a `double` are a number as `%f` prints it. -/
def printed (f : BaseField F) : Bool := !isFloating f.info.type || numeral (f.kind.text f.val)

theorem quiet_text {f : BaseField F} (writable : isWritable f.info.type = true)
    (digits : printed f = true) : Quiet (f.kind.text f.val) := by
  by_cases floating : isFloating f.info.type = true
  · exact quiet_numeral (by simpa [printed, floating] using digits)
  · have exact_ : isExact f.info.type = true := by simpa [isWritable, floating] using writable
    rw [FieldKind.text_literal (kind_exact exact_)]
    exact quiet_literal _

theorem noNul_numeral {text : Bytes} (number : numeral text = true) : 0 ∉ text := by
  have zero : numeralByte 0 = false := by decide
  unfold numeral at number
  split at number
  case h_1 c rest =>
    simp only [Bool.and_eq_true, List.all_eq_true] at number
    intro member
    rcases List.mem_cons.mp member with same | member
    · cases same
    · rcases List.mem_cons.mp member with rfl | member
      · rw [zero] at number
        cases number.1
      · have byte := number.2 0 member
        rw [zero] at byte
        cases byte
  case h_2 =>
    intro member
    have byte := List.all_eq_true.mp number 0 member
    rw [zero] at byte
    cases byte

theorem noNul_assignment {f : BaseField F} (writable : isWritable f.info.type = true)
    (digits : printed f = true) : 0 ∉ f.assignment := by
  by_cases floating : isFloating f.info.type = true
  · have noNul := noNul_numeral (by simpa [printed, floating] using digits)
    simp [BaseField.assignment, setText, f.info.name.noNul, noNul]
  · have exact_ : isExact f.info.type = true := by simpa [isWritable, floating] using writable
    rw [assignment_exact exact_]
    exact noNul_print f.info.name.noNul

theorem noNul_commaList {texts : List Bytes} (each : ∀ text ∈ texts, 0 ∉ text) :
    0 ∉ commaList texts := by
  cases texts with
  | nil => exact List.not_mem_nil
  | cons text rest =>
    simp only [commaList, List.mem_append, List.mem_flatMap, List.mem_cons, not_or, not_exists,
      not_and]
    exact ⟨each text (.head _), fun later member => ⟨by decide, each later (.tail _ member)⟩⟩

end SqlUtil

end Texts

namespace RecordWriteBack

/-- A column by its name, whatever the case. -/
def columnName (f : BaseField F) : Bytes := f.info.name.bytes.map toLower

def cells (record : Record F) : List (BaseField F) := record.fields.filterMap id

def keyPrinted (record : Record F) : Bool :=
  match record.getField (u32 (keyIdx record)) with
  | .ok key => printable key.info.type
  | .error _ => false

/-- An update of the record is written as it is meant: its key can be printed; and if
fields are changed, the columns differ, the names need no escapes, and the changed
fields fit the buffers that they are written in. -/
def Saveable (record : Record F) : Prop :=
  keyPrinted record = true ∧ ∀ f ∈ cells record, f.changed = true →
    ((cells record).map columnName).Nodup ∧ 96 ∉ record.tableName.bytes ∧
      96 ∉ f.info.name.bytes ∧ f.assignment.length < bufferSize (cells record) ∧
      overruns f = false ∧ printed f = true

instance (record : Record F) : Decidable (Saveable record) :=
  inferInstanceAs (Decidable (_ ∧ ∀ f ∈ cells record, _ → _))

section Update

variable {record : Record F}

theorem buildCondition_printed (key : keyPrinted record = true) :
    noKey record = false ∧ ∃ cond, buildCondition record [] = .ok (true, cond) := by
  unfold keyPrinted at key
  split at key
  case h_1 field at_key =>
    obtain ⟨literal, value⟩ := (keyLiteral_ok_iff field).mpr key
    refine ⟨noKey_of_getField at_key, whereText (field.info.name, literal), ?_⟩
    rw [buildCondition_eq, keyComparison_of_key at_key, value]
    rfl
  case h_2 => cases key

def dirty (record : Record F) : List (BaseField F) := (cells record).filter (·.changed)

def operation (record : Record F) : Bytes := commaList ((dirty record).map (·.assignment))

theorem buildOperation_saveable (handle : Mysql) (filled : record.fields = (cells record).map some)
    (writable : ∀ f ∈ cells record, f.changed = true → isWritable f.info.type = true)
    (saveable : Saveable record) :
    buildOperation handle record [] = .ok (true, operation record) ∧
      cstr (operation record) = operation record := by
  have keyed := (buildCondition_printed saveable.1).1
  constructor
  · apply buildOperation_texts filled keyed
    intro f member
    obtain ⟨inside, changed⟩ := List.mem_filter.mp member
    obtain ⟨-, -, -, fits, safe, -⟩ := saveable.2 f inside changed
    refine ⟨by omega, ?_⟩
    rw [buildFormatSql_assignment handle (writable f inside changed) (by omega), safe]
    rfl
  · apply cstr_eq_self
    apply noNul_commaList
    intro text member
    obtain ⟨f, inside, rfl⟩ := List.mem_map.mp member
    obtain ⟨inside, changed⟩ := List.mem_filter.mp inside
    obtain ⟨-, -, -, -, -, digits⟩ := saveable.2 f inside changed
    exact noNul_assignment (writable f inside changed) digits

theorem operation_eq_nil : operation record = [] ↔ dirty record = [] := by
  unfold operation
  cases dirty record with
  | nil => simp [commaList]
  | cons f rest => simp [commaList, BaseField.assignment, setText]

theorem setColumns_saveable (writable : ∀ f ∈ cells record, f.changed = true →
      isWritable f.info.type = true)
    (saveable : Saveable record) (some_ : dirty record ≠ []) (cond : Bytes) :
    setColumns (updateText record.tableName.bytes (operation record) cond) =
      (dirty record).map (·.info.name.bytes) := by
  have facts : ∀ f ∈ dirty record, 96 ∉ record.tableName.bytes ∧ 96 ∉ f.info.name.bytes ∧
      Quiet (f.kind.text f.val) := by
    intro f member
    obtain ⟨inside, changed⟩ := List.mem_filter.mp member
    obtain ⟨-, table, name, -, -, digits⟩ := saveable.2 f inside changed
    exact ⟨table, name, quiet_text (writable f inside changed) digits⟩
  obtain ⟨g, first⟩ := List.exists_mem_of_ne_nil _ some_
  have ticks : ∀ item ∈ (dirty record).map fun f => (f.info.name.bytes, f.kind.text f.val),
      96 ∉ item.1 := by simpa using fun f member => (facts f member).2.1
  have texts : ∀ item ∈ (dirty record).map fun f => (f.info.name.bytes, f.kind.text f.val),
      Quiet item.2 := by simpa using fun f member => (facts f member).2.2
  have names := setColumns_update (facts g first).1 ticks texts (cond ++ ascii " limit 1")
  simpa [updateText, operation, List.map_map, Function.comp_def, BaseField.assignment] using names

theorem update_saveable (handle : Mysql) (mode : record.mode = .edit)
    (filled : record.fields = (cells record).map some)
    (writable : ∀ f ∈ cells record, f.changed = true → isWritable f.info.type = true)
    (saveable : Saveable record) :
    (dirty record = [] ∧ ∀ (S : Type) (query : Bytes → S → Bool × S) (t : S),
      RecordWrites.update query handle record t = .ok (true, record, t)) ∨
    dirty record ≠ [] ∧ ∃ sql, setColumns sql = (dirty record).map (·.info.name.bytes) ∧
      ∀ (S : Type) (query : Bytes → S → Bool × S) (t : S),
        RecordWrites.update query handle record t =
          if (query sql t).1 then
            .ok (true, { record with fields := ((cells record).map (·.tagChanged false)).map some },
              (query sql t).2)
          else .ok (false, record, (query sql t).2) := by
  obtain ⟨-, cond, condition⟩ := buildCondition_printed saveable.1
  have ⟨written, whole⟩ := buildOperation_saveable handle filled writable saveable
  have built := buildUpdateSql_eq condition written []
  rw [whole] at built
  by_cases none : dirty record = []
  · left
    refine ⟨none, fun S query t => ?_⟩
    rw [RecordWrites.update_eq mode built, if_pos (if_pos (operation_eq_nil.mpr none))]
  · right
    rw [if_neg fun empty => none (operation_eq_nil.mp empty)] at built
    refine ⟨none, _, setColumns_saveable writable saveable none cond, fun S query t => ?_⟩
    rw [RecordWrites.update_eq mode built, if_neg (updateText_ne_nil _ _ _), Record.clsEditFlag]
    have cleared := Record.clsFlags_some (cells record)
    rw [← filled] at cleared
    rw [cleared]
    rfl

end Update

section Session

/-- The value of a field, with the type of its instance. -/
abbrev FieldValue (F : Type) := (k : FieldKind) × k.Data F

/-- What the row holds of a field's value is given by `denote`. -/
def value {V : Type} (denote : FieldValue F → V) (f : BaseField F) : V := denote ⟨f.kind, f.val⟩

variable {V : Type} (denote : FieldValue F → V)

def columnValue (record : Record F) (column : Bytes) : Option V :=
  ((cells record).find? fun f => columnName f = column).map (value denote)

/-- A statement that succeeds assigns in the row the columns of its list their values in
the record. One that fails changes nothing. -/
def serve (record : Record F) (succeeds : Bool) (sql : Bytes) (row : Bytes → Option V) :
    Bool × (Bytes → Option V) :=
  (succeeds, if succeeds then fun column =>
      if ((setColumns sql).map (·.map toLower)).contains column then columnValue denote record column
      else row column
    else row)

/-- The record and the row by its columns, with the fields set since the load and those
set since the last update that returned true. -/
structure Session (F V : Type) where
  record : Record F
  row : Bytes → Option V
  written : Finset Nat
  unsaved : Finset Nat

inductive Call (F : Type) where
  | set (c : SetterCall F)
  | update (succeeds : Bool)

/-- A field that an update can write, other than the key. -/
def settable (record : Record F) (i : Nat) : Bool :=
  match record.getField i with
  | .ok f => isWritable f.info.type && i != u32 (keyIdx record)
  | .error _ => false

/-- Setters are called on settable fields. After a fault there is no session. -/
def step (handle : Mysql) : Except Fault (Session F V) → Call F →
    Option (Except Fault (Session F V))
  | .error _, _ => none
  | .ok s, .set c =>
    match s.record.target c.field with
    | .error _ => none
    | .ok i =>
      if settable s.record i then (s.record.call c).toOption.map fun record =>
        .ok { s with record, written := insert i s.written, unsaved := insert i s.unsaved }
      else none
  | .ok s, .update succeeds =>
    some <| (RecordWrites.update (serve denote s.record succeeds) handle s.record s.row).map
      fun (ret, record, row) => { s with record, row, unsaved := if ret then ∅ else s.unsaved }

/-- An update comes when it is written as it is meant. -/
def saves : Except Fault (Session F V) → Call F → Prop
  | .ok s, .update _ => Saveable s.record
  | _, _ => True

instance : (x : Except Fault (Session F V)) → (c : Call F) → Decidable (saves x c)
  | .ok s, .update _ => inferInstanceAs (Decidable (Saveable s.record))
  | .ok _, .set _ => isTrue trivial
  | .error _, _ => isTrue trivial

def columnAt (record : Record F) (i : Nat) : Bytes :=
  match record.getField i with
  | .ok f => columnName f
  | .error _ => []

/-- The session as the cells of a write-back cache. -/
def Session.cells (s : Session F V) : WriteBack.Cells Nat Bytes (Option V) where
  value i := (s.record.getField i).toOption.map (value denote)
  store := s.row
  written := s.written
  unsaved := s.unsaved

end Session

section Invariant

variable {V : Type} {denote : FieldValue F → V} {handle : Mysql} {start : Record F}
  {s t : Session F V}

omit [CDouble F] in
theorem cells_of_filled {record : Record F} {fields : List (BaseField F)}
    (filled : record.fields = fields.map some) : cells record = fields := by
  simp [cells, filled]

structure Intact (start : Record F) (s : Session F V) : Prop where
  frame : Record.SameFrame start s.record
  filled : s.record.fields = (cells s.record).map some
  columns : columnAt s.record = columnAt start
  changed : ∀ i f, s.record.getField i = .ok f → (f.changed = true ↔ i ∈ s.unsaved)
  writable : ∀ f ∈ cells s.record, f.changed = true → isWritable f.info.type = true
  inside : ∀ i ∈ s.written, ∃ f, s.record.getField i = .ok f
  key : ∀ f, start.getField (u32 (keyIdx start)) = .ok f →
    ∃ changed, s.record.getField (u32 (keyIdx start)) = .ok (f.tagChanged changed)

omit [CDouble F] in
theorem settable_ok {record : Record F} {i : Nat} (free : settable record i = true) :
    ∃ f, record.getField i = .ok f ∧ isWritable f.info.type = true ∧ i ≠ u32 (keyIdx record) := by
  unfold settable at free
  split at free
  case h_1 f at_i =>
    simp only [Bool.and_eq_true, bne_iff_ne] at free
    exact ⟨f, at_i, free.1, free.2⟩
  case h_2 => cases free

theorem set_cases {c : SetterCall F} {x : Except Fault (Session F V)}
    (taken : step denote handle (.ok s) (.set c) = some x) :
    ∃ i old new, s.record.target c.field = .ok i ∧ s.record.getField i = .ok old ∧
      isWritable old.info.type = true ∧ i ≠ u32 (keyIdx s.record) ∧ old.set c.value = .ok new ∧
      x = .ok { s with
        record := { s.record with fields := s.record.fields.set i (some new) }
        written := insert i s.written
        unsaved := insert i s.unsaved } := by
  simp only [step] at taken
  split at taken
  case h_1 => cases taken
  case h_2 i addressed =>
    split at taken
    case isFalse => cases taken
    case isTrue free =>
      obtain ⟨record, called, rfl⟩ := Option.map_eq_some_iff.mp taken
      obtain ⟨idx, old, new, addressed', at_i, stored, rfl⟩ := Record.call_ok (toOption_ok.mp called)
      obtain rfl : i = idx := Except.ok.inj (addressed.symm.trans addressed')
      obtain ⟨f, found, writable, other⟩ := settable_ok free
      have at_i := Record.getField_ok.mpr at_i
      obtain rfl : f = old := Except.ok.inj (found.symm.trans at_i)
      exact ⟨i, f, new, addressed, at_i, writable, other, stored, rfl⟩

omit [CDouble F] in
theorem getField_set {record : Record F} {i : Nat} {old : BaseField F}
    (at_i : record.getField i = .ok old) (new : BaseField F) (j : Nat) :
    ({ record with fields := record.fields.set i (some new) } : Record F).getField j =
      if j = i then .ok new else record.getField j := by
  have inside := (List.getElem?_eq_some_iff.mp (Record.getField_ok.mp at_i)).1
  by_cases here : j = i
  · subst here
    simp [Record.getField, inside]
  · have other : i ≠ j := fun same => here same.symm
    simp [Record.getField, here, other]

theorem Intact.set (h : Intact start s) {i : Nat} {old new : BaseField F} {v : Setting F}
    (at_i : s.record.getField i = .ok old) (writable : isWritable old.info.type = true)
    (other : i ≠ u32 (keyIdx s.record)) (stored : old.set v = .ok new) :
    Intact start { s with
      record := { s.record with fields := s.record.fields.set i (some new) }
      written := insert i s.written
      unsaved := insert i s.unsaved } := by
  have ⟨info, _, tagged⟩ := BaseField.set_ok stored
  have now := getField_set at_i new
  have filled : s.record.fields.set i (some new) = ((cells s.record).set i new).map some := by
    rw [List.map_set, ← h.filled]
  have cells_eq : cells { s.record with fields := s.record.fields.set i (some new) } =
      (cells s.record).set i new := cells_of_filled filled
  constructor
  · exact h.frame.trans ⟨rfl, rfl, rfl, rfl, rfl, List.length_set⟩
  · rw [cells_eq]
    exact filled
  · rw [← h.columns]
    funext j
    simp only [columnAt, now]
    by_cases here : j = i
    · simp [here, at_i, columnName, info]
    · rw [if_neg here]
  · intro j f at_j
    rw [now] at at_j
    by_cases here : j = i
    · rw [if_pos here] at at_j
      cases at_j
      simp [here, tagged]
    · rw [if_neg here] at at_j
      rw [h.changed j f at_j, Finset.mem_insert, or_iff_right here]
  · intro f member changed
    rw [cells_eq] at member
    rcases List.mem_or_eq_of_mem_set member with member | rfl
    · exact h.writable f member changed
    · rw [info]
      exact writable
  · intro j written
    simp only [now]
    by_cases here : j = i
    · exact ⟨new, if_pos here⟩
    · rw [if_neg here]
      exact h.inside j (Finset.mem_of_mem_insert_of_ne written here)
  · intro f at_key
    rw [keyIdx_frame h.frame] at other
    rw [now, if_neg (Ne.symm other)]
    exact h.key f at_key

omit [CDouble F] in
theorem getField_cleared {record : Record F} (filled : record.fields = (cells record).map some)
    (i : Nat) :
    ({ record with fields := ((cells record).map (·.tagChanged false)).map some } : Record F).getField i =
      (record.getField i).map (·.tagChanged false) := by
  simp only [Record.getField, filled, List.getElem?_map]
  cases (cells record)[i]? <;> rfl

omit [CDouble F] in
theorem Intact.cleared (h : Intact start s) (row : Bytes → Option V) :
    Intact start { s with
      record := { s.record with
        fields := ((cells s.record).map (·.tagChanged false)).map some }
      row := row
      unsaved := ∅ } := by
  have now := getField_cleared h.filled
  have cells_eq : cells { s.record with
      fields := ((cells s.record).map (·.tagChanged false)).map some } =
      (cells s.record).map (·.tagChanged false) := cells_of_filled rfl
  constructor
  · refine h.frame.trans ⟨rfl, rfl, rfl, rfl, rfl, ?_⟩
    rw [h.filled, List.length_map, List.length_map, List.length_map]
  · rw [cells_eq]
  · rw [← h.columns]
    funext j
    simp only [columnAt, now]
    cases s.record.getField j <;> rfl
  · intro j f at_j
    rw [now] at at_j
    obtain ⟨g, -, rfl⟩ := map_ok.mp at_j
    simp [BaseField.tagChanged]
  · intro f member changed
    rw [cells_eq] at member
    obtain ⟨g, -, rfl⟩ := List.mem_map.mp member
    cases changed
  · intro j written
    obtain ⟨f, at_j⟩ := h.inside j written
    exact ⟨f.tagChanged false, by rw [now, at_j]; rfl⟩
  · intro f at_key
    obtain ⟨changed, at_key⟩ := h.key f at_key
    exact ⟨false, by rw [now, at_key]; rfl⟩

omit [CDouble F] in
theorem getField_cells {record : Record F} (filled : record.fields = (cells record).map some)
    {i : Nat} {f : BaseField F} : record.getField i = .ok f ↔ (cells record)[i]? = some f := by
  rw [Record.getField_ok, filled, List.getElem?_map]
  simp

omit [CDouble F] in
theorem Intact.getField_of_lt (h : Intact start s) {i : Nat} (inside : i < start.getFieldNum) :
    ∃ f, s.record.getField i = .ok f := by
  have bound : i < (cells s.record).length := by
    rw [Record.getFieldNum, ← h.frame.fieldNum, h.filled, List.length_map] at inside
    exact inside
  exact ⟨(cells s.record)[i], (getField_cells h.filled).mpr (List.getElem?_eq_getElem bound)⟩

omit [CDouble F] in
theorem Intact.columnAt_eq (h : Intact start s) {i : Nat} {f : BaseField F}
    (at_i : s.record.getField i = .ok f) : columnAt start i = columnName f := by
  rw [← h.columns, columnAt, at_i]

omit [CDouble F] in
theorem Intact.mem_dirty (h : Intact start s) {f : BaseField F} :
    f ∈ dirty s.record ↔ ∃ i ∈ s.unsaved, s.record.getField i = .ok f := by
  have at_cells : ∀ i, s.record.getField i = .ok f ↔ (cells s.record)[i]? = some f :=
    fun _ => getField_cells h.filled
  rw [dirty, List.mem_filter]
  constructor
  · intro ⟨member, changed⟩
    obtain ⟨i, found⟩ := List.mem_iff_getElem?.mp member
    have at_i := (at_cells i).mpr found
    exact ⟨i, (h.changed i f at_i).mp changed, at_i⟩
  · intro ⟨i, unsaved, at_i⟩
    exact ⟨List.mem_of_getElem? ((at_cells i).mp at_i), (h.changed i f at_i).mpr unsaved⟩

omit [CDouble F] in
theorem Intact.dirty_eq_nil (h : Intact start s) (subset : s.unsaved ⊆ s.written) :
    dirty s.record = [] ↔ s.unsaved = ∅ := by
  rw [List.eq_nil_iff_forall_not_mem, Finset.eq_empty_iff_forall_notMem]
  constructor
  · intro clean i unsaved
    obtain ⟨f, at_i⟩ := h.inside i (subset unsaved)
    exact clean f (h.mem_dirty.mpr ⟨i, unsaved, at_i⟩)
  · intro none f member
    obtain ⟨i, unsaved, -⟩ := h.mem_dirty.mp member
    exact none i unsaved

omit [CDouble F] in
theorem columnValue_eq {record : Record F} (distinct : ((cells record).map columnName).Nodup)
    {f : BaseField F} (member : f ∈ cells record) :
    columnValue denote record (columnName f) = some (value denote f) := by
  have found : ((cells record).find? fun g => columnName g = columnName f) = some f := by
    cases first : (cells record).find? fun g => columnName g = columnName f with
    | none => simpa using List.find?_eq_none.mp first f member
    | some g =>
      have same := List.find?_some first
      have inside := List.mem_of_find?_eq_some first
      rw [List.inj_on_of_nodup_map distinct inside member (by simpa using same)]
  rw [columnValue, found]
  rfl

theorem Intact.saves (h : Intact start s) (subset : s.unsaved ⊆ s.written)
    (saveable : Saveable s.record) {sql : Bytes}
    (names : setColumns sql = (dirty s.record).map (·.info.name.bytes)) :
    WriteBack.Cells.Saves (columnAt start) (s.cells denote) (Session.cells denote { s with
      record := { s.record with
        fields := ((cells s.record).map (·.tagChanged false)).map some }
      row := (serve denote s.record true sql s.row).2
      unsaved := ∅ }) := by
  have columns : (setColumns sql).map (·.map toLower) = (dirty s.record).map columnName := by
    rw [names, List.map_map]
    rfl
  constructor
  · funext i
    simp only [Session.cells, getField_cleared h.filled]
    cases s.record.getField i <;> rfl
  · intro i unsaved
    obtain ⟨f, at_i⟩ := h.inside i (subset unsaved)
    have member := h.mem_dirty.mpr ⟨i, unsaved, at_i⟩
    obtain ⟨inside, changed⟩ := List.mem_filter.mp member
    have distinct := (saveable.2 f inside changed).1
    have listed : columnName f ∈ (dirty s.record).map columnName := List.mem_map_of_mem member
    simp only [Session.cells, serve, columns, h.columnAt_eq at_i, List.contains_iff_mem, listed,
      at_i, if_true, columnValue_eq distinct inside]
    rfl
  · intro p other
    have unlisted : p ∉ (dirty s.record).map columnName := by
      intro listed
      obtain ⟨f, member, rfl⟩ := List.mem_map.mp listed
      obtain ⟨i, unsaved, at_i⟩ := h.mem_dirty.mp member
      exact other i unsaved (h.columnAt_eq at_i)
    simp only [Session.cells, serve, columns, List.contains_iff_mem, unlisted, if_true, if_false]
  · rfl
  · rfl

omit [CDouble F] in
theorem Intact.own (h : Intact start s) (subset : s.unsaved ⊆ s.written)
    (distinct : dirty s.record ≠ [] → ((cells s.record).map columnName).Nodup) :
    ∀ i ∈ s.unsaved, ∀ j ∈ s.written, columnAt start i = columnAt start j → i = j := by
  intro i unsaved j written same
  obtain ⟨f, at_i⟩ := h.inside i (subset unsaved)
  obtain ⟨g, at_j⟩ := h.inside j written
  have nodup := distinct (List.ne_nil_of_mem (h.mem_dirty.mpr ⟨i, unsaved, at_i⟩))
  rw [h.columnAt_eq at_i, h.columnAt_eq at_j] at same
  have column : ∀ {k e}, s.record.getField k = .ok e →
      ((cells s.record).map columnName)[k]? = some (columnName e) := by
    intro k e at_k
    rw [List.getElem?_map, (getField_cells h.filled).mp at_k, Option.map_some]
  have first := column at_i
  have second := column at_j
  rw [same] at first
  exact (List.getElem?_inj (List.getElem?_eq_some_iff.mp first).1 nodup).mp (first.trans second.symm)

def Good (denote : FieldValue F → V) (start : Record F) (row : Bytes → Option V) :
    Except Fault (Session F V) → Prop
  | .ok s => Intact start s ∧ (s.cells denote).Coherent (columnAt start) row
  | .error _ => False

variable {row : Bytes → Option V}

theorem Good.set {c : SetterCall F} {y : Except Fault (Session F V)}
    (good : Good denote start row (.ok s)) (taken : step denote handle (.ok s) (.set c) = some y) :
    Good denote start row y := by
  obtain ⟨intact, coherent⟩ := good
  obtain ⟨i, old, new, -, at_i, writable, other, stored, rfl⟩ := set_cases taken
  refine ⟨intact.set at_i writable other stored, coherent.sets ⟨fun j here => ?_, rfl, rfl, rfl⟩⟩
  simp only [Session.cells, getField_set at_i new, if_neg here]

theorem Good.update {succeeds : Bool} {y : Except Fault (Session F V)} (mode : start.mode = .edit)
    (good : Good denote start row (.ok s)) (saveable : Saveable s.record)
    (taken : step denote handle (.ok s) (.update succeeds) = some y) : Good denote start row y := by
  obtain ⟨intact, coherent⟩ := good
  have outcome := update_saveable handle (intact.frame.mode.trans mode) intact.filled
    intact.writable saveable
  simp only [step, Option.some.injEq] at taken
  rcases outcome with ⟨clean, silent⟩ | ⟨changes, sql, names, sent⟩
  · have none := (intact.dirty_eq_nil coherent.subset).mp clean
    have same : (⟨s.record, s.row, s.written, ∅⟩ : Session F V) = s := by rw [← none]
    rw [silent] at taken
    rw [← taken]
    simp only [Except.map, if_true, same]
    exact ⟨intact, coherent⟩
  · rw [sent] at taken
    rw [← taken]
    cases succeeds with
    | false => exact ⟨intact, coherent⟩
    | true =>
      refine ⟨intact.cleared _, coherent.saves (intact.own coherent.subset fun _ => ?_)
        (intact.saves coherent.subset saveable names)⟩
      obtain ⟨f, member⟩ := List.exists_mem_of_ne_nil _ changes
      obtain ⟨inside, changed⟩ := List.mem_filter.mp member
      exact (saveable.2 f inside changed).1

theorem Good.next {c : Call F} {x y : Except Fault (Session F V)} (mode : start.mode = .edit)
    (good : Good denote start row x) (allowed : saves x c) (taken : step denote handle x c = some y) :
    Good denote start row y := by
  cases x with
  | error fault => exact good.elim
  | ok s =>
    cases c with
    | set c => exact Good.set good taken
    | update succeeds => exact Good.update mode good allowed taken

end Invariant

section Coherence

variable {V C : Type} {look : C → MysqlField → Option DBFieldInfo × C} {c c' : C}
  {loadedRow : Option (List (Option Buffer))} {columns : List MysqlField}
  {colLens : Option (List UInt64)} {mode : Mode} {record : Record F}

theorem loaded_intact
    (loaded : createRecord look c loadedRow columns colLens mode = (some record, c'))
    (row : Bytes → Option V) : Intact record (⟨record, row, ∅, ∅⟩ : Session F V) := by
  obtain ⟨fields, same, -, unchanged⟩ := loaded_fields loaded
  have filled : record.fields = (cells record).map some := by rw [cells_of_filled same, same]
  have clean : ∀ i f, record.getField i = .ok f → f.changed = false := by
    intro i f at_i
    have member := List.mem_of_getElem? ((getField_cells filled).mp at_i)
    rw [cells_of_filled same] at member
    exact unchanged f member
  refine ⟨Record.SameFrame.refl record, filled, rfl, fun i f at_i => ?_, fun f member changed => ?_,
    fun i written => absurd written (Finset.notMem_empty i), fun f at_key => ⟨f.changed, at_key⟩⟩
  · simp [clean i f at_i]
  · obtain ⟨i, at_i⟩ := List.mem_iff_getElem?.mp member
    rw [clean i f ((getField_cells filled).mpr at_i)] at changed
    cases changed

structure WrittenBack (handle : Mysql) (denote : FieldValue F → V) (record : Record F)
    (row : Bytes → Option V) (s : Session F V) : Prop where
  changed : ∀ i < record.getFieldNum, s.record.isChanged i = .ok (decide (i ∈ s.unsaved))
  /-- An update without a changed field sends nothing and returns true. -/
  idle : Saveable s.record → s.unsaved = ∅ →
    ∀ (S : Type) (query : Bytes → S → Bool × S) (t : S),
      RecordWrites.update query handle s.record t = .ok (true, s.record, t)
  failed : ∀ (S : Type) (query : Bytes → S → Bool × S) (t u : S) (after : Record F),
    RecordWrites.update query handle s.record t = .ok (false, after, u) → after = s.record
  saved : ∀ i ∈ s.written, i ∉ s.unsaved → ∃ f, s.record.getField i = .ok f ∧
    s.row (columnName f) = some (value denote f)
  kept : ∀ column, (∀ i ∈ s.written, columnAt record i ≠ column) → s.row column = row column
  key : ∀ f, record.getField (u32 (keyIdx record)) = .ok f →
    keyComparison s.record = keyComparison record

/-- In every run from a loaded record whose updates are written as they are meant, no
update ends in a fault and the record and its row stay coherent. -/
theorem write_back_coherent
    (loaded : createRecord look c loadedRow columns colLens .edit = (some record, c'))
    (handle : Mysql) (denote : FieldValue F → V) (row : Bytes → Option V)
    {x : Except Fault (Session F V)}
    (reached : ReachWhere (step denote handle) saves (.ok ⟨record, row, ∅, ∅⟩) x) :
    ∃ s, x = .ok s ∧ WrittenBack handle denote record row s := by
  obtain ⟨infos, -, filled⟩ := loaded_filled loaded
  have initial : Good denote record row (.ok ⟨record, row, ∅, ∅⟩) := by
    refine ⟨loaded_intact loaded row, Finset.Subset.refl _, fun i member => ?_, fun _ _ => rfl⟩
    exact absurd member (Finset.notMem_empty i)
  have good : Good denote record row x := reached.invariant initial
    fun _ _ _ _ held allowed taken => held.next filled.mode allowed taken
  cases x with
  | error fault => exact good.elim
  | ok s =>
    obtain ⟨intact, coherent⟩ := good
    refine ⟨s, rfl, ?_, ?_, ?_, ?_, coherent.kept, ?_⟩
    · intro i inside
      obtain ⟨f, at_i⟩ := intact.getField_of_lt inside
      have same : f.changed = decide (i ∈ s.unsaved) := by
        rw [Bool.eq_iff_iff, intact.changed i f at_i, decide_eq_true_eq]
      rw [Record.isChanged, at_i, ← same]
      rfl
    · intro saveable none S query t
      have mode := intact.frame.mode.trans filled.mode
      rcases update_saveable handle mode intact.filled intact.writable saveable with
        ⟨-, silent⟩ | ⟨changes, -⟩
      · exact silent S query t
      · exact absurd ((intact.dirty_eq_nil coherent.subset).mpr none) changes
    · intro S query t u after failed
      rcases RecordWrites.update_ok failed with same | ⟨absurd_, -⟩
      · exact same
      · cases absurd_
    · intro i written clean
      obtain ⟨f, at_i⟩ := intact.inside i written
      have held := coherent.saved i written clean
      rw [intact.columnAt_eq at_i] at held
      simp only [Session.cells, at_i] at held
      exact ⟨f, at_i, held⟩
    · intro f at_key
      obtain ⟨changed, found⟩ := intact.key f at_key
      exact keyComparison_frame intact.frame at_key found

/-- Player 7 next to the row it was loaded from. -/
def editing : Except Fault (Session Unit (FieldValue Unit)) :=
  .ok ⟨player, columnValue id player, ∅, ∅⟩

/-- The name is set, the update fails, the name is set again, by its own name, and the
update succeeds. -/
def renamed : Except Fault (Session Unit (FieldValue Unit)) :=
  runTo (step id client) editing
    [.set ⟨.inl 1, .str (CString.lit "rob")⟩, .update false,
      .set ⟨.inr (ascii "name"), .str (CString.lit "it's")⟩, .update true]

theorem write_back_renamed : ∃ s, renamed = .ok s ∧ s.unsaved = ∅ ∧
    s.row (ascii "name") = some ⟨.str, ascii "it's"⟩ := by
  have reached : ReachWhere (step id client) saves editing renamed :=
    runTo_reachWhere .start (by decide)
  obtain ⟨s, same, back⟩ := write_back_coherent
    (show loadPlayer = (some player, loadPlayer.2) from rfl) client id (columnValue id player) reached
  have run : renamed = .ok _ := rfl
  rw [run] at same
  cases same
  obtain ⟨f, at_1, held⟩ := back.saved 1 (by decide) (by decide)
  cases at_1
  exact ⟨_, run, rfl, held⟩

/-- The name `'` is set, and the update runs over its scratch buffer. -/
theorem quote_not_updated :
    Reach (step id client) editing (.error .overrun) ∧
    ¬ ∀ x, Reach (step id client) editing x →
      ∃ s, x = .ok s ∧ WrittenBack client id player (columnValue id player) s := by
  have run : runTo (step id client) editing
      [.set ⟨.inl 1, .str (CString.lit "'")⟩, .update true] = .error .overrun := rfl
  have reached : Reach (step id client) editing (.error .overrun) := by
    rw [← run]
    exact runTo_reach .start
  refine ⟨reached, fun all => ?_⟩
  obtain ⟨s, same, -⟩ := all _ reached
  cases same

end Coherence

end RecordWriteBack

end LlbcDatabase
