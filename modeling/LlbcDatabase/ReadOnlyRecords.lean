import LlbcDatabase.BuilderOutput
import LlbcDatabase.KeyGuard
import LlbcDatabase.RecordWriteBack

/-! Records that are loaded with `MODE_READ`. `Update` and `Delete` look at the mode of a
record, and the setters and `Insert` do not. -/

namespace LlbcDatabase

open CText SqlText SqlUtil Transition
open RecordWriteBack (FieldValue)

namespace RecordWrites

variable {F W : Type} [CDouble F]

def fieldValues (record : Record F) : List (Option (FieldValue F)) :=
  record.fields.map (Option.map fun f => ⟨f.kind, f.val⟩)

structure ReadOnly (start r : Record F × List Bytes × W) : Prop where
  values : fieldValues r.1 = fieldValues start.1
  silent : r.2.1 = start.2.1

/-- A setter stores the value that its field holds, and an insert has nothing to write. -/
def allowed {S : Type} (r : Record F × S) : Call F → Prop
  | .set c => ∀ idx field, r.1.target c.field = .ok idx → r.1.fields[idx]? = some (some field) →
      field.kind.convert c.value = .ok field.val
  | .insert => noKey r.1 = true ∨ ∀ o ∈ r.1.fields, ∃ f, o = some f ∧ f.changed = false
  | .update | .delete => True

section Steps

variable {query : Bytes → W → Bool × W} {handle : Mysql} {record after : Record F}
  {s t : List Bytes × W} {ret : Bool}

omit [CDouble F] in
theorem fieldValues_set (record : Record F) (idx : Nat) (new : BaseField F) :
    fieldValues { record with fields := record.fields.set idx (some new) } =
      (fieldValues record).set idx (some ⟨new.kind, new.val⟩) := List.map_set

theorem fieldValues_call_iff {c : SetterCall F} (done : record.call c = .ok after) :
    fieldValues after = fieldValues record ↔ allowed (record, s) (.set c) := by
  obtain ⟨idx, field, new, addressed, at_idx, setOk, rfl⟩ := Record.call_ok done
  obtain ⟨val, converted, rfl⟩ := map_ok.mp setOk
  have inside := (List.getElem?_eq_some_iff.mp at_idx).1
  have here : (fieldValues record)[idx]? = some (some ⟨field.kind, field.val⟩) := by
    rw [fieldValues, List.getElem?_map, at_idx]
    rfl
  rw [fieldValues_set]
  constructor
  · intro same idx' field' addressed' at_idx'
    obtain rfl := Except.ok.inj (addressed.symm.trans addressed')
    obtain rfl := Option.some.inj (Option.some.inj (at_idx.symm.trans at_idx'))
    have stored : (fieldValues record)[idx]? = some (some ⟨field.kind, val⟩) := by
      rw [← same, List.getElem?_set_self (by simpa [fieldValues] using inside)]
      rfl
    rw [here] at stored
    cases stored
    exact converted
  · intro kept
    obtain rfl := Except.ok.inj (converted.symm.trans (kept idx field addressed at_idx))
    obtain ⟨bound, held⟩ := List.getElem?_eq_some_iff.mp here
    exact (congrArg _ held.symm).trans (List.set_getElem_self bound)

theorem insert_silent_iff (done : insert (recorded query) handle record s = .ok (ret, t)) :
    t.1 = s.1 ↔ allowed (record, s) .insert := by
  obtain ⟨⟨built, sql⟩, statement, later⟩ := bind_ok.mp done
  obtain ⟨⟨some_, op⟩, operation, text⟩ := bind_ok.mp statement
  cases some_ with
  | false =>
    cases text
    cases later
    have keyless := (buildOperation_false_iff handle []).mp ⟨op, operation⟩
    exact ⟨fun _ => .inl keyless, fun _ => rfl⟩
  | true =>
    have keyed := (buildOperation_present operation).1
    have eq := buildInsertSql_eq operation []
    rw [allowed, ← operation_nil_iff operation, keyed]
    rw [statement] at eq
    by_cases none : op = []
    · rw [if_pos none] at eq
      cases eq
      cases later
      simp [none]
    · rw [if_neg none] at eq
      cases eq
      cases later
      simp [none]

omit [CDouble F] in
theorem ReadOnly.trans_iff {start r t : Record F × List Bytes × W} (held : ReadOnly start r) :
    ReadOnly start t ↔ ReadOnly r t :=
  ⟨fun whole => ⟨whole.values.trans held.values.symm, whole.silent.trans held.silent.symm⟩,
    fun last => ⟨last.values.trans held.values, last.silent.trans held.silent⟩⟩

theorem readOnly_step_iff {r t : Record F × List Bytes × W} {c : Call F}
    (mode : r.1.mode = .read) (taken : step (recorded query) handle r c = some t) :
    ReadOnly r t ↔ allowed r c := by
  have noEdit : r.1.mode ≠ .edit := by simp [mode]
  cases c with
  | set c =>
    obtain ⟨record, done, rfl⟩ := Option.map_eq_some_iff.mp taken
    have values := fieldValues_call_iff (s := r.2) (toOption_ok.mp done)
    exact ⟨fun kept => values.mp kept.values, fun same => ⟨values.mpr same, rfl⟩⟩
  | insert =>
    obtain ⟨⟨ret, s⟩, done, rfl⟩ := Option.map_eq_some_iff.mp taken
    have silent := insert_silent_iff (toOption_ok.mp done)
    exact ⟨fun kept => silent.mp kept.silent, fun none => ⟨rfl, silent.mpr none⟩⟩
  | update =>
    obtain ⟨out, done, rfl⟩ := Option.map_eq_some_iff.mp taken
    rw [update_mode noEdit] at done
    cases done
    exact ⟨fun _ => trivial, fun _ => ⟨rfl, rfl⟩⟩
  | delete =>
    obtain ⟨out, done, rfl⟩ := Option.map_eq_some_iff.mp taken
    rw [delete_mode noEdit] at done
    cases done
    exact ⟨fun _ => trivial, fun _ => ⟨rfl, rfl⟩⟩

end Steps

section Runs

variable {C : Type} {look : C → MysqlField → Option DBFieldInfo × C} {c c' : C}
  {row : Option Row} {columns : List MysqlField} {colLens : Option (List UInt64)}
  {start : Record F}

/-- A record loaded with `MODE_READ` keeps its values and sends nothing just when every setter
stores the value that is there and no insert finds a changed field to write. -/
theorem read_only_iff
    (loaded : createRecord look c row columns colLens .read = (some start, c'))
    (query : Bytes → W → Bool × W) (handle : Mysql) (s : List Bytes × W) (calls : List (Call F)) :
    (∀ r ∈ trace (step (recorded query) handle) (start, s) calls, ReadOnly (start, s) r) ↔
      ∀ p ∈ taken (step (recorded query) handle) (start, s) calls, allowed p.1 p.2 := by
  obtain ⟨infos, -, filled⟩ := loaded_filled loaded
  have mode : start.mode = .read := filled.mode
  exact trace_iff (J := fun r => r.1.mode = .read)
    (fun r t c held taken => (step_frame taken).mode.trans held)
    (fun r t c held kept taken => kept.trans_iff.trans (readOnly_step_iff held taken))
    mode ⟨rfl, rfl⟩ calls

def loadView : Option (Record Unit) × FieldInfoCache :=
  createRecord queryDBFieldInfo [] (some [some ⟨ascii "7", fun _ => 0⟩, some ⟨ascii "bob", fun _ => 0⟩])
    players none .read

def playerView : Record Unit := loadView.1.getD (Record.new 0 (CString.lit "player") .read)

def namePlayer (name : CString) : Record Unit :=
  (playerView.call ⟨.inr (ascii "name"), .str name⟩).toOption.getD playerView

/-- The name is stored as it is, and the record is neither updated nor deleted. -/
theorem read_only_harmless : loadView.1 = some playerView ∧
    ∀ r ∈ trace (step (recorded takes) client) (playerView, [], [])
        [.insert, .set ⟨.inr (ascii "name"), .str (CString.lit "bob")⟩, .update, .delete],
      ReadOnly (playerView, [], []) r := by
  have loaded : loadView = (some playerView, loadView.2) := rfl
  refine ⟨rfl, (read_only_iff loaded takes client ([], []) _).mpr ?_⟩
  have unchanged : ∀ o ∈ playerView.fields, ∃ f, o = some f ∧ f.changed = false :=
    List.forall_mem_cons.mpr ⟨⟨_, rfl, rfl⟩, List.forall_mem_cons.mpr ⟨⟨_, rfl, rfl⟩, by simp⟩⟩
  have steps : taken (step (recorded takes) client) (playerView, [], [])
      [.insert, .set ⟨.inr (ascii "name"), .str (CString.lit "bob")⟩, .update, .delete] =
    [((playerView, [], []), .insert),
      ((playerView, [], []), .set ⟨.inr (ascii "name"), .str (CString.lit "bob")⟩),
      ((namePlayer (CString.lit "bob"), [], []), .update),
      ((namePlayer (CString.lit "bob"), [], []), .delete)] := rfl
  rw [steps]
  simp only [List.forall_mem_cons]
  refine ⟨.inr unchanged, fun idx field addressed at_idx => ?_, trivial, trivial, by simp⟩
  cases addressed
  cases at_idx
  rfl

/-- A name is set, and the insert writes it. -/
theorem view_inserted : loadView.1 = some playerView ∧
    ¬ ∀ r ∈ trace (step (recorded takes) client) (playerView, [], [])
        [.set ⟨.inr (ascii "name"), .str (CString.lit "eve")⟩, .insert],
      ReadOnly (playerView, [], []) r := by
  refine ⟨rfl, fun all => ?_⟩
  have inserted := all (namePlayer (CString.lit "eve"),
    [ascii "insert into `player` set `name`='eve'"],
    [ascii "insert into `player` set `name`='eve'"]) (.tail _ (.head _))
  cases inserted.silent

end Runs

end RecordWrites

end LlbcDatabase
