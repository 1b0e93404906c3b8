import LlbcDatabase.QueryRows
import LlbcDatabase.Library.Ownership

/-! The objects behind a record set. `Query` and `MakeDefRecord` make them with `new`, the
pointers that own them are freed at the end of their scopes, and what a call returns is the
caller's to delete. -/

namespace LlbcDatabase.RecordHeap

open Ownership CText Transition

structure HeapRecord (F : Type) where
  self : Nat
  record : Record F
  fields : List (Option Nat)

structure HeapSet (F : Type) where
  self : Nat
  records : List (Option (HeapRecord F))

section Objects

variable {F : Type}

namespace HeapRecord

def objects (r : HeapRecord F) : List Nat := r.fields.reduceOption ++ [r.self]

def Mirrors (r : HeapRecord F) : Prop := r.fields.map Option.isSome = r.record.fields.map Option.isSome

theorem Mirrors.length {r : HeapRecord F} (mirrors : r.Mirrors) :
    r.fields.length = r.record.fields.length := by
  simpa using congrArg List.length mirrors

def new (fieldNum : Nat) (tableName : CString) (mode : Mode) (h : Heap) : HeapRecord F × Heap :=
  (⟨h.new.1, Record.new fieldNum tableName mode, List.replicate fieldNum none⟩, h.new.2)

/-- `WriteField`, which deletes the field that was there. -/
def writeField (r : HeapRecord F) (idx : Nat) (field : BaseField F) (p : Nat) (h : Heap) :
    Option (HeapRecord F × Heap) :=
  if inside : idx < r.fields.length then
    (h.deleteAll r.fields[idx].toList).map fun h =>
      (⟨r.self, r.record.writeField idx field, r.fields.set idx (some p)⟩, h)
  else none

end HeapRecord

namespace HeapSet

def objects (s : HeapSet F) : List Nat := s.records.reduceOption.flatMap (·.objects) ++ [s.self]

/-- The set as its reader sees it. -/
def content (s : HeapSet F) : Recordset F := s.records.map (Option.map (·.record))

def new (recordNum : Nat) (h : Heap) : HeapSet F × Heap :=
  (⟨h.new.1, List.replicate recordNum none⟩, h.new.2)

/-- `WriteRecord`, which deletes the record that was there. -/
def writeRecord (s : HeapSet F) (idx : Nat) (r : HeapRecord F) (h : Heap) :
    Option (HeapSet F × Heap) :=
  if inside : idx < s.records.length then
    (h.deleteAll (s.records[idx].toList.flatMap (·.objects))).map fun h =>
      (⟨s.self, s.records.set idx (some r)⟩, h)
  else none

/-- `PopRecord` leaves a null pointer. -/
def popRecord (s : HeapSet F) (idx : Nat) : HeapSet F := ⟨s.self, s.records.set idx none⟩

end HeapSet

/-- The objects that a function returns, which may be nothing. -/
def treeOf {α : Type} (objects : α → List Nat) (answer : Option α) : List Nat :=
  answer.toList.flatMap objects

end Objects

section Calls

variable {F C D : Type} [CDouble F] (look : C → MysqlField → Option DBFieldInfo × C)

/-- The loop of `CreateRecord`; `newRec` is a `unique_ptr`. -/
def createFields (row : Option Row) (colLens : Option (List UInt64)) :
    C → Nat → HeapRecord F → List MysqlField → Heap → Option (Option (HeapRecord F) × C × Heap)
  | c, _, newRec, [], h => some (some newRec, c, h)
  | c, i, newRec, dbField :: rest, h =>
    match look c dbField with
    | (none, c) => (h.deleteAll newRec.objects).map fun h => (none, c, h)
    | (some fieldInfo, c) =>
      let newRec := { newRec with record := newRec.record.noteFlags i dbField }
      match FieldFactory.createField fieldInfo with
      | none => (h.deleteAll newRec.objects).map fun h => (none, c, h)
      | some baseField =>
        let baseField := (baseField.setValue (cellValue row i dbField) (cellLen colLens i dbField)).2
        (newRec.writeField i baseField h.new.1 h.new.2).bind fun (newRec, h) =>
          createFields row colLens c (i + 1) newRec rest h

def createRecord (c : C) (row : Option Row) (dbFields : List MysqlField)
    (colLens : Option (List UInt64)) (mode : Mode) (h : Heap) :
    Option (Option (HeapRecord F) × C × Heap) :=
  let (newRec, h) := HeapRecord.new dbFields.length (recordTable dbFields) mode h
  createFields look row colLens c 0 newRec dbFields h

/-- The row loop of `Query`; `recSet` is a `unique_ptr`. -/
def readRows (dbFields : List MysqlField) (colLens : Option (List UInt64)) (mode : Mode) :
    C → Nat → HeapSet F → List Row → Heap → Option (Option (HeapSet F) × C × Heap)
  | c, idx, recSet, [], h => if idx = recSet.records.length then some (some recSet, c, h) else none
  | c, idx, recSet, row :: rest, h =>
    (createRecord look c (some row) dbFields colLens mode h).bind fun
    | (none, c, h) => (h.deleteAll recSet.objects).map fun h => (none, c, h)
    | (some newRec, c, h) => (recSet.writeRecord idx newRec h).bind fun (recSet, h) =>
        readRows dbFields colLens mode c (idx + 1) recSet rest h

def readResult (c : C) (result : StoredResult) (mode : Mode) (h : Heap) :
    Option (Option (HeapSet F) × C × Heap) :=
  let (recSet, h) := HeapSet.new (result.rows.length % 2 ^ 32) h
  readRows look result.fields none mode c 0 recSet result.rows h

/-- `Query(sql, mode)`; the stored result is freed by its guard, whatever is returned. -/
def query (server : Server D) (sql : Bytes) (mode : Mode) (conn : MysqlConnect) (db : D) (c : C)
    (h : Heap) : Option (Option (HeapSet F) × MysqlConnect × D × C × Heap) :=
  match MysqlConnect.queryRes server sql true conn db with
  | (true, some result, conn, db) =>
    (readResult look c result mode h.new.2).bind fun (recSet, c, h') =>
      (h'.delete h.new.1).map fun h => (recSet, conn, db, c, h)
  | (_, _, conn, db) => some (none, conn, db, c, h)

def makeDefRecord (server : Server D) (tableName : Bytes) (conn : MysqlConnect) (db : D) (c : C)
    (h : Heap) : Option (Option (HeapRecord F) × MysqlConnect × D × C × Heap) :=
  let sql := snprintf 255 (ascii "select * from " ++ cstr tableName ++ ascii " limit 0")
  match MysqlConnect.queryRes server sql true conn db with
  | (true, some result, conn, db) =>
    (createRecord look c none result.fields none .edit h.new.2).bind fun (newRec, c, h') =>
      (h'.delete h.new.1).map fun h => (newRec, conn, db, c, h)
  | (_, _, conn, db) => some (none, conn, db, c, h)

end Calls

section Specs

variable {F C D : Type} [CDouble F] (look : C → MysqlField → Option DBFieldInfo × C) {h h' : Heap}
  {frame : List Nat}

omit [CDouble F] in
theorem HeapRecord.Mirrors.writeField {r : HeapRecord F} (mirrors : r.Mirrors) {idx : Nat}
    (inside : idx < r.fields.length) (field : BaseField F) {p : Nat}
    (held : h.Holds (p :: (r.objects ++ frame))) :
    ∃ r' h', r.writeField idx field p h = some (r', h') ∧ r'.record = r.record.writeField idx field ∧
      r'.Mirrors ∧ h'.Holds (r'.objects ++ frame) := by
  have swap := reduceOption_set r.fields inside (some p)
  have moved : h.Holds (r.fields[idx].toList ++
      ((r.fields.set idx (some p)).reduceOption ++ [r.self] ++ frame)) := by
    apply held.perm
    have front := (swap.symm.append_right ([r.self] ++ frame))
    simpa [HeapRecord.objects] using front
  obtain ⟨h', deleted, left⟩ := moved.deleteAll
  refine ⟨⟨r.self, r.record.writeField idx field, r.fields.set idx (some p)⟩, h', ?_, rfl, ?_, left⟩
  · rw [HeapRecord.writeField, dif_pos inside, deleted, Option.map_some]
  · rw [HeapRecord.Mirrors, Record.writeField, List.map_set, List.map_set, mirrors]
    rfl

theorem createFields_cons (row : Option Row) (colLens : Option (List UInt64)) (c : C) (i : Nat)
    (newRec : HeapRecord F) (dbField : MysqlField) (rest : List MysqlField) (h : Heap) :
    createFields look row colLens c i newRec (dbField :: rest) h =
      match made F (look c dbField).1 with
      | none => (h.deleteAll newRec.objects).map fun h => (none, (look c dbField).2, h)
      | some baseField => (HeapRecord.writeField ⟨newRec.self, newRec.record.noteFlags i dbField,
            newRec.fields⟩ i (baseField.setValue (cellValue row i dbField)
              (cellLen colLens i dbField)).2 h.new.1 h.new.2).bind fun (newRec, h) =>
          createFields look row colLens (look c dbField).2 (i + 1) newRec rest h := by
  simp only [createFields]
  split
  case h_1 c' looked => simp [looked, made]
  case h_2 info c' looked =>
    cases field : (FieldFactory.createField info : Option (BaseField F)) <;>
      simp [looked, made, field, HeapRecord.objects]

/-- `CreateRecord` makes the record of the model without pointers. What it leaves is the
record with its fields, or nothing. -/
theorem createFields_spec (row : Option Row) (colLens : Option (List UInt64)) (c : C) (i : Nat)
    (newRec : HeapRecord F) (mirrors : newRec.Mirrors) (dbFields : List MysqlField)
    (room : i + dbFields.length ≤ newRec.fields.length) (held : h.Holds (newRec.objects ++ frame)) :
    ∃ answer h', createFields look row colLens c i newRec dbFields h =
        some (answer, (LlbcDatabase.createFields look row colLens c i newRec.record dbFields).2, h') ∧
      answer.map (·.record) =
        (LlbcDatabase.createFields look row colLens c i newRec.record dbFields).1 ∧
      (∀ r ∈ answer, r.Mirrors) ∧ h'.Holds (treeOf HeapRecord.objects answer ++ frame) := by
  induction dbFields generalizing c i newRec h with
  | nil =>
    refine ⟨some newRec, h, rfl, rfl, ?_, by simpa [treeOf] using held⟩
    rintro r ⟨⟩
    exact mirrors
  | cons dbField rest ih =>
    rw [List.length_cons] at room
    rw [createFields_cons look, LlbcDatabase.createFields_cons]
    cases made F (look c dbField).1 with
    | none =>
      -- `newRec` goes out of scope
      obtain ⟨h', deleted, left⟩ := held.deleteAll
      exact ⟨none, h', by simp [deleted], rfl, by simp, left⟩
    | some baseField =>
      have noted : (⟨newRec.self, newRec.record.noteFlags i dbField, newRec.fields⟩ :
          HeapRecord F).Mirrors := by
        rw [HeapRecord.Mirrors, Record.noteFlags_eq]
        exact mirrors
      dsimp only
      generalize (baseField.setValue (cellValue row i dbField) (cellLen colLens i dbField)).2 = field
      have inside : i < newRec.fields.length := by omega
      obtain ⟨r, h', written, content, still, left⟩ := noted.writeField inside field held.new
      have length := still.length
      rw [content, Record.writeField, List.length_set, Record.noteFlags_eq] at length
      rw [mirrors.length, ← length] at room
      have later := ih (look c dbField).2 (i + 1) r still (by omega) left
      rw [content] at later
      simpa only [written, Option.bind_some] using later

theorem createRecord_spec (c : C) (row : Option Row) (dbFields : List MysqlField)
    (colLens : Option (List UInt64)) (mode : Mode) (held : h.Holds frame) :
    ∃ (answer : Option (HeapRecord F)) (h' : Heap),
      createRecord look c row dbFields colLens mode h = some (answer,
        (LlbcDatabase.createRecord look c row dbFields colLens mode : Option (Record F) × C).2, h') ∧
      answer.map (·.record) = (LlbcDatabase.createRecord look c row dbFields colLens mode).1 ∧
      (∀ r ∈ answer, r.Mirrors) ∧ h'.Holds (treeOf HeapRecord.objects answer ++ frame) := by
  apply createFields_spec
  · simp [HeapRecord.Mirrors, Record.new]
  · simp
  · have none : (List.replicate dbFields.length (none : Option Nat)).reduceOption = [] := by
      simp [List.reduceOption_replicate_none]
    simpa [HeapRecord.objects, HeapRecord.new, none] using held.new

omit [CDouble F] in
theorem HeapSet.writeRecord_spec (s : HeapSet F) {idx : Nat} (inside : idx < s.records.length)
    (r : HeapRecord F) (held : h.Holds (r.objects ++ (s.objects ++ frame))) :
    ∃ s' h', s.writeRecord idx r h = some (s', h') ∧ s'.content = s.content.set idx (some r.record) ∧
      s'.records = s.records.set idx (some r) ∧ h'.Holds (s'.objects ++ frame) := by
  have swap := (reduceOption_set s.records inside (some r)).flatMap_right HeapRecord.objects
  have moved : h.Holds (s.records[idx].toList.flatMap (·.objects) ++
      ((s.records.set idx (some r)).reduceOption.flatMap (·.objects) ++ [s.self] ++ frame)) := by
    apply held.perm
    have front := swap.symm.append_right ([s.self] ++ frame)
    simpa [HeapSet.objects] using front
  obtain ⟨h', deleted, left⟩ := moved.deleteAll
  refine ⟨⟨s.self, s.records.set idx (some r)⟩, h', ?_, ?_, rfl, left⟩
  · rw [HeapSet.writeRecord, dif_pos inside, deleted, Option.map_some]
  · rw [HeapSet.content, HeapSet.content, List.map_set]
    rfl

/-- The call returns the record set that the model without pointers has, and what remains of
the objects it made are those of the set. Where that has a fault, the call does not return. -/
def Returns (frame : List Nat) (model : Except Fault (Option (Recordset F)) × C)
    (call : Option (Option (HeapSet F) × C × Heap)) : Prop :=
  match model.1 with
  | .ok read => ∃ answer h, call = some (answer, model.2, h) ∧ answer.map (·.content) = read ∧
      (∀ s ∈ answer, ∀ r, some r ∈ s.records → r.Mirrors) ∧
      h.Holds (treeOf HeapSet.objects answer ++ frame)
  | .error _ => call = none

theorem readRows_spec (dbFields : List MysqlField) (colLens : Option (List UInt64)) (mode : Mode)
    (c : C) (idx : Nat) (recSet : HeapSet F) (mirrors : ∀ r, some r ∈ recSet.records → r.Mirrors)
    (rows : List Row) (held : h.Holds (recSet.objects ++ frame)) :
    Returns frame (LlbcDatabase.readRows look dbFields colLens mode c idx recSet.content rows)
      (readRows look dbFields colLens mode c idx recSet rows h) := by
  induction rows generalizing c idx recSet h with
  | nil =>
    have size : recSet.content.length = recSet.records.length := List.length_map _
    rw [LlbcDatabase.readRows, readRows, size]
    by_cases full : idx = recSet.records.length
    · rw [if_pos full, if_pos full]
      refine ⟨some recSet, h, rfl, rfl, ?_, by simpa [treeOf] using held⟩
      rintro s ⟨⟩
      exact mirrors
    · rw [if_neg full, if_neg full]
      rfl
  | cons row rest ih =>
    have size : recSet.content.length = recSet.records.length := List.length_map _
    obtain ⟨newRec, k, made, content, own, left⟩ :=
      createRecord_spec (F := F) look c (some row) dbFields colLens mode held
    rw [LlbcDatabase.readRows, readRows, made, Option.bind_some]
    generalize (LlbcDatabase.createRecord look c (some row) dbFields colLens mode :
      Option (Record F) × C) = model at content ⊢
    obtain ⟨found, c'⟩ := model
    cases newRec with
    | none =>
      -- a column without a field: the set is freed on the way out
      obtain rfl : none = found := content
      have set : k.Holds (recSet.objects ++ frame) := left
      obtain ⟨h', deleted, left⟩ := set.deleteAll
      exact ⟨none, h', by simp [deleted], rfl, by simp, left⟩
    | some r =>
      obtain rfl : some r.record = found := content
      dsimp only
      by_cases inside : idx < recSet.records.length
      · obtain ⟨s', h', written, set, slots, left⟩ := recSet.writeRecord_spec inside r
          (by simpa [treeOf] using left)
        have own' : ∀ r', some r' ∈ s'.records → r'.Mirrors := by
          intro r' member
          rw [slots] at member
          rcases List.mem_or_eq_of_mem_set member with old | new
          · exact mirrors r' old
          · cases new
            exact own r rfl
        rw [if_pos (size ▸ inside), ← set, written, Option.bind_some]
        exact ih c' (idx + 1) s' own' left
      · rw [if_neg (size ▸ inside), HeapSet.writeRecord, dif_neg inside]
        rfl

theorem readResult_spec (c : C) (result : StoredResult) (mode : Mode) (held : h.Holds frame) :
    Returns frame (LlbcDatabase.readResult look c result mode)
      (readResult (F := F) look c result mode h) := by
  have start : HeapSet.content (HeapSet.new (F := F) (result.rows.length % 2 ^ 32) h).1 =
      Recordset.new (result.rows.length % 2 ^ 32) := List.map_replicate
  rw [readResult_eq, ← start]
  apply readRows_spec
  · simp [HeapSet.new]
  · have none : (List.replicate (result.rows.length % 2 ^ 32) (none : Option (HeapRecord F))).reduceOption
        = [] := List.reduceOption_replicate_none
    simpa [HeapSet.objects, HeapSet.new, none] using held.new

/-- `Query(sql, mode)` returns the record set of the model without pointers. Of what it made
there remain the objects of that set alone. -/
theorem query_spec (server : Server D) (sql : Bytes) (mode : Mode) (conn : MysqlConnect) (db : D)
    (c : C) (held : h.Holds frame) :
    (∀ (read : Option (Recordset F)) conn' db' c',
      conn.query server look sql mode db c = (.ok read, conn', db', c') →
      ∃ answer h', query look server sql mode conn db c h = some (answer, conn', db', c', h') ∧
        answer.map (·.content) = read ∧ (∀ s ∈ answer, ∀ r, some r ∈ s.records → r.Mirrors) ∧
        h'.Holds (treeOf HeapSet.objects answer ++ frame)) ∧
    ∀ fault, (conn.query server look sql mode db c :
        Except Fault (Option (Recordset F)) × _).1 = .error fault →
      query (F := F) look server sql mode conn db c h = none := by
  unfold MysqlConnect.query query
  generalize MysqlConnect.queryRes server sql true conn db = reply
  obtain ⟨sent, stored, conn', db'⟩ := reply
  have nothing : ∀ read conn'' db'' c'', ((.ok none, conn', db', c) :
      Except Fault (Option (Recordset F)) × MysqlConnect × D × C) = (.ok read, conn'', db'', c'') →
      ∃ answer h', some ((none : Option (HeapSet F)), conn', db', c, h) =
          some (answer, conn'', db'', c'', h') ∧ answer.map (·.content) = read ∧
        (∀ s ∈ answer, ∀ r, some r ∈ s.records → r.Mirrors) ∧
        h'.Holds (treeOf HeapSet.objects answer ++ frame) := by
    rintro read conn'' db'' c'' ⟨⟩
    exact ⟨none, h, rfl, rfl, by simp, held⟩
  cases sent with
  | false => exact ⟨nothing, fun fault refused => by cases refused⟩
  | true =>
    cases stored with
    | none => exact ⟨nothing, fun fault refused => by cases refused⟩
    | some result =>
      have ran := readResult_spec (F := F) look c result mode held.new
      dsimp only
      generalize LlbcDatabase.readResult (F := F) look c result mode = model at ran ⊢
      obtain ⟨found, c'⟩ := model
      cases found with
      | error fault =>
        have stuck : readResult (F := F) look c result mode h.new.2 = none := ran
        constructor
        · intro read conn'' db'' c'' returned
          cases returned
        · intro _ _
          rw [stuck]
          rfl
      | ok read =>
        obtain ⟨answer, h', made, content, mirrors, left⟩ := ran
        obtain ⟨h'', freed, left⟩ := (left.perm List.perm_middle).delete
        refine ⟨?_, fun fault refused => by cases refused⟩
        rintro read' conn'' db'' c'' ⟨⟩
        refine ⟨answer, h'', ?_, content, mirrors, left⟩
        rw [made, Option.bind_some, freed, Option.map_some]

theorem makeDefRecord_spec (server : Server D) (tableName : Bytes) (conn conn' : MysqlConnect)
    (db db' : D) (c c' : C) {made : Option (Record F)}
    (ran : conn.makeDefRecord server look tableName db c = (made, conn', db', c'))
    (held : h.Holds frame) :
    ∃ answer h', makeDefRecord look server tableName conn db c h = some (answer, conn', db', c', h') ∧
      answer.map (·.record) = made ∧ (∀ r ∈ answer, r.Mirrors) ∧
      h'.Holds (treeOf HeapRecord.objects answer ++ frame) := by
  unfold MysqlConnect.makeDefRecord at ran
  unfold makeDefRecord
  dsimp only at ran ⊢
  generalize MysqlConnect.queryRes server _ true conn db = reply at ran ⊢
  obtain ⟨sent, stored, conn'', db''⟩ := reply
  cases sent with
  | false =>
    cases ran
    exact ⟨none, h, rfl, rfl, by simp, held⟩
  | true =>
    cases stored with
    | none =>
      cases ran
      exact ⟨none, h, rfl, rfl, by simp, held⟩
    | some result =>
      obtain ⟨answer, h', returned, content, mirrors, left⟩ :=
        createRecord_spec (F := F) look c none result.fields none .edit held.new
      obtain ⟨h'', freed, left⟩ := (left.perm List.perm_middle).delete
      cases ran
      refine ⟨answer, h'', ?_, content, mirrors, left⟩
      dsimp only
      rw [returned, Option.bind_some, freed, Option.map_some]
      rfl

end Specs

end LlbcDatabase.RecordHeap
