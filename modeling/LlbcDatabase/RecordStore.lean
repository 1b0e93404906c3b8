import LlbcDatabase.FieldBuffer
import LlbcDatabase.InsertBinding
import LlbcDatabase.RecordObjects

/-! Records over one connection: loaded or made, set, inserted, updated and deleted in any
order, and any number of them at a time. Over a server that keeps a table as it is documented
to, they are objects over the rows of the table. -/

namespace LlbcDatabase

open CText SqlText SqlUtil ObjectStore Simulation RecordWriteBack

variable {F D : Type}

structure Store (F D : Type) where
  conn : MysqlConnect
  db : D
  fieldInfos : FieldInfoCache
  records : Nat → Option (Record F)

/-- What is done with the record at a handle. A `load` is a `Query` with a statement of the
caller, who takes the first record of what is returned. -/
inductive StoreCall (F : Type) where
  | load (h : Nat) (sql : Bytes) (mode : Mode)
  | make (h : Nat)
  | set (h : Nat) (c : SetterCall F)
  | insert (h : Nat)
  | update (h : Nat)
  | delete (h : Nat)

namespace Store

def send (server : Server D) (sql : Bytes) (s : MysqlConnect × D) : Bool × MysqlConnect × D :=
  s.1.execute server sql s.2

def onRecord {A : Type} (s : Store F D) (h : Nat) (call : Record F → Except Fault A) : Except Fault A :=
  match s.records h with
  | some record => call record
  | none => .error .outOfRange

variable [CDouble F] (server : Server D) (handle : Mysql) (tableName : Bytes)

/-- The call and whether it is successful. A null record is a fault. -/
def act (s : Store F D) : StoreCall F → Except Fault (Bool × Store F D)
  | .load h sql mode =>
    let (result, conn, db, fieldInfos) :=
      s.conn.query server queryDBFieldInfo sql mode s.db s.fieldInfos
    result.map fun recSet =>
      let record := recSet.bind fun recSet => recSet.head?.join
      (record.isSome, ⟨conn, db, fieldInfos, Function.update s.records h record⟩)
  | .make h =>
    let (record, conn, db, fieldInfos) :=
      s.conn.makeDefRecord server queryDBFieldInfo tableName s.db s.fieldInfos
    .ok (record.isSome, ⟨conn, db, fieldInfos, Function.update s.records h record⟩)
  | .set h c => s.onRecord h fun record => (record.call c).map fun after =>
    (true, { s with records := Function.update s.records h (some after) })
  | .insert h => s.onRecord h fun record =>
    (RecordWrites.insert (send server) handle record (s.conn, s.db)).map fun out =>
      (out.1, { s with conn := out.2.1, db := out.2.2 })
  | .update h => s.onRecord h fun record =>
    (RecordWrites.update (send server) handle record (s.conn, s.db)).map fun out =>
      (out.1, { s with
        conn := out.2.2.1
        db := out.2.2.2
        records := Function.update s.records h (some out.2.1) })
  | .delete h => s.onRecord h fun record =>
    (RecordWrites.delete (send server) record (s.conn, s.db)).map fun out =>
      (out.1, { s with conn := out.2.1, db := out.2.2 })

end Store

namespace Schema

variable [CDouble F] (schema : Schema)

/-- The key of the row that a statement selects. -/
def selects (sql : Bytes) : Option Int :=
  match readStatement sql with
  | some (.select table ⟨name, .int k⟩) =>
    if table = schema.table.bytes ∧ name.map toLower = schema.keyName then some k else none
  | _ => none

def label : StoreCall F → Option (Act Nat Int Bytes Literal)
  | .load h sql mode => (schema.selects (cstr sql)).map fun k => .load h k (mode = .edit)
  | .make h => some (.make h)
  | .set h c => (schema.means c).map fun p => .set h p.1 p.2
  | .insert h => some (.insert h)
  | .update h => some (.update h)
  | .delete h => some (.delete h)

def KeyHeld (record : Record F) : Prop :=
  ∀ f ∈ cells record, columnName f = schema.keyName → f.info.Holds f.edit.value

/-- The changed fields have values that their columns hold, and fit their buffers. -/
def Writable (record : Record F) : Prop :=
  schema.KeyHeld record ∧ ∀ f ∈ cells record, f.changed = true →
    f.info.Holds f.edit.value ∧ overruns f = false ∧
      (f.edit.print.length : Int) < bufferSize (cells record)

instance (record : Record F) : Decidable (schema.KeyHeld record) :=
  inferInstanceAs (Decidable (∀ f ∈ cells record, _ → _))

instance (record : Record F) : Decidable (schema.Writable record) :=
  inferInstanceAs (Decidable (_ ∧ ∀ f ∈ cells record, _ → _))

def Has (s : Store F D) (h : Nat) (P : Record F → Prop) : Prop :=
  match s.records h with
  | some record => P record
  | none => False

/-- A load selects one row by its key. The other calls are made on a record, setters with a
field of their kind and writes with a record that can be written. -/
def Proper (s : Store F D) : StoreCall F → Prop
  | .load _ sql _ => (schema.selects (cstr sql)).isSome = true
  | .make _ => True
  | .set h c => Has s h fun record => (record.call c).toOption.isSome = true
  | .insert h => Has s h schema.Writable
  | .update h => Has s h schema.Writable
  | .delete h => Has s h schema.KeyHeld

instance (s : Store F D) (h : Nat) (P : Record F → Prop) [DecidablePred P] : Decidable (Has s h P) :=
  match held : s.records h with
  | some record => decidable_of_iff (P record) (by rw [Has, held])
  | none => isFalse (by rw [Has, held]; exact id)

instance (s : Store F D) : (c : StoreCall F) → Decidable (schema.Proper s c)
  | .load .. => inferInstanceAs (Decidable (_ = true))
  | .make _ => inferInstanceAs (Decidable True)
  | .set .. => inferInstanceAs (Decidable (Has _ _ fun _ => _ = true))
  | .insert _ | .update _ => inferInstanceAs (Decidable (Has _ _ schema.Writable))
  | .delete _ => inferInstanceAs (Decidable (Has _ _ schema.KeyHeld))

end Schema

section Statements

variable [CDouble F] {schema : Schema} {record : Record F} {o : Object Bytes Literal}

theorem Represents.named (h : Represents schema record o) (held : schema.KeyHeld record) :
    ∃ k, o.row schema.layout = some k ∧ -2 ^ 63 ≤ k ∧ k < 2 ^ 63 := by
  obtain ⟨f, member, -, info⟩ := h.keyField
  have own : columnName f = schema.keyName := by rw [columnName, info]; rfl
  have integer : isInteger f.info.type = true := by
    rw [info]
    exact schema.integer
  obtain ⟨k, value, low, -⟩ := integer_value integer
  have holds := held f member own
  rw [value] at holds
  refine ⟨k, Schema.row_iff.mpr ?_, low, holds.2.2⟩
  rw [← own, h.value f member, value]

theorem Represents.legible (h : Represents schema record o) {k : Int} (low : -2 ^ 63 ≤ k)
    (small : k < 2 ^ 63) : Legible (schema.keyColumn.name, .int k) ∧
      record.tableName.bytes.length + comparisonLength (schema.keyColumn.name, .int k) ≤ 993 := by
  have names := schema.names _ schema.mem_keyColumn
  have digits := signedDecimal_length low (by omega : k < 2 ^ 64)
  have short := schema.short
  rw [h.table]
  refine ⟨⟨names.1, ?_, trivial⟩, ?_⟩ <;> simp only [comparisonLength] <;> omega

theorem Represents.operation (h : Represents schema record o) (handle : Mysql)
    (writable : schema.Writable record) :
    buildOperation handle record [] = .ok (true, printList (edits (cells record))) := by
  refine buildOperation_edits h.filled h.keyed (buildFormatSql_changed handle ?_ ?_) ?_
  · exact fun f member _ => schema.exact_ _ (h.column member)
  · exact fun f member changed => (writable.2 f member changed).2.2
  · intro f member
    obtain ⟨inside, changed⟩ := List.mem_filter.mp member
    exact (writable.2 f inside changed).2.1

theorem Represents.names_edits (h : Represents schema record o) :
    ∀ a ∈ edits (cells record), 96 ∉ a.name ∧ 0 ∉ a.name := by
  intro a member
  obtain ⟨f, inside, rfl⟩ := List.mem_map.mp member
  exact ⟨(schema.names _ (h.column (List.mem_filter.mp inside).1)).1, f.info.name.noNul⟩

theorem Represents.takes (h : Represents schema record o) (writable : schema.Writable record) :
    ∀ a ∈ edits (cells record), schema.Takes a := by
  intro a member
  obtain ⟨f, inside, rfl⟩ := List.mem_map.mp member
  obtain ⟨inside, changed⟩ := List.mem_filter.mp inside
  exact ⟨f.info, h.column inside, rfl, (writable.2 f inside changed).1⟩

end Statements

section Sent

variable {server : Server D} {sql : Bytes} {db : D}

theorem execute_error (reply : (server.run (cstr sql) db).1 = .error) :
    connected.execute server sql db = (false, connected, (server.run (cstr sql) db).2) := by
  cases ran : server.run (cstr sql) db with
  | mk answer after =>
    rw [ran] at reply
    simp only at reply
    subst reply
    simp [MysqlConnect.execute, MysqlConnect.queryRes, MysqlConnect.mysqlRealQuery, connected, ran]

theorem execute_done (reply : (server.run (cstr sql) db).1 = .done) :
    connected.execute server sql db = (true, connected, (server.run (cstr sql) db).2) := by
  cases ran : server.run (cstr sql) db with
  | mk answer after =>
    rw [ran] at reply
    simp only at reply
    subst reply
    simp [MysqlConnect.execute, MysqlConnect.queryRes, MysqlConnect.mysqlRealQuery, connected, ran]

theorem send_error (text : cstr sql = sql) (reply : (server.run sql db).1 = .error) :
    Store.send server sql (connected, db) = (false, connected, (server.run sql db).2) := by
  have sent := execute_error (by rw [text]; exact reply)
  rwa [text] at sent

theorem send_done (text : cstr sql = sql) (reply : (server.run sql db).1 = .done) :
    Store.send server sql (connected, db) = (true, connected, (server.run sql db).2) := by
  have sent := execute_done (by rw [text]; exact reply)
  rwa [text] at sent

end Sent

section Steps

variable [CDouble F] {schema : Schema} {server : Server D} {rows : D → Int → Option TableRow}
  {handle : Mysql} {s : Store F D} {w : World Nat Int Bytes Cell Literal}

structure Related (schema : Schema) (rows : D → Int → Option TableRow) (s : Store F D)
    (w : World Nat Int Bytes Cell Literal) : Prop where
  conn : s.conn = connected
  rows : w.rows = rows s.db
  fresh : schema.Fresh s.fieldInfos
  records : ∀ h, Option.Rel (Represents schema) (s.records h) (w.objects h)

theorem rel_update {records : Nat → Option (Record F)}
    {objects : Nat → Option (Object Bytes Literal)}
    (all : ∀ h, Option.Rel (Represents schema) (records h) (objects h)) {h : Nat}
    {record : Option (Record F)} {o : Option (Object Bytes Literal)}
    (here : Option.Rel (Represents schema) record o) (j : Nat) :
    Option.Rel (Represents schema) (Function.update records h record j)
      (Function.update objects h o j) := by
  by_cases same : j = h
  · subst same
    rw [Function.update_self, Function.update_self]
    exact here
  · rw [Function.update_of_ne same, Function.update_of_ne same]
    exact all j

theorem Related.record (related : Related schema rows s w) {h : Nat} {P : Record F → Prop}
    (has : Schema.Has s h P) : ∃ record o, s.records h = some record ∧ P record ∧
      w.objects h = some o ∧ Represents schema record o := by
  have own := related.records h
  unfold Schema.Has at has
  cases held : s.records h with
  | none =>
    rw [held] at has
    exact has.elim
  | some record =>
    rw [held] at has own
    cases object : w.objects h with
    | none =>
      rw [object] at own
      cases own
    | some o =>
      rw [object] at own
      cases own with
      | some represents => exact ⟨record, o, rfl, has, rfl, represents⟩

def Simulates (schema : Schema) (server : Server D) (rows : D → Int → Option TableRow)
    (handle : Mysql) (s : Store F D) (w : World Nat Int Bytes Cell Literal) (c : StoreCall F) : Prop :=
  ∃ b out t v, schema.label c = some b ∧
    s.act server handle schema.table.bytes c = .ok (out, t) ∧
      Step schema.layout w b out v ∧ Related schema rows t v

theorem Related.set (related : Related schema rows s w) {h : Nat} {c : SetterCall F}
    (proper : schema.Proper s (.set h c)) :
    Simulates schema server rows handle s w (.set h c) := by
  obtain ⟨record, o, held, done, object, represents⟩ := related.record proper
  obtain ⟨after, called⟩ := Option.isSome_iff_exists.mp done
  have called := toOption_ok.mp called
  obtain ⟨i, v, means, next⟩ := represents.call called
  refine ⟨.set h i v, true, { s with records := Function.update s.records h (some after) }, _,
    by simp [Schema.label, means], ?_, .set object, ?_⟩
  · simp only [Store.act, Store.onRecord, held, called, Except.map]
  · exact ⟨related.conn, related.rows, related.fresh, rel_update related.records (.some next)⟩

theorem Related.insert (serves : Serves schema server rows) (related : Related schema rows s w)
    {h : Nat} (proper : schema.Proper s (.insert h)) :
    Simulates schema server rows handle s w (.insert h) := by
  obtain ⟨record, o, held, writable, object, represents⟩ := related.record proper
  obtain ⟨text, built, reads⟩ := insert_reads (by rw [represents.table]; exact Schema.noTick)
    represents.names_edits (represents.operation handle writable) []
  by_cases clean : edits (cells record) = []
  · refine ⟨.insert h, false, s, w, rfl, ?_, .refused object (.inl rfl), related⟩
    simp [Store.act, Store.onRecord, held, RecordWrites.insert, built, clean, bind, Except.bind,
      pure, Except.pure, Except.map]
  rw [if_neg clean, represents.table] at reads
  have sent : s.act server handle schema.table.bytes (.insert h) =
      .ok ((Store.send server text (connected, s.db)).1,
        { s with
          conn := (Store.send server text (connected, s.db)).2.1
          db := (Store.send server text (connected, s.db)).2.2 }) := by
    simp [Store.act, Store.onRecord, held, RecordWrites.insert, built, clean, bind, Except.bind,
      pure, Except.pure, Except.map, related.conn]
  rcases serves.insert text s.db _ reads.2 (represents.takes writable) with
    ⟨answer, same⟩ | ⟨answer, k, base, free, stored, own⟩
  · rw [send_error reads.1 answer] at sent
    refine ⟨.insert h, false, _, w, rfl, sent, .refused object (.inl rfl), rfl, ?_,
      related.fresh, related.records⟩
    rw [related.rows, same]
  · rw [send_done reads.1 answer] at sent
    rw [represents.assign_edits] at stored
    have kept := serves.held _ k (o.write schema.layout base) (by rw [stored, Function.update_self])
    have free : w.rows k = none := by rw [related.rows, free]
    refine ⟨.insert h, true, _, { w with
      rows := Function.update w.rows k (some (o.write schema.layout base)) }, rfl, sent, ?_,
      rfl, by rw [stored, related.rows], related.fresh, related.records⟩
    simp only [represents.edits_key] at own
    by_cases keyed : schema.keyName ∈ o.dirty
    · rw [if_pos keyed] at own
      subst own
      have value := kept.1
      rw [Object.write_dirty schema.layout keyed] at value
      exact .inserted object keyed (Schema.row_iff.mpr (Option.some.inj value)) free
    · rw [if_neg keyed] at own
      subst own
      have some_ : o.dirty.Nonempty :=
        Finset.nonempty_iff_ne_empty.mpr fun empty => clean (represents.edits_eq_nil.mpr empty)
      exact .numbered object some_ keyed rfl free

theorem Related.update (serves : Serves schema server rows) (related : Related schema rows s w)
    {h : Nat} (proper : schema.Proper s (.update h)) :
    Simulates schema server rows handle s w (.update h) := by
  obtain ⟨record, o, held, writable, object, represents⟩ := related.record proper
  have same : Function.update s.records h (some record) = s.records := by
    rw [← held, Function.update_eq_self]
  by_cases mode : record.mode = .edit
  swap
  · refine ⟨.update h, false, s, w, rfl, ?_, .refused object (.inr (.inl ⟨rfl, ?_⟩)), related⟩
    · simp [Store.act, Store.onRecord, held, RecordWrites.update_mode mode, Except.map, same]
    · intro editable
      rw [represents.editable] at editable
      exact absurd (of_decide_eq_true editable) mode
  have editable : o.editable = true := by rw [represents.editable, mode]; rfl
  obtain ⟨k, named, low, small⟩ := represents.named writable.1
  have compared := represents.comparison named small
  obtain ⟨text, built, reads⟩ := update_reads (by rw [represents.table]; exact Schema.noTick)
    represents.names_edits (represents.operation handle writable) compared
    (represents.legible low small).1 []
  have updated : RecordWrites.update (Store.send server) handle record (s.conn, s.db) = _ :=
    RecordWrites.update_eq mode built
  by_cases clean : edits (cells record) = []
  · rw [if_pos clean] at reads
    rw [if_pos reads] at updated
    refine ⟨.update h, true, s, w, rfl, ?_,
      .unchanged object editable (represents.edits_eq_nil.mp clean), related⟩
    simp [Store.act, Store.onRecord, held, updated, Except.map, same]
  rw [if_neg clean, represents.table] at reads
  have some_ : o.dirty.Nonempty :=
    Finset.nonempty_iff_ne_empty.mpr fun empty => clean (represents.edits_eq_nil.mpr empty)
  have sends : text ≠ [] := by
    rintro rfl
    cases reads.2
  rw [if_neg sends, related.conn] at updated
  have key : schema.keyColumn.name.bytes.map toLower = schema.keyName := rfl
  rcases serves.update text s.db _ _ k reads.2 key fun a member =>
      ⟨represents.takes writable a member, represents.edits_own named member⟩ with
    ⟨answer, kept⟩ | ⟨answer, stored⟩
  · rw [send_error reads.1 answer] at updated
    refine ⟨.update h, false, { s with conn := connected, db := (server.run text s.db).2 }, w, rfl, ?_,
      .refused object (.inr (.inl ⟨rfl, fun _ => some_⟩)), rfl, ?_, related.fresh,
      related.records⟩
    · simp [Store.act, Store.onRecord, held, related.conn, updated, Except.map, same]
    · rw [related.rows, kept]
  · obtain ⟨after, cleared, next⟩ := represents.clsEditFlag
    rw [send_done reads.1 answer, cleared] at updated
    refine ⟨.update h, true, { s with
      conn := connected
      db := (server.run text s.db).2
      records := Function.update s.records h (some after) }, _, rfl, ?_,
      .updated object editable some_ named, ?_⟩
    · simp [Store.act, Store.onRecord, held, related.conn, updated, Except.map]
    · refine ⟨rfl, ?_, related.fresh, rel_update related.records (.some next)⟩
      rw [stored, related.rows, funext represents.assign_edits]

theorem Related.delete (serves : Serves schema server rows) (related : Related schema rows s w)
    {h : Nat} (proper : schema.Proper s (.delete h)) :
    Simulates schema server rows handle s w (.delete h) := by
  obtain ⟨record, o, held, keyHeld, object, represents⟩ := related.record proper
  by_cases mode : record.mode = .edit
  swap
  · refine ⟨.delete h, false, s, w, rfl, ?_, .refused object (.inr (.inr rfl)), related⟩
    simp [Store.act, Store.onRecord, held, RecordWrites.delete_mode mode, Except.map]
  have editable : o.editable = true := by rw [represents.editable, mode]; rfl
  obtain ⟨k, named, low, small⟩ := represents.named keyHeld
  obtain ⟨legible, fits⟩ := represents.legible low small
  obtain ⟨text, built, plain, reads⟩ := delete_reads (by rw [represents.table]; exact Schema.noTick)
    (represents.comparison named small) legible fits []
  rw [represents.table] at reads
  have sent : s.act server handle schema.table.bytes (.delete h) =
      .ok ((Store.send server text (connected, s.db)).1,
        { s with
          conn := (Store.send server text (connected, s.db)).2.1
          db := (Store.send server text (connected, s.db)).2.2 }) := by
    simp [Store.act, Store.onRecord, held, RecordWrites.delete, mode, built, bind, Except.bind,
      pure, Except.pure, Except.map, related.conn]
  rcases serves.delete text s.db _ k reads rfl with ⟨answer, same⟩ | ⟨answer, stored⟩
  · rw [send_error plain answer] at sent
    refine ⟨.delete h, false, _, w, rfl, sent, .refused object (.inr (.inr rfl)), rfl, ?_,
      related.fresh, related.records⟩
    rw [related.rows, same]
  · rw [send_done plain answer] at sent
    refine ⟨.delete h, true, _, _, rfl, sent, .deleted object editable named, rfl, ?_,
      related.fresh, related.records⟩
    simp only [stored, related.rows]

omit [CDouble F] in
theorem Schema.selects_some {sql : Bytes} {k : Int} (selected : schema.selects sql = some k) :
    ∃ name, readStatement sql = some (.select schema.table.bytes ⟨name, .int k⟩) ∧
      name.map toLower = schema.keyName := by
  unfold Schema.selects at selected
  split at selected
  case h_1 table name j read =>
    split at selected
    case isTrue own =>
      obtain rfl := Option.some.inj selected
      exact ⟨name, by rw [read, own.1], own.2⟩
    case isFalse => cases selected
  case h_2 => cases selected

section Queries

variable {C : Type} {look : C → MysqlField → Option DBFieldInfo × C} {c : C} {sql : Bytes}
  {mode : Mode} {db : D} {result : StoredResult}

theorem query_error (answer : (server.run (cstr sql) db).1 = .error) :
    (connected.query server look sql mode db c : Except Fault (Option (Recordset F)) × _) =
      (.ok none, connected, (server.run (cstr sql) db).2, c) := by
  cases ran : server.run (cstr sql) db with
  | mk reply after =>
    rw [ran] at answer
    simp only at answer
    subst answer
    simp [MysqlConnect.query, MysqlConnect.queryRes, MysqlConnect.mysqlRealQuery, connected, ran]

theorem query_rows (answer : (server.run (cstr sql) db).1 = .rows result) :
    (connected.query server look sql mode db c : Except Fault (Option (Recordset F)) × _) =
      ((readResult look c result mode).1, connected, (server.run (cstr sql) db).2,
        (readResult (F := F) look c result mode).2) := by
  cases ran : server.run (cstr sql) db with
  | mk reply after =>
    rw [ran] at answer
    simp only at answer
    subst answer
    simp [MysqlConnect.query, MysqlConnect.queryRes, MysqlConnect.mysqlRealQuery,
      MysqlConnect.mysqlStoreResult, connected, ran]

variable {tableName : Bytes}

theorem makeDef_error (answer : (server.run (cstr (RecordWrites.defSql tableName)) db).1 = .error) :
    (connected.makeDefRecord server look tableName db c : Option (Record F) × _) =
      (none, connected, (server.run (cstr (RecordWrites.defSql tableName)) db).2, c) := by
  cases ran : server.run (cstr (RecordWrites.defSql tableName)) db with
  | mk reply after =>
    rw [ran] at answer
    simp only at answer
    subst answer
    rw [RecordWrites.defSql] at ran
    simp only [MysqlConnect.makeDefRecord, MysqlConnect.queryRes, MysqlConnect.mysqlRealQuery,
      connected, ran]
    rfl

theorem makeDef_rows (answer : (server.run (cstr (RecordWrites.defSql tableName)) db).1 =
    .rows result) :
    (connected.makeDefRecord server look tableName db c : Option (Record F) × _) =
      ((createRecord look c none result.fields none .edit).1, connected,
        (server.run (cstr (RecordWrites.defSql tableName)) db).2,
        (createRecord (F := F) look c none result.fields none .edit).2) := by
  cases ran : server.run (cstr (RecordWrites.defSql tableName)) db with
  | mk reply after =>
    rw [ran] at answer
    simp only at answer
    subst answer
    rw [RecordWrites.defSql] at ran
    simp only [MysqlConnect.makeDefRecord, MysqlConnect.queryRes, MysqlConnect.mysqlRealQuery,
      connected, ran]
    rfl

end Queries

omit [CDouble F] in
theorem loads_row {result : StoredResult} {row : Row} {read : TableRow}
    (single : result.rows = [row]) (sent : row.map (·.map (·.bytes)) = schema.sends read) (j : Nat)
    (h : j < schema.columns.length) (h' : j < result.fields.length) :
    Loads schema (some row) result.fields[j] j (read schema.columns[j].lowerName) := by
  have width := result.rect row (by rw [single]; exact List.mem_singleton_self row)
  have inside : j < row.length := by omega
  have cell : row.getD j none = row[j] := by simp [inside]
  have own := congrArg (·[j]?) sent
  simp only [Schema.sends, List.getElem?_map, List.getElem?_eq_getElem inside,
    List.getElem?_eq_getElem h, Option.map_some, Option.some.injEq] at own
  have largest := result.maxLength j h'
  rw [single] at largest
  simp only [columnMax, List.map_cons, List.map_nil, List.foldr_cons, List.foldr_nil, cell] at largest
  refine ⟨by rw [cellValue, cell]; exact own, fun x value short => ?_⟩
  rw [cellValue, cell] at value
  rw [value] at largest
  simp only [cellLength, Nat.max_zero] at largest
  rw [cellLen, UInt64.toNat_toUInt32, largest]
  omega

/-- The records of a row: none when it is not there, and else one that is loaded from it. -/
def Schema.ReadsRow (schema : Schema) (mode : Mode) (row : Option TableRow) (recSet : Recordset F) :
    Prop :=
  match row with
  | none => recSet = []
  | some cells => ∃ record, recSet = [some record] ∧
      Represents schema record (Object.load schema.layout (decide (mode = .edit)) cells)

theorem query_row (serves : Serves schema server rows) {cache : FieldInfoCache} {sql : Bytes}
    {k : Int} (fresh : schema.Fresh cache) (selected : schema.selects (cstr sql) = some k)
    (mode : Mode) (db : D) :
    rows (server.run (cstr sql) db).2 = rows db ∧ ∃ (recSet : Option (Recordset F)) (cache' : _),
      connected.query server queryDBFieldInfo sql mode db cache =
        (.ok recSet, connected, (server.run (cstr sql) db).2, cache') ∧ schema.Fresh cache' ∧
      ∀ read, recSet = some read → schema.ReadsRow mode (rows db k) read := by
  obtain ⟨name, read, key⟩ := Schema.selects_some selected
  obtain ⟨same, answered⟩ := serves.select (cstr sql) db name k read key
  refine ⟨same, ?_⟩
  rcases answered with answer | ⟨result, answer, described, sent⟩
  · exact ⟨none, cache, query_error answer, fresh, nofun⟩
  rw [query_rows answer]
  cases row : rows db k with
  | none =>
    have empty : result.rows = [] := by simpa [row] using sent
    refine ⟨some [], cache, by simp [readResult_eq, empty, readRows, Recordset.new], fresh, ?_⟩
    rintro read ⟨⟩
    rfl
  | some cells =>
    obtain ⟨line, single, line_sent⟩ : ∃ line, result.rows = [line] ∧
        line.map (·.map (·.bytes)) = schema.sends cells := by
      simpa [row, List.map_eq_singleton_iff] using sent
    have held := (serves.held db k cells row).2
    obtain ⟨record, cache', made, kept, represents⟩ := Schema.createRecord (F := F) described
      fresh (some line) mode cells held (loads_row single line_sent)
    refine ⟨some [some record], cache',
      by simp [readResult_eq, single, readRows, made, Recordset.new], kept, ?_⟩
    rintro read ⟨⟩
    exact ⟨record, rfl, represents⟩

theorem Related.load (serves : Serves schema server rows) (related : Related schema rows s w)
    {h : Nat} {sql : Bytes} {mode : Mode} (proper : schema.Proper s (.load h sql mode)) :
    Simulates schema server rows handle s w (.load h sql mode) := by
  obtain ⟨k, selected⟩ := Option.isSome_iff_exists.mp proper
  have label : schema.label (.load h sql mode : StoreCall F) =
      some (.load h k (decide (mode = .edit))) := by simp [Schema.label, selected]
  obtain ⟨same, recSet, fieldInfos, asked, fresh, reads⟩ :=
    query_row (F := F) serves related.fresh selected mode s.db
  have stored : w.rows = rows (server.run (cstr sql) s.db).2 := by rw [related.rows, same]
  have missed : Related schema rows
      ⟨connected, (server.run (cstr sql) s.db).2, fieldInfos, Function.update s.records h none⟩
      { w with objects := Function.update w.objects h none } :=
    ⟨rfl, stored, fresh, rel_update related.records .none⟩
  cases recSet with
  | none =>
    refine ⟨_, false, _, _, label, ?_, .missing, missed⟩
    simp [Store.act, related.conn, asked, Except.map]
  | some recSet =>
    have read := reads recSet rfl
    cases row : rows s.db k with
    | none =>
      rw [row] at read
      obtain rfl : recSet = [] := read
      refine ⟨_, false, _, _, label, ?_, .missing, missed⟩
      simp [Store.act, related.conn, asked, Except.map]
    | some cells =>
      rw [row] at read
      obtain ⟨record, rfl, represents⟩ := read
      refine ⟨_, true, ⟨connected, (server.run (cstr sql) s.db).2, fieldInfos,
        Function.update s.records h (some record)⟩, _, label, ?_, .loaded ?_, rfl, stored, fresh,
        rel_update related.records (.some represents)⟩
      · simp [Store.act, related.conn, asked, Except.map]
      · rw [related.rows, row]

theorem Related.make (serves : Serves schema server rows) (related : Related schema rows s w)
    (h : Nat) : Simulates schema server rows handle s w (.make h) := by
  have text : cstr (RecordWrites.defSql schema.table.bytes) =
      ascii "select * from " ++ schema.table.bytes ++ ascii " limit 0" := by
    have short := schema.short
    have opening : (ascii "select * from ").length = 14 := rfl
    have clause : (ascii " limit 0").length = 8 := rfl
    rw [RecordWrites.defSql, cstr_eq_self schema.table.noNul,
      snprintf_eq_self (by simp only [List.length_append]; omega)]
    exact cstr_eq_self (by simp [ascii, schema.table.noNul])
  have read : readStatement (cstr (RecordWrites.defSql schema.table.bytes)) =
      some (.describe schema.table.bytes) := by
    rw [text]
    exact readStatement_describe schema.bare
  obtain ⟨same, answered⟩ := serves.describe _ s.db read
  rcases answered with answer | ⟨result, answer, described, -⟩
  · refine ⟨.make h, false, ⟨connected, (server.run (cstr (RecordWrites.defSql schema.table.bytes))
      s.db).2, s.fieldInfos, Function.update s.records h none⟩, _, rfl, ?_, .unmade, rfl,
      by rw [related.rows, same], related.fresh, rel_update related.records .none⟩
    simp [Store.act, related.conn, makeDef_error answer]
  · have loads : ∀ (j : Nat) (h : j < schema.columns.length) (h' : j < result.fields.length),
        Loads schema none result.fields[j] j ((fun _ => none : TableRow) schema.columns[j].lowerName) := by
      intro j inside inside'
      have own := described.get inside inside'
      rw [List.get_eq_getElem, List.get_eq_getElem] at own
      refine ⟨by rw [cellValue, own.default]; rfl, fun x value => ?_⟩
      rw [cellValue, own.default] at value
      cases value
    obtain ⟨record, fieldInfos, made, fresh, represents⟩ := Schema.createRecord (F := F) described
      related.fresh none .edit (fun _ => none) (fun _ _ _ absent => by cases absent) loads
    refine ⟨.make h, true, ⟨connected, (server.run (cstr (RecordWrites.defSql schema.table.bytes))
      s.db).2, fieldInfos, Function.update s.records h (some record)⟩, _, rfl, ?_, .made, rfl,
      by rw [related.rows, same], fresh, rel_update related.records (.some represents)⟩
    simp [Store.act, related.conn, makeDef_rows answer, made]

variable (handle) in
/-- A proper call does not fault, and is a step of what it stands for. -/
theorem Related.next (serves : Serves schema server rows) (related : Related schema rows s w)
    {c : StoreCall F} (proper : schema.Proper s c) : Simulates schema server rows handle s w c := by
  cases c with
  | load h sql mode => exact related.load serves proper
  | make h => exact related.make serves h
  | set h c => exact related.set proper
  | insert h => exact related.insert serves proper
  | update h => exact related.update serves proper
  | delete h => exact related.delete serves proper

end Steps

end LlbcDatabase
