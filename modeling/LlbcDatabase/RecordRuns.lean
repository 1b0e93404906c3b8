import LlbcDatabase.RecordStore

/-! Whole runs over a table: the records of a connection are objects over its rows, and what
one of them has written is what the next one that is loaded reads. -/

namespace LlbcDatabase

open CText SqlText SqlUtil ObjectStore Simulation RecordWriteBack

variable {F D : Type} [CDouble F]

namespace Store

def start (db : D) : Store F D := ⟨connected, db, [], fun _ => none⟩

def Acts (server : Server D) (handle : Mysql) (tableName : Bytes) (s : Store F D) (c : StoreCall F)
    (out : Bool) (t : Store F D) : Prop := s.act server handle tableName c = .ok (out, t)

end Store

namespace Schema

variable (schema : Schema)

/-- The row that a record names with its key. -/
def rowOf (record : Record F) : Option Int :=
  ((cells record).find? fun f => columnName f = schema.keyName).bind fun f => keyOf f.edit.value

/-- The call neither writes the column of row `k` nor deletes the row. -/
def SparesCell (k : Int) (column : Bytes) (s : Store F D) : StoreCall F → Prop
  | .update h => ∀ record ∈ s.records h, schema.rowOf record = some k →
      ∀ f ∈ cells record, columnName f = column → f.changed = false
  | .delete h => ∀ record ∈ s.records h, schema.rowOf record ≠ some k
  | _ => True

instance (k : Int) (column : Bytes) (s : Store F D) :
    (c : StoreCall F) → Decidable (schema.SparesCell k column s c)
  | .update _ => inferInstanceAs (Decidable (∀ record ∈ _, _ → ∀ f ∈ cells record, _ → _))
  | .delete _ => inferInstanceAs (Decidable (∀ record ∈ _, _))
  | .load .. | .make _ | .set .. | .insert _ => inferInstanceAs (Decidable True)

/-- The call saves the record at `h`: it inserts it, or updates a row that is there. -/
def Saves (rows : D → Int → Option TableRow) (h : Nat) (s : Store F D) (record : Record F) :
    StoreCall F → Prop
  | .insert i => i = h
  | .update i => i = h ∧ ∃ k ∈ schema.rowOf record, rows s.db k ≠ none
  | _ => False

/-- The row that was written, and no other: for an update the row of the record's key, for an insert
a new one, which has the record's key if this was set and else one from the server. -/
structure Wrote (rows : D → Int → Option TableRow) (s t : Store F D) (record : Record F)
    (c : StoreCall F) (k : Int) : Prop where
  update : ∀ h, c = .update h → schema.rowOf record = some k
  insert : ∀ h, c = .insert h → rows s.db k = none ∧
    ((∃ f ∈ cells record, columnName f = schema.keyName ∧ f.changed = true) →
      schema.rowOf record = some k)
  stored : ∃ row, rows t.db k = some row ∧
    ∀ f ∈ cells record, f.changed = true → row (columnName f) = some f.edit.value
  others : ∀ j, j ≠ k → rows t.db j = rows s.db j

end Schema

section Runs

variable {schema : Schema} {server : Server D} {rows : D → Int → Option TableRow} {handle : Mysql}

theorem Represents.rowOf {record : Record F} {o : Object Bytes Literal}
    (h : Represents schema record o) : schema.rowOf record = o.row schema.layout := by
  obtain ⟨f, member, -, info⟩ := h.keyField
  have own : columnName f = schema.keyName := by rw [columnName, info]; rfl
  cases found : (cells record).find? fun f => columnName f = schema.keyName with
  | none => exact absurd own (by simpa using List.find?_eq_none.mp found f member)
  | some g =>
    have inside := List.mem_of_find?_eq_some found
    have called : columnName g = schema.keyName := by
      have found := List.find?_some found
      exact of_decide_eq_true found
    rw [Schema.rowOf, found, Option.bind_some, ← h.value g inside, called]
    rfl

theorem related_start (db : D) :
    Related schema rows (Store.start db : Store F D) ⟨rows db, fun _ => none⟩ :=
  ⟨rfl, rfl, fun _ _ _ found => (by cases found), fun _ => .none⟩

theorem Related.run (serves : Serves schema server rows) {ok : Store F D → StoreCall F → Prop}
    {ok' : World Nat Int Bytes Cell Literal → Act Nat Int Bytes Literal → Prop}
    (met : ∀ s w c, Related schema rows s w → ok s c → schema.Proper s c ∧
      ∀ b, schema.label c = some b → ok' w b)
    {s t : Store F D} {w : World Nat Int Bytes Cell Literal} {events : List (StoreCall F × Bool)}
    (related : Related schema rows s w)
    (run : RunWhere (Store.Acts server handle schema.table.bytes) ok s events t) :
    ∃ events' v, RunWhere (Step schema.layout) ok' w events' v ∧ Related schema rows t v := by
  refine run.simulates (fun s c out t w held allowed taken => ?_) related
  obtain ⟨proper, spares⟩ := met s w c held allowed
  obtain ⟨b, out', t', v, label, done, step, after⟩ := held.next handle serves proper
  cases done.symm.trans taken
  exact ⟨b, v, spares b label, step, after⟩

theorem related_run (serves : Serves schema server rows) {db : D} {t : Store F D}
    {events : List (StoreCall F × Bool)}
    (run : RunWhere (Store.Acts server handle schema.table.bytes) schema.Proper (Store.start db)
      events t) :
    ∃ v, Related schema rows t v := by
  obtain ⟨-, v, -, after⟩ := (related_start db).run serves
    (fun _ _ _ _ proper => ⟨proper, fun _ _ => trivial⟩) run
  exact ⟨v, after⟩

theorem Related.object {s : Store F D} {w : World Nat Int Bytes Cell Literal}
    (related : Related schema rows s w) {h : Nat} {o : Object Bytes Literal}
    (held : w.objects h = some o) : ∃ record, s.records h = some record ∧ Represents schema record o := by
  have own := related.records h
  rw [held] at own
  cases at_h : s.records h with
  | none =>
    rw [at_h] at own
    cases own
  | some record =>
    rw [at_h] at own
    cases own with
    | some represents => exact ⟨record, rfl, represents⟩

theorem Related.spares {s : Store F D} {w : World Nat Int Bytes Cell Literal}
    (related : Related schema rows s w) {k : Int} {column : Bytes} {c : StoreCall F}
    (spared : schema.SparesCell k column s c) {b : Act Nat Int Bytes Literal}
    (label : schema.label c = some b) : Spares schema.layout k column w b := by
  cases c with
  | load h sql mode =>
    obtain ⟨j, -, rfl⟩ := Option.map_eq_some_iff.mp label
    trivial
  | set h c =>
    obtain ⟨p, -, rfl⟩ := Option.map_eq_some_iff.mp label
    trivial
  | make h | insert h =>
    cases label
    trivial
  | update h =>
    cases label
    intro o held named dirty
    obtain ⟨record, at_h, represents⟩ := related.object held
    obtain ⟨f, member, rfl⟩ := represents.dirty column dirty
    have clean := spared record at_h (by rw [represents.rowOf, named]) f member rfl
    rw [(represents.changed f member).mpr dirty] at clean
    cases clean
  | delete h =>
    cases label
    intro o held named
    obtain ⟨record, at_h, represents⟩ := related.object held
    exact spared record at_h (by rw [represents.rowOf, named])

/-- Records are objects over the rows of the table: proper calls do not fault, and from a new
connection on they have the outcomes of a run over rows and objects that ends in the rows of
the server, with an object for each record. -/
theorem records_refine_objects (serves : Serves schema server rows) (handle : Mysql) (db : D)
    {calls : List (StoreCall F)} (proper : ProperAll (Store.act server handle schema.table.bytes)
      schema.Proper (Store.start db) calls) :
    ∃ events s w, actAll (Store.act server handle schema.table.bytes) (Store.start db) calls =
        .ok (events.map (·.2), s) ∧
      calls.map schema.label = events.map (some ·.1) ∧
      RunWhere (Step schema.layout) (fun _ _ => True) ⟨rows db, fun _ => none⟩ events w ∧
      Related schema rows s w := by
  refine forward (fun s w c related proper => ?_) (related_start db) proper
  obtain ⟨b, out, t, v, label, done, step, after⟩ := related.next handle serves proper
  exact ⟨b, out, t, v, label, done, trivial, step, after⟩

theorem Related.saved (serves : Serves schema server rows) {s t : Store F D}
    {w : World Nat Int Bytes Cell Literal} (related : Related schema rows s w) {c : StoreCall F}
    {h : Nat} {record : Record F} (held : s.records h = some record)
    (saves : schema.Saves rows h s record c) (proper : schema.Proper s c)
    (done : Store.Acts server handle schema.table.bytes s c true t) :
    ∃ k v, schema.Wrote rows s t record c k ∧ Related schema rows t v := by
  obtain ⟨_, o, own, rfl, object, represents⟩ :=
    related.record (h := h) (P := (record = ·)) (by rw [Schema.Has, held])
  obtain ⟨b, out, t', v, label, done', step, after⟩ := related.next handle serves proper
  cases done'.symm.trans done
  have stored : ∀ k, Written schema.layout v o k → ∃ row, rows t.db k = some row ∧
      ∀ f ∈ cells record, f.changed = true → row (columnName f) = some f.edit.value := by
    rintro k ⟨row, there, values⟩
    refine ⟨row, by rw [← after.rows, there], fun f member changed => ?_⟩
    rw [values _ ((represents.changed f member).mp changed), represents.value f member]
    rfl
  cases c with
  | update i =>
    obtain ⟨rfl, k, named, row⟩ := saves
    cases label
    have own := named
    rw [represents.rowOf] at own
    obtain ⟨written, others⟩ := step.saved object own (by rw [related.rows]; exact row)
    rw [after.rows, related.rows] at others
    exact ⟨k, v, ⟨fun _ _ => named, nofun, stored k written, others⟩, after⟩
  | insert i =>
    obtain rfl : i = h := saves
    cases label
    obtain ⟨k, free, keyed, written, others⟩ := step.added object
    rw [related.rows] at free
    rw [after.rows, related.rows] at others
    refine ⟨k, v, ⟨nofun, fun _ _ => ⟨free, fun set => ?_⟩, stored k written, others⟩, after⟩
    rw [represents.rowOf, keyed (represents.keyed_iff.mp set)]
  | load | make | set | delete => exact saves.elim

/-- What a record has written to a row is read back: any run that spares the column keeps
it, and a record that is then loaded from the row has the value. -/
theorem saved_read_back (serves : Serves schema server rows) (handle : Mysql) (db : D)
    {before : List (StoreCall F × Bool)} {s t : Store F D} {c : StoreCall F} {h : Nat}
    {record : Record F}
    (reached : RunWhere (Store.Acts server handle schema.table.bytes) schema.Proper (Store.start db)
      before s)
    (held : s.records h = some record) (saves : schema.Saves rows h s record c)
    (proper : schema.Proper s c) (saved : Store.Acts server handle schema.table.bytes s c true t) :
    ∃ k, schema.Wrote rows s t record c k ∧ ∀ f ∈ cells record, f.changed = true →
      ∀ between u sql mode h' v, RunWhere (Store.Acts server handle schema.table.bytes)
          (fun s c => schema.Proper s c ∧ schema.SparesCell k (columnName f) s c) t between u →
        schema.selects (cstr sql) = some k →
        Store.Acts server handle schema.table.bytes u (.load h' sql mode) true v →
          ∃ record' f', v.records h' = some record' ∧ f' ∈ cells record' ∧
            columnName f' = columnName f ∧ f'.edit.value = f.edit.value := by
  obtain ⟨w, related⟩ := related_run serves reached
  obtain ⟨k, w', wrote, after⟩ := related.saved serves held saves proper saved
  obtain ⟨_, o, _, rfl, _, represents⟩ :=
    related.record (h := h) (P := (record = ·)) (by rw [Schema.Has, held])
  refine ⟨k, wrote, fun f member changed between u sql mode h' v run selected loaded => ?_⟩
  have stored : Stored w' k (columnName f) (some f.edit.value) := by
    obtain ⟨row, there, values⟩ := wrote.stored
    exact ⟨row, by rw [after.rows, there], values f member changed⟩
  obtain ⟨events, x, spared, ended⟩ := after.run serves
    (fun s w c held allowed => ⟨allowed.1, fun b => held.spares allowed.2⟩) run
  have proper' : schema.Proper u (.load h' sql mode) := by rw [Schema.Proper, selected]; rfl
  obtain ⟨_, _, v', x', label, done, reload, final⟩ := ended.next handle serves proper'
  cases done.symm.trans loaded
  rw [Schema.label, selected] at label
  cases label
  obtain ⟨o', object', value⟩ := read_back (L := schema.layout) stored spared reload
  obtain ⟨record', at_h', represents'⟩ := final.object object'
  obtain ⟨f', member', info⟩ : ∃ f' ∈ cells record', f'.info = f.info := by
    have column := represents.column member
    rw [← represents'.infos] at column
    exact List.mem_map.mp column
  have own : columnName f' = columnName f := by rw [columnName, info]; rfl
  exact ⟨record', f', at_h', member', own, by rw [← represents'.value f' member', own, value]⟩

end Runs

section Demo

/-- Two records of one row, of which each sets a column that the other does not. -/
def edited : List (StoreCall Unit) :=
  [.load 0 (ascii "select * from player where `id`=1") .edit,
    .load 1 (ascii "select * from player where `id`=1") .edit,
    .set 0 ⟨.inr (ascii "gold"), .int 7⟩, .set 1 ⟨.inr (ascii "name"), .str (CString.lit "bob")⟩]

def onPlayers : Store Unit (KeptTable player) → StoreCall Unit →
    Except Fault (Bool × Store Unit (KeptTable player)) :=
  Store.act (keepTable player) client player.table.bytes

/-- The records are saved, and a new one, which the server gives the key 3. It is loaded from its row,
and the row is deleted. -/
def session : List (StoreCall Unit) :=
  edited ++ [.update 0, .update 1, .make 2, .set 2 ⟨.inr (ascii "gold"), .int 9⟩, .insert 2,
    .load 3 (ascii "select * from player where `id`=3") .edit, .delete 3]

theorem records_refine_players :
    ∃ events s w, actAll onPlayers (Store.start players) session = .ok (events.map (·.2), s) ∧
      session.map player.label = events.map (some ·.1) ∧
      RunWhere (Step player.layout) (fun _ _ => True) ⟨players.row, fun _ => none⟩ events w ∧
      Related player KeptTable.row s w ∧ events.map (·.2) = List.replicate 11 true := by
  obtain ⟨events, s, w, done, labels, run, related⟩ :=
    records_refine_objects (keepTable_serves player) client players
      (show ProperAll onPlayers player.Proper (Store.start players) session by decide +kernel)
  refine ⟨events, s, w, done, labels, run, related, ?_⟩
  have outcomes : (actAll onPlayers (Store.start players) session).toOption.map (·.1) =
      some (List.replicate 11 true) := by decide +kernel
  rw [show actAll onPlayers (Store.start players) session = _ from done] at outcomes
  exact Option.some.inj outcomes

/-- Both are written, and the row is loaded again. -/
def written : Store Unit (KeptTable player) := after onPlayers (Store.start players) edited

def saved : Store Unit (KeptTable player) :=
  after onPlayers (after onPlayers written [.update 0]) [.update 1]

def reloaded : Store Unit (KeptTable player) :=
  after onPlayers saved [.load 2 (ascii "select * from player where `id`=1") .read]

def goldRecord : Record Unit := (written.records 0).get (by decide +kernel)

def goldField : BaseField Unit := (cells goldRecord).get ⟨2, by decide +kernel⟩

/-- A new record, its row, and what is loaded from the row. -/
def created : Store Unit (KeptTable player) :=
  after onPlayers (Store.start players) [.make 0, .set 0 ⟨.inr (ascii "gold"), .int 9⟩]

def inserted : Store Unit (KeptTable player) := after onPlayers created [.insert 0]

def reread : Store Unit (KeptTable player) :=
  after onPlayers inserted [.load 1 (ascii "select * from player where `id`=3") .read]

def newRecord : Record Unit := (created.records 0).get (by decide +kernel)

def newGold : BaseField Unit := (cells newRecord).get ⟨2, by decide +kernel⟩

theorem saved_read_back_gold :
    (∃ record f, reloaded.records 2 = some record ∧ f ∈ cells record ∧
      columnName f = columnName goldField ∧ f.edit.value = .int 7) ∧
    ∃ record f, reread.records 1 = some record ∧ f ∈ cells record ∧
      columnName f = columnName newGold ∧ f.edit.value = .int 9 := by
  constructor
  · have reached : RunWhere (Store.Acts (keepTable player) client player.table.bytes) player.Proper
        (Store.start players) (edited.zip [true, true, true, true]) written :=
      ProperAll.run (by decide +kernel) (by decide +kernel)
    have run : RunWhere (Store.Acts (keepTable player) client player.table.bytes)
        (fun s c => player.Proper s c ∧ player.SparesCell 1 (columnName goldField) s c)
        (after onPlayers written [.update 0]) ([.update 1].zip [true]) saved :=
      ProperAll.run (by decide +kernel) (by decide +kernel)
    have loaded : Store.Acts (keepTable player) client player.table.bytes saved
        (.load 2 (ascii "select * from player where `id`=1") .read) true reloaded :=
      act_eq (by decide +kernel)
    have value : goldField.edit.value = .int 7 := by decide +kernel
    have named : player.rowOf goldRecord = some 1 := by decide +kernel
    obtain ⟨k, wrote, back⟩ := saved_read_back (keepTable_serves player) client players
      (c := .update 0) (h := 0) reached (Option.some_get _).symm ⟨rfl, 1, named, by decide +kernel⟩
      (by decide +kernel) (act_eq (by decide +kernel))
    obtain rfl : 1 = k := Option.some.inj (named.symm.trans (wrote.update 0 rfl))
    rw [← value]
    exact back goldField (List.getElem_mem _) (by decide +kernel) _ _ _ _ _ _ run
      (by decide +kernel) loaded
  · have reached : RunWhere (Store.Acts (keepTable player) client player.table.bytes) player.Proper
        (Store.start players)
        ([.make 0, .set 0 ⟨.inr (ascii "gold"), .int 9⟩].zip [true, true]) created :=
      ProperAll.run (by decide +kernel) (by decide +kernel)
    have loaded : Store.Acts (keepTable player) client player.table.bytes inserted
        (.load 1 (ascii "select * from player where `id`=3") .read) true reread :=
      act_eq (by decide +kernel)
    have value : newGold.edit.value = .int 9 := by decide +kernel
    obtain ⟨k, wrote, back⟩ := saved_read_back (keepTable_serves player) client players
      (c := .insert 0) (h := 0) (t := inserted) reached (Option.some_get _).symm rfl
      (by decide +kernel) (act_eq (by decide +kernel))
    -- row 3 is the only one that is there now and was not before
    obtain rfl : 3 = k := by
      by_contra other
      have same : (inserted.db.row 3).isSome = (created.db.row 3).isSome := by rw [wrote.others 3 other]
      exact absurd same (by decide +kernel)
    rw [← value]
    exact back newGold (List.getElem_mem _) (by decide +kernel) _ _ _ _ _ _ .nil
      (by decide +kernel) loaded

end Demo

end LlbcDatabase
