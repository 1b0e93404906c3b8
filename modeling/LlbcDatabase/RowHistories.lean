import LlbcDatabase.EngineFlush
import LlbcDatabase.RecordRuns
import LlbcDatabase.ShardConfluence

/-! The rows of a table under the asynchronous engine. When the tasks of a row have one key,
its statements are executed one after another in the order in which they were submitted,
whatever the workers do meanwhile: every row is a sequential object. -/

namespace LlbcDatabase

open CText SqlText SqlUtil ObjectStore Simulation Transition CommutingRuns RecordWriteBack

section Statements

variable (schema : Schema)

/-- The row that a statement writes and nothing else, and what becomes of it. -/
def Schema.writes (sql : Bytes) : Option (Int × (Option TableRow → Option TableRow)) :=
  match readStatement sql with
  | some (.update table as ⟨name, .int k⟩) =>
    if table = schema.table.bytes ∧ name.map toLower = schema.keyName ∧ ∀ a ∈ as,
        schema.Takes a ∧ (a.name.map toLower = schema.keyName → a.value = .int k) then
      some (k, Option.map (assign as))
    else none
  | some (.delete table ⟨name, .int k⟩) =>
    if table = schema.table.bytes ∧ name.map toLower = schema.keyName then some (k, fun _ => none)
    else none
  | some (.insert table as) =>
    if table = schema.table.bytes ∧ (∃ a ∈ as, a.name.map toLower = schema.keyName) ∧
        ∀ a ∈ as, schema.Takes a then
      ((assign as schema.default schema.keyName).bind keyOf).map fun k =>
        (k, fun _ => some (assign as schema.default))
    else none
  | _ => none

variable {schema} {D : Type} {server : Server D} {rows : D → Int → Option TableRow}

/-- What a statement does to the rows, in whatever state the server receives it. It does nothing
where the server answers with an error. -/
def Does (server : Server D) (rows : D → Int → Option TableRow) (sql : Bytes)
    (change : (Int → Option TableRow) → (Int → Option TableRow) → Prop) : Prop :=
  ∀ db, (server.run sql db).1 = .error ∧ rows (server.run sql db).2 = rows db ∨
    (server.run sql db).1 = .done ∧ change (rows db) (rows (server.run sql db).2)

theorem Serves.write (serves : Serves schema server rows) {sql : Bytes} {k : Int}
    {f : Option TableRow → Option TableRow} (stated : schema.writes sql = some (k, f)) :
    Does server rows sql fun before after => after = Function.update before k (f (before k)) := by
  intro db
  unfold Schema.writes at stated
  split at stated
  case h_1 table as name j read =>
    split at stated
    case isFalse => cases stated
    case isTrue own =>
      cases stated
      rw [own.1] at read
      exact serves.update sql db as name k read own.2.1 own.2.2
  case h_2 table name j read =>
    split at stated
    case isFalse => cases stated
    case isTrue own =>
      cases stated
      rw [own.1] at read
      exact serves.delete sql db name k read own.2
  case h_3 table as read =>
    split at stated
    case isFalse => cases stated
    case isTrue own =>
      obtain ⟨j, key, same⟩ := Option.map_eq_some_iff.mp stated
      cases same
      rw [own.1] at read
      refine (serves.insert sql db as read own.2.2).imp_right ?_
      rintro ⟨answer, i, base, free, stored, based⟩
      rw [if_pos own.2.1] at based
      subst based
      -- the new row is kept under its own key
      have held := serves.held _ i _ (by rw [stored, Function.update_self])
      rw [held.1] at key
      cases key
      exact ⟨answer, stored⟩
  case h_4 => cases stated

/-- The row of a query that reads a row, or of a statement that writes one. -/
def Schema.statementRow (schema : Schema) (sql : Bytes) : TaskInfo → Option Int
  | .query _ => schema.selects (cstr sql)
  | .executeSql => (schema.writes (cstr sql)).map (·.1)

def Schema.taskRow (schema : Schema) (task : AsyncTask Bytes) : Option Int :=
  schema.statementRow task.sql task.info

end Statements

section Texts

variable {F D : Type} [CDouble F] {schema : Schema} {record : Record F} {o : Object Bytes Literal}
  {k : Int} (handle : Mysql)

theorem Represents.writes_update (h : Represents schema record o) (writable : schema.Writable record)
    (named : o.row schema.layout = some k) (some_ : edits (cells record) ≠ []) :
    ∃ text, buildUpdateSql handle record [] = .ok (true, text) ∧
      schema.writes (cstr text) = some (k, Option.map (assign (edits (cells record)))) := by
  obtain ⟨_, same, low, small⟩ := h.named writable.1
  cases named.symm.trans same
  obtain ⟨text, built, reads⟩ := update_reads (by rw [h.table]; exact Schema.noTick) h.names_edits
    (h.operation handle writable) (h.comparison named small) (h.legible low small).1 []
  rw [if_neg some_, h.table] at reads
  refine ⟨text, built, ?_⟩
  rw [reads.1, Schema.writes, reads.2]
  exact if_pos ⟨rfl, rfl, fun a member => ⟨h.takes writable a member, h.edits_own named member⟩⟩

theorem Represents.writes_delete (h : Represents schema record o) (held : schema.KeyHeld record)
    (named : o.row schema.layout = some k) :
    ∃ text, buildDelSql record [] = .ok (true, text) ∧
      schema.writes (cstr text) = some (k, fun _ => none) := by
  obtain ⟨_, same, low, small⟩ := h.named held
  cases named.symm.trans same
  obtain ⟨legible, fits⟩ := h.legible low small
  obtain ⟨text, built, plain, reads⟩ := delete_reads (by rw [h.table]; exact Schema.noTick)
    (h.comparison named small) legible fits []
  rw [h.table] at reads
  refine ⟨text, built, ?_⟩
  rw [plain, Schema.writes, reads]
  exact if_pos ⟨rfl, rfl⟩

theorem Represents.inserts {server : Server D} {rows : D → Int → Option TableRow}
    (serves : Serves schema server rows) (h : Represents schema record o)
    (writable : schema.Writable record) (named : o.row schema.layout = some k)
    (some_ : edits (cells record) ≠ []) :
    ∃ text, buildInsertSql handle record [] = .ok (true, text) ∧
      (schema.keyName ∈ o.dirty → schema.writes (cstr text) =
        some (k, fun _ => some (assign (edits (cells record)) schema.default))) ∧
      Does server rows (cstr text) fun before after => ∃ j base, before j = none ∧
        after = Function.update before j (some (assign (edits (cells record)) base)) ∧
        if schema.keyName ∈ o.dirty then j = k ∧ base = schema.default
        else base = Function.update schema.default schema.keyName (some (.int j)) := by
  obtain ⟨text, built, reads⟩ := insert_reads (by rw [h.table]; exact Schema.noTick) h.names_edits
    (h.operation handle writable) []
  rw [if_neg some_, h.table] at reads
  rw [List.isEmpty_eq_false_iff.mpr some_, Bool.not_false] at built
  have key : ∀ base, schema.keyName ∈ o.dirty →
      assign (edits (cells record)) base schema.keyName = some (.int k) := by
    intro base keyed
    rw [h.assign_edits, Object.write_dirty schema.layout keyed]
    exact congrArg some (Schema.row_iff.mp named)
  refine ⟨text, built, fun keyed => ?_, fun db => ?_⟩
  · rw [reads.1, Schema.writes, reads.2]
    simp only [true_and]
    rw [if_pos ⟨h.edits_key.mpr keyed, h.takes writable⟩, key _ keyed]
    rfl
  · rw [reads.1]
    refine (serves.insert text db _ reads.2 (h.takes writable)).imp_right ?_
    rintro ⟨answer, j, base, free, stored, own⟩
    simp only [h.edits_key] at own
    refine ⟨answer, j, base, free, stored, ?_⟩
    by_cases keyed : schema.keyName ∈ o.dirty
    · rw [if_pos keyed] at own ⊢
      -- the new row is kept under its own key
      have held := (serves.held _ j _ (by rw [stored, Function.update_self])).1
      rw [key _ keyed] at held
      cases held
      exact ⟨rfl, own⟩
    · rw [if_neg keyed] at own ⊢
      exact own

/-- The statements that a record builds write the row of its key, and do there what its edits
say, whatever was done with the record before. An insert that does not set the key makes a row
that the server numbers. -/
theorem built_statements {server : Server D} {rows : D → Int → Option TableRow}
    (serves : Serves schema server rows) (db : D) {events : List (StoreCall F × Bool)}
    {s : Store F D} {h : Nat}
    (reached : RunWhere (Store.Acts server handle schema.table.bytes) schema.Proper (Store.start db)
      events s)
    (held : s.records h = some record) (writable : schema.Writable record)
    (named : schema.rowOf record = some k) :
    ((∃ f ∈ cells record, f.changed = true) →
      (∃ text, buildUpdateSql handle record [] = .ok (true, text) ∧
        schema.writes (cstr text) = some (k, Option.map (assign (edits (cells record)))) ∧
        Does server rows (cstr text) fun before after =>
          after = Function.update before k ((before k).map (assign (edits (cells record))))) ∧
      ∃ text, buildInsertSql handle record [] = .ok (true, text) ∧
        ((∃ f ∈ cells record, columnName f = schema.keyName ∧ f.changed = true) →
          schema.writes (cstr text) =
            some (k, fun _ => some (assign (edits (cells record)) schema.default))) ∧
        Does server rows (cstr text) fun before after => ∃ j base, before j = none ∧
          after = Function.update before j (some (assign (edits (cells record)) base)) ∧
          if ∃ f ∈ cells record, columnName f = schema.keyName ∧ f.changed = true then
            j = k ∧ base = schema.default
          else base = Function.update schema.default schema.keyName (some (.int j))) ∧
    ∃ text, buildDelSql record [] = .ok (true, text) ∧
      schema.writes (cstr text) = some (k, fun _ => none) ∧
      Does server rows (cstr text) fun before after => after = Function.update before k none := by
  obtain ⟨w, related⟩ := related_run serves reached
  obtain ⟨_, o, own, rfl, -, represents⟩ :=
    related.record (h := h) (P := (record = ·)) (by rw [Schema.Has, held])
  rw [represents.rowOf] at named
  refine ⟨?_, ?_⟩
  · rintro ⟨f, member, changed⟩
    have some_ : edits (cells record) ≠ [] := fun clean =>
      absurd changed (List.filter_eq_nil_iff.mp (List.map_eq_nil_iff.mp clean) f member)
    obtain ⟨text, built, writes⟩ := represents.writes_update handle writable named some_
    refine ⟨⟨text, built, writes, serves.write writes⟩, ?_⟩
    simp only [represents.keyed_iff]
    exact represents.inserts handle serves writable named some_
  · obtain ⟨text, built, writes⟩ := represents.writes_delete writable.1 named
    exact ⟨text, built, writes, serves.write writes⟩

theorem built_statements_gold : ∃ text, buildUpdateSql client goldRecord [] = .ok (true, text) ∧
    player.writes (cstr text) = some (1, Option.map (assign (edits (cells goldRecord)))) ∧
    Does (keepTable player) KeptTable.row (cstr text) fun before after =>
      after = Function.update before 1 ((before 1).map (assign (edits (cells goldRecord)))) := by
  have reached : RunWhere (Store.Acts (keepTable player) client player.table.bytes) player.Proper
      (Store.start players) (edited.zip [true, true, true, true]) written :=
    ProperAll.run (by decide +kernel) (by decide +kernel)
  have held : written.records 0 = some goldRecord := (Option.some_get _).symm
  have built := built_statements client (keepTable_serves player) players (h := 0) reached held
    (k := 1) (by decide +kernel) (by decide +kernel)
  exact (built.1 (by decide +kernel)).1

end Texts

section Tasks

variable {F : Type} [CDouble F]

/-- What a task of row `k` finds there, gives as its result and leaves. -/
inductive RowStep (schema : Schema) (k : Int) : Option TableRow → AsyncTask Bytes →
    TaskResult (Except Fault (Recordset F)) → Option TableRow → Prop where
  | read {row task mode result} (info : task.info = .query mode)
      (selects : schema.selects (cstr task.sql) = some k)
      (reads : ∀ recSet, result = some recSet → ∃ read, recSet = .ok read ∧
        schema.ReadsRow mode row read) :
      RowStep schema k row task (.recordset result) row
  | refused {row task} (info : task.info = .executeSql) : RowStep schema k row task (.flag false) row
  | written {row task f} (info : task.info = .executeSql)
      (writes : schema.writes (cstr task.sql) = some (k, f)) :
      RowStep schema k row task (.flag true) (f row)

variable {schema : Schema} {D : Type} {server : Server D} {rows : D → Int → Option TableRow}

theorem asyncDoWork_row (serves : Serves schema server rows) {task : AsyncTask Bytes} {k : Int}
    (own : schema.taskRow task = some k) (db : D) {cache : FieldInfoCache}
    (fresh : schema.Fresh cache) :
    ∃ (result : TaskResult (Except Fault (Recordset F))) (db' : D) (cache' : FieldInfoCache),
      asyncDoWork (mysqlBackend F server queryDBFieldInfo) task connected (db, cache) =
        (result, connected, db', cache') ∧ schema.Fresh cache' ∧
      RowStep schema k (rows db k) task result (rows db' k) ∧ ∀ j, j ≠ k → rows db' j = rows db j := by
  unfold Schema.taskRow Schema.statementRow at own
  cases info : task.info with
  | query mode =>
    rw [info] at own
    obtain ⟨same, recSet, cache', asked, kept, reads⟩ :=
      query_row (F := F) serves fresh own mode db
    refine ⟨.recordset (LlbcDatabase.kept (.ok recSet)), (server.run (cstr task.sql) db).2, cache',
      by simp [asyncDoWork, info, mysqlBackend, asked], kept, ?_, fun j _ => by rw [same]⟩
    rw [same]
    refine .read info own ?_
    intro read found
    cases recSet with
    | none => cases found
    | some recSet =>
      cases found
      exact ⟨recSet, rfl, reads recSet rfl⟩
  | executeSql =>
    rw [info] at own
    obtain ⟨⟨j, f⟩, writes, same⟩ := Option.map_eq_some_iff.mp own
    obtain rfl : j = k := same
    rcases serves.write writes db with ⟨answer, unchanged⟩ | ⟨answer, stored⟩
    · refine ⟨.flag false, (server.run (cstr task.sql) db).2, cache,
        by simp [asyncDoWork, info, mysqlBackend, execute_error answer], fresh, ?_,
        fun j _ => by rw [unchanged]⟩
      rw [unchanged]
      exact .refused info
    · refine ⟨.flag true, (server.run (cstr task.sql) db).2, cache,
        by simp [asyncDoWork, info, mysqlBackend, execute_done answer], fresh, ?_,
        fun i other => by rw [stored, Function.update_of_ne other]⟩
      rw [stored, Function.update_self]
      exact .written info writes

end Tasks

namespace Engine

section Runs

variable {F : Type} [CDouble F] {D : Type} {n : Nat}

/-- Every task that is submitted is of one row, with the key of that row. -/
def rowSubmit (schema : Schema) (shard : Int → UInt64)
    (_ : Engine Bytes MysqlConnect (D × FieldInfoCache) (Except Fault (Recordset F)) n) :
    Action Bytes n → Prop
  | .queryAsync key sql info => ∃ k ∈ schema.statementRow sql info, key = shard k
  | _ => True

instance (schema : Schema) (shard : Int → UInt64)
    (s : Engine Bytes MysqlConnect (D × FieldInfoCache) (Except Fault (Recordset F)) n) :
    (a : Action Bytes n) → Decidable (rowSubmit schema shard s a)
  | .queryAsync .. => inferInstanceAs (Decidable (∃ k ∈ _, _ = shard k))
  | .onUpdate | .flush | .destroy | .main | .worker _ => inferInstanceAs (Decidable True)

/-- What was executed on row `k`, with the results, in the order of execution. -/
def rowHistory (schema : Schema) (k : Int)
    (s : Engine Bytes MysqlConnect (D × FieldInfoCache) (Except Fault (Recordset F)) n) :
    List (AsyncTask Bytes × TaskResult (Except Fault (Recordset F))) :=
  (outcomes s).filter fun e => schema.taskRow e.1 = some k

def rowSubmitted (schema : Schema) (k : Int)
    (s : Engine Bytes MysqlConnect (D × FieldInfoCache) (Except Fault (Recordset F)) n) :
    List (AsyncTask Bytes) := s.submitted.filter fun task => schema.taskRow task = some k

structure RowRuns (schema : Schema) (shard : Int → UInt64) (rows : D → Int → Option TableRow) (db : D)
    (s : Engine Bytes MysqlConnect (D × FieldInfoCache) (Except Fault (Recordset F)) n) : Prop where
  conns : ∀ i, s.asyncConns i = connected
  fresh : schema.Fresh s.db.2
  tasks : ∀ task ∈ s.submitted, ∃ k, schema.taskRow task = some k ∧ task.key = shard k
  runs : ∀ k, RunWhere (RowStep schema k) (fun _ _ => True) (rows db k) (rowHistory schema k s)
    (rows s.db.1 k)

variable {schema : Schema} {shard : Int → UInt64} {server : Server D}
  {rows : D → Int → Option TableRow} {db : D}
  {s t : Engine Bytes MysqlConnect (D × FieldInfoCache) (Except Fault (Recordset F)) n}

theorem rowRuns_initial (flags : Fin n → Bool) :
    RowRuns schema shard rows db (initial (fun _ => connected) flags (db, []) :
      Engine Bytes MysqlConnect (D × FieldInfoCache) (Except Fault (Recordset F)) n) :=
  ⟨fun _ => rfl, fun _ _ _ found => (by cases found), nofun, fun _ => .nil⟩

theorem Order.batch_submitted {Sql Conn DB RS : Type} {be : Backend Sql Conn DB RS}
    {s : Engine Sql Conn DB RS n} (h : Order be s) {i : Fin n} {task : AsyncTask Sql}
    (member : task ∈ batch (s.workers i)) : task ∈ s.submitted := by
  have sent : task ∈ submittedTo s i := by
    rw [← h.queued i]
    exact List.mem_append_left _ (List.mem_append_right _ member)
  exact ((mem_part _).mp sent).1

theorem RowRuns.next (serves : Serves schema server rows) {a : Action Bytes n}
    (ordered : Order (mysqlBackend F server queryDBFieldInfo) s) (h : RowRuns schema shard rows db s)
    (allowed : rowSubmit schema shard s a)
    (taken : Stepped (mysqlBackend F server queryDBFieldInfo) s a t) :
    RowRuns schema shard rows db t := by
  cases taken with
  | @submit key sql info _ _ _ _ =>
    refine ⟨h.conns, h.fresh, fun task member => ?_, h.runs⟩
    rcases List.mem_append.mp member with before | new
    · exact h.tasks task before
    · obtain ⟨k, row, own⟩ := allowed
      rw [List.mem_singleton] at new
      exact ⟨k, by rw [new]; exact row, by rw [new]; exact own⟩
  | @execute task tasks result conn db' i at_pc ran =>
    have submitted := ordered.batch_submitted (i := i) (by rw [at_pc]; exact List.mem_cons_self)
    obtain ⟨k, own, -⟩ := h.tasks task submitted
    obtain ⟨result', after, cache, done, fresh, step, others⟩ :=
      asyncDoWork_row (F := F) serves own s.db.1 h.fresh
    rw [h.conns i, show s.db = (s.db.1, s.db.2) from rfl, done] at ran
    cases ran
    refine ⟨fun j => ?_, fresh, h.tasks, fun j => ?_⟩
    · by_cases same : j = i
      · simp [same]
      · simpa [same] using h.conns j
    · have next := RunWhere.place h.runs own step others j
      simpa [rowHistory, outcomes] using next
  | _ => exact ⟨h.conns, h.fresh, h.tasks, h.runs⟩

theorem rowRuns (serves : Serves schema server rows) {flags : Fin n → Bool}
    (reached : ReachWhere (step (mysqlBackend F server queryDBFieldInfo)) (rowSubmit schema shard)
      (initial (fun _ => connected) flags (db, [])) s) : RowRuns schema shard rows db s :=
  reached.invariant (rowRuns_initial flags) fun _ _ _ before held allowed taken =>
    held.next serves (order before.reach) allowed (step_stepped taken)

omit [CDouble F] in
theorem rowHistory_tasks (k : Int) : (rowHistory schema k s).map (·.1) =
    (s.executed.map (·.2.task)).filter fun task => schema.taskRow task = some k := by
  simp [rowHistory, outcomes, List.filter_map, Function.comp_def]

/-- The tasks of a row have one key, so the order of the key is that of the row. -/
theorem RowRuns.ofKey (h : RowRuns schema shard rows db s) {tasks : List (AsyncTask Bytes)}
    (sent : ∀ task ∈ tasks, task ∈ s.submitted) (k : Int) :
    ((part (·.key) (shard k) tasks).filter fun task => schema.taskRow task = some k) =
      tasks.filter fun task => schema.taskRow task = some k := by
  refine filter_part _ fun task member row => ?_
  obtain ⟨j, own, key⟩ := h.tasks task (sent task member)
  rw [own, decide_eq_true_eq, Option.some.injEq] at row
  rw [key, row]

end Runs

/-- Every row is a sequential object, over any number of connections: what is submitted for it is
executed on it in the order of submission, one task after another, and no other task touches
it. So a query reads what the statements before it have made of the row, and once the engine is
destroyed the row is what all of them have made of it. -/
theorem rows_sequential {F : Type} [CDouble F] {D : Type} {n : Nat} {schema : Schema}
    {server : Server D} {rows : D → Int → Option TableRow} (serves : Serves schema server rows)
    (shard : Int → UInt64) (live : 0 < n) (flags : Fin n → Bool) (db : D)
    (s : Engine Bytes MysqlConnect (D × FieldInfoCache) (Except Fault (Recordset F)) n)
    (reached : ReachWhere (step (mysqlBackend F server queryDBFieldInfo)) (rowSubmit schema shard)
      (initial (fun _ => connected) flags (db, [])) s) (k : Int) :
    RunWhere (RowStep schema k) (fun _ _ => True) (rows db k) (rowHistory schema k s)
      (rows s.db.1 k) ∧
    (rowHistory schema k s).map (·.1) <+: rowSubmitted schema k s ∧
    (pastPoll s.main ∨ s.inited = false →
      (rowHistory schema k s).map (·.1) = rowSubmitted schema k s) := by
  have ordered := order reached.reach
  have runs := rowRuns serves reached
  have sent : ∀ task ∈ s.executed.map (·.2.task), task ∈ s.submitted := fun task member =>
    (ordered.executed_subperm live).subset member
  rw [rowHistory_tasks, rowSubmitted, ← runs.ofKey sent, ← runs.ofKey (fun _ member => member)]
  refine ⟨runs.runs k, List.IsPrefix.filter _ ?_, fun ended => ?_⟩
  · have before := (ordered.key_fifo live (shard k)).1
    simpa [part, List.filter_map, Function.comp_def] using before
  · rw [ordered.key_complete live ((handshake reached.reach).drained ended)]

/-- Two statements and a query on two rows, then `Destroy` up to the join. -/
def savedActions {n : Nat} (first second : Fin n) : List (Action Bytes n) :=
  List.flatten [[.queryAsync 1 (ascii "update `player` set `gold`=7 where `id`=1 limit 1") .executeSql,
      .queryAsync 2 (ascii "delete from `player` where `id`=2 limit 1") .executeSql,
      .queryAsync 1 (ascii "select * from player where `id`=1") (.query .read), .destroy],
    List.replicate 4 .main, List.replicate 7 (.worker first), List.replicate 9 (.worker second),
    List.replicate 6 .main, List.replicate 5 (.worker first), List.replicate 5 (.worker second), [.main]]

def savedRun {n : Nat} (first second : Fin n) :
    Engine Bytes MysqlConnect (KeptTable player × FieldInfoCache) (Except Fault (Recordset Unit)) n :=
  runTo (step (mysqlBackend Unit (keepTable player) queryDBFieldInfo))
    (initial (fun _ => connected) (fun _ => false) (players, [])) (savedActions first second)

def keyShard (k : Int) : UInt64 := UInt64.ofNat k.toNat

/-- The query finds the gold that was saved before it. -/
theorem rows_sequential_players :
    RunWhere (RowStep player 1) (fun _ _ => True) (players.row 1)
      (rowHistory player 1 (savedRun (n := 2) 0 1)) ((savedRun (n := 2) 0 1).db.1.row 1) ∧
    (rowHistory player 1 (savedRun (n := 2) 0 1)).map (·.1.id) = [0, 2] ∧
    ((savedRun (n := 2) 0 1).db.1.row 1).map (· (ascii "gold")) = some (some (.int 7)) := by
  have met : meets (step (mysqlBackend Unit (keepTable player) queryDBFieldInfo))
      (rowSubmit player keyShard) (initial (fun _ => connected) (fun _ => false) (players, []))
      (savedActions (n := 2) 0 1) = true := by decide +kernel
  have ran := rows_sequential (keepTable_serves player) keyShard (by decide) (fun _ => false) players
    (savedRun 0 1) (runTo_reachWhere .start met) 1
  exact ⟨ran.1, by decide +kernel, by decide +kernel⟩

/-- Where a `Flush` returns with every acknowledgement given on an empty queue, a query on the
synchronous connection reads what all that was submitted for the row has made of it. -/
theorem flush_then_read {F : Type} [CDouble F] {D : Type} {n : Nat} {schema : Schema}
    {server : Server D} {rows : D → Int → Option TableRow} (serves : Serves schema server rows)
    (shard : Int → UInt64) (live : 0 < n) (flags : Fin n → Bool) (db : D)
    (s t : Engine Bytes MysqlConnect (D × FieldInfoCache) (Except Fault (Recordset F)) n)
    (reached : ReachWhere (step (mysqlBackend F server queryDBFieldInfo))
      (fun s a => rowSubmit schema shard s a ∧ honestFlag s a)
      (initial (fun _ => connected) flags (db, [])) s)
    {caller : Caller} (returning : s.main = .flushReset caller)
    (taken : step (mysqlBackend F server queryDBFieldInfo) s .main = some t) {sql : Bytes} {k : Int}
    (selected : schema.selects (cstr sql) = some k) (mode : Mode) :
    ∃ row, RunWhere (RowStep schema k) (fun _ _ => True) (rows db k) (rowHistory schema k t) row ∧
      (rowHistory schema k t).map (·.1) = rowSubmitted schema k t ∧
      ∃ (recSet : Option (Recordset F)) (db' : D) (cache : FieldInfoCache),
        connected.query server queryDBFieldInfo sql mode t.db.1 t.db.2 =
          (.ok recSet, connected, db', cache) ∧
        ∀ read, recSet = some read → schema.ReadsRow mode row read := by
  have ordered : Order _ t := order (reached.reach.next taken)
  have submits := reached.mono fun _ _ met => met.1
  have runs := (rowRuns serves submits).next (a := .main) serves (order reached.reach) trivial
    (step_stepped taken)
  have flushed := flushReturn_flushed (reached.mono fun _ _ met => met.2) returning taken
  have sent : ∀ task ∈ t.executed.map (·.2.task), task ∈ t.submitted := fun task member =>
    (ordered.executed_subperm live).subset member
  obtain ⟨-, recSet, cache, asked, -, reads⟩ :=
    query_row (F := F) serves runs.fresh selected mode t.db.1
  refine ⟨rows t.db.1 k, runs.runs k, ?_, recSet, _, cache, asked, reads⟩
  rw [rowHistory_tasks, rowSubmitted, ← runs.ofKey sent, ← runs.ofKey (fun _ member => member)]
  rw [ordered.key_complete live fun i => ⟨(flushed.drained i).1, (flushed.drained i).2.1⟩]

/-- Results of records cannot be compared, but a worker's place can. -/
def honestFlagDecidable {Sql Conn DB RS : Type} {n : Nat} (s : Engine Sql Conn DB RS n) :
    (a : Action Sql n) → Decidable (honestFlag s a)
  | .worker i =>
    match pc : s.workers i with
    | .setFlag => decidable_of_iff (flagCleared i s.main → ¬ shardSeen i s.main →
        (s.taskQueues i).tasks.isEmpty = true) (by simp [honestFlag, pc])
    | .pop | .work _ | .finish _ _ | .readFlushing | .readEmpty | .readStoping | .count | .exited =>
      isTrue (by simp [honestFlag, pc])
  | .queryAsync .. | .onUpdate | .flush | .destroy | .main => isTrue (by simp [honestFlag])

/-- A statement, and a `Flush` up to its return. -/
def flushedActions {n : Nat} (worker : Fin n) : List (Action Bytes n) :=
  List.flatten [[.queryAsync 1 (ascii "update `player` set `gold`=7 where `id`=1 limit 1") .executeSql,
    .flush], List.replicate 3 .main, List.replicate 7 (.worker worker), List.replicate 2 .main]

def flushedRun {n : Nat} (worker : Fin n) :
    Engine Bytes MysqlConnect (KeptTable player × FieldInfoCache) (Except Fault (Recordset Unit)) n :=
  runTo (step (mysqlBackend Unit (keepTable player) queryDBFieldInfo))
    (initial (fun _ => connected) (fun _ => false) (players, [])) (flushedActions worker)

theorem flush_then_read_players : ∃ row, RunWhere (RowStep player 1) (fun _ _ => True) (players.row 1)
      (rowHistory player 1 { flushedRun only with flushing := false, main := .idle }) row ∧
    (rowHistory player 1 { flushedRun only with flushing := false, main := .idle }).map (·.1) =
      rowSubmitted player 1 (flushedRun only) ∧
    ∃ (recSet : Option (Recordset Unit)) (db' : KeptTable player) (cache : FieldInfoCache),
      connected.query (keepTable player) queryDBFieldInfo (ascii "select * from player where `id`=1")
        .read (flushedRun only).db.1 (flushedRun only).db.2 = (.ok recSet, connected, db', cache) ∧
      ∀ read, recSet = some read → player.ReadsRow .read row read := by
  have met : @meets _ _ (step (mysqlBackend Unit (keepTable player) queryDBFieldInfo))
      (fun s a => rowSubmit player keyShard s a ∧ honestFlag s a)
      (fun s a => @instDecidableAnd _ _ _ (honestFlagDecidable s a))
      (initial (fun _ => connected) (fun _ => false) (players, [])) (flushedActions only) = true := by
    decide +kernel
  have returning : (flushedRun only).main = .flushReset .user := rfl
  have taken : step (mysqlBackend Unit (keepTable player) queryDBFieldInfo) (flushedRun only) .main =
      some { flushedRun only with flushing := false, main := .idle } := by
    simp only [step, mainStep, returning]
    rfl
  exact flush_then_read (keepTable_serves player) keyShard (by decide) (fun _ => false) players
    (flushedRun only) _ (@runTo_reachWhere _ _ _ _ _
      (fun s a => @instDecidableAnd _ _ _ (honestFlagDecidable s a)) _ _ .start met) returning taken
    (by decide +kernel) .read

end Engine

end LlbcDatabase
