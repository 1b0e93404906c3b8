import LlbcDatabase.CacheTransparency
import LlbcDatabase.EngineDestroy

/-! Sharding is confluent: on connections whose results are all read, and with a
cache that describes every column as its own, a complete run on any number of
connections ends as if its statements had been executed in submission order. -/

namespace LlbcDatabase

open CText Transition CommutingRuns

variable {D : Type}

section Backend

variable {C : Type}

/-- What a task of `Query(sql, mode)` keeps: null, a record set, or a fault. -/
def kept {RS : Type} : Except Fault (Option RS) → Option (Except Fault RS)
  | .ok none => none
  | .ok (some recSet) => some (.ok recSet)
  | .error fault => some (.error fault)

/-- The connections of one engine, which share its field-info cache. -/
def mysqlBackend (F : Type) [CDouble F] (server : Server D)
    (look : C → MysqlField → Option DBFieldInfo × C) :
    Backend Bytes MysqlConnect (D × C) (Except Fault (Recordset F)) where
  query sql mode conn s :=
    let (recSet, conn, db, c) := conn.query server look sql mode s.1 s.2
    (kept recSet, conn, db, c)
  execute sql conn s :=
    let (ok, conn, db) := conn.execute server sql s.1
    (ok, conn, db, s.2)

/-- A connection as `Connect` leaves it. -/
def connected : MysqlConnect := ⟨true, none⟩

variable (F : Type) [CDouble F] (server : Server D)

/-- A task by itself: on a connection of its own and without a cache. -/
def alone (task : AsyncTask Bytes) (db : D) : TaskResult (Except Fault (Recordset F)) × D :=
  let done := asyncDoWork (mysqlBackend F server fresh) task connected (db, ())
  (done.1, done.2.2.1)

/-- What becomes of the server's reply. -/
def present (task : AsyncTask Bytes) : Reply → TaskResult (Except Fault (Recordset F))
  | .rows result => match task.info with
    | .query mode => .recordset (kept (readResult fresh () result mode).1)
    | .executeSql => .flag true
  | .done => match task.info with
    | .query _ => .recordset none
    | .executeSql => .flag true
  | .error => match task.info with
    | .query _ => .recordset none
    | .executeSql => .flag false

theorem alone_eq (task : AsyncTask Bytes) (db : D) :
    alone F server task db = (present F task (server.run (cstr task.sql) db).1,
      (server.run (cstr task.sql) db).2) := by
  cases info : task.info <;> cases reply : server.run (cstr task.sql) db with
  | mk answer db' =>
    cases answer <;>
      simp [alone, asyncDoWork, mysqlBackend, info, MysqlConnect.query, MysqlConnect.execute,
        MysqlConnect.queryRes, MysqlConnect.mysqlRealQuery, MysqlConnect.mysqlStoreResult,
        connected, reply, present, kept]

/-- A reply that leaves no result set unread, and whose columns are among the given. -/
def cleanReply (columns : List MysqlField) (info : TaskInfo) : Reply → Prop
  | .rows result => match info with
    | .query mode => ∀ f ∈ consulted (.query result mode), f ∈ columns
    | .executeSql => False
  | .done | .error => True

theorem asyncDoWork_clean {columns : List MysqlField} (agreed : agree F columns)
    {task : AsyncTask Bytes} {db : D} {cache : FieldInfoCache} (own : offered columns cache)
    (clean : cleanReply columns task.info (server.run (cstr task.sql) db).1) :
    ∃ cache', offered columns cache' ∧
      asyncDoWork (mysqlBackend F server queryDBFieldInfo) task connected (db, cache) =
        ((alone F server task db).1, connected, (alone F server task db).2, cache') := by
  rw [alone_eq]
  cases reply : server.run (cstr task.sql) db with
  | mk answer db' =>
    rw [reply] at clean
    cases info : task.info with
    | query mode =>
      rw [info] at clean
      cases answer with
      | rows result =>
        obtain ⟨same, next⟩ := readResult_fresh (F := F) agreed clean own
        refine ⟨_, next, ?_⟩
        simp [asyncDoWork, mysqlBackend, info, MysqlConnect.query, MysqlConnect.queryRes,
          MysqlConnect.mysqlRealQuery, MysqlConnect.mysqlStoreResult, connected, reply, present,
          same]
      | done | error =>
        refine ⟨cache, own, ?_⟩
        simp [asyncDoWork, mysqlBackend, info, MysqlConnect.query, MysqlConnect.queryRes,
          MysqlConnect.mysqlRealQuery, MysqlConnect.mysqlStoreResult, connected, reply, present,
          kept]
    | executeSql =>
      rw [info] at clean
      cases answer with
      | rows result => exact absurd clean id
      | done | error =>
        refine ⟨cache, own, ?_⟩
        simp [asyncDoWork, mysqlBackend, info, MysqlConnect.execute, MysqlConnect.queryRes,
          MysqlConnect.mysqlRealQuery, connected, reply, present]

end Backend

namespace Engine

section Runs

variable {n : Nat} (F : Type) [CDouble F] (server : Server D) (columns : List MysqlField)

/-- No worker executes a statement whose reply is not clean. -/
def cleanStep (s : Engine Bytes MysqlConnect (D × FieldInfoCache) (Except Fault (Recordset F)) n)
    (a : Action Bytes n) : Prop :=
  ∀ (i : Fin n) (task : AsyncTask Bytes) (tasks : List (AsyncTask Bytes)), a = .worker i →
    s.workers i = .work (task :: tasks) →
    cleanReply columns task.info (server.run (cstr task.sql) s.db.1).1

def outcomes {Sql Conn D RS : Type} (s : Engine Sql Conn D RS n) :
    List (AsyncTask Sql × TaskResult RS) :=
  s.executed.map fun e => (e.2.task, e.2.result)

/-- The state of the server and the results are those of executing the tasks by
themselves, one after another in the order in which the workers took them. -/
structure Sequential (db : D)
    (s : Engine Bytes MysqlConnect (D × FieldInfoCache) (Except Fault (Recordset F)) n) : Prop where
  conns : ∀ i, s.asyncConns i = connected
  own : offered columns s.db.2
  state : s.db.1 = (runAll (alone F server) (s.executed.map (·.2.task)) db).2
  results : outcomes s = (runAll (alone F server) (s.executed.map (·.2.task)) db).1

variable {F server columns} {db : D}
  {s t : Engine Bytes MysqlConnect (D × FieldInfoCache) (Except Fault (Recordset F)) n}

theorem Sequential.next {a : Action Bytes n} (agreed : agree F columns)
    (h : Sequential F server columns db s) (allowed : cleanStep F server columns s a)
    (taken : Stepped (mysqlBackend F server queryDBFieldInfo) s a t) :
    Sequential F server columns db t := by
  cases taken with
  | @execute task tasks result conn db' i at_pc ran =>
    have clean := allowed i task tasks rfl at_pc
    obtain ⟨cache, own, done⟩ := asyncDoWork_clean F server agreed h.own clean
    rw [h.conns i, show s.db = (s.db.1, s.db.2) from rfl, done] at ran
    cases ran
    refine ⟨fun j => ?_, own, ?_, ?_⟩
    · by_cases same : j = i
      · simp [same]
      · simpa [same] using h.conns j
    · simp only [List.map_append, List.map_cons, List.map_nil, runAll_append, ← h.state]
      rfl
    · have results := h.results
      simp only [outcomes] at results
      simp only [outcomes, List.map_append, List.map_cons, List.map_nil, runAll_append, ← h.state,
        results]
      rfl
  | _ => exact ⟨h.conns, h.own, h.state, h.results⟩

theorem sequential (agreed : agree F columns) {flags : Fin n → Bool}
    (reached : ReachWhere (step (mysqlBackend F server queryDBFieldInfo)) (cleanStep F server columns)
      (initial (fun _ => connected) flags (db, [])) s) : Sequential F server columns db s :=
  ReachWhere.invariant ⟨fun _ => rfl, nofun, rfl, rfl⟩
    (fun _ _ _ _ held allowed taken => held.next agreed allowed (step_stepped taken)) reached

theorem Order.key_complete {Sql Conn D RS : Type} {be : Backend Sql Conn D RS}
    {s : Engine Sql Conn D RS n} (live : 0 < n) (h : Order be s)
    (drained : ∀ i, (s.taskQueues i).tasks = [] ∧ batch (s.workers i) = []) (key : UInt64) :
    part (·.key) key (s.executed.map (·.2.task)) = part (·.key) key s.submitted := by
  have at_shard : shardOf n key = (⟨shardOf n key, shardOf_lt live key⟩ : Fin n) := rfl
  generalize (⟨shardOf n key, shardOf_lt live key⟩ : Fin n) = i at at_shard
  have queued := h.queued i
  rw [(drained i).1, (drained i).2, List.append_nil, List.append_nil] at queued
  have executed := h.key_executed at_shard
  rw [← key_submitted at_shard, ← queued]
  have tasks := congrArg (List.map (·.task)) executed
  simpa [part, List.filter_map, Function.comp_def] using tasks.symm

/-- A complete run with clean replies ends as the submissions executed one after another. -/
theorem complete_run (agreed : agree F columns) (live : 0 < n) {flags : Fin n → Bool}
    (reached : ReachWhere (step (mysqlBackend F server queryDBFieldInfo)) (cleanStep F server columns)
      (initial (fun _ => connected) flags (db, [])) s)
    (ended : pastPoll s.main ∨ s.inited = false)
    (indep : ∀ a ∈ s.submitted, ∀ b ∈ s.submitted, a.key ≠ b.key →
      Independent (fun task : AsyncTask Bytes => server.run (cstr task.sql)) a b) :
    s.db.1 = (runAll (alone F server) s.submitted db).2 ∧
      (outcomes s).Perm (runAll (alone F server) s.submitted db).1 := by
  have ran := sequential agreed reached
  have ordered := order reached.reach
  have drained := (handshake reached.reach).drained ended
  rw [ran.state, ran.results]
  refine runAll_of_part_eq (alone F server) (·.key) (fun a ha b hb other => ?_)
    (ordered.key_complete live drained) db
  have sent : ∀ task ∈ s.executed.map (·.2.task), task ∈ s.submitted := fun task member =>
    (ordered.executed_subperm live).subset member
  exact Independent.map _ (alone_eq F server) (indep a (sent a ha) b (sent b hb) other)

end Runs

/-- Two complete runs of the same submissions, on any numbers of connections, end
with the state and the results of executing the submissions one after another, when
statements of different keys are independent, every result set is read, and columns
with one cache key give fields alike. -/
theorem sharding_confluent {F : Type} [CDouble F] (server : Server D) (db : D)
    (columns : List MysqlField) (agreed : agree F columns) {n₁ n₂ : Nat} (live₁ : 0 < n₁)
    (live₂ : 0 < n₂) (flags₁ : Fin n₁ → Bool) (flags₂ : Fin n₂ → Bool)
    (s₁ : Engine Bytes MysqlConnect (D × FieldInfoCache) (Except Fault (Recordset F)) n₁)
    (s₂ : Engine Bytes MysqlConnect (D × FieldInfoCache) (Except Fault (Recordset F)) n₂)
    (reached₁ : ReachWhere (step (mysqlBackend F server queryDBFieldInfo))
      (cleanStep F server columns) (initial (fun _ => connected) flags₁ (db, [])) s₁)
    (reached₂ : ReachWhere (step (mysqlBackend F server queryDBFieldInfo))
      (cleanStep F server columns) (initial (fun _ => connected) flags₂ (db, [])) s₂)
    (ended₁ : pastPoll s₁.main ∨ s₁.inited = false) (ended₂ : pastPoll s₂.main ∨ s₂.inited = false)
    (same : s₁.submitted = s₂.submitted)
    (indep : ∀ a ∈ s₁.submitted, ∀ b ∈ s₁.submitted, a.key ≠ b.key →
      Independent (fun task : AsyncTask Bytes => server.run (cstr task.sql)) a b) :
    s₁.db.1 = (runAll (alone F server) s₁.submitted db).2 ∧ s₂.db.1 = s₁.db.1 ∧
      (outcomes s₁).Perm (runAll (alone F server) s₁.submitted db).1 ∧
      (outcomes s₂).Perm (outcomes s₁) := by
  obtain ⟨state₁, results₁⟩ := complete_run agreed live₁ reached₁ ended₁ indep
  obtain ⟨state₂, results₂⟩ := complete_run agreed live₂ reached₂ ended₂ (same ▸ indep)
  rw [← same] at state₂ results₂
  exact ⟨state₁, state₂.trans state₁.symm, results₁, results₂.trans results₁.symm⟩

/-- A server that counts what it executes, apart from one statement that it answers. -/
def tally (reply : Reply) : Server Nat where
  run sql db := if sql = ascii "select 1, 'a'" then (reply, db) else (.done, db + 1)

/-- A `select` of key 0 and an `insert` of key 1, then `Destroy` up to the join; every
worker takes `rounds` steps before the flush is acknowledged and five after it. -/
def selectInsert (reply : Reply) (n rounds : Nat) (workers : List (Fin n)) :
    Engine Bytes MysqlConnect (Nat × FieldInfoCache) (Except Fault (Recordset Unit)) n :=
  runTo (step (mysqlBackend Unit (tally reply) queryDBFieldInfo))
    (initial (fun _ => connected) (fun _ => false) (0, []))
    ([.queryAsync 0 (ascii "select 1, 'a'") .executeSql, .queryAsync 1 (ascii "insert") .executeSql,
        .destroy] ++
      List.replicate (n + 2) .main ++ workers.flatMap (fun i => List.replicate rounds (.worker i)) ++
      List.replicate (n + 4) .main ++ workers.flatMap (fun i => List.replicate 5 (.worker i)) ++
      [.main])

theorem tally_independent (reply : Reply) {a b : AsyncTask Bytes}
    (ha : a ∈ [⟨0, 0, ascii "select 1, 'a'", .executeSql⟩, ⟨1, 1, ascii "insert", .executeSql⟩])
    (hb : b ∈ [⟨0, 0, ascii "select 1, 'a'", .executeSql⟩, ⟨1, 1, ascii "insert", .executeSql⟩])
    (other : a.key ≠ b.key) :
    Independent (fun task : AsyncTask Bytes => (tally reply).run (cstr task.sql)) a b := by
  simp only [List.mem_cons, List.not_mem_nil, or_false] at ha hb
  rcases ha with rfl | rfl <;> rcases hb with rfl | rfl
  · exact absurd rfl other
  · exact fun _ => ⟨rfl, rfl, rfl⟩
  · exact fun _ => ⟨rfl, rfl, rfl⟩
  · exact absurd rfl other

/-- The `select` fails, so nothing stays unread. -/
theorem sharding_confluent_selectInsert :
    (selectInsert .error 1 9 [0]).db.1 = 1 ∧
    (selectInsert .error 2 7 [0, 1]).db.1 = (selectInsert .error 1 9 [0]).db.1 ∧
    (outcomes (selectInsert .error 2 7 [0, 1])).Perm (outcomes (selectInsert .error 1 9 [0])) := by
  have clean : ∀ {n : Nat} s (a : Action Bytes n), True →
      cleanStep Unit (tally .error) [] s a := by
    intro n s a _ i task tasks _ _
    simp only [tally]
    split <;> trivial
  have h := sharding_confluent (F := Unit) (tally .error) 0 [] nofun (by decide) (by decide)
    (fun _ => false) (fun _ => false) (selectInsert .error 1 9 [0]) (selectInsert .error 2 7 [0, 1])
    ((runTo_reach .start).mono clean) ((runTo_reach .start).mono clean) (.inl trivial)
    (.inl trivial) rfl (fun _ ha _ hb => tally_independent .error ha hb)
  exact ⟨rfl, h.2.1, h.2.2.2⟩

/-- One connection is left with an unread result set and refuses the `insert`; with two
connections the `insert` is executed. -/
theorem sharding_not_confluent :
    let one := selectInsert (.rows twoComputed) 1 9 [0]
    let two := selectInsert (.rows twoComputed) 2 7 [0, 1]
    Reach (step (mysqlBackend Unit (tally (.rows twoComputed)) queryDBFieldInfo))
        (initial (fun _ => connected) (fun _ => false) (0, [])) one ∧
      Reach (step (mysqlBackend Unit (tally (.rows twoComputed)) queryDBFieldInfo))
        (initial (fun _ => connected) (fun _ => false) (0, [])) two ∧
      pastPoll one.main ∧ pastPoll two.main ∧ one.submitted = two.submitted ∧
      (∀ a ∈ one.submitted, ∀ b ∈ one.submitted, a.key ≠ b.key →
        Independent (fun task : AsyncTask Bytes => (tally (.rows twoComputed)).run (cstr task.sql))
          a b) ∧
      one.db.1 = 0 ∧ two.db.1 = 1 :=
  ⟨runTo_reach .start, runTo_reach .start, trivial, trivial, rfl,
    fun _ ha _ hb => tally_independent _ ha hb, rfl, rfl⟩

end Engine

end LlbcDatabase
