import LlbcDatabase.ShardConfluence

/-! Sequences of calls of the two public `Query` overloads on one connection: what
a call leaves unread, and what that does to the calls after it. -/

namespace LlbcDatabase

open CText Transition

inductive QueryCall where
  | query (sql : Bytes) (mode : Mode)
  | execute (sql : Bytes)

inductive QueryAnswer (F : Type) where
  | recordset (result : Option (Recordset F))
  | flag (result : Bool)

structure Session (C D : Type) where
  conn : MysqlConnect
  db : D
  fieldInfos : C

namespace Session

variable {C D : Type} (F : Type) [CDouble F] (server : Server D)
  (look : C → MysqlField → Option DBFieldInfo × C)

def call (s : Session C D) : QueryCall → Except Fault (QueryAnswer F) × Session C D
  | .query sql mode =>
    let (result, conn, db, fieldInfos) := s.conn.query server look sql mode s.db s.fieldInfos
    (result.map .recordset, ⟨conn, db, fieldInfos⟩)
  | .execute sql =>
    let (result, conn, db) := s.conn.execute server sql s.db
    (.ok (.flag result), ⟨conn, db, s.fieldInfos⟩)

/-- A call that returns; after a fault there are no further calls. -/
def step (s : Session C D) (c : QueryCall) : Option (Session C D) :=
  match s.call F server look c with
  | (.ok _, t) => some t
  | (.error _, _) => none

/-- `Query(sql)` is given a statement that the server answers with a result set. -/
def executesSelect (s : Session C D) : QueryCall → Prop
  | .query _ _ => False
  | .execute sql => ∃ result, (server.run (cstr sql) s.db).1 = .rows result

end Session

namespace MysqlConnect

variable {F C D : Type} [CDouble F] {server : Server D} {conn : MysqlConnect}

theorem queryRes_pending (opened : conn.opened = true) (clean : conn.pending = none) (sql : Bytes)
    (store : Bool) (db : D) :
    (queryRes server sql store conn db).2.2.1 = { conn with
      pending := match store, (server.run (cstr sql) db).1 with
        | false, .rows result => some result
        | _, _ => none } := by
  obtain ⟨isOpen, unread⟩ := conn
  obtain rfl : isOpen = true := opened
  obtain rfl : unread = none := clean
  cases reply : server.run (cstr sql) db with
  | mk answer db' =>
    cases store <;> cases answer <;> simp [queryRes, mysqlRealQuery, mysqlStoreResult, reply]

theorem queryRes_refused {unread : StoredResult} (pending : conn.pending = some unread)
    (sql : Bytes) (store : Bool) (db : D) :
    queryRes server sql store conn db = (false, none, conn, db) := by
  cases opened : conn.opened <;> simp [queryRes, mysqlRealQuery, opened, pending]

theorem query_conn (look : C → MysqlField → Option DBFieldInfo × C) (sql : Bytes) (mode : Mode)
    (db : D) (c : C) :
    (query server look sql mode conn db c : Except Fault (Option (Recordset F)) × _).2.1 =
      (queryRes server sql true conn db).2.2.1 := by
  unfold query
  split
  case h_1 stored => rw [stored]
  case h_2 other => rw [other]

theorem execute_conn (sql : Bytes) (db : D) :
    (execute server sql conn db).2.1 = (queryRes server sql false conn db).2.2.1 := rfl

end MysqlConnect

namespace Session

variable (F : Type) {C D : Type} [CDouble F] (server : Server D)
  (look : C → MysqlField → Option DBFieldInfo × C) {s t : Session C D} {c : QueryCall}

theorem call_conn (opened : s.conn.opened = true) (clean : s.conn.pending = none) (c : QueryCall) :
    (s.call F server look c).2.conn.opened = true ∧
    ((s.call F server look c).2.conn.pending = none ↔ ¬ executesSelect server s c) := by
  cases c with
  | query sql mode =>
    have conn : (s.call F server look (.query sql mode)).2.conn = _ :=
      MysqlConnect.query_conn look sql mode s.db s.fieldInfos
    rw [conn, MysqlConnect.queryRes_pending opened clean]
    simp [executesSelect, opened]
  | execute sql =>
    have conn : (s.call F server look (.execute sql)).2.conn = _ :=
      MysqlConnect.execute_conn sql s.db
    rw [conn, MysqlConnect.queryRes_pending opened clean]
    cases reply : (server.run (cstr sql) s.db).1 <;> simp [executesSelect, opened, reply]

theorem call_refused {unread : StoredResult} (pending : s.conn.pending = some unread)
    (c : QueryCall) :
    s.call F server look c = (.ok (match c with
      | .query _ _ => .recordset none
      | .execute _ => .flag false), s) := by
  cases c <;>
    simp [call, MysqlConnect.query, MysqlConnect.execute, MysqlConnect.queryRes_refused pending,
      Except.map]

theorem step_call (h : step F server look s c = some t) : (s.call F server look c).2 = t := by
  unfold step at h
  split at h
  case h_1 made =>
    rw [made]
    exact Option.some.inj h
  case h_2 => cases h

/-- An open connection without an unread result. -/
def Usable (s : Session C D) : Prop := s.conn.opened = true ∧ s.conn.pending = none

theorem usable_next (usable : s.Usable) (h : step F server look s c = some t) :
    t.Usable ↔ ¬ executesSelect server s c := by
  obtain ⟨opened, clean⟩ := usable
  have after := call_conn F server look opened clean c
  rw [step_call F server look h] at after
  exact (and_iff_right after.1).trans after.2

end Session

/-- After every call of a sequence the connection is usable, just when no statement
that has a result set is given to `Query(sql)`. Then no call meets an unread
result, and after one that leaves a result every call is refused. -/
theorem connection_usable_iff (F : Type) [CDouble F] {C D : Type} (server : Server D)
    (look : C → MysqlField → Option DBFieldInfo × C) (s : Session C D) (usable : s.Usable)
    (calls : List QueryCall) :
    ((∀ t ∈ trace (Session.step F server look) s calls, t.Usable) ↔
      ∀ p ∈ taken (Session.step F server look) s calls, ¬ Session.executesSelect server p.1 p.2) ∧
    ((∀ p ∈ taken (Session.step F server look) s calls, ¬ Session.executesSelect server p.1 p.2) →
      ∀ p ∈ taken (Session.step F server look) s calls, p.1.conn.pending = none) ∧
    ∀ (t : Session C D) (unread : StoredResult), t.conn.pending = some unread →
      ∀ c, t.call F server look c = (.ok (match c with
        | .query _ _ => .recordset none
        | .execute _ => .flag false), t) := by
  have exactly := trace_iff (J := fun _ => True) (fun _ _ _ _ _ => trivial)
    (fun s t c _ (h : Session.Usable s) => Session.usable_next F server look (t := t) (c := c) h)
    trivial usable calls
  refine ⟨exactly, fun clean p member => ?_, fun _ _ => Session.call_refused F server look⟩
  rcases mem_taken member with first | passed
  · rw [first]
    exact usable.2
  · exact (exactly.mpr clean p.1 passed).2

/-- A session on a fresh connection to the counting server, whose `select` has a result set. -/
def counted : Session FieldInfoCache Nat := ⟨connected, 0, []⟩

def countedStep : Session FieldInfoCache Nat → QueryCall → Option (Session FieldInfoCache Nat) :=
  Session.step Unit (Engine.tally (.rows twoComputed)) queryDBFieldInfo

/-- The `select` goes to the overload that stores its result. -/
theorem connection_usable_selectInsert :
    (∀ t ∈ trace countedStep counted
      [.query (ascii "select 1, 'a'") .read, .execute (ascii "insert")], t.Usable) ∧
    (runTo countedStep counted
      [.query (ascii "select 1, 'a'") .read, .execute (ascii "insert")]).db = 1 := by
  refine ⟨(connection_usable_iff Unit (Engine.tally (.rows twoComputed)) queryDBFieldInfo counted
    ⟨rfl, rfl⟩ _).1.mpr ?_, rfl⟩
  intro p member
  change p ∈ [_, _] at member
  simp only [List.mem_cons, List.not_mem_nil, or_false] at member
  rcases member with rfl | rfl
  · exact id
  · rintro ⟨result, answered⟩
    cases answered

/-- The `select` goes to the other overload: its result stays unread, and the `insert`
after it is refused without being sent. -/
theorem executedSelect_not_usable :
    counted.Usable ∧
    ¬ (∀ t ∈ trace countedStep counted
      [.execute (ascii "select 1, 'a'"), .execute (ascii "insert")], t.Usable) ∧
    (runTo countedStep counted
      [.execute (ascii "select 1, 'a'"), .execute (ascii "insert")]).db = 0 := by
  refine ⟨⟨rfl, rfl⟩, fun usable => ?_, rfl⟩
  have unread : (runTo countedStep counted [.execute (ascii "select 1, 'a'")]).conn.pending = none :=
    (usable _ List.mem_cons_self).2
  cases unread

end LlbcDatabase
