import LlbcDatabase.ConnectHandles

/-! The handles of the client library under a whole `MysqlDB`: `Init` and `Destroy` with the
connections they make and destroy, and what the main thread and the workers do with them. -/

namespace LlbcDatabase

open Ownership Transition

namespace Connection

variable {E : Type} {c d : Connection E} {h : Heap} {frame : List Nat}

/-- It was connected, and not disconnected since. -/
def Open (c : Connection E) : Prop := c.opened = true ∧ c.dbHandler ≠ none

theorem Open.handles (up : c.Open) : c.handles.map some = [c.dbHandler] := by
  obtain ⟨opened, handle⟩ := up
  obtain ⟨p, found⟩ := Option.ne_none_iff_exists'.mp handle
  rw [Connection.handles, opened, found]
  rfl

def SameHandle (d c : Connection E) : Prop := d.opened = c.opened ∧ d.dbHandler = c.dbHandler

theorem SameHandle.handles (same : d.SameHandle c) : d.handles = c.handles := by
  rw [Connection.handles, same.1, same.2]
  rfl

theorem SameHandle.up (same : d.SameHandle c) (up : c.Open) : d.Open := by
  rw [Open, same.1, same.2]
  exact up

theorem disconnect_spec (c : Connection E) (held : h.Holds (c.handles ++ frame)) :
    ∃ d h', c.disconnect h = some (d, h') ∧ h'.Holds frame := by
  obtain ⟨opened, handle, error⟩ := c
  cases opened with
  | false => exact ⟨_, h, rfl, held⟩
  | true =>
    cases handle with
    | none => exact ⟨_, h, rfl, held⟩
    | some p =>
      obtain ⟨k, deleted, left⟩ := Heap.Holds.delete held
      exact ⟨⟨false, some p, error⟩, k, by simp [disconnect, deleted], left⟩

/-- `Query`, as far as it concerns the handle. -/
def query (c : Connection E) (refused : Bool) (errors : Option Nat → E) (h : Heap) :
    Option (Connection E) :=
  (Connecting.step ⟨c, h⟩ (.query refused errors)).map (·.conn)

theorem query_spec (up : c.Open) (live : ∀ p ∈ c.dbHandler, p ∈ h.live) (refused : Bool)
    (errors : Option Nat → E) : ∃ d, c.query refused errors h = some d ∧ d.SameHandle c := by
  obtain ⟨p, handle⟩ := Option.ne_none_iff_exists'.mp up.2
  have used : c.useHandler h = some () := by simp [useHandler, handle, live p handle]
  have set : c.setLastError errors h = some { c with lastError := some (errors c.dbHandler) } :=
    if_pos live
  cases refused with
  | false => exact ⟨c, by simp [query, Connecting.step, up.1, used], rfl, rfl⟩
  | true =>
    refine ⟨{ c with lastError := some (errors c.dbHandler) }, ?_, rfl, rfl⟩
    simp [query, Connecting.step, up.1, used, set]

end Connection

namespace MysqlDB

section Handles

variable {Sql RS E : Type}

structure Attempt (E : Type) where
  outcome : ConnectOutcome
  errors : Option Nat → E

structure Outcomes (E : Type) where
  sync : Attempt E
  async : Nat → Attempt E
  flags : Nat → Bool

/-- `new MysqlConnect` and its `Connect`. One that failed has no handle to destroy. -/
def openConnection (a : Attempt E) (h : Heap) : Option (Option (Connection E) × Heap) :=
  (Connection.new.connect a.outcome a.errors h).map fun (ok, conn, h) =>
    (if ok then some conn else none, h)

def closeAll : List (Connection E) → Heap → Option Heap
  | [], h => some h
  | conn :: rest, h => (conn.disconnect h).bind fun (_, h) => closeAll rest h

def connectAllOn (async : Nat → Attempt E) :
    Nat → Nat → List (Connection E) → Heap → Option (Bool × List (Connection E) × Heap)
  | _, 0, asyncConns, h => some (true, asyncConns, h)
  | i, rest + 1, asyncConns, h =>
    (openConnection (async i) h).bind fun
    | (none, h) => some (false, asyncConns, h)
    | (some conn, h) => connectAllOn async (i + 1) rest (asyncConns ++ [conn]) h

def conns (db : MysqlDB Sql (Connection E) RS) : List (Connection E) :=
  db.syncConn.join.toList ++ db.asyncConns

/-- The handles that the destructors of the members close. -/
def handles (db : MysqlDB Sql (Connection E) RS) : List Nat := db.conns.flatMap (·.handles)

/-- `Init`; the `reset` destroys the connection that was there. -/
def initOn (db : MysqlDB Sql (Connection E) RS) (cfg : DatabaseParam) (o : Outcomes E) (h : Heap) :
    Option (Bool × MysqlDB Sql (Connection E) RS × Heap) :=
  if db.inited then some (false, db, h)
  else
    (closeAll db.syncConn.join.toList h).bind fun h =>
    (openConnection o.sync h).bind fun (sync, h) =>
      let db := { db with syncConn := some sync }
      if sync.isNone then some (false, db, h)
      else
        let db := { db with asyncConnNum := connNum cfg }
        (connectAllOn o.async 0 db.asyncConnNum db.asyncConns h).map
          fun (connected, asyncConns, h) =>
            let db := { db with asyncConns }
            if !connected then (false, db, h)
            else
              let db := startAll o.flags 0 db.asyncConnNum db
              (true, { db with name := cfg.name, inited := true }, h)

/-- `Destroy`, once its threads are joined. -/
def destroyOn (db : MysqlDB Sql (Connection E) RS) (h : Heap) :
    Option (MysqlDB Sql (Connection E) RS × Heap) :=
  if !db.inited || db.stoping then some (db, h)
  else (closeAll db.conns h).map fun h => (db.destroy, h)

/-- The object as `init` and `destroy` see it. -/
def forget (db : MysqlDB Sql (Connection E) RS) : MysqlDB Sql Unit RS where
  inited := db.inited
  asyncConnNum := db.asyncConnNum
  name := db.name
  stoping := db.stoping
  flushing := db.flushing
  stopedNum := db.stopedNum
  syncConn := db.syncConn.map (Option.map fun _ => ())
  asyncConns := db.asyncConns.map fun _ => ()
  asyncThreads := db.asyncThreads
  taskQueues := db.taskQueues
  flushFlag := db.flushFlag
  finishTasks := db.finishTasks

def Attempt.conn (a : Attempt E) : Option Unit := if a.outcome = .connected then some () else none

def Outcomes.attempts (o : Outcomes E) : Attempts Unit :=
  ⟨o.sync.conn, fun i => (o.async i).conn, o.flags⟩

variable {h h' : Heap} {frame : List Nat}

theorem openConnection_spec (a : Attempt E) (held : h.Holds frame) : ∃ conn h',
    openConnection a h = some (conn, h') ∧ conn.map (fun _ => ()) = a.conn ∧
      (∀ c ∈ conn, c.Open) ∧ h'.Holds (conn.toList.flatMap (·.handles) ++ frame) := by
  obtain ⟨outcome, errors⟩ := a
  cases outcome with
  | noHandle => exact ⟨none, h, rfl, rfl, by simp, held⟩
  | refused =>
    obtain ⟨k, deleted, left⟩ := held.new.delete
    refine ⟨none, k, ?_, rfl, by simp, left⟩
    have set : Connection.new.setLastError errors h.new.2 = some _ :=
      if_pos (by simp [Connection.new])
    simp [openConnection, Connection.connect, set, deleted]
  | connected =>
    refine ⟨some ⟨true, some h.new.1, none⟩, h.new.2, rfl, rfl, ?_, held.new⟩
    simp [Connection.Open]

theorem closeAll_spec (conns : List (Connection E))
    (held : h.Holds (conns.flatMap (·.handles) ++ frame)) :
    ∃ h', closeAll conns h = some h' ∧ h'.Holds frame := by
  induction conns generalizing h with
  | nil => exact ⟨h, rfl, held⟩
  | cons conn rest ih =>
    rw [List.flatMap_cons, List.append_assoc] at held
    obtain ⟨d, k, closed, left⟩ := conn.disconnect_spec held
    obtain ⟨h', later, done⟩ := ih left
    refine ⟨h', ?_, done⟩
    rw [closeAll, closed, Option.bind_some]
    exact later

theorem connectAllOn_spec (o : Outcomes E) (i rest : Nat) (asyncConns : List (Connection E))
    (up : ∀ c ∈ asyncConns, c.Open)
    (held : h.Holds (asyncConns.flatMap (·.handles) ++ frame)) :
    ∃ ok conns h', connectAllOn o.async i rest asyncConns h = some (ok, conns, h') ∧
      connectAll o.attempts.async i rest (asyncConns.map fun _ => ()) =
        (ok, conns.map fun _ => ()) ∧
      (∀ c ∈ conns, c.Open) ∧ h'.Holds (conns.flatMap (·.handles) ++ frame) := by
  induction rest generalizing i asyncConns h with
  | zero => exact ⟨true, asyncConns, h, rfl, rfl, up, held⟩
  | succ rest ih =>
    obtain ⟨conn, k, opened, same, upNow, left⟩ := openConnection_spec (o.async i) held
    rw [connectAllOn, opened, Option.bind_some, connectAll]
    have attempt : o.attempts.async i = conn.map fun _ => () := same.symm
    rw [attempt]
    cases conn with
    | none => exact ⟨false, asyncConns, k, rfl, rfl, up, left⟩
    | some conn =>
      have more : k.Holds ((asyncConns ++ [conn]).flatMap (·.handles) ++ frame) := by
        apply left.perm
        simp only [Option.toList_some, List.flatMap_append, List.flatMap_singleton,
          List.append_assoc]
        exact List.perm_append_comm_assoc _ _ _
      have upMore : ∀ c ∈ asyncConns ++ [conn], c.Open :=
        List.forall_mem_append.mpr ⟨up, by simpa using upNow⟩
      have later := ih (i + 1) (asyncConns ++ [conn]) upMore more
      rw [List.map_append] at later
      exact later

structure Kept (db : MysqlDB Sql (Connection E) RS) (h : Heap) : Prop where
  held : h.Holds db.handles
  up : ∀ c ∈ db.conns, c.Open
  workers : db.asyncThreads.length ≤ db.asyncConns.length

theorem init_workers {Conn : Type} (db : MysqlDB Sql Conn RS) (cfg : DatabaseParam)
    (attempts : Attempts Conn) (enough : db.asyncThreads.length ≤ db.asyncConns.length) :
    (db.init cfg attempts).2.asyncThreads.length ≤ (db.init cfg attempts).2.asyncConns.length := by
  have through := init_case db cfg attempts
  have length := connectAll_length attempts.async 0 (connNum cfg) db.asyncConns
  generalize db.init cfg attempts = result at through
  cases through with
  | refused | unsynced => exact enough
  | unconnected => exact enough.trans (by simp only [length, Nat.le_add_right])
  | done _ _ all =>
    simp only [List.length_append, List.length_replicate, length, all]
    omega

variable {db : MysqlDB Sql (Connection E) RS}

theorem initOn_spec (held : h.Holds (db.handles ++ frame)) (up : ∀ c ∈ db.conns, c.Open)
    (cfg : DatabaseParam) (o : Outcomes E) : ∃ ok db' h',
    db.initOn cfg o h = some (ok, db', h') ∧ db.forget.init cfg o.attempts = (ok, db'.forget) ∧
      h'.Holds (db'.handles ++ frame) ∧ ∀ c ∈ db'.conns, c.Open := by
  cases live : db.inited with
  | true =>
    refine ⟨false, db, h, by simp [initOn, live], ?_, held, up⟩
    have same : db.forget.inited = true := live
    simp [init, same]
  | false =>
    rw [handles, conns, List.flatMap_append, List.append_assoc] at held
    have upAsync : ∀ c ∈ db.asyncConns, c.Open := (List.forall_mem_append.mp up).2
    obtain ⟨k, closed, left⟩ := closeAll_spec _ held
    obtain ⟨conn, k', opened, same, upSync, left⟩ := openConnection_spec o.sync left
    have sync : o.attempts.sync = conn.map fun _ => () := same.symm
    cases conn with
    | none =>
      refine ⟨false, { db with syncConn := some none }, k', ?_, ?_, left, upAsync⟩
      · simp [initOn, live, closed, opened]
      · rw [Option.map_none] at sync
        simp [init, live, sync, forget]
    | some conn =>
      obtain ⟨ok, more, h', ran, model, upMore, left⟩ := connectAllOn_spec o 0 (connNum cfg)
        db.asyncConns upAsync (left.perm (List.perm_append_comm_assoc _ _ _))
      rw [Option.map_some] at sync
      have upBoth : ∀ c ∈ conn :: more, c.Open :=
        List.forall_mem_cons.mpr ⟨upSync conn rfl, upMore⟩
      have both : h'.Holds ((conn :: more).flatMap (·.handles) ++ frame) := by
        apply left.perm
        rw [Option.toList_some, List.flatMap_singleton, List.flatMap_cons, List.append_assoc]
        exact List.perm_append_comm_assoc _ _ _
      have flags : o.attempts.flags = o.flags := rfl
      cases ok with
      | false =>
        refine ⟨false, { db with
          syncConn := some (some conn), asyncConnNum := connNum cfg, asyncConns := more },
          h', ?_, ?_, both, upBoth⟩
        · simp [initOn, live, closed, opened, ran]
        · simp [init, forget, live, sync, model, -List.map_const']
      | true =>
        refine ⟨true, { startAll o.flags 0 (connNum cfg) { db with
          syncConn := some (some conn), asyncConnNum := connNum cfg, asyncConns := more } with
          name := cfg.name, inited := true }, h', ?_, ?_, ?_, ?_⟩
        · simp [initOn, live, closed, opened, ran]
        · simp [init, forget, live, sync, model, startAll_eq, flags, -List.map_const']
        · rw [startAll_eq]
          exact both
        · rw [startAll_eq]
          exact upBoth

theorem Kept.init (kept : db.Kept h) (cfg : DatabaseParam) (o : Outcomes E) : ∃ ok db' h',
    db.initOn cfg o h = some (ok, db', h') ∧ db.forget.init cfg o.attempts = (ok, db'.forget) ∧
      db'.Kept h' := by
  have whole : h.Holds (db.handles ++ []) := by simpa using kept.held
  obtain ⟨ok, db', h', done, model, held, up⟩ := initOn_spec whole kept.up cfg o
  rw [List.append_nil] at held
  have enough : db.forget.asyncThreads.length ≤ db.forget.asyncConns.length := by
    simpa [forget] using kept.workers
  have workers := init_workers db.forget cfg o.attempts enough
  rw [model] at workers
  exact ⟨ok, db', h', done, model, held, up, by simpa [forget] using workers⟩

theorem Kept.close (kept : db.Kept h) : ∃ h', closeAll db.conns h = some h' ∧ h'.live = [] := by
  have held := kept.held
  rw [handles, ← List.append_nil (db.conns.flatMap _)] at held
  obtain ⟨h', closed, none⟩ := closeAll_spec db.conns held
  exact ⟨h', closed, List.Perm.eq_nil none⟩

theorem destroyOn_spec (held : h.Holds (db.handles ++ frame)) : ∃ h',
    db.destroyOn h = some (db.destroy, h') ∧ h'.Holds (db.destroy.handles ++ frame) := by
  by_cases idle : (!db.inited || db.stoping) = true
  · have same : db.destroy = db := if_pos idle
    rw [same]
    exact ⟨h, if_pos idle, held⟩
  · obtain ⟨h', closed, left⟩ := closeAll_spec db.conns held
    have cleared : db.destroy = _ := if_neg idle
    refine ⟨h', by rw [destroyOn, if_neg idle, closed, Option.map_some], ?_⟩
    rw [cleared]
    exact left

theorem destroy_forget (db : MysqlDB Sql (Connection E) RS) :
    db.destroy.forget = db.forget.destroy := by
  by_cases idle : (!db.inited || db.stoping) = true
  · have same : db.destroy = db := if_pos idle
    have forgot : db.forget.destroy = db.forget := if_pos idle
    rw [same, forgot]
  · have cleared : db.destroy = _ := if_neg idle
    have forgot : db.forget.destroy = _ := if_neg idle
    rw [cleared, forgot]
    rfl

theorem destroy_conns (db : MysqlDB Sql (Connection E) RS) :
    db.destroy = db ∨ db.destroy.conns = [] := by
  by_cases idle : (!db.inited || db.stoping) = true
  · exact .inl (if_pos idle)
  · have cleared : db.destroy = _ := if_neg idle
    rw [cleared]
    exact .inr rfl

theorem Kept.destroy (kept : db.Kept h) : ∃ db' h', db.destroyOn h = some (db', h') ∧
    db'.forget = db.forget.destroy ∧ db'.Kept h' := by
  have whole : h.Holds (db.handles ++ []) := by simpa using kept.held
  obtain ⟨h', done, held⟩ := destroyOn_spec whole
  rw [List.append_nil] at held
  refine ⟨db.destroy, h', done, db.destroy_forget, held, ?_, ?_⟩
  · rcases db.destroy_conns with same | none
    · rw [same]
      exact kept.up
    · simp [none]
  · unfold MysqlDB.destroy
    split
    · exact kept.workers
    · exact le_rfl

theorem Kept.setSync (kept : db.Kept h) {c d : Connection E} (sync : db.syncConn = some (some c))
    (same : d.SameHandle c) : Kept { db with syncConn := some (some d) } h := by
  have listed : db.conns = c :: db.asyncConns := by
    rw [conns, sync]
    rfl
  have held := kept.held
  have up := kept.up
  rw [handles, listed, List.flatMap_cons, ← same.handles] at held
  rw [listed] at up
  have split := List.forall_mem_cons.mp up
  exact ⟨held, List.forall_mem_cons.mpr ⟨same.up split.1, split.2⟩, kept.workers⟩

theorem Kept.setAsync (kept : db.Kept h) {i : Nat} (inside : i < db.asyncConns.length)
    {d : Connection E} (same : d.SameHandle db.asyncConns[i]) :
    Kept { db with asyncConns := db.asyncConns.set i d } h := by
  have split := List.forall_mem_append.mp kept.up
  have unchanged : (db.asyncConns.set i d).flatMap (·.handles) =
      db.asyncConns.flatMap (·.handles) := by
    rw [List.flatMap_def, List.map_set, same.handles, ← List.map_set, List.set_getElem_self,
      ← List.flatMap_def]
  have held := kept.held
  rw [handles, conns, List.flatMap_append, ← unchanged, ← List.flatMap_append] at held
  refine ⟨held, List.forall_mem_append.mpr ⟨split.1, fun c listed => ?_⟩, ?_⟩
  · rcases List.mem_or_eq_of_mem_set listed with old | rfl
    · exact split.2 c old
    · exact same.up (split.2 _ (List.getElem_mem inside))
  · rw [List.length_set]
    exact kept.workers

theorem Kept.distinct (kept : db.Kept h) : (db.conns.map (·.dbHandler)).Nodup ∧
    ∀ c ∈ db.conns, ∃ p ∈ h.live, c.dbHandler = some p := by
  have each : db.conns.map (·.dbHandler) = db.handles.map some := by
    rw [handles, List.map_flatMap, List.map_eq_flatMap]
    exact List.flatMap_congr fun c member => (kept.up c member).handles.symm
  refine ⟨each ▸ kept.held.nodup.map (Option.some_injective _), fun c member => ?_⟩
  have listed : c.dbHandler ∈ db.handles.map some :=
    each ▸ List.mem_map_of_mem member
  obtain ⟨p, there, same⟩ := List.mem_map.mp listed
  exact ⟨p, List.Perm.mem_iff kept.held |>.mpr there, same.symm⟩

end Handles

end MysqlDB

/-- A call of the main thread, or a statement that a worker executes. `buildSql` is what the
`Build*Sql` functions do with the handle of the synchronous connection. -/
inductive HandleCall (E : Type) where
  | init (cfg : DatabaseParam) (o : MysqlDB.Outcomes E)
  | destroy
  | query (refused : Bool) (errors : Option Nat → E)
  | asyncQuery (threadIdx : Nat) (refused : Bool) (errors : Option Nat → E)
  | buildSql

structure Connected (Sql RS E : Type) where
  db : MysqlDB Sql (Connection E) RS
  heap : Heap

namespace Connected

open MysqlDB

variable {Sql RS E : Type}

def start : Connected Sql RS E := ⟨.new, Heap.empty⟩

/-- A call that returns; there is none where a null pointer or a handle that is not open is
used. A worker is there once its thread is. -/
def step (s : Connected Sql RS E) : HandleCall E → Option (Connected Sql RS E)
  | .init cfg o => (s.db.initOn cfg o s.heap).map fun (_, db, heap) => ⟨db, heap⟩
  | .destroy => (s.db.destroyOn s.heap).map fun (db, heap) => ⟨db, heap⟩
  | .query refused errors =>
    s.db.syncConn.bind fun
    | none => some s
    | some conn => (conn.query refused errors s.heap).map fun conn =>
      { s with db := { s.db with syncConn := some (some conn) } }
  | .asyncQuery threadIdx refused errors =>
    if threadIdx < s.db.asyncThreads.length then
      s.db.asyncConns[threadIdx]?.bind fun conn =>
      (conn.query refused errors s.heap).map fun conn =>
        { s with db := { s.db with asyncConns := s.db.asyncConns.set threadIdx conn } }
    else some s
  | .buildSql => s.db.syncConn.join.bind fun conn => (conn.useHandler s.heap).map fun _ => s

def after (db : MysqlDB Sql Unit RS) : HandleCall E → MysqlDB Sql Unit RS
  | .init cfg o => (db.init cfg o.attempts).2
  | .destroy => db.destroy
  | _ => db

def usesNull (s : Connected Sql RS E) : HandleCall E → Prop
  | .query _ _ => s.db.syncConn = none
  | .buildSql => s.db.syncConn.join = none
  | _ => False

variable {s t : Connected Sql RS E} {a : HandleCall E}

theorem start_kept : (start : Connected Sql RS E).db.Kept (start : Connected Sql RS E).heap where
  held := Heap.holds_empty
  up := by simp [start, MysqlDB.new, conns]
  workers := le_rfl

theorem live_of_member (kept : s.db.Kept s.heap) {conn : Connection E}
    (member : conn ∈ s.db.conns) : ∀ p ∈ conn.dbHandler, p ∈ s.heap.live := by
  obtain ⟨p, live, handle⟩ := kept.distinct.2 conn member
  intro q found
  obtain rfl : p = q := Option.some.inj (handle.symm.trans found)
  exact live

/-- One call: it fails just on a null pointer, and otherwise the object is kept and is what the
call without handles makes of it. -/
theorem step_spec (kept : s.db.Kept s.heap) (a : HandleCall E) :
    s.step a = none ∧ s.usesNull a ∨
      ∃ t, s.step a = some t ∧ ¬ s.usesNull a ∧ t.db.Kept t.heap ∧
        t.db.forget = after s.db.forget a := by
  cases a with
  | init cfg o =>
    obtain ⟨ok, db, h, done, model, later⟩ := kept.init cfg o
    refine .inr ⟨⟨db, h⟩, by rw [step, done, Option.map_some], id, later, ?_⟩
    rw [after, model]
  | destroy =>
    obtain ⟨db, h, done, model, later⟩ := kept.destroy
    exact .inr ⟨⟨db, h⟩, by rw [step, done, Option.map_some], id, later, model⟩
  | query refused errors =>
    cases sync : s.db.syncConn with
    | none => exact .inl ⟨by rw [step, sync, Option.bind_none], sync⟩
    | some made =>
      have used : ¬ s.usesNull (.query refused errors) := by simp [usesNull, sync]
      cases made with
      | none => exact .inr ⟨s, by rw [step, sync, Option.bind_some], used, kept, rfl⟩
      | some conn =>
        have member : conn ∈ s.db.conns := by simp [conns, sync]
        obtain ⟨d, done, same⟩ :=
          Connection.query_spec (kept.up conn member) (live_of_member kept member) refused errors
        refine .inr ⟨{ s with db := { s.db with syncConn := some (some d) } }, ?_, used,
          kept.setSync sync same, by simp [after, forget, sync]⟩
        rw [step, sync, Option.bind_some]
        simp only [done, Option.map_some]
  | asyncQuery threadIdx refused errors =>
    by_cases there : threadIdx < s.db.asyncThreads.length
    · have inside : threadIdx < s.db.asyncConns.length := there.trans_le kept.workers
      have member : s.db.asyncConns[threadIdx] ∈ s.db.conns :=
        List.mem_append_right _ (List.getElem_mem inside)
      obtain ⟨d, done, same⟩ :=
        Connection.query_spec (kept.up _ member) (live_of_member kept member) refused errors
      refine .inr ⟨{ s with db := { s.db with asyncConns := s.db.asyncConns.set threadIdx d } },
        ?_, id, kept.setAsync inside same, by simp [after, forget]⟩
      rw [step, if_pos there, List.getElem?_eq_getElem inside, Option.bind_some, done,
        Option.map_some]
    · exact .inr ⟨s, if_neg there, id, kept, rfl⟩
  | buildSql =>
    cases sync : s.db.syncConn.join with
    | none => exact .inl ⟨by rw [step, sync, Option.bind_none], sync⟩
    | some conn =>
      have member : conn ∈ s.db.conns := by simp [conns, sync]
      obtain ⟨p, live, handle⟩ := kept.distinct.2 conn member
      have used : conn.useHandler s.heap = some () := by simp [Connection.useHandler, handle, live]
      refine .inr ⟨s, ?_, by simp [usesNull, sync], kept, rfl⟩
      rw [step, sync, Option.bind_some, used, Option.map_some]

theorem trace_kept (calls : List (HandleCall E)) :
    ∀ s ∈ start :: trace step (start : Connected Sql RS E) calls, s.db.Kept s.heap := by
  refine List.forall_mem_cons.mpr ⟨start_kept, ?_⟩
  refine trace_invariant (J := fun s : Connected Sql RS E => s.db.Kept s.heap) ?_ start_kept calls
  intro s t a kept taken
  rcases step_spec kept a with ⟨none, -⟩ | ⟨u, done, -, later, -⟩
  · rw [none] at taken
    cases taken
  · obtain rfl : u = t := Option.some.inj (done.symm.trans taken)
    exact later

end Connected

/-- Over any calls of `Init`, refused, failed and repeated, of `Destroy`, and of what the main
thread and the workers do in between, in any order: the handles that are open are those of the
connections in the object, each of which has one of its own, so that destroying these closes all;
a call goes wrong just where it finds no synchronous connection; and the object is that of the
calls without handles. -/
theorem database_handles {Sql RS E : Type} (calls : List (HandleCall E)) :
    (∀ s ∈ Connected.start :: trace Connected.step (Connected.start : Connected Sql RS E) calls,
      s.heap.Holds s.db.handles ∧
      (s.db.conns.map (·.dbHandler)).Nodup ∧
      (∀ c ∈ s.db.conns, c.opened = true ∧ ∃ p ∈ s.heap.live, c.dbHandler = some p) ∧
      ∃ h, MysqlDB.closeAll s.db.conns s.heap = some h ∧ h.live = []) ∧
    ∀ s ∈ Connected.start :: trace Connected.step (Connected.start : Connected Sql RS E) calls, ∀ a,
      (s.step a = none ↔ s.usesNull a) ∧
      ∀ t, s.step a = some t → t.db.forget = Connected.after s.db.forget a := by
  constructor
  · intro s passed
    have kept := Connected.trace_kept calls s passed
    have distinct := kept.distinct
    exact ⟨kept.held, distinct.1, fun c member => ⟨(kept.up c member).1, distinct.2 c member⟩,
      kept.close⟩
  · intro s passed a
    rcases Connected.step_spec (Connected.trace_kept calls s passed) a with
      ⟨none, null⟩ | ⟨t, done, other, -, model⟩
    · simp [none, null]
    · simp [done, other, model]

/-- The server refuses the connections from number `limit` on. -/
def limited (limit : Nat) : MysqlDB.Outcomes Unit where
  sync := ⟨.connected, fun _ => ()⟩
  async i := ⟨if i < limit then .connected else .refused, fun _ => ()⟩
  flags _ := false

/-- An `Init` that failed at its second asynchronous connection leaves two handles open, the next
one replaces the first of them, and `Destroy` closes all. -/
def limitedCalls : List (HandleCall Unit) :=
  [.init ⟨[], 2⟩ (limited 1), .init ⟨[], 2⟩ (limited 2), .asyncQuery 1 true fun _ => (), .destroy]

example : (trace Connected.step (Connected.start : Connected Unit Unit Unit) limitedCalls).map
    (·.heap.live) = [[1, 0], [5, 4, 3, 1], [5, 4, 3, 1], []] := by
  decide

end LlbcDatabase
