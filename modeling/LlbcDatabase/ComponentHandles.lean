import LlbcDatabase.DatabaseHandles
import LlbcDatabase.RegistryOwners

/-! The handles of the client library under the whole component: the databases that `DBMgr`
opens and destroys, with those that no name leads to. -/

namespace LlbcDatabase

open CText Ownership Transition MysqlDB

namespace Registry

section Handles

variable {Sql RS E : Type}

/-- `CreateMysqlDB`: the destructor of an engine whose `Init` fails closes what it has opened. -/
def createMysqlDBOn (r : Registry Sql (Connection E) RS) (cfg : DatabaseParam) (o : Outcomes E)
    (h : Heap) : Option (Option Nat × Registry Sql (Connection E) RS × Heap) :=
  (MysqlDB.new.initOn cfg o h).bind fun (ok, db, h) =>
    if ok then some (some r.engines.length, { r with engines := r.engines ++ [db] }, h)
    else (closeAll db.conns h).map fun h => (none, r, h)

def createDatabaseOn (r : Registry Sql (Connection E) RS) (cfg : DatabaseParam) (o : Outcomes E)
    (h : Heap) : Option (Option Nat × Registry Sql (Connection E) RS × Heap) :=
  if (r.databases.lookup cfg.name).isSome then some (none, r, h)
  else (r.createMysqlDBOn cfg o h).map fun
    | (none, r, h) => (none, r, h)
    | (some newDB, r, h) => (some newDB, r.register cfg.name newDB, h)

def openAllOn (cfg : IniConfig) (o : Nat → Outcomes E) : Registry Sql (Connection E) RS → Heap →
    List Nat → Option (Bool × Registry Sql (Connection E) RS × Heap)
  | r, h, [] => some (r.defaultDB.isSome, r, h)
  | r, h, i :: rest =>
    match cfg.getSection (cfgName i) with
    | none => some (false, r, h)
    | some dbSession =>
      if (r.databases.lookup dbSession.name).isSome then some (false, r, h)
      else (r.createMysqlDBOn dbSession.param (o i) h).bind fun
        | (none, r, h) => some (false, r, h)
        | (some newDB, r, h) =>
          if 0 < dbSession.default then
            if r.defaultDB.isSome then some (false, r, h)
            else openAllOn cfg o
              ({ r with defaultDB := some newDB }.register dbSession.name newDB) h rest
          else openAllOn cfg o (r.register dbSession.name newDB) h rest

def onInitializeOn (r : Registry Sql (Connection E) RS) (cfg : IniConfig) (o : Nat → Outcomes E)
    (h : Heap) : Option (Bool × Registry Sql (Connection E) RS × Heap) :=
  if cfg.num = 0 then some (true, r, h) else openAllOn cfg o r h (cfgIndices cfg.num)

def destroyAllOn : List Nat → List (MysqlDB Sql (Connection E) RS) → Heap →
    Option (List (MysqlDB Sql (Connection E) RS) × Heap)
  | [], engines, h => some (engines, h)
  | db :: rest, engines, h =>
    match engines[db]? with
    | none => destroyAllOn rest engines h
    | some engine =>
      (engine.destroyOn h).bind fun (engine, h) => destroyAllOn rest (engines.set db engine) h

def deleteAllOn (engines : List (MysqlDB Sql (Connection E) RS)) : List Nat → Heap → Option Heap
  | [], h => some h
  | db :: rest, h =>
    match engines[db]? with
    | none => deleteAllOn engines rest h
    | some engine => (closeAll engine.conns h).bind (deleteAllOn engines rest)

/-- `OnDestroy`, with the `clear` at its end. -/
def onDestroyOn (r : Registry Sql (Connection E) RS) (h : Heap) :
    Option (Registry Sql (Connection E) RS × Heap) :=
  (destroyAllOn r.owned r.engines h).bind fun (engines, h) =>
    (deleteAllOn engines r.owned h).map fun h => ({ r with databases := [], engines }, h)

/-- The registry as the calls without handles see it. -/
def forget (r : Registry Sql (Connection E) RS) : Registry Sql Unit RS where
  databases := r.databases
  defaultDB := r.defaultDB
  engines := r.engines.map (·.forget)

def handles (r : Registry Sql (Connection E) RS) : List Nat := r.engines.flatMap (·.handles)

structure Settled (db : MysqlDB Sql (Connection E) RS) : Prop where
  up : ∀ c ∈ db.conns, c.Open
  inited_iff : db.inited = true ↔ db.conns ≠ []
  going : db.inited = true → db.stoping = false

structure Kept (r : Registry Sql (Connection E) RS) (h : Heap) : Prop where
  held : h.Holds r.handles
  settled : ∀ db ∈ r.engines, Settled db

variable {r : Registry Sql (Connection E) RS} {h : Heap}

theorem settled_new {cfg : DatabaseParam} {o : Outcomes E} {db : MysqlDB Sql (Connection E) RS}
    (made : (MysqlDB.new : MysqlDB Sql Unit RS).init cfg o.attempts = (true, db.forget))
    (up : ∀ c ∈ db.conns, c.Open) : Settled db := by
  have through := init_case (MysqlDB.new : MysqlDB Sql Unit RS) cfg o.attempts
  rw [made] at through
  generalize whole : (true, db.forget) = result at through
  have inited : db.forget.inited = db.inited := rfl
  have stoping : db.forget.stoping = db.stoping := rfl
  have sync : db.forget.syncConn = db.syncConn.map (Option.map fun _ => ()) := rfl
  cases through with
  | done =>
    obtain ⟨-, same⟩ := Prod.mk.inj whole
    rw [same] at inited stoping sync
    refine ⟨up, iff_of_true inited.symm ?_, fun _ => stoping.symm⟩
    cases held : db.syncConn.join with
    | some conn => simp [conns, held]
    | none =>
      exfalso
      cases shape : db.syncConn with
      | none => simp [shape] at sync
      | some made => simp_all
  | _ => cases whole

theorem Kept.createMysqlDBOn (kept : r.Kept h) (cfg : DatabaseParam) (o : Outcomes E) :
    ∃ newDB t h', r.createMysqlDBOn cfg o h = some (newDB, t, h') ∧
      r.forget.createMysqlDB cfg o.attempts = (newDB, t.forget) ∧ t.Kept h' := by
  have start : h.Holds ((MysqlDB.new : MysqlDB Sql (Connection E) RS).handles ++ r.handles) :=
    kept.held
  obtain ⟨ok, db, k, done, model, held, up⟩ := initOn_spec start (by simp [conns, MysqlDB.new]) cfg o
  have made : (MysqlDB.new : MysqlDB Sql Unit RS).init cfg o.attempts = (ok, db.forget) := model
  cases ok with
  | true =>
    refine ⟨some r.engines.length, { r with engines := r.engines ++ [db] }, k, ?_, ?_, ?_, ?_⟩
    · simp [Registry.createMysqlDBOn, done]
    · simp [createMysqlDB, made, forget]
    · apply held.perm
      rw [handles, handles, List.flatMap_append, List.flatMap_singleton]
      exact List.perm_append_comm
    · exact List.forall_mem_append.mpr ⟨kept.settled, by simpa using settled_new made up⟩
  | false =>
    obtain ⟨h', closed, left⟩ := closeAll_spec db.conns held
    refine ⟨none, r, h', ?_, ?_, left, kept.settled⟩
    · simp [Registry.createMysqlDBOn, done, closed]
    · simp [createMysqlDB, made]

theorem Kept.createDatabaseOn (kept : r.Kept h) (cfg : DatabaseParam) (o : Outcomes E) :
    ∃ newDB t h', r.createDatabaseOn cfg o h = some (newDB, t, h') ∧
      r.forget.createDatabase cfg o.attempts = (newDB, t.forget) ∧ t.Kept h' := by
  by_cases there : (r.databases.lookup cfg.name).isSome = true
  · exact ⟨none, r, h, if_pos there, if_pos there, kept⟩
  · obtain ⟨newDB, t, h', done, model, later⟩ := kept.createMysqlDBOn cfg o
    have absent : ¬ (r.forget.databases.lookup cfg.name).isSome = true := there
    rw [Registry.createDatabaseOn, if_neg there, done, createDatabase, if_neg absent, model]
    cases newDB with
    | none => exact ⟨none, t, h', rfl, rfl, later⟩
    | some newDB =>
      exact ⟨some newDB, t.register cfg.name newDB, h', rfl, rfl, later.held, later.settled⟩

theorem Kept.openAllOn (kept : r.Kept h) (cfg : IniConfig) (o : Nat → Outcomes E)
    (indices : List Nat) : ∃ ok t h', openAllOn cfg o r h indices = some (ok, t, h') ∧
      openAll cfg (fun i => (o i).attempts) r.forget indices = (ok, t.forget) ∧ t.Kept h' := by
  induction indices generalizing r h with
  | nil => exact ⟨_, r, h, rfl, rfl, kept⟩
  | cons i rest ih =>
    rw [Registry.openAllOn, openAll]
    cases found : cfg.getSection (cfgName i) with
    | none => exact ⟨false, r, h, rfl, rfl, kept⟩
    | some dbSession =>
      by_cases there : (r.databases.lookup dbSession.name).isSome = true
      · exact ⟨false, r, h, if_pos there, if_pos there, kept⟩
      · obtain ⟨newDB, t, k, done, model, later⟩ := kept.createMysqlDBOn dbSession.param (o i)
        have absent : ¬ (r.forget.databases.lookup dbSession.name).isSome = true := there
        simp only [if_neg there, if_neg absent, done, model, Option.bind_some]
        cases newDB with
        | none => exact ⟨false, t, k, rfl, rfl, later⟩
        | some newDB =>
          by_cases default : 0 < dbSession.default
          · by_cases second : t.defaultDB.isSome = true
            · have same : t.forget.defaultDB.isSome = true := second
              exact ⟨false, t, k, by simp [default, second], by simp [default, same], later⟩
            · have same : ¬ t.forget.defaultDB.isSome = true := second
              have next : Kept ({ t with defaultDB := some newDB }.register dbSession.name newDB) k :=
                ⟨later.held, later.settled⟩
              simp only [if_pos default, if_neg second, if_neg same]
              exact ih next
          · have next : Kept (t.register dbSession.name newDB) k := ⟨later.held, later.settled⟩
            simp only [if_neg default]
            exact ih next

theorem Kept.onInitializeOn (kept : r.Kept h) (cfg : IniConfig) (o : Nat → Outcomes E) :
    ∃ ok t h', r.onInitializeOn cfg o h = some (ok, t, h') ∧
      r.forget.onInitialize cfg (fun i => (o i).attempts) = (ok, t.forget) ∧ t.Kept h' := by
  by_cases empty : cfg.num = 0
  · exact ⟨true, r, h, if_pos empty, if_pos empty, kept⟩
  · rw [Registry.onInitializeOn, if_neg empty, onInitialize, if_neg empty]
    exact kept.openAllOn cfg o (cfgIndices cfg.num)

theorem Settled.destroy {db : MysqlDB Sql (Connection E) RS} (settled : Settled db) :
    Settled db.destroy := by
  unfold MysqlDB.destroy
  split
  · exact settled
  · exact ⟨by simp [conns, clear], by simp [conns, clear], by simp [clear]⟩

theorem modify_settled {engines : List (MysqlDB Sql (Connection E) RS)}
    (settled : ∀ db ∈ engines, Settled db) (i : Nat) :
    ∀ db ∈ engines.modify i MysqlDB.destroy, Settled db := by
  intro db member
  rw [List.modify_eq_set_getElem?] at member
  cases found : engines[i]? with
  | none =>
    rw [found] at member
    exact settled db member
  | some engine =>
    rw [found] at member
    rcases List.mem_or_eq_of_mem_set member with old | rfl
    · exact settled db old
    · exact (settled engine (List.mem_of_getElem? found)).destroy

theorem destroyAll_settled (dbs : List Nat) {engines : List (MysqlDB Sql (Connection E) RS)}
    (settled : ∀ db ∈ engines, Settled db) : ∀ db ∈ destroyAll dbs engines, Settled db := by
  induction dbs generalizing engines with
  | nil => exact settled
  | cons first rest ih => exact ih (modify_settled settled first)

theorem destroyAll_forget (dbs : List Nat) (engines : List (MysqlDB Sql (Connection E) RS)) :
    (destroyAll dbs engines).map (·.forget) = destroyAll dbs (engines.map (·.forget)) := by
  induction dbs generalizing engines with
  | nil => rfl
  | cons first rest ih =>
    rw [destroyAll, destroyAll, ih]
    congr 1
    apply List.ext_getElem?
    intro i
    simp only [List.getElem?_map, List.getElem?_modify]
    cases engines[i]? with
    | none => rfl
    | some engine => by_cases here : first = i <;> simp [here, destroy_forget]

theorem destroyAllOn_spec (dbs : List Nat) {engines : List (MysqlDB Sql (Connection E) RS)}
    (held : h.Holds (engines.flatMap (·.handles))) : ∃ h',
    destroyAllOn dbs engines h = some (destroyAll dbs engines, h') ∧
      h'.Holds ((destroyAll dbs engines).flatMap (·.handles)) := by
  induction dbs generalizing engines h with
  | nil => exact ⟨h, rfl, held⟩
  | cons first rest ih =>
    rw [destroyAllOn, destroyAll, List.modify_eq_set_getElem?]
    cases found : engines[first]? with
    | none => exact ih held
    | some engine =>
      obtain ⟨inside, same⟩ := List.getElem?_eq_some_iff.mp found
      obtain ⟨frame, split⟩ := flatMap_set (fun db : MysqlDB Sql (Connection E) RS => db.handles)
        engines inside
      have before := split engines[first]
      rw [List.set_getElem_self, same] at before
      obtain ⟨k, done, left⟩ := destroyOn_spec (held.perm before)
      obtain ⟨h', later, after⟩ := ih (left.perm (split engine.destroy).symm)
      refine ⟨h', ?_, after⟩
      simp only [done, Option.bind_some]
      exact later

theorem deleteAllOn_none {engines : List (MysqlDB Sql (Connection E) RS)} (dbs : List Nat)
    (none : ∀ db ∈ dbs, ∀ engine, engines[db]? = some engine → engine.conns = []) (h : Heap) :
    deleteAllOn engines dbs h = some h := by
  induction dbs with
  | nil => rfl
  | cons first rest ih =>
    have later := ih fun db member => none db (List.mem_cons_of_mem _ member)
    rw [deleteAllOn]
    cases found : engines[first]? with
    | none => exact later
    | some engine =>
      simp only [none first List.mem_cons_self engine found, closeAll, Option.bind_some]
      exact later

theorem Kept.onDestroyOn (kept : r.Kept h) : ∃ h', r.onDestroyOn h = some (r.onDestroy, h') ∧
    r.onDestroy.forget = r.forget.onDestroy ∧ r.onDestroy.Kept h' := by
  obtain ⟨h', done, left⟩ := destroyAllOn_spec r.owned kept.held
  have settled := destroyAll_settled r.owned kept.settled
  have none : ∀ db ∈ r.owned, ∀ engine, (destroyAll r.owned r.engines)[db]? = some engine →
      engine.conns = [] := by
    intro db member engine found
    by_contra some_
    have live := (settled engine (List.mem_of_getElem? found)).inited_iff.mpr some_
    have stopped := destroyAll_inited r.owned (fun e there => (kept.settled e there).going) db
    exact (stopped.mp ⟨engine, found, live⟩).2 member
  refine ⟨h', ?_, ?_, left, settled⟩
  · rw [Registry.onDestroyOn, done, Option.bind_some]
    simp only [deleteAllOn_none r.owned none, Option.map_some]
    rfl
  · simp only [forget, onDestroy, destroyAll_forget]

theorem Kept.live_nil_iff (kept : r.Kept h) : h.live = [] ↔ ∀ db, ¬ r.running db := by
  have listed : h.live = [] ↔ r.handles = [] :=
    ⟨fun empty => (empty ▸ kept.held : [].Perm _).nil_eq.symm,
      fun empty => (empty ▸ kept.held : List.Perm _ []).eq_nil⟩
  rw [listed, handles, List.flatMap_eq_nil_iff]
  have each : ∀ db ∈ r.engines, db.handles = [] ↔ db.inited ≠ true := by
    intro db member
    have settled := kept.settled db member
    rw [ne_eq, settled.inited_iff, not_not, MysqlDB.handles, List.flatMap_eq_nil_iff]
    constructor
    · intro empty
      refine List.eq_nil_iff_forall_not_mem.mpr fun c there => ?_
      have some_ := (settled.up c there).handles
      rw [empty c there] at some_
      cases some_
    · intro empty c there
      rw [empty] at there
      cases there
  constructor
  · rintro empty db ⟨engine, found, live⟩
    have member := List.mem_of_getElem? found
    exact (each engine member).mp (empty engine member) live
  · intro idle engine member
    obtain ⟨db, found⟩ := List.mem_iff_getElem?.mp member
    exact (each engine member).mpr fun live => idle db ⟨engine, found, live⟩

end Handles

end Registry

/-- A call of the manager; `o` is what the connections come to. -/
inductive ComponentCall (E : Type) where
  | onInitialize (cfg : IniConfig) (o : Nat → Outcomes E)
  | onDestroy
  | createDatabase (cfg : DatabaseParam) (o : Outcomes E)
  | destroyDatabase (dbConnName : Bytes)

structure Component (Sql RS E : Type) where
  registry : Registry Sql (Connection E) RS
  heap : Heap

namespace Component

variable {Sql RS E : Type}

def start : Component Sql RS E := ⟨.new, Heap.empty⟩

/-- A call that returns. -/
def step (s : Component Sql RS E) : ComponentCall E → Option (Component Sql RS E)
  | .onInitialize cfg o =>
    (s.registry.onInitializeOn cfg o s.heap).map fun (_, registry, heap) => ⟨registry, heap⟩
  | .onDestroy => (s.registry.onDestroyOn s.heap).map fun (registry, heap) => ⟨registry, heap⟩
  | .createDatabase cfg o =>
    (s.registry.createDatabaseOn cfg o s.heap).map fun (_, registry, heap) => ⟨registry, heap⟩
  | .destroyDatabase dbConnName =>
    (s.registry.destroyDatabase dbConnName).toOption.map fun registry => ⟨registry, s.heap⟩

def plain : ComponentCall E → Registry.Call Unit
  | .onInitialize cfg o => .onInitialize cfg fun i => (o i).attempts
  | .onDestroy => .onDestroy
  | .createDatabase cfg o => .createDatabase cfg o.attempts
  | .destroyDatabase dbConnName => .destroyDatabase dbConnName

variable {s t : Component Sql RS E}

theorem start_kept : (start : Component Sql RS E).registry.Kept (start : Component Sql RS E).heap :=
  ⟨Heap.holds_empty, by simp [start, Registry.new]⟩

/-- One call: it does what the call without handles does, and keeps the handles. -/
theorem step_spec (kept : s.registry.Kept s.heap) (c : ComponentCall E) :
    (s.step c).map (·.registry.forget) = s.registry.forget.step (plain c) ∧
      ∀ t, s.step c = some t → t.registry.Kept t.heap := by
  cases c with
  | onInitialize cfg o =>
    obtain ⟨ok, r, h, done, model, later⟩ := kept.onInitializeOn cfg o
    simp only [step, plain, Registry.step, done, model, Option.map_some, Option.some.injEq, true_and]
    rintro t rfl
    exact later
  | onDestroy =>
    obtain ⟨h, done, model, later⟩ := kept.onDestroyOn
    simp only [step, plain, Registry.step, done, model, Option.map_some, Option.some.injEq, true_and]
    rintro t rfl
    exact later
  | createDatabase cfg o =>
    obtain ⟨ok, r, h, done, model, later⟩ := kept.createDatabaseOn cfg o
    simp only [step, plain, Registry.step, done, model, Option.map_some, Option.some.injEq, true_and]
    rintro t rfl
    exact later
  | destroyDatabase dbConnName =>
    have same : s.registry.forget.databases = s.registry.databases := rfl
    simp only [step, plain, Registry.step, Registry.destroyDatabase, same]
    split
    · refine ⟨rfl, fun t done => ?_⟩
      obtain rfl := Option.some.inj done
      exact kept
    · exact ⟨rfl, fun t done => by cases done⟩

theorem trace_kept (calls : List (ComponentCall E)) :
    ∀ s ∈ start :: trace step (start : Component Sql RS E) calls, s.registry.Kept s.heap := by
  refine List.forall_mem_cons.mpr ⟨start_kept, ?_⟩
  refine trace_invariant (J := fun s : Component Sql RS E => s.registry.Kept s.heap) ?_ start_kept
    calls
  exact fun s t c kept taken => (step_spec kept c).2 t taken

theorem onDestroy_live_iff (kept : s.registry.Kept s.heap) (taken : s.step .onDestroy = some t) :
    t.heap.live = [] ↔ ∀ db, s.registry.running db → db ∈ s.registry.owned := by
  obtain ⟨h, done, -, later⟩ := kept.onDestroyOn
  rw [step, done, Option.map_some] at taken
  obtain rfl := Option.some.inj taken
  rw [later.live_nil_iff]
  refine forall_congr' fun db => ?_
  have left := Registry.destroyAll_inited s.registry.owned
    (fun e there => (kept.settled e there).going) db
  rw [Registry.running, Registry.onDestroy, show s.registry.databases.map (·.2) = s.registry.owned
    from rfl, left, not_and, not_not]
  rfl

end Component

/-- Over any calls of `OnInitialize`, `CreateDatabase`, `DestroyDatabase` and `OnDestroy`, whatever
their connections come to: the handles that are open are those of the connections of the engines,
all of these are open, and there are some just while an engine runs; `OnDestroy` leaves none open
just when every engine that runs is registered; and the calls do to the registry what they do
without handles. -/
theorem component_handles {Sql RS E : Type} (calls : List (ComponentCall E)) :
    (∀ s ∈ Component.start :: trace Component.step (Component.start : Component Sql RS E) calls,
      s.heap.Holds s.registry.handles ∧
      (∀ db ∈ s.registry.engines, ∀ c ∈ db.conns, c.Open) ∧
      (s.heap.live = [] ↔ ∀ db, ¬ s.registry.running db)) ∧
    ∀ s ∈ Component.start :: trace Component.step (Component.start : Component Sql RS E) calls,
      (∀ t, s.step .onDestroy = some t →
        (t.heap.live = [] ↔ ∀ db, s.registry.running db → db ∈ s.registry.owned)) ∧
      ∀ c, (s.step c).map (·.registry.forget) = s.registry.forget.step (Component.plain c) := by
  constructor
  · intro s passed
    have kept := Component.trace_kept calls s passed
    exact ⟨kept.held, fun db member => (kept.settled db member).up, kept.live_nil_iff⟩
  · intro s passed
    have kept := Component.trace_kept calls s passed
    exact ⟨fun t => Component.onDestroy_live_iff kept, fun c => (Component.step_spec kept c).1⟩

/-- Of two databases that are both to be the default, the second stays connected. -/
example : (trace Component.step (Component.start : Component Unit Unit Unit)
    [.onInitialize (gameAndLog 1) fun _ => limited 2, .onDestroy]).map (·.heap.live) =
      [[4, 3, 2, 1, 0], [4, 3, 2]] := by
  decide

end LlbcDatabase
