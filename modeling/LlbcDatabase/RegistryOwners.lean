import LlbcDatabase.RegistryMap

/-! Who owns the engines of the registry. One lemma says what an iteration of the loop
of `OnInitialize` can do. -/

namespace LlbcDatabase

open CText Transition

/-- The sections for which the loop opens an engine when no default is in its way: up to
the first that is missing, repeats a name or fails to connect. -/
def IniConfig.openable {Conn : Type} (cfg : IniConfig) (attempts : Nat → Attempts Conn) :
    List Bytes → List Nat → List DatabaseSection
  | _, [] => []
  | names, i :: rest =>
    match cfg.getSection (cfgName i) with
    | none => []
    | some dbSession =>
      if dbSession.name ∉ names ∧ (attempts i).connected dbSession.param = true then
        dbSession :: cfg.openable attempts (names ++ [dbSession.name]) rest
      else []

def DatabaseSection.isDefault (dbSession : DatabaseSection) : Bool := decide (0 < dbSession.default)

namespace Registry

variable {Sql Conn RS : Type} {r t : Registry Sql Conn RS}

def names (r : Registry Sql Conn RS) : List Bytes := r.databases.map (·.1)

def owned (r : Registry Sql Conn RS) : List Nat := r.databases.map (·.2)

def defaultNum (r : Registry Sql Conn RS) : Nat := if r.defaultDB.isSome then 1 else 0

def opened (r : Registry Sql Conn RS) (dbSession : DatabaseSection) (engine : MysqlDB Sql Conn RS) :
    Registry Sql Conn RS where
  databases := r.databases ++ [(dbSession.name, r.engines.length)]
  defaultDB := if dbSession.isDefault then some r.engines.length else r.defaultDB
  engines := r.engines ++ [engine]

theorem opened_names (dbSession : DatabaseSection) (engine : MysqlDB Sql Conn RS) :
    (r.opened dbSession engine).names = r.names ++ [dbSession.name] := by
  simp [opened, names]

theorem found_iff (name : Bytes) :
    (r.databases.lookup name).isSome = true ↔ name ∈ r.names := by
  simp [names]

/-- An iteration of the loop ends it, and registers nothing; or it opens an engine and
gives it up, for a second default; or it registers the engine and goes on. -/
inductive OpenCase (cfg : IniConfig) (attempts : Nat → Attempts Conn) (r : Registry Sql Conn RS)
    (i : Nat) (rest : List Nat) : Bool × Registry Sql Conn RS → List DatabaseSection → Prop where
  | refused : OpenCase cfg attempts r i rest (false, r) []
  | repeated {dbSession engine} (default : dbSession.isDefault = true) (there : r.defaultDB.isSome)
      (live : engine.inited = true) (going : engine.stoping = false) :
      OpenCase cfg attempts r i rest (false, { r with engines := r.engines ++ [engine] })
        (dbSession :: cfg.openable attempts (r.names ++ [dbSession.name]) rest)
  | registered {dbSession engine} (absent : dbSession.name ∉ r.names)
      (only : dbSession.isDefault = true → r.defaultDB = none)
      (live : engine.inited = true) (going : engine.stoping = false) :
      OpenCase cfg attempts r i rest (openAll cfg attempts (r.opened dbSession engine) rest)
        (dbSession :: cfg.openable attempts (r.names ++ [dbSession.name]) rest)

theorem open_case (cfg : IniConfig) (attempts : Nat → Attempts Conn) (r : Registry Sql Conn RS)
    (i : Nat) (rest : List Nat) :
    OpenCase cfg attempts r i rest (openAll cfg attempts r (i :: rest))
      (cfg.openable attempts r.names (i :: rest)) := by
  rw [openAll, IniConfig.openable]
  cases cfg.getSection (cfgName i) with
  | none => exact .refused
  | some dbSession =>
    have found := found_iff (r := r) dbSession.name
    by_cases there : dbSession.name ∈ r.names
    · simpa [found.mpr there, there] using OpenCase.refused
    · have absent : (r.databases.lookup dbSession.name).isSome = false :=
        Bool.eq_false_iff.mpr fun isSome => there (found.mp isSome)
      obtain ⟨-, going, live⟩ := MysqlDB.new_init Sql RS dbSession.param (attempts i)
      simp only [absent, Bool.false_eq_true, if_false, createMysqlDB_eq]
      cases connected : (attempts i).connected dbSession.param with
      | false => simpa [there] using OpenCase.refused
      | true =>
        simp only [there, not_false_eq_true, and_self, if_true]
        by_cases default : 0 < dbSession.default
        · have isDefault : dbSession.isDefault = true := decide_eq_true default
          cases other : r.defaultDB with
          | some db =>
            have isSome : r.defaultDB.isSome = true := by simp [other]
            simpa [default, other] using OpenCase.repeated isDefault isSome (live connected) going
          | none =>
            simpa [default, other, opened, register, isDefault] using
              OpenCase.registered there (fun _ => other) (live connected) going
        · have isDefault : dbSession.isDefault = false := decide_eq_false default
          simpa [default, opened, register, isDefault] using
            OpenCase.registered there (by simp [isDefault]) (live connected) going

def Going (r : Registry Sql Conn RS) : Prop :=
  ∀ engine ∈ r.engines, engine.inited = true → engine.stoping = false

structure Owned (r : Registry Sql Conn RS) : Prop where
  running_iff : ∀ db, r.running db ↔ db ∈ r.owned
  default : ∀ db, r.defaultDB = some db → db ∈ r.owned

theorem running_append {engine : MysqlDB Sql Conn RS} (live : engine.inited = true) (db : Nat) :
    ({ r with engines := r.engines ++ [engine] }.running db) ↔
      r.running db ∨ db = r.engines.length := by
  unfold running
  by_cases last : db = r.engines.length
  · simp [last, live]
  · rw [List.getElem?_append]
    split
    · simp [last]
    · have past : r.engines[db]? = none := List.getElem?_eq_none (by omega)
      have more : db - r.engines.length ≠ 0 := by omega
      simp [past, more, last]

theorem Owned.opened (h : Owned r) (dbSession : DatabaseSection) {engine : MysqlDB Sql Conn RS}
    (live : engine.inited = true) : Owned (r.opened dbSession engine) := by
  have owned : (r.opened dbSession engine).owned = r.owned ++ [r.engines.length] := by
    simp [Registry.opened, Registry.owned]
  constructor
  · intro db
    rw [owned, List.mem_append, List.mem_singleton, ← h.running_iff db]
    exact running_append live db
  · intro db at_default
    rw [owned, List.mem_append, List.mem_singleton]
    simp only [Registry.opened] at at_default
    split at at_default
    · exact .inr (Option.some.inj at_default).symm
    · exact .inl (h.default db at_default)

theorem Owned.not_unregistered (h : Owned r) {engine : MysqlDB Sql Conn RS}
    (live : engine.inited = true) : ¬ Owned { r with engines := r.engines ++ [engine] } := by
  intro after
  have runs := (running_append (r := r) live r.engines.length).mpr (.inr rfl)
  have before : r.running r.engines.length :=
    (h.running_iff _).mpr ((after.running_iff _).mp runs)
  obtain ⟨_, found, -⟩ := before
  simp at found

theorem openAll_owned_iff (cfg : IniConfig) (attempts : Nat → Attempts Conn) (indices : List Nat)
    (h : Owned r) : Owned (openAll cfg attempts r indices).2 ↔
      (cfg.openable attempts r.names indices).countP (·.isDefault) + r.defaultNum ≤ 1 := by
  induction indices generalizing r with
  | nil =>
    simp only [openAll, h, IniConfig.openable, List.countP_nil, defaultNum, true_iff]
    split <;> omega
  | cons i rest ih =>
    have iteration := open_case cfg attempts r i rest
    generalize openAll cfg attempts r (i :: rest) = result,
      cfg.openable attempts r.names (i :: rest) = sections at iteration
    cases iteration with
    | refused =>
      simp only [h, List.countP_nil, defaultNum, true_iff]
      split <;> omega
    | repeated default there live =>
      simp only [h.not_unregistered live, List.countP_cons, default, defaultNum, there, if_true,
        false_iff]
      omega
    | @registered dbSession engine absent only live going =>
      rw [ih (h.opened dbSession live), opened_names, List.countP_cons]
      simp only [Registry.opened, defaultNum]
      by_cases default : dbSession.isDefault = true
      · simp [default, only default]
      · simp [default]

theorem openAll_going (cfg : IniConfig) (attempts : Nat → Attempts Conn) (indices : List Nat)
    (h : Going r) : Going (openAll cfg attempts r indices).2 := by
  induction indices generalizing r with
  | nil => exact h
  | cons i rest ih =>
    have appended : ∀ engine : MysqlDB Sql Conn RS, engine.stoping = false →
        ∀ e ∈ r.engines ++ [engine], e.inited = true → e.stoping = false := by
      intro engine going e member live
      rcases List.mem_append.mp member with old | new
      · exact h e old live
      · rwa [List.mem_singleton.mp new]
    have iteration := open_case cfg attempts r i rest
    generalize openAll cfg attempts r (i :: rest) = result,
      cfg.openable attempts r.names (i :: rest) = sections at iteration
    cases iteration with
    | refused => exact h
    | repeated _ _ _ going => exact appended _ going
    | registered _ _ _ going => exact ih (appended _ going)

theorem destroy_inited {engine : MysqlDB Sql Conn RS}
    (going : engine.inited = true → engine.stoping = false) : engine.destroy.inited = false := by
  unfold MysqlDB.destroy
  by_cases live : engine.inited = true
  · simp [live, going live, MysqlDB.clear]
  · simp [live]

theorem modify_going {engines : List (MysqlDB Sql Conn RS)}
    (going : ∀ engine ∈ engines, engine.inited = true → engine.stoping = false) (db : Nat) :
    ∀ engine ∈ engines.modify db MysqlDB.destroy,
      engine.inited = true → engine.stoping = false := by
  intro engine member live
  obtain ⟨i, at_i⟩ := List.mem_iff_getElem?.mp member
  rw [List.getElem?_modify, Option.map_eq_map, Option.map_eq_some_iff] at at_i
  obtain ⟨old, there, same⟩ := at_i
  have before := going old (List.mem_of_getElem? there)
  split at same
  · rw [← same, destroy_inited before] at live
    cases live
  · rw [← same] at live ⊢
    exact before live

theorem destroyAll_going (dbs : List Nat) {engines : List (MysqlDB Sql Conn RS)}
    (going : ∀ engine ∈ engines, engine.inited = true → engine.stoping = false) :
    ∀ engine ∈ destroyAll dbs engines, engine.inited = true → engine.stoping = false := by
  induction dbs generalizing engines with
  | nil => exact going
  | cons first rest ih => exact ih (modify_going going first)

theorem destroyAll_inited (dbs : List Nat) {engines : List (MysqlDB Sql Conn RS)}
    (going : ∀ engine ∈ engines, engine.inited = true → engine.stoping = false) (db : Nat) :
    (∃ engine, (destroyAll dbs engines)[db]? = some engine ∧ engine.inited = true) ↔
      (∃ engine, engines[db]? = some engine ∧ engine.inited = true) ∧ db ∉ dbs := by
  induction dbs generalizing engines with
  | nil => simp [destroyAll]
  | cons first rest ih =>
    rw [destroyAll, ih (modify_going going first), List.mem_cons, not_or]
    by_cases same : first = db
    · subst same
      rw [List.getElem?_modify_eq, Option.map_eq_map]
      simp only [Option.map_eq_some_iff, not_true_eq_false, false_and, and_false, iff_false,
        not_and]
      rintro ⟨engine, ⟨old, there, rfl⟩, live⟩
      rw [destroy_inited (going old (List.mem_of_getElem? there))] at live
      cases live
    · rw [List.getElem?_modify_ne _ _ same]
      simp [Ne.symm same]

theorem onDestroy_owned_iff (going : Going r) (h : Owned r) :
    Owned r.onDestroy ↔ r.defaultDB = none := by
  have none_runs : ∀ db, ¬ r.onDestroy.running db := by
    intro db runs
    obtain ⟨ran, kept⟩ := (destroyAll_inited r.owned going db).mp runs
    exact kept ((h.running_iff db).mp ran)
  constructor
  · intro after
    by_contra set
    obtain ⟨db, at_default⟩ := Option.ne_none_iff_exists'.mp set
    have member := after.default db at_default
    exact none_runs db ((after.running_iff db).mpr member)
  · intro unset
    constructor
    · intro db
      have none := none_runs db
      simpa [onDestroy, owned] using none
    · intro db at_default
      simp [onDestroy, unset] at at_default

theorem createDatabase_owned (h : Owned r) (cfg : DatabaseParam) (attempts : Attempts Conn) :
    Owned (r.createDatabase cfg attempts).2 := by
  unfold createDatabase
  split
  · exact h
  · rw [createMysqlDB_eq]
    cases connected : attempts.connected cfg with
    | false => simpa using h
    | true =>
      have live := (MysqlDB.new_init Sql RS cfg attempts).2.2 connected
      simpa [opened, register, DatabaseSection.isDefault] using h.opened ⟨cfg.name, 0, 0⟩ live

theorem createDatabase_going (going : Going r) (cfg : DatabaseParam) (attempts : Attempts Conn) :
    Going (r.createDatabase cfg attempts).2 := by
  unfold createDatabase
  split
  · exact going
  · rw [createMysqlDB_eq]
    cases connected : attempts.connected cfg with
    | false => simpa using going
    | true =>
      have fresh := (MysqlDB.new_init Sql RS cfg attempts).2.1
      intro engine member live
      simp only [if_true, register, List.mem_append, List.mem_singleton] at member
      rcases member with old | rfl
      · exact going engine old live
      · exact fresh

/-- `OnInitialize` comes to no second default, and `OnDestroy` is not called while there
is a default. -/
def ownsAll (r : Registry Sql Conn RS) : Call Conn → Prop
  | .onInitialize cfg attempts => cfg.num = 0 ∨
    (cfg.openable attempts r.names (cfgIndices cfg.num)).countP (·.isDefault) + r.defaultNum ≤ 1
  | .onDestroy => r.defaultDB = none
  | _ => True

theorem step_going {c : Call Conn} (going : Going r) (h : step r c = some t) : Going t := by
  cases c with
  | onInitialize cfg attempts =>
    obtain rfl := Option.some.inj h
    unfold onInitialize
    split
    · exact going
    · exact openAll_going cfg attempts _ going
  | onDestroy =>
    obtain rfl := Option.some.inj h
    exact destroyAll_going _ going
  | createDatabase cfg attempts =>
    obtain rfl := Option.some.inj h
    exact createDatabase_going going cfg attempts
  | destroyDatabase name =>
    simp only [step, destroyDatabase] at h
    split at h
    · obtain rfl := Option.some.inj h
      exact going
    · cases h
  | getDatabase | getDefaultDatabase =>
    obtain rfl := Option.some.inj h
    exact going

theorem step_owned_iff {c : Call Conn} (going : Going r) (owned : Owned r) (h : step r c = some t) :
    Owned t ↔ ownsAll r c := by
  cases c with
  | onInitialize cfg attempts =>
    obtain rfl := Option.some.inj h
    unfold onInitialize ownsAll
    by_cases none : cfg.num = 0
    · simp [none, owned]
    · simpa [none] using openAll_owned_iff cfg attempts (cfgIndices cfg.num) owned
  | onDestroy =>
    obtain rfl := Option.some.inj h
    exact onDestroy_owned_iff going owned
  | createDatabase cfg attempts =>
    obtain rfl := Option.some.inj h
    simp [ownsAll, createDatabase_owned owned cfg attempts]
  | destroyDatabase name =>
    simp only [step, destroyDatabase] at h
    split at h
    · obtain rfl := Option.some.inj h
      simp [ownsAll, owned]
    · cases h
  | getDatabase | getDefaultDatabase =>
    obtain rfl := Option.some.inj h
    simp [ownsAll, owned]

/-- In every state that a sequence of calls leaves the engines are owned, just when no
`OnInitialize` comes to a second default and no `OnDestroy` finds a default; and then
`GetDefaultDatabase` returns null or an engine that runs. -/
theorem registry_owned_iff (Sql RS : Type) {Conn : Type} (calls : List (Call Conn)) :
    ((∀ t ∈ trace step (new : Registry Sql Conn RS) calls, Owned t) ↔
      ∀ p ∈ taken step (new : Registry Sql Conn RS) calls, ownsAll p.1 p.2) ∧
    ∀ r : Registry Sql Conn RS, Owned r → ∀ db, r.getDefaultDatabase = some db → r.running db := by
  have start : Owned (new : Registry Sql Conn RS) := by
    constructor <;> simp [new, running, owned]
  have empty : Going (new : Registry Sql Conn RS) := by
    intro engine member
    cases member
  refine ⟨trace_iff (fun _ _ _ => step_going) (fun _ _ _ => step_owned_iff) empty start calls, ?_⟩
  intro r h db at_default
  exact (h.running_iff db).mpr (h.default db at_default)

end Registry

/-- Two sections; the first is the default, and the second as `default` says. -/
def gameAndLog (default : UInt32) : IniConfig where
  num := 2
  getSection name :=
    if name = ascii "Database1" then some ⟨ascii "game", 1, 1⟩
    else if name = ascii "Database2" then some ⟨ascii "log", 2, default⟩
    else none

namespace Registry

open MysqlDB

def noDatabase : Registry Nat Nat Nat := new

theorem registry_owned_gameAndLog :
    (∀ t ∈ trace step noDatabase [.onInitialize (gameAndLog 0) fun _ => firstConnect 3], Owned t) ∧
    (noDatabase.onInitialize (gameAndLog 0) fun _ => firstConnect 3).2.running 0 := by
  have owned := registry_owned_iff Nat Nat
    [.onInitialize (gameAndLog 0) fun _ => firstConnect 3]
  have all := owned.1.mpr (by
    intro p member
    obtain rfl := List.mem_singleton.mp member
    exact .inr (by decide))
  exact ⟨all, owned.2 _ (all _ List.mem_cons_self) 0 rfl⟩

/-- `OnDestroy` leaves the default pointing to an engine it has destroyed, and a second
default leaves an engine running that nobody owns. -/
theorem registry_not_owned :
    (let t := (noDatabase.onInitialize (gameAndLog 0) fun _ => firstConnect 3).2.onDestroy
     t.getDefaultDatabase = some 0 ∧ ¬ t.running 0 ∧ ¬ Owned t) ∧
    (let t := (noDatabase.onInitialize (gameAndLog 1) fun _ => firstConnect 3).2
     t.running 1 ∧ 1 ∉ t.owned ∧ ¬ Owned t) := by
  have gone : ¬ (noDatabase.onInitialize (gameAndLog 0) fun _ => firstConnect 3).2.onDestroy.running
      0 := by
    rintro ⟨engine, found, live⟩
    obtain rfl := Option.some.inj found
    cases live
  have runs : (noDatabase.onInitialize (gameAndLog 1) fun _ => firstConnect 3).2.running 1 :=
    ⟨_, rfl, rfl⟩
  have alone : 1 ∉ (noDatabase.onInitialize (gameAndLog 1) fun _ => firstConnect 3).2.owned := by
    decide
  refine ⟨⟨rfl, gone, fun after => gone ?_⟩, runs, alone, fun after => alone ?_⟩
  · exact (after.running_iff 0).mpr (after.default 0 rfl)
  · exact (after.running_iff 1).mp runs

end Registry

end LlbcDatabase
