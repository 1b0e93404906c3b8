import LlbcDatabase.Registry

/-! The registry against a finite map from names to engines: what `CreateDatabase`,
`DestroyDatabase` and `GetDatabase` are for, and the calls for which they do it. -/

namespace LlbcDatabase

open CText

inductive MapCall (Conn : Type) where
  | createDatabase (cfg : DatabaseParam) (attempts : Attempts Conn)
  | destroyDatabase (dbConnName : Bytes)
  | getDatabase (dbConnName : Bytes)

/-- The finite map: the engine of each name, the engines that run, and the next new one. -/
structure Catalog where
  engineOf : Bytes → Option Nat
  running : Nat → Bool
  next : Nat

theorem lookup_one {V : Type} (k name : Bytes) (v : V) :
    [(name, v)].lookup k = if k = name then some v else none := by
  by_cases same : k = name
  · rw [same, List.lookup_cons_self, if_pos rfl]
  · rw [List.lookup_cons, beq_eq_false_iff_ne.mpr same, if_neg same]
    rfl

namespace Catalog

variable {Conn : Type}

def create (a : Catalog) (name : Bytes) : Catalog where
  engineOf := Function.update a.engineOf name (some a.next)
  running := Function.update a.running a.next true
  next := a.next + 1

def destroy (a : Catalog) (name : Bytes) : Catalog :=
  match a.engineOf name with
  | none => a
  | some db =>
    { a with
      engineOf := Function.update a.engineOf name none
      running := Function.update a.running db false }

/-- The answer to a call, and the map after it. -/
def call (a : Catalog) : MapCall Conn → Option Nat × Catalog
  | .createDatabase cfg attempts =>
    if (a.engineOf cfg.name).isNone && attempts.connected cfg then (some a.next, a.create cfg.name)
    else (none, a)
  | .destroyDatabase dbConnName => (none, a.destroy dbConnName)
  | .getDatabase dbConnName => (a.engineOf dbConnName, a)

def callAll (a : Catalog) : List (MapCall Conn) → Catalog
  | [] => a
  | c :: rest => (a.call c).2.callAll rest

def event (a : Catalog) : MapCall Conn → List (Bytes × Option Nat)
  | .createDatabase cfg attempts =>
    if (a.engineOf cfg.name).isNone && attempts.connected cfg then [(cfg.name, some a.next)] else []
  | .destroyDatabase dbConnName => [(dbConnName, none)]
  | .getDatabase _ => []

def events (a : Catalog) : List (MapCall Conn) → List (Bytes × Option Nat)
  | [] => []
  | c :: rest => a.event c ++ (a.call c).2.events rest

theorem call_engineOf (a : Catalog) (c : MapCall Conn) (name : Bytes) :
    (a.call c).2.engineOf name = ((a.event c).lookup name).getD (a.engineOf name) := by
  cases c with
  | createDatabase cfg attempts =>
    simp only [call, event]
    split
    · by_cases same : name = cfg.name <;>
        simp [create, lookup_one, same]
    · rfl
  | destroyDatabase dbConnName =>
    simp only [call, event, destroy]
    cases found : a.engineOf dbConnName <;> by_cases same : name = dbConnName <;>
      simp_all [lookup_one]
  | getDatabase => rfl

theorem event_reverse (a : Catalog) (c : MapCall Conn) : (a.event c).reverse = a.event c := by
  cases c with
  | createDatabase cfg attempts =>
    simp only [event]
    split <;> rfl
  | _ => rfl

theorem callAll_engineOf (a : Catalog) (calls : List (MapCall Conn)) (name : Bytes) :
    (a.callAll calls).engineOf name =
      ((a.events calls).reverse.lookup name).getD (a.engineOf name) := by
  induction calls generalizing a with
  | nil => rfl
  | cons c rest ih =>
    rw [callAll, ih, call_engineOf, events, List.reverse_append, event_reverse, List.lookup_append]
    cases ((a.call c).2.events rest).reverse.lookup name <;> rfl

end Catalog

namespace Registry

variable {Sql Conn RS : Type}

def catalog (r : Registry Sql Conn RS) : Catalog where
  engineOf name := r.databases.lookup name
  running db := (r.engines[db]?).any (·.inited)
  next := r.engines.length

/-- The same calls as the source computes them. -/
def call (r : Registry Sql Conn RS) :
    MapCall Conn → Except Fault (Option Nat × Registry Sql Conn RS)
  | .createDatabase cfg attempts => .ok (r.createDatabase cfg attempts)
  | .destroyDatabase dbConnName => (r.destroyDatabase dbConnName).map fun r => (none, r)
  | .getDatabase dbConnName => .ok (r.getDatabase dbConnName, r)

/-- Call after call the registry answers as the map does and says the same of it. -/
def Refines (r : Registry Sql Conn RS) (a : Catalog) : List (MapCall Conn) → Prop
  | [] => True
  | c :: rest => ∃ t, r.call c = .ok ((a.call c).1, t) ∧ t.catalog = (a.call c).2 ∧
      t.Refines (a.call c).2 rest

theorem register_catalog (r : Registry Sql Conn RS) {name : Bytes}
    (absent : r.databases.lookup name = none) (engine : MysqlDB Sql Conn RS)
    (live : engine.inited = true) :
    ({ r with engines := r.engines ++ [engine] }.register name r.engines.length).catalog =
      r.catalog.create name := by
  have engineOf : ∀ k, (r.databases ++ [(name, r.engines.length)]).lookup k =
      Function.update r.catalog.engineOf name (some r.engines.length) k := by
    intro k
    rw [List.lookup_append, lookup_one]
    by_cases same : k = name
    · simp [same, absent]
    · simp [same, catalog]
  have running : ∀ db, ((r.engines ++ [engine])[db]?).any (·.inited) =
      Function.update r.catalog.running r.engines.length true db := by
    intro db
    by_cases last : db = r.engines.length
    · simp [last, live]
    · rw [Function.update_of_ne last, List.getElem?_append]
      split
      · rfl
      · simp [catalog, show r.engines[db]? = none from List.getElem?_eq_none (by omega),
          show db - r.engines.length ≠ 0 by omega]
  simp only [catalog, register, Catalog.create, Catalog.mk.injEq, List.length_append,
    List.length_singleton, and_true]
  exact ⟨funext engineOf, funext running⟩

theorem createDatabase_refines (r : Registry Sql Conn RS) (cfg : DatabaseParam)
    (attempts : Attempts Conn) :
    (r.createDatabase cfg attempts).1 = (r.catalog.call (.createDatabase cfg attempts)).1 ∧
    (r.createDatabase cfg attempts).2.catalog =
      (r.catalog.call (.createDatabase cfg attempts)).2 := by
  unfold createDatabase
  cases found : r.databases.lookup cfg.name with
  | some db => simp [Catalog.call, catalog, found]
  | none =>
    have made := MysqlDB.new_init Sql RS cfg attempts
    rw [createMysqlDB_eq]
    cases connected : attempts.connected cfg with
    | false => simp [Catalog.call, connected]
    | true =>
      have same := register_catalog r found _ (made.2.2 connected)
      have absent : r.catalog.engineOf cfg.name = none := found
      simp only [Catalog.call, connected, absent, Option.isNone_none, Bool.and_true, if_true,
        Option.isSome_none, Bool.false_eq_true, if_false]
      exact ⟨rfl, same⟩

theorem call_refines_iff (r : Registry Sql Conn RS) (c : MapCall Conn) :
    (∃ t, r.call c = .ok ((r.catalog.call c).1, t) ∧ t.catalog = (r.catalog.call c).2) ↔
      ∀ name, c ≠ .destroyDatabase name := by
  cases c with
  | createDatabase cfg attempts =>
    obtain ⟨answer, after⟩ := createDatabase_refines r cfg attempts
    simp only [ne_eq, reduceCtorEq, not_false_eq_true, implies_true, iff_true]
    exact ⟨(r.createDatabase cfg attempts).2, by rw [call, ← answer], after⟩
  | getDatabase dbConnName => simp [call, getDatabase, Catalog.call, catalog]
  | destroyDatabase dbConnName =>
    simp only [ne_eq, MapCall.destroyDatabase.injEq, forall_eq', iff_false, not_exists, not_and]
    intro t called same
    cases found : r.databases.lookup dbConnName with
    | none => simp [call, destroyDatabase, found, Except.map] at called
    | some db =>
      have unchanged : r = t := by
        simpa [call, destroyDatabase, found, Except.map, Catalog.call] using called
      have there : r.catalog.engineOf dbConnName = some db := found
      have gone : (r.catalog.destroy dbConnName).engineOf dbConnName = none := by
        simp [Catalog.destroy, there]
      rw [← unchanged] at same
      rw [same] at there
      exact absurd (gone.symm.trans there) (by simp)

/-- Calls answer as those of a finite map just when `DestroyDatabase` is not among
them; and in the map the engine of a name is the one of its last event. -/
theorem registry_refines_iff (r : Registry Sql Conn RS) (calls : List (MapCall Conn)) :
    (r.Refines r.catalog calls ↔ ∀ c ∈ calls, ∀ name, c ≠ .destroyDatabase name) ∧
    ∀ name, (r.catalog.callAll calls).engineOf name =
      ((r.catalog.events calls).reverse.lookup name).getD (r.getDatabase name) := by
  refine ⟨?_, Catalog.callAll_engineOf r.catalog calls⟩
  induction calls generalizing r with
  | nil => simp [Refines]
  | cons c rest ih =>
    rw [List.forall_mem_cons, ← call_refines_iff r c, Refines]
    constructor
    · rintro ⟨t, called, same, later⟩
      rw [← same] at later
      exact ⟨⟨t, called, same⟩, (ih t).mp later⟩
    · rintro ⟨⟨t, called, same⟩, later⟩
      refine ⟨t, called, same, ?_⟩
      rw [← same]
      exact (ih t).mpr later

open MysqlDB in
def oneGame : Registry Nat Nat Nat := (new.createDatabase twoConns (firstConnect 3)).2

/-- `DestroyDatabase` keeps the engine whose name it is given, and for a name that is
not there it runs off the end of the map. -/
theorem destroyDatabase_not_refines :
    oneGame.call (.destroyDatabase (ascii "game")) = .ok (none, oneGame) ∧
    oneGame.getDatabase (ascii "game") = some 0 ∧ oneGame.running 0 ∧
    oneGame.call (.destroyDatabase (ascii "user")) = .error .outOfRange ∧
    ¬ oneGame.Refines oneGame.catalog [.destroyDatabase (ascii "game")] := by
  refine ⟨rfl, rfl, ⟨_, rfl, rfl⟩, rfl, ?_⟩
  rintro ⟨t, called, same, -⟩
  exact (call_refines_iff oneGame _).mp ⟨t, called, same⟩ _ rfl

end Registry

end LlbcDatabase
