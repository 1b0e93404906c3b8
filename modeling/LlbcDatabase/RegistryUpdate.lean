import LlbcDatabase.Library.OrderedWalk
import LlbcDatabase.RegistryMap
import LlbcDatabase.RegistryOwners

/-! `DBMgr::OnUpdate`: the loop over `_databases`, in whose body the callbacks of a database may
call the manager. The order of the names is a parameter. -/

namespace LlbcDatabase

open CText Transition OrderedWalk

inductive UpdateCall (Conn : Type) where
  | call (c : MapCall Conn)
  | next

/-- The loop at work. `place` is the name at the iterator, `updated` has the databases whose
`OnUpdate` was called, and `made` the names that were created, each with the place then. -/
structure Updating (Sql Conn RS : Type) where
  registry : Registry Sql Conn RS
  place : Option Bytes
  updated : List (Bytes × Nat)
  made : List (Bytes × Bytes)

def Before [order : LinearOrder Bytes] (a b : Bytes) : Prop := order.lt a b

namespace Registry

variable {Sql Conn RS : Type} {r t : Registry Sql Conn RS}

def entry (r : Registry Sql Conn RS) (place : Option Bytes) : List (Bytes × Nat) :=
  (place.bind fun name => (r.databases.lookup name).map fun db => (name, db)).toList

def onUpdate [LinearOrder Bytes] (r : Registry Sql Conn RS) : Updating Sql Conn RS where
  registry := r
  place := nextKey r.names none
  updated := r.entry (nextKey r.names none)
  made := []

def created (here : Bytes) : MapCall Conn → Option Nat → List (Bytes × Bytes)
  | .createDatabase cfg _, some _ => [(here, cfg.name)]
  | _, _ => []

theorem entry_names {place : Option Bytes} (there : ∀ name ∈ place, name ∈ r.names) :
    (r.entry place).map (·.1) = place.toList := by
  cases place with
  | none => rfl
  | some name =>
    have found := (found_iff name).mpr (there name rfl)
    obtain ⟨db, found⟩ := Option.isSome_iff_exists.mp found
    simp [entry, found]

theorem entry_lookup {place : Option Bytes} {p : Bytes × Nat} (member : p ∈ r.entry place) :
    r.getDatabase p.1 = some p.2 := by
  obtain ⟨name, -, at_name⟩ := Option.bind_eq_some_iff.mp (Option.mem_toList.mp member)
  obtain ⟨db, found, rfl⟩ := Option.map_eq_some_iff.mp at_name
  exact found

theorem call_cases {c : MapCall Conn} {answer : Option Nat} (here : Bytes)
    (called : r.call c = .ok (answer, t)) :
    t.databases = r.databases ∧ created here c answer = [] ∨
      ∃ name db, name ∉ r.names ∧ t.databases = r.databases ++ [(name, db)] ∧
        created here c answer = [(here, name)] := by
  cases c with
  | createDatabase cfg attempts =>
    have done : r.createDatabase cfg attempts = (answer, t) := Except.ok.inj called
    rw [createDatabase, createMysqlDB_eq] at done
    by_cases there : (r.databases.lookup cfg.name).isSome = true
    · rw [if_pos there] at done
      cases done
      exact .inl ⟨rfl, rfl⟩
    · rw [if_neg there] at done
      cases connected : attempts.connected cfg with
      | false =>
        rw [connected] at done
        cases done
        exact .inl ⟨rfl, rfl⟩
      | true =>
        rw [connected] at done
        cases done
        exact .inr ⟨cfg.name, r.engines.length, mt (found_iff cfg.name).mpr there, rfl, rfl⟩
  | destroyDatabase dbConnName =>
    rw [call, destroyDatabase] at called
    by_cases there : (r.databases.lookup dbConnName).isSome = true
    · rw [if_pos there] at called
      cases called
      exact .inl ⟨rfl, rfl⟩
    · rw [if_neg there] at called
      cases called
  | getDatabase dbConnName =>
    cases called
    exact .inl ⟨rfl, rfl⟩

theorem call_none_iff (r : Registry Sql Conn RS) (c : MapCall Conn) :
    (r.call c).toOption = none ↔
      ∃ name, c = .destroyDatabase name ∧ r.getDatabase name = none := by
  cases c with
  | createDatabase | getDatabase => simp [call, Except.toOption]
  | destroyDatabase dbConnName =>
    rw [call, destroyDatabase]
    cases found : r.getDatabase dbConnName with
    | none =>
      have absent : r.databases.lookup dbConnName = none := found
      simp [absent, Except.map, Except.toOption, found]
    | some db =>
      have there : r.databases.lookup dbConnName = some db := found
      simp [there, Except.map, Except.toOption, found]

end Registry

namespace Updating

open Registry

variable {Sql Conn RS : Type} [LinearOrder Bytes]

/-- A step of the loop; there is none once it has ended, or where a callback goes wrong. -/
def step (s : Updating Sql Conn RS) : UpdateCall Conn → Option (Updating Sql Conn RS)
  | .call c =>
    s.place.bind fun here => (s.registry.call c).toOption.map fun (answer, registry) =>
      { s with registry, made := s.made ++ created here c answer }
  | .next =>
    s.place.map fun here =>
      let place := nextKey s.registry.names (some here)
      { s with place, updated := s.updated ++ s.registry.entry place }

def asWalk (s : Updating Sql Conn RS) : Walk Bytes where
  keys := s.registry.names
  place := s.place
  visited := s.updated.map (·.1)
  made := s.made

structure Sound (r : Registry Sql Conn RS) (s : Updating Sql Conn RS) : Prop where
  walk : s.asWalk.Sound
  updated : ∀ p ∈ s.updated, s.registry.getDatabase p.1 = some p.2
  kept : ∀ name db, r.getDatabase name = some db → s.registry.getDatabase name = some db
  made : ∀ p ∈ s.made, r.getDatabase p.2 = none

theorem onUpdate_walk (r : Registry Sql Conn RS) : r.onUpdate.asWalk = Walk.start r.names := by
  have there : ∀ name ∈ nextKey r.names none, name ∈ r.names := fun name found =>
    (nextKey_some found).1
  simp only [asWalk, onUpdate, Walk.start, entry_names there]

theorem onUpdate_sound (r : Registry Sql Conn RS) : Sound r r.onUpdate where
  walk := onUpdate_walk r ▸ Walk.start_sound r.names
  updated p member := entry_lookup member
  kept name db found := found
  made := by simp [onUpdate]

omit [LinearOrder Bytes] in
theorem lookup_append_kept {databases : List (Bytes × Nat)} {name k : Bytes} {db d : Nat}
    (found : databases.lookup k = some d) : (databases ++ [(name, db)]).lookup k = some d := by
  rw [List.lookup_append, found]
  rfl

variable {r : Registry Sql Conn RS} {s t : Updating Sql Conn RS} {a : UpdateCall Conn}

theorem Sound.next (h : Sound r s) (taken : s.step a = some t) : Sound r t := by
  cases a with
  | call c =>
    obtain ⟨here, at_here, called⟩ := Option.bind_eq_some_iff.mp taken
    obtain ⟨⟨answer, registry⟩, done, rfl⟩ := Option.map_eq_some_iff.mp called
    have ok : s.registry.call c = .ok (answer, registry) := by
      cases result : s.registry.call c with
      | error fault => simp [result, Except.toOption] at done
      | ok value =>
        rw [result] at done
        rw [Option.some.inj done]
    rcases call_cases here ok with ⟨same, none⟩ | ⟨name, db, absent, added, new⟩
    · have lookups : registry.getDatabase = s.registry.getDatabase := by
        funext k
        rw [getDatabase, same, getDatabase]
      have walked : asWalk { s with registry, made := s.made ++ created here c answer } = s.asWalk := by
        simp only [asWalk, names, same, none, List.append_nil]
      exact ⟨walked ▸ h.walk, lookups ▸ h.updated, lookups ▸ h.kept, by simpa [none] using h.made⟩
    · have grows : ∀ k d, s.registry.getDatabase k = some d → registry.getDatabase k = some d := by
        intro k d found
        rw [getDatabase, added]
        exact lookup_append_kept found
      have walked : asWalk { s with registry, made := s.made ++ created here c answer } =
          s.asWalk.insert here name := by
        simp only [asWalk, names, added, new, Walk.insert, List.map_append, List.map_singleton]
      refine ⟨walked ▸ h.walk.insert at_here absent, fun p member => grows _ _ (h.updated p member),
        fun k d found => grows k d (h.kept k d found), fun p member => ?_⟩
      rcases List.mem_append.mp member with old | last
      · exact h.made p old
      · rw [new] at last
        obtain rfl := List.mem_singleton.mp last
        cases found : r.getDatabase name with
        | none => rfl
        | some d =>
          have there := h.kept name d found
          exact absurd ((found_iff name).mp (Option.isSome_of_eq_some there)) absent
  | next =>
    obtain ⟨here, at_here, rfl⟩ := Option.map_eq_some_iff.mp taken
    have there : ∀ name ∈ nextKey s.registry.names (some here), name ∈ s.registry.names :=
      fun name found => (nextKey_some found).1
    have walked : asWalk { s with
        place := nextKey s.registry.names (some here)
        updated := s.updated ++ s.registry.entry (nextKey s.registry.names (some here)) } =
          s.asWalk.next here := by
      simp only [asWalk, Walk.next, List.map_append, entry_names there]
    refine ⟨walked ▸ h.walk.next at_here, fun p member => ?_, h.kept, h.made⟩
    rcases List.mem_append.mp member with old | new
    · exact h.updated p old
    · exact entry_lookup new

theorem Sound.updated_iff (h : Sound r s) (ended : s.place = none) (name : Bytes) (db : Nat) :
    (name, db) ∈ s.updated ↔
      s.registry.getDatabase name = some db ∧ ∀ here, (here, name) ∈ s.made → Before here name := by
  have visited : ∀ name ∈ s.registry.names, name ∈ s.updated.map (·.1) ↔
      ∀ here, (here, name) ∈ s.made → Before here name :=
    fun name listed => h.walk.ended ended listed
  constructor
  · intro member
    have found := h.updated _ member
    have listed := (found_iff name).mp (Option.isSome_of_eq_some found)
    exact ⟨found, (visited name listed).mp (List.mem_map_of_mem member)⟩
  · rintro ⟨found, further⟩
    have listed := (found_iff name).mp (Option.isSome_of_eq_some found)
    obtain ⟨p, member, rfl⟩ := List.mem_map.mp ((visited name listed).mpr further)
    obtain rfl : p.2 = db := Option.some.inj ((h.updated p member).symm.trans found)
    exact member

theorem step_none_iff (running : s.place ≠ none) (a : UpdateCall Conn) : s.step a = none ↔
    ∃ name, a = .call (.destroyDatabase name) ∧ s.registry.getDatabase name = none := by
  obtain ⟨here, at_here⟩ := Option.ne_none_iff_exists'.mp running
  cases a with
  | next => simp [step, at_here]
  | call c =>
    rw [step, at_here, Option.bind_some, Option.map_eq_none_iff, call_none_iff]
    simp

end Updating

/-- Whatever the callbacks call meanwhile, `OnUpdate` updates no database twice, in the order of
their names. When it ends it has updated every one that was registered when it began, and of those
that callbacks created just the ones whose name comes after that of the database it was at. It goes
wrong just where a callback calls `DestroyDatabase` with a name that is not registered. -/
theorem onUpdate_visits {Sql Conn RS : Type} [LinearOrder Bytes] (r : Registry Sql Conn RS)
    (calls : List (UpdateCall Conn)) :
    (∀ s ∈ r.onUpdate :: trace Updating.step r.onUpdate calls,
      (s.updated.map (·.1)).Pairwise Before ∧
      (∀ p ∈ s.made, r.getDatabase p.2 = none) ∧
      (s.place = none →
        (∀ name db, r.getDatabase name = some db → (name, db) ∈ s.updated) ∧
        ∀ name db, (name, db) ∈ s.updated ↔
          s.registry.getDatabase name = some db ∧
            ∀ here, (here, name) ∈ s.made → Before here name)) ∧
    ∀ s ∈ r.onUpdate :: trace Updating.step r.onUpdate calls, s.place ≠ none → ∀ a,
      (s.step a = none ↔
        ∃ name, a = .call (.destroyDatabase name) ∧ s.registry.getDatabase name = none) := by
  have sound : ∀ s ∈ r.onUpdate :: trace Updating.step r.onUpdate calls, Updating.Sound r s :=
    List.forall_mem_cons.mpr ⟨Updating.onUpdate_sound r,
      trace_invariant (fun _ _ _ held taken => Updating.Sound.next held taken)
        (Updating.onUpdate_sound r) calls⟩
  constructor
  · intro s passed
    have held := sound s passed
    refine ⟨held.walk.sorted, held.made, fun ended => ⟨fun name db found => ?_, ?_⟩⟩
    · refine (held.updated_iff ended name db).mpr ⟨held.kept name db found, fun here made => ?_⟩
      have absent := held.made _ made
      rw [found] at absent
      cases absent
    · exact held.updated_iff ended
  · exact fun s _ running => Updating.step_none_iff running

namespace Registry

/-- Names are compared byte by byte. -/
@[reducible]
def byBytes : LinearOrder Bytes :=
  .lift' (fun name => name.map UInt8.toNat)
    (List.map_injective_iff.mpr fun _ _ same => UInt8.toNat_inj.mp same)

open MysqlDB in
def callbackCalls : List (UpdateCall Nat) :=
  [.call (.createDatabase { twoConns with name := ascii "auth" } (firstConnect 3)),
   .call (.createDatabase { twoConns with name := ascii "log" } (firstConnect 3)), .next, .next]

/-- Of two databases that are created while the loop is at `game`, it comes to one. -/
example : letI := byBytes
    ((trace Updating.step oneGame.onUpdate callbackCalls).map fun s => s.updated.map (·.2)) =
      [[0], [0], [0, 2], [0, 2]] := by
  decide

end Registry

end LlbcDatabase
