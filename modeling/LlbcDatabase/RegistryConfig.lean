import LlbcDatabase.RegistryOwners

/-! What `OnInitialize` makes of a configuration: when it returns true, and what it has
then registered. -/

namespace LlbcDatabase

open CText

namespace Registry

variable {Sql Conn RS : Type} {r t : Registry Sql Conn RS}

theorem openAll_ok_iff (cfg : IniConfig) (attempts : Nat → Attempts Conn) (indices : List Nat) :
    (openAll cfg attempts r indices).1 = true ↔
      (cfg.openable attempts r.names indices).length = indices.length ∧
      (cfg.openable attempts r.names indices).countP (·.isDefault) + r.defaultNum = 1 := by
  induction indices generalizing r with
  | nil => cases set : r.defaultDB <;> simp [openAll, IniConfig.openable, defaultNum, set]
  | cons i rest ih =>
    have iteration := open_case cfg attempts r i rest
    generalize openAll cfg attempts r (i :: rest) = result,
      cfg.openable attempts r.names (i :: rest) = sections at iteration
    cases iteration with
    | refused => simp
    | repeated default there =>
      simp only [Bool.false_eq_true, List.countP_cons, default, if_true, defaultNum, there,
        false_iff, not_and]
      omega
    | @registered dbSession engine absent only =>
      rw [ih, opened_names, List.length_cons, List.length_cons, Nat.add_right_cancel_iff,
        List.countP_cons]
      simp only [opened, defaultNum]
      by_cases default : dbSession.isDefault = true
      · simp [default, only default]
      · simp [default]

structure Configured (r t : Registry Sql Conn RS) (sections : List DatabaseSection) : Prop where
  names : t.names = r.names ++ sections.map (·.name)
  kept : ∀ p ∈ r.databases, p ∈ t.databases
  chosen : ∀ db, r.defaultDB = some db → t.defaultDB = some db
  choice : r.defaultDB = none → ∃ dbSession ∈ sections, dbSession.isDefault = true ∧
    ∃ db, (dbSession.name, db) ∈ t.databases ∧ t.defaultDB = some db

theorem openAll_configured (cfg : IniConfig) (attempts : Nat → Attempts Conn) (indices : List Nat)
    (ok : (openAll cfg attempts r indices).1 = true) :
    Configured r (openAll cfg attempts r indices).2 (cfg.openable attempts r.names indices) := by
  induction indices generalizing r with
  | nil =>
    have set : r.defaultDB ≠ none := Option.isSome_iff_ne_none.mp ok
    exact ⟨by simp [openAll, IniConfig.openable], fun _ => id, fun _ => id, fun unset =>
      absurd unset set⟩
  | cons i rest ih =>
    have iteration := open_case cfg attempts r i rest
    generalize openAll cfg attempts r (i :: rest) = result,
      cfg.openable attempts r.names (i :: rest) = sections at iteration ok
    cases iteration with
    | refused | repeated => cases ok
    | @registered dbSession engine absent only =>
      have later := ih ok
      rw [opened_names] at later
      refine ⟨?_, ?_, ?_, ?_⟩
      · rw [later.names, opened_names, List.map_cons, List.append_assoc, List.singleton_append]
      · intro p member
        exact later.kept p (List.mem_append_left _ member)
      · intro db set
        have plain : dbSession.isDefault ≠ true := fun default => by simp [only default] at set
        exact later.chosen db (by simp [opened, plain, set])
      · intro unset
        by_cases default : dbSession.isDefault = true
        · refine ⟨dbSession, List.mem_cons_self, default, r.engines.length, ?_, ?_⟩
          · exact later.kept _ (by simp [opened])
          · exact later.chosen _ (by simp [opened, default])
        · obtain ⟨other, member, chosen⟩ := later.choice (by simp [opened, default, unset])
          exact ⟨other, List.mem_cons_of_mem _ member, chosen⟩

end Registry

namespace IniConfig

variable {Conn : Type}

def sections (cfg : IniConfig) (indices : List Nat) : Option (List DatabaseSection) :=
  indices.mapM fun i => cfg.getSection (cfgName i)

def allConnect (cfg : IniConfig) (attempts : Nat → Attempts Conn) (indices : List Nat) : Prop :=
  ∀ i ∈ indices, ∀ dbSession, cfg.getSection (cfgName i) = some dbSession →
    (attempts i).connected dbSession.param = true

theorem sections_cons (cfg : IniConfig) (i : Nat) (rest : List Nat)
    (found : List DatabaseSection) :
    cfg.sections (i :: rest) = some found ↔ ∃ first later, found = first :: later ∧
      cfg.getSection (cfgName i) = some first ∧ cfg.sections rest = some later := by
  simp only [sections, List.mapM_cons, Option.pure_def, Option.bind_eq_bind,
    Option.bind_eq_some_iff, Option.some.injEq]
  constructor
  · rintro ⟨first, here, later, there, rfl⟩
    exact ⟨first, later, rfl, here, there⟩
  · rintro ⟨first, later, rfl, here, there⟩
    exact ⟨first, here, later, there, rfl⟩

theorem allConnect_cons (cfg : IniConfig) (attempts : Nat → Attempts Conn) (i : Nat)
    (rest : List Nat) {first : DatabaseSection} (here : cfg.getSection (cfgName i) = some first) :
    cfg.allConnect attempts (i :: rest) ↔
      (attempts i).connected first.param = true ∧ cfg.allConnect attempts rest := by
  simp [allConnect, here]

theorem openable_full_iff (cfg : IniConfig) (attempts : Nat → Attempts Conn) {names : List Bytes}
    (own : names.Nodup) (indices : List Nat) (found : List DatabaseSection) :
    (cfg.openable attempts names indices = found ∧ found.length = indices.length) ↔
      cfg.sections indices = some found ∧ cfg.allConnect attempts indices ∧
      (names ++ found.map (·.name)).Nodup := by
  induction indices generalizing names found with
  | nil =>
    cases found <;> simp [openable, sections, allConnect, own]
  | cons i rest ih =>
    rw [sections_cons, openable]
    cases here : cfg.getSection (cfgName i) with
    | none =>
      simp only [reduceCtorEq, false_and, and_false, exists_false, iff_false, not_and]
      rintro rfl
      simp
    | some first =>
      rw [allConnect_cons cfg attempts i rest here]
      by_cases opens : first.name ∉ names ∧ (attempts i).connected first.param = true
      · have apart : (names ++ [first.name]).Nodup := by
          rw [List.nodup_append]
          refine ⟨own, List.nodup_singleton _, ?_⟩
          rintro a there b new rfl
          exact opens.1 (List.mem_singleton.mp new ▸ there)
        simp only [opens, not_false_eq_true, and_self, if_true]
        constructor
        · rintro ⟨rfl, length⟩
          have full := (ih apart _).mp ⟨rfl, Nat.succ.inj length⟩
          refine ⟨⟨first, _, rfl, rfl, full.1⟩, ⟨trivial, full.2.1⟩, ?_⟩
          simpa using full.2.2
        · rintro ⟨⟨_, later, rfl, same, there⟩, ⟨-, connect⟩, nodup⟩
          obtain rfl := Option.some.inj same
          have full := (ih apart later).mpr ⟨there, connect, by simpa using nodup⟩
          exact ⟨by rw [full.1], by rw [List.length_cons, full.2, List.length_cons]⟩
      · simp only [opens, if_false]
        constructor
        · rintro ⟨rfl, length⟩
          simp at length
        · rintro ⟨⟨_, later, rfl, same, -⟩, ⟨connect, -⟩, nodup⟩
          obtain rfl := Option.some.inj same
          refine absurd ⟨fun there => ?_, connect⟩ opens
          exact (List.nodup_append.mp nodup).2.2 _ there _ (by simp) rfl

end IniConfig

theorem lookup_of_mem {V : Type} {entries : List (Bytes × V)} (own : (entries.map (·.1)).Nodup)
    {name : Bytes} {v : V} (member : (name, v) ∈ entries) : entries.lookup name = some v := by
  induction entries with
  | nil => cases member
  | cons first rest ih =>
    rw [List.map_cons, List.nodup_cons] at own
    rcases List.mem_cons.mp member with rfl | later
    · exact List.lookup_cons_self
    · have apart : name ≠ first.1 := by
        rintro rfl
        exact own.1 (List.mem_map.mpr ⟨_, later, rfl⟩)
      rw [List.lookup_cons, beq_eq_false_iff_ne.mpr apart]
      exact ih own.2 later

/-- On an empty registry `OnInitialize` returns true just when `num` is 0, or all sections
exist, with different names and engines that initialise, and one of them is the default;
and then it has registered these names, and made the engine of that section the default. -/
theorem onInitialize_iff {Sql Conn RS : Type} (r : Registry Sql Conn RS) (empty : r.databases = [])
    (unset : r.defaultDB = none) (cfg : IniConfig) (small : cfg.num.toNat < 2 ^ 31)
    (attempts : Nat → Attempts Conn) :
    ((r.onInitialize cfg attempts).1 = true ↔ cfg.num = 0 ∨
      ∃ found, cfg.sections (List.range' 1 cfg.num.toNat) = some found ∧
        (found.map (·.name)).Nodup ∧
        (∀ i ∈ List.range' 1 cfg.num.toNat, ∀ dbSession,
          cfg.getSection (cfgName i) = some dbSession →
            ((MysqlDB.new : MysqlDB Sql Conn RS).init dbSession.param (attempts i)).1 = true) ∧
        found.countP (·.isDefault) = 1) ∧
    ∀ found, cfg.sections (List.range' 1 cfg.num.toNat) = some found → cfg.num ≠ 0 →
      (r.onInitialize cfg attempts).1 = true →
        (r.onInitialize cfg attempts).2.names = found.map (·.name) ∧
        ∃ dbSession ∈ found, dbSession.isDefault = true ∧
          ∃ db, (r.onInitialize cfg attempts).2.getDatabase dbSession.name = some db ∧
            (r.onInitialize cfg attempts).2.getDefaultDatabase = some db := by
  have indices : cfgIndices cfg.num = List.range' 1 cfg.num.toNat := by
    have wraps : cfg.num.toNat + 1 ≠ 2 ^ 32 := by omega
    rw [cfgIndices, if_neg wraps, List.append_nil]
  have names : r.names = [] := by simp [Registry.names, empty]
  have ok := r.openAll_ok_iff cfg attempts (List.range' 1 cfg.num.toNat)
  rw [names] at ok
  simp only [Registry.defaultNum, unset, Option.isSome_none, Bool.false_eq_true, if_false,
    Nat.add_zero] at ok
  have full := cfg.openable_full_iff attempts List.nodup_nil (List.range' 1 cfg.num.toNat)
  simp only [List.nil_append] at full
  by_cases none : cfg.num = 0
  · simp [Registry.onInitialize, none]
  have call : r.onInitialize cfg attempts =
      r.openAll cfg attempts (List.range' 1 cfg.num.toNat) := by
    rw [Registry.onInitialize, if_neg none, indices]
  rw [call]
  constructor
  · rw [ok]
    simp only [none, false_or, (MysqlDB.new_init _ _ _ _).1]
    constructor
    · rintro ⟨length, one⟩
      obtain ⟨there, connect, nodup⟩ := (full _).mp ⟨rfl, length⟩
      exact ⟨_, there, nodup, connect, one⟩
    · rintro ⟨found, there, nodup, connect, one⟩
      obtain ⟨rfl, length⟩ := (full found).mpr ⟨there, connect, nodup⟩
      exact ⟨length, one⟩
  · intro found there _ succeeded
    obtain ⟨length, -⟩ := ok.mp succeeded
    obtain ⟨there', -, nodup⟩ := (full _).mp ⟨rfl, length⟩
    have configured := r.openAll_configured cfg attempts _ succeeded
    rw [names, Option.some.inj (there'.symm.trans there)] at configured
    rw [Option.some.inj (there'.symm.trans there)] at nodup
    obtain ⟨dbSession, member, default, db, registered, chosen⟩ := configured.choice unset
    refine ⟨configured.names.trans (by rw [names, List.nil_append]), dbSession, member, default,
      db, ?_, chosen⟩
    refine lookup_of_mem ?_ registered
    have own := configured.names
    rw [names, List.nil_append] at own
    change (Registry.names _).Nodup
    rw [own]
    exact nodup

open MysqlDB in
theorem onInitialize_iff_gameAndLog :
    (Registry.noDatabase.onInitialize (gameAndLog 0) fun _ => firstConnect 3).1 = true ∧
    (Registry.noDatabase.onInitialize (gameAndLog 0) fun _ => firstConnect 3).2.names =
      [ascii "game", ascii "log"] := by
  have h := onInitialize_iff Registry.noDatabase rfl rfl (gameAndLog 0) (by decide)
    fun _ => firstConnect 3
  have ok := h.1.mpr (.inr ⟨[⟨ascii "game", 1, 1⟩, ⟨ascii "log", 2, 0⟩], rfl, by decide, ?_, rfl⟩)
  · exact ⟨ok, (h.2 _ rfl (by decide) ok).1⟩
  · intro i member dbSession there
    change i ∈ [1, 2] at member
    simp only [List.mem_cons, List.not_mem_nil, or_false] at member
    rcases member with rfl | rfl
    · obtain rfl := Option.some.inj there
      rfl
    · obtain rfl := Option.some.inj there
      rfl

end LlbcDatabase
