import LlbcDatabase.Library.Transition
import LlbcDatabase.MysqlConnect
import LlbcDatabase.KeyClause

/-! `MysqlDB::Insert`, `Update` and `Delete`, and the life of a record between them.
`Query` of the synchronous connection is the parameter `query`: what it answers to a
statement, and what it makes of the state behind it. -/

namespace LlbcDatabase

open CText SqlText SqlUtil Transition

namespace RecordWrites

variable {F S : Type} [CDouble F]

section Calls

variable (query : Bytes → S → Bool × S) (handle : Mysql)

def insert (record : Record F) (s : S) : Except Fault (Bool × S) := do
  let (built, sql) ← buildInsertSql handle record []
  if !built then return (false, s)
  return query sql s

def update (record : Record F) (s : S) : Except Fault (Bool × Record F × S) := do
  if record.mode ≠ .edit then return (false, record, s)
  let (built, sql) ← buildUpdateSql handle record []
  if !built then return (false, record, s)
  if sql.isEmpty then return (true, record, s)
  let (ret, s) := query sql s
  if ret then return (true, ← record.clsEditFlag, s)
  return (false, record, s)

def delete (record : Record F) (s : S) : Except Fault (Bool × S) := do
  if record.mode ≠ .edit then return (false, s)
  let (built, sql) ← buildDelSql record []
  if !built then return (false, s)
  return query sql s

end Calls

inductive Call (F : Type) where
  | set (c : SetterCall F)
  | insert
  | update
  | delete

/-- A call that ends in a fault is not a step. -/
def step (query : Bytes → S → Bool × S) (handle : Mysql) (r : Record F × S) :
    Call F → Option (Record F × S)
  | .set c => (r.1.call c).toOption.map fun record => (record, r.2)
  | .insert => (insert query handle r.1 r.2).toOption.map fun out => (r.1, out.2)
  | .update => (update query handle r.1 r.2).toOption.map fun out => out.2
  | .delete => (delete query r.1 r.2).toOption.map fun out => (r.1, out.2)

def recorded (query : Bytes → S → Bool × S) (sql : Bytes) (s : List Bytes × S) :
    Bool × List Bytes × S :=
  let (ret, after) := query sql s.2
  (ret, s.1 ++ [sql], after)

section Specs

variable {query : Bytes → S → Bool × S} {handle : Mysql} {record after : Record F} {s t : S}
  {sql : Bytes} {ret : Bool}

theorem update_mode (mode : record.mode ≠ .edit) :
    update query handle record s = .ok (false, record, s) := by
  simp [update, mode, pure, Except.pure]

theorem delete_mode (mode : record.mode ≠ .edit) : delete query record s = .ok (false, s) := by
  simp [delete, mode, pure, Except.pure]

theorem update_eq (mode : record.mode = .edit)
    (built : buildUpdateSql handle record [] = .ok (true, sql)) :
    update query handle record s =
      if sql = [] then .ok (true, record, s)
      else if (query sql s).1 then record.clsEditFlag.map fun after => (true, after, (query sql s).2)
      else .ok (false, record, (query sql s).2) := by
  simp only [update, mode, built, bind, Except.bind, pure, Except.pure, ne_eq, not_true_eq_false,
    if_false, Bool.not_true, Bool.false_eq_true, List.isEmpty_iff]
  split_ifs
  · rfl
  · cases record.clsEditFlag <;> rfl
  · rfl

theorem update_ok (done : update query handle record s = .ok (ret, after, t)) :
    after = record ∨ ret = true ∧ record.clsEditFlag = .ok after := by
  by_cases mode : record.mode = .edit
  · obtain ⟨⟨built, sql⟩, operation, later⟩ := bind_ok.mp (by simpa [update, mode] using done)
    cases built with
    | false =>
      cases later
      exact .inl rfl
    | true =>
      rw [update_eq mode operation] at done
      split_ifs at done
      · cases done
        exact .inl rfl
      · obtain ⟨cleared, cls, same⟩ := map_ok.mp done
        cases same
        exact .inr ⟨rfl, cls⟩
      · cases done
        exact .inl rfl
  · rw [update_mode mode] at done
    cases done
    exact .inl rfl

end Specs

section Life

def leaves (k : Nat) (r : Record F × S) : Call F → Prop
  | .set c => r.1.target c.field ≠ .ok k
  | .insert | .update | .delete => True

omit [CDouble F] in
theorem clsFlags_ok {fields cleared : List (Option (BaseField F))}
    (done : Record.clsFlags fields = .ok cleared) :
    cleared.length = fields.length ∧ ∀ (k : Nat) (field : BaseField F),
      fields[k]? = some (some field) → cleared[k]? = some (some (field.tagChanged false)) := by
  induction fields generalizing cleared with
  | nil =>
    cases done
    exact ⟨rfl, fun k field found => by simp at found⟩
  | cons first rest ih =>
    cases first with
    | none => cases done
    | some first =>
      obtain ⟨later, found, same⟩ := bind_ok.mp done
      cases same
      have ⟨length, each⟩ := ih found
      refine ⟨by rw [List.length_cons, List.length_cons, length], fun k field at_k => ?_⟩
      cases k with
      | zero =>
        cases at_k
        rfl
      | succ k => exact each k field at_k

omit [CDouble F] in
theorem clsEditFlag_ok {record cleared : Record F} (done : record.clsEditFlag = .ok cleared) :
    Record.SameFrame record cleared ∧ ∀ (k : Nat) (field : BaseField F),
      record.fields[k]? = some (some field) →
        cleared.fields[k]? = some (some (field.tagChanged false)) := by
  obtain ⟨fields, flags, same⟩ := bind_ok.mp done
  cases same
  have ⟨length, each⟩ := clsFlags_ok flags
  exact ⟨⟨rfl, rfl, rfl, rfl, rfl, length⟩, each⟩

section Steps

variable {query : Bytes → S → Bool × S} {handle : Mysql} {r t : Record F × S} {c : Call F}

/-- A setter sets a field, an update may clear the flags, and nothing else is done to the
record. -/
theorem step_cases (taken : step query handle r c = some t) :
    t.1 = r.1 ∨ (∃ s, c = .set s ∧ r.1.call s = .ok t.1) ∨ r.1.clsEditFlag = .ok t.1 := by
  cases c with
  | set s =>
    obtain ⟨record, done, rfl⟩ := Option.map_eq_some_iff.mp taken
    exact .inr (.inl ⟨s, rfl, toOption_ok.mp done⟩)
  | insert =>
    obtain ⟨out, -, rfl⟩ := Option.map_eq_some_iff.mp taken
    exact .inl rfl
  | delete =>
    obtain ⟨out, -, rfl⟩ := Option.map_eq_some_iff.mp taken
    exact .inl rfl
  | update =>
    obtain ⟨⟨ret, record, s⟩, done, rfl⟩ := Option.map_eq_some_iff.mp taken
    rcases update_ok (toOption_ok.mp done) with rfl | ⟨-, cls⟩
    · exact .inl rfl
    · exact .inr (.inr cls)

theorem step_frame (taken : step query handle r c = some t) : Record.SameFrame r.1 t.1 := by
  rcases step_cases taken with same | ⟨s, -, done⟩ | cls
  · exact same ▸ Record.SameFrame.refl _
  · exact Record.call_frame done
  · exact (clsEditFlag_ok cls).1

theorem step_field (taken : step query handle r c = some t) {k : Nat} {field : BaseField F}
    (at_k : r.1.fields[k]? = some (some field)) :
    ∃ new, t.1.fields[k]? = some (some new) ∧
      ((∃ changed, new = field.tagChanged changed) ∨
        ∃ s, c = .set s ∧ r.1.target s.field = .ok k ∧ field.set s.value = .ok new) := by
  rcases step_cases taken with same | ⟨s, isSet, done⟩ | cls
  · exact ⟨field, same ▸ at_k, .inl ⟨field.changed, rfl⟩⟩
  · obtain ⟨idx, old, new, addressed, at_idx, setOk, after⟩ := Record.call_ok done
    by_cases here : idx = k
    · subst here
      obtain rfl : old = field := by simpa [at_idx] using at_k
      refine ⟨new, ?_, .inr ⟨s, isSet, addressed, setOk⟩⟩
      rw [after]
      exact List.getElem?_set_self (List.getElem?_eq_some_iff.mp at_idx).1
    · refine ⟨field, ?_, .inl ⟨field.changed, rfl⟩⟩
      rw [after, List.getElem?_set_ne here, at_k]
  · exact ⟨_, (clsEditFlag_ok cls).2 k field at_k, .inl ⟨false, rfl⟩⟩

end Steps

structure Kept (k : Nat) (field : BaseField F) (start record : Record F) : Prop where
  frame : Record.SameFrame start record
  key : ∃ changed, record.fields[k]? = some (some (field.tagChanged changed))

theorem Kept.step {query : Bytes → S → Bool × S} {handle : Mysql} {k : Nat} {field : BaseField F}
    {start : Record F} {r t : Record F × S} {c : Call F} (kept : Kept k field start r.1)
    (free : leaves k r c) (taken : step query handle r c = some t) : Kept k field start t.1 := by
  obtain ⟨changed, at_k⟩ := kept.key
  obtain ⟨new, found, ⟨flag, rfl⟩ | ⟨s, rfl, addressed, -⟩⟩ := step_field taken at_k
  · exact ⟨kept.frame.trans (step_frame taken), flag, found⟩
  · exact absurd addressed free

theorem Kept.keyComparison {k : Nat} {field : BaseField F} {start record : Record F}
    (kept : Kept k field start record) (index : u32 (keyIdx start) = k)
    (at_k : start.fields[k]? = some (some field)) :
    SqlUtil.keyComparison record = SqlUtil.keyComparison start := by
  subst index
  obtain ⟨changed, found⟩ := kept.key
  exact keyComparison_frame kept.frame (Record.getField_ok.mpr at_k) (Record.getField_ok.mpr found)

theorem kept {query : Bytes → S → Bool × S} {handle : Mysql} {k : Nat} {field : BaseField F}
    {start r : Record F × S} (life : ReachWhere (step query handle) (leaves k) start r)
    (at_k : start.1.fields[k]? = some (some field)) : Kept k field start.1 r.1 :=
  life.invariant (I := fun r => Kept k field start.1 r.1)
    ⟨Record.SameFrame.refl _, field.changed, at_k⟩
    fun _ _ _ _ held free taken => held.step free taken

end Life

end RecordWrites

end LlbcDatabase
