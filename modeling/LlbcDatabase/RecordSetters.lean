import LlbcDatabase.Record

/-! The setters of `BaseField` and `Record`. A list of calls acts on each field by
the calls that address it, and of these the last one decides what the field holds. -/

namespace LlbcDatabase

open CText

variable {F : Type}

theorem bind_ok {A B : Type} {x : Except Fault A} {next : A → Except Fault B} {b : B} :
    x >>= next = .ok b ↔ ∃ a, x = .ok a ∧ next a = .ok b := by
  cases x <;> simp [bind, Except.bind]

theorem map_ok {A B : Type} {x : Except Fault A} {f : A → B} {b : B} :
    x.map f = .ok b ↔ ∃ a, x = .ok a ∧ f a = b := by
  cases x <;> simp [Except.map]

theorem ok_snd {A B : Type} {x : Except Fault (A × B)} {a a' : A} {b b' : B} (first : x = .ok (a, b))
    (second : x = .ok (a', b')) : b = b' :=
  (Prod.mk.inj (Except.ok.inj (first.symm.trans second))).2

theorem toOption_ok {A : Type} {x : Except Fault A} {a : A} : x.toOption = some a ↔ x = .ok a := by
  cases x <;> simp [Except.toOption]

inductive Setting (F : Type) where
  | int (v : Int64)
  | double (v : F)
  | str (v : CString)
  | blob (v : Buffer) (len : UInt32)

/-- The setters of the templates. The instance for strings has none for numbers, the
others have none for strings. -/
def FieldKind.convert [CDouble F] : (k : FieldKind) → Setting F → Except Fault (k.Data F)
  | .str, .str v => .ok v.bytes
  | .str, .blob v len => .ok (v.read len.toNat)
  | .str, _ => .error .assertion
  | k, .int v => .ok (k.ofInt v)
  | k, .double v => .ok (k.ofDouble v)
  | _, _ => .error .assertion

namespace BaseField

def tagChanged (f : BaseField F) (changed : Bool) : BaseField F := { f with changed }

variable [CDouble F]

def set (f : BaseField F) (s : Setting F) : Except Fault (BaseField F) :=
  (f.kind.convert s).map fun val => { f with val }.tagChanged true

def setInt (f : BaseField F) (v : Int64) : Except Fault (BaseField F) := f.set (.int v)

def setDouble (f : BaseField F) (v : F) : Except Fault (BaseField F) := f.set (.double v)

def setStr (f : BaseField F) (v : CString) : Except Fault (BaseField F) := f.set (.str v)

def setBlob (f : BaseField F) (v : Buffer) (len : UInt32) : Except Fault (BaseField F) :=
  f.set (.blob v len)

def setAll : BaseField F → List (Setting F) → Except Fault (BaseField F)
  | f, [] => .ok f
  | f, s :: rest => do (← f.set s).setAll rest

theorem set_ok {f g : BaseField F} {s : Setting F} (done : f.set s = .ok g) :
    g.info = f.info ∧ g.kind = f.kind ∧ g.changed = true := by
  obtain ⟨val, -, rfl⟩ := map_ok.mp done
  exact ⟨rfl, rfl, rfl⟩

theorem set_set {f g : BaseField F} {s : Setting F} (done : f.set s = .ok g) (t : Setting F) :
    g.set t = f.set t := by
  obtain ⟨val, -, rfl⟩ := map_ok.mp done
  rfl

theorem setAll_ok {f g : BaseField F} {settings : List (Setting F)}
    (done : f.setAll settings = .ok g) :
    g.info = f.info ∧ match settings.getLast? with
      | none => g = f
      | some s => f.set s = .ok g := by
  induction settings generalizing f with
  | nil =>
    cases done
    exact ⟨rfl, rfl⟩
  | cons s rest ih =>
    obtain ⟨f', first, later⟩ := bind_ok.mp done
    have ⟨info, last⟩ := ih later
    rw [(set_ok first).1] at info
    refine ⟨info, ?_⟩
    rw [List.getLast?_cons]
    cases final : rest.getLast? with
    | none =>
      rw [final] at last
      simpa [last] using first
    | some t =>
      rw [final] at last
      simpa [← set_set first t] using last

end BaseField

structure SetterCall (F : Type) where
  field : UInt32 ⊕ Bytes
  value : Setting F

namespace Record

theorem getField_ok {r : Record F} {idx : Nat} {field : BaseField F} :
    r.getField idx = .ok field ↔ r.fields[idx]? = some (some field) := by
  unfold getField
  split <;> simp_all

/-- A name with a NUL in it is not the name of a field. -/
def getFieldIdx (r : Record F) (name : Bytes) : Except Fault Nat :=
  if noNul : 0 ∉ name then
    match r.fieldName2Idx ⟨name, noNul⟩ with
    | some idx => .ok idx
    | none => .error .assertion
  else .error .assertion

def target (r : Record F) : UInt32 ⊕ Bytes → Except Fault Nat
  | .inl idx => .ok idx.toNat
  | .inr name => r.getFieldIdx name

def settings (r : Record F) (k : Nat) (calls : List (SetterCall F)) : List (Setting F) :=
  calls.filterMap fun c => if (r.target c.field).toOption = some k then some c.value else none

def isChanged (r : Record F) (idx : Nat) : Except Fault Bool := do
  return (← r.getField idx).changed

/-- `ClsEditFlag`, from the first field on. -/
def clsFlags : List (Option (BaseField F)) → Except Fault (List (Option (BaseField F)))
  | [] => .ok []
  | none :: _ => .error .outOfRange
  | some field :: rest => do return some (field.tagChanged false) :: (← clsFlags rest)

def clsEditFlag (r : Record F) : Except Fault (Record F) := do
  return { r with fields := ← clsFlags r.fields }

theorem clsFlags_some (fields : List (BaseField F)) :
    clsFlags (fields.map some) = .ok ((fields.map (·.tagChanged false)).map some) := by
  induction fields with
  | nil => rfl
  | cons field rest ih => simp [clsFlags, ih, bind, Except.bind, pure, Except.pure]

variable [CDouble F]

def onField (r : Record F) (idx : Nat) (set : BaseField F → Except Fault (BaseField F)) :
    Except Fault (Record F) := do
  return { r with fields := r.fields.set idx (some (← set (← r.getField idx))) }

def setInt (r : Record F) (idx : UInt32) (v : Int64) : Except Fault (Record F) :=
  r.onField idx.toNat (·.setInt v)

def setDouble (r : Record F) (idx : UInt32) (v : F) : Except Fault (Record F) :=
  r.onField idx.toNat (·.setDouble v)

def setStr (r : Record F) (idx : UInt32) (v : CString) : Except Fault (Record F) :=
  r.onField idx.toNat (·.setStr v)

def setBlob (r : Record F) (idx : UInt32) (v : Buffer) (len : UInt32) : Except Fault (Record F) :=
  r.onField idx.toNat (·.setBlob v len)

def setIntByName (r : Record F) (name : Bytes) (v : Int64) : Except Fault (Record F) := do
  r.onField (← r.getFieldIdx name) (·.setInt v)

def setDoubleByName (r : Record F) (name : Bytes) (v : F) : Except Fault (Record F) := do
  r.onField (← r.getFieldIdx name) (·.setDouble v)

def setStrByName (r : Record F) (name : Bytes) (v : CString) : Except Fault (Record F) := do
  r.onField (← r.getFieldIdx name) (·.setStr v)

def setBlobByName (r : Record F) (name : Bytes) (v : Buffer) (len : UInt32) :
    Except Fault (Record F) := do
  r.onField (← r.getFieldIdx name) (·.setBlob v len)

def call (r : Record F) : SetterCall F → Except Fault (Record F)
  | ⟨.inl idx, .int v⟩ => r.setInt idx v
  | ⟨.inl idx, .double v⟩ => r.setDouble idx v
  | ⟨.inl idx, .str v⟩ => r.setStr idx v
  | ⟨.inl idx, .blob v len⟩ => r.setBlob idx v len
  | ⟨.inr name, .int v⟩ => r.setIntByName name v
  | ⟨.inr name, .double v⟩ => r.setDoubleByName name v
  | ⟨.inr name, .str v⟩ => r.setStrByName name v
  | ⟨.inr name, .blob v len⟩ => r.setBlobByName name v len

def callAll : Record F → List (SetterCall F) → Except Fault (Record F)
  | r, [] => .ok r
  | r, c :: rest => do (← r.call c).callAll rest

theorem call_eq (r : Record F) (c : SetterCall F) :
    r.call c = (r.target c.field).bind fun idx => r.onField idx (·.set c.value) := by
  obtain ⟨idx | name, value⟩ := c <;> cases value <;> rfl

theorem call_ok {r t : Record F} {c : SetterCall F} (done : r.call c = .ok t) :
    ∃ idx field new, r.target c.field = .ok idx ∧ r.fields[idx]? = some (some field) ∧
      field.set c.value = .ok new ∧ t = { r with fields := r.fields.set idx (some new) } := by
  rw [call_eq] at done
  obtain ⟨idx, addressed, stored⟩ := bind_ok.mp done
  obtain ⟨field, found, later⟩ := bind_ok.mp stored
  obtain ⟨new, setOk, same⟩ := bind_ok.mp later
  exact ⟨idx, field, new, addressed, getField_ok.mp found, setOk, (Except.ok.inj same).symm⟩

structure SameFrame (r t : Record F) : Prop where
  mode : t.mode = r.mode
  tableName : t.tableName = r.tableName
  fieldName2Idx : t.fieldName2Idx = r.fieldName2Idx
  keyIdx : t.keyIdx = r.keyIdx
  autoIncIdx : t.autoIncIdx = r.autoIncIdx
  fieldNum : t.fields.length = r.fields.length

omit [CDouble F] in
theorem SameFrame.refl (r : Record F) : SameFrame r r := ⟨rfl, rfl, rfl, rfl, rfl, rfl⟩

omit [CDouble F] in
theorem SameFrame.trans {r s t : Record F} (first : SameFrame r s) (second : SameFrame s t) :
    SameFrame r t :=
  ⟨second.mode.trans first.mode, second.tableName.trans first.tableName,
    second.fieldName2Idx.trans first.fieldName2Idx, second.keyIdx.trans first.keyIdx,
    second.autoIncIdx.trans first.autoIncIdx, second.fieldNum.trans first.fieldNum⟩

omit [CDouble F] in
theorem SameFrame.target {r t : Record F} (same : SameFrame r t) : t.target = r.target := by
  funext field
  cases field <;> simp [Record.target, getFieldIdx, same.fieldName2Idx]

theorem call_frame {r t : Record F} {c : SetterCall F} (done : r.call c = .ok t) :
    SameFrame r t := by
  obtain ⟨idx, field, new, -, -, -, rfl⟩ := call_ok done
  exact ⟨rfl, rfl, rfl, rfl, rfl, List.length_set⟩

theorem callAll_frame {r t : Record F} {calls : List (SetterCall F)}
    (done : r.callAll calls = .ok t) : SameFrame r t := by
  induction calls generalizing r with
  | nil =>
    cases done
    exact SameFrame.refl _
  | cons c rest ih =>
    obtain ⟨s, first, later⟩ := bind_ok.mp done
    exact (call_frame first).trans (ih later)

theorem callAll_field {r t : Record F} {calls : List (SetterCall F)}
    (done : r.callAll calls = .ok t) {k : Nat} {field : BaseField F}
    (at_k : r.fields[k]? = some (some field)) :
    ∃ new, t.fields[k]? = some (some new) ∧ field.setAll (r.settings k calls) = .ok new := by
  induction calls generalizing r field with
  | nil =>
    cases done
    exact ⟨field, at_k, rfl⟩
  | cons c rest ih =>
    obtain ⟨s, first, later⟩ := bind_ok.mp done
    have same : s.settings k rest = r.settings k rest := by
      simp only [settings, (call_frame first).target]
    obtain ⟨idx, old, stored, addressed, at_idx, setOk, rfl⟩ := call_ok first
    by_cases here : idx = k
    · subst here
      obtain rfl : old = field := by simpa [at_idx] using at_k
      have inside := (List.getElem?_eq_some_iff.mp at_idx).1
      have now : (r.fields.set idx (some stored))[idx]? = some (some stored) :=
        List.getElem?_set_self inside
      obtain ⟨new, found, rest_set⟩ := ih later now
      refine ⟨new, found, ?_⟩
      rw [same] at rest_set
      simpa [settings, addressed, Except.toOption, BaseField.setAll, setOk, bind, Except.bind]
        using rest_set
    · have kept : (r.fields.set idx (some stored))[k]? = some (some field) := by
        rw [List.getElem?_set_ne here, at_k]
      obtain ⟨new, found, rest_set⟩ := ih later kept
      refine ⟨new, found, ?_⟩
      rw [same] at rest_set
      simpa [settings, addressed, Except.toOption, here] using rest_set

end Record

end LlbcDatabase
