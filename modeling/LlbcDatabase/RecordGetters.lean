import LlbcDatabase.IntegerColumns
import LlbcDatabase.RecordSetters

/-! The getters of `BaseField` and `Record` among the setters. Whether a call of either returns
is decided by the fields that the record has. A getter answers with what the last setter of the
same field stored, as far as the field can hold it. -/

namespace LlbcDatabase

open CText SqlUtil

variable {F : Type}

inductive Getter where
  | int
  | double
  | str

inductive Got (F : Type) where
  | int (v : Int64)
  | double (v : F)
  | str (v : Bytes)

def Getter.isText : Getter → Bool
  | .str => true
  | .int | .double => false

def Setting.isText : Setting F → Bool
  | .str _ | .blob _ _ => true
  | .int _ | .double _ => false

/-- The values that an integer field keeps when they are set and got as `long long`. -/
def FieldKind.keepsInt : FieldKind → Int → Prop
  | .u8, v => 0 ≤ v ∧ v < 2 ^ 8
  | .u16, v => 0 ≤ v ∧ v < 2 ^ 16
  | .u32, v => 0 ≤ v ∧ v < 2 ^ 32
  | .s8, v => -2 ^ 7 ≤ v ∧ v < 2 ^ 7
  | .s16, v => -2 ^ 15 ≤ v ∧ v < 2 ^ 15
  | .s32, v => -2 ^ 31 ≤ v ∧ v < 2 ^ 31
  | .u64, _ | .s64, _ => True
  | .dbl, _ | .str, _ => False

inductive Access (F : Type) where
  | set (c : SetterCall F)
  | get (field : UInt32 ⊕ Bytes) (g : Getter)

namespace Access

def field : Access F → UInt32 ⊕ Bytes
  | .set c => c.field
  | .get field _ => field

def isText : Access F → Bool
  | .set c => c.value.isText
  | .get _ g => g.isText

def setters (accesses : List (Access F)) : List (SetterCall F) :=
  accesses.filterMap fun
    | .set c => some c
    | .get _ _ => none

end Access

section Kinds

variable [CDouble F]

def FieldKind.get : (k : FieldKind) → Getter → k.Data F → Except Fault (Got F)
  | k, .int, v => (k.getInt v).map .int
  | k, .double, v => (k.getDouble v).map .double
  | k, .str, v => (k.getStr v).map .str

theorem FieldKind.get_ok_iff (k : FieldKind) (g : Getter) (v : k.Data F) :
    (∃ out, k.get g v = .ok out) ↔ (g.isText = true ↔ k = .str) := by
  cases k <;> cases g <;>
    simp [get, getInt, getDouble, getStr, Except.map, Getter.isText]

theorem FieldKind.convert_ok_iff (k : FieldKind) (s : Setting F) :
    (∃ val, k.convert s = .ok val) ↔ (s.isText = true ↔ k = .str) := by
  cases k <;> cases s <;> simp [convert, Setting.isText]

theorem FieldKind.convert_int (k : FieldKind) (v : Int64) (number : k ≠ .str) :
    k.convert (.int v : Setting F) = .ok (k.ofInt v) := by
  cases k with
  | str => exact absurd rfl number
  | _ => rfl

theorem unsigned_keeps (v : Int64) {n : Nat} {u : UInt64} (small : n < 64)
    (cut : (u.toNat : Int) = v.toInt % 2 ^ n) : u.toInt64 = v ↔ 0 ≤ v.toInt ∧ v.toInt < 2 ^ n := by
  have below : (2 : Int) ^ n ≤ 2 ^ 63 := pow_le_pow_right₀ (by norm_num) (by omega)
  have positive : (0 : Int) < 2 ^ n := by positivity
  have low := Int.emod_nonneg v.toInt positive.ne'
  have high := Int.emod_lt_of_pos v.toInt positive
  have whole : u.toInt64.toInt = u.toNat := (toInt_toInt64_iff u).mpr (by omega)
  rw [← Int64.toInt_inj, whole, cut, Int.emod_eq_iff positive.ne']
  constructor
  · rintro ⟨above, under, -⟩
    omega
  · rintro ⟨above, under⟩
    exact ⟨above, by omega, by simp⟩

theorem signed_keeps (v : Int) {m : Nat} (positive : 0 < m) :
    v.bmod m = v ↔ -(m / 2 : Int) ≤ v ∧ v < (m + 1) / 2 := by
  constructor
  · intro same
    have low := Int.le_bmod (x := v) positive
    have high := Int.bmod_lt (x := v) positive
    omega
  · rintro ⟨low, high⟩
    exact Int.bmod_eq_of_le low high

theorem FieldKind.getInt_ofInt (k : FieldKind) (v : Int64) (number : k ≠ .str) (exact_ : k ≠ .dbl) :
    ∃ w, k.getInt (k.ofInt v : k.Data F) = .ok w ∧ (w = v ↔ k.keepsInt v.toInt) := by
  have whole := toNat_toUInt64 v
  cases k with
  | str => exact absurd rfl number
  | dbl => exact absurd rfl exact_
  | u8 =>
    refine ⟨_, rfl, unsigned_keeps v (n := 8) (by omega) ?_⟩
    simp [ofInt]
    omega
  | u16 =>
    refine ⟨_, rfl, unsigned_keeps v (n := 16) (by omega) ?_⟩
    simp [ofInt]
    omega
  | u32 =>
    refine ⟨_, rfl, unsigned_keeps v (n := 32) (by omega) ?_⟩
    simp [ofInt]
    omega
  | u64 | s64 => exact ⟨v, by simp [getInt, ofInt], by simp [keepsInt]⟩
  | s8 | s16 | s32 =>
    refine ⟨_, rfl, ?_⟩
    rw [← Int64.toInt_inj]
    simp [ofInt, keepsInt, signed_keeps]

/-- What a field holds after the listed settings, of which the last one decides. -/
def BaseField.holds (f : BaseField F) (settings : List (Setting F)) : Except Fault (f.kind.Data F) :=
  match settings.getLast? with
  | none => .ok f.val
  | some s => f.kind.convert s

theorem BaseField.setAll_holds {f g : BaseField F} {settings : List (Setting F)}
    (done : f.setAll settings = .ok g) (getter : Getter) :
    g.kind.get getter g.val = (f.holds settings).bind (f.kind.get getter) := by
  have last := (setAll_ok done).2
  unfold holds
  cases final : settings.getLast? with
  | none =>
    rw [final] at last
    obtain rfl := last
    rfl
  | some s =>
    rw [final] at last
    obtain ⟨val, converted, rfl⟩ := map_ok.mp last
    simp only [converted]
    rfl

end Kinds

namespace Record

variable [CDouble F]

def getDouble (r : Record F) (idx : Nat) : Except Fault F := do
  (← r.getField idx).getDouble

def getIntByName (r : Record F) (name : Bytes) : Except Fault Int64 := do
  r.getInt (← r.getFieldIdx name)

def getDoubleByName (r : Record F) (name : Bytes) : Except Fault F := do
  r.getDouble (← r.getFieldIdx name)

def getStrByName (r : Record F) (name : Bytes) : Except Fault Bytes := do
  r.getStr (← r.getFieldIdx name)

def get (r : Record F) : UInt32 ⊕ Bytes → Getter → Except Fault (Got F)
  | .inl idx, .int => (r.getInt idx.toNat).map .int
  | .inl idx, .double => (r.getDouble idx.toNat).map .double
  | .inl idx, .str => (r.getStr idx.toNat).map .str
  | .inr name, .int => (r.getIntByName name).map .int
  | .inr name, .double => (r.getDoubleByName name).map .double
  | .inr name, .str => (r.getStrByName name).map .str

/-- A call, with what it answers if it is a getter. -/
def access (r : Record F) : Access F → Except Fault (Option (Got F) × Record F)
  | .set c => (r.call c).map fun r => (none, r)
  | .get field g => (r.get field g).map fun out => (some out, r)

def accessAll : Record F → List (Access F) → Except Fault (List (Option (Got F)) × Record F)
  | r, [] => .ok ([], r)
  | r, a :: rest => do
    let (out, r) ← r.access a
    let (outs, r) ← r.accessAll rest
    return (out :: outs, r)

def Fits (r : Record F) (a : Access F) : Prop :=
  ∃ idx f, r.target a.field = .ok idx ∧ r.fields[idx]? = some (some f) ∧
    (a.isText = true ↔ f.kind = .str)

theorem get_eq (r : Record F) (field : UInt32 ⊕ Bytes) (g : Getter) :
    r.get field g =
      (r.target field).bind fun idx => (r.getField idx).bind fun f => f.kind.get g f.val := by
  have onField : ∀ idx, (r.getInt idx).map Got.int =
        ((r.getField idx).bind fun f => f.kind.get .int f.val) ∧
      (r.getDouble idx).map Got.double =
        ((r.getField idx).bind fun f => f.kind.get .double f.val) ∧
      (r.getStr idx).map Got.str = ((r.getField idx).bind fun f => f.kind.get .str f.val) := by
    intro idx
    cases found : r.getField idx <;>
      simp [getInt, getDouble, getStr, found, bind, Except.bind, Except.map, FieldKind.get,
        BaseField.getInt, BaseField.getDouble, BaseField.getStr]
  cases field with
  | inl idx =>
    obtain ⟨int, double, str⟩ := onField idx.toNat
    cases g with
    | int => exact int
    | double => exact double
    | str => exact str
  | inr name =>
    rw [target]
    cases called : r.getFieldIdx name with
    | error fault =>
      cases g <;>
        simp [get, getIntByName, getDoubleByName, getStrByName, called, bind, Except.bind, Except.map]
    | ok idx =>
      obtain ⟨int, double, str⟩ := onField idx
      cases g with
      | int => simpa [get, getIntByName, called, bind, Except.bind] using int
      | double => simpa [get, getDoubleByName, called, bind, Except.bind] using double
      | str => simpa [get, getStrByName, called, bind, Except.bind] using str

theorem get_ok {r : Record F} {field : UInt32 ⊕ Bytes} {g : Getter} {out : Got F} :
    r.get field g = .ok out ↔ ∃ idx f, r.target field = .ok idx ∧ r.fields[idx]? = some (some f) ∧
      f.kind.get g f.val = .ok out := by
  rw [get_eq]
  constructor
  · intro done
    obtain ⟨idx, addressed, later⟩ := bind_ok.mp done
    obtain ⟨f, found, read⟩ := bind_ok.mp later
    exact ⟨idx, f, addressed, getField_ok.mp found, read⟩
  · rintro ⟨idx, f, addressed, found, read⟩
    exact bind_ok.mpr ⟨idx, addressed, bind_ok.mpr ⟨f, getField_ok.mpr found, read⟩⟩

theorem call_isOk_iff (r : Record F) (c : SetterCall F) :
    (∃ t, r.call c = .ok t) ↔ r.Fits (.set c) := by
  constructor
  · rintro ⟨t, done⟩
    obtain ⟨idx, f, new, addressed, at_idx, stored, -⟩ := call_ok done
    obtain ⟨val, converted, -⟩ := map_ok.mp stored
    exact ⟨idx, f, addressed, at_idx, (f.kind.convert_ok_iff c.value).mp ⟨val, converted⟩⟩
  · rintro ⟨idx, f, addressed, at_idx, sort⟩
    obtain ⟨val, converted⟩ := (f.kind.convert_ok_iff c.value).mpr sort
    have stored : f.set c.value = .ok _ := map_ok.mpr ⟨val, converted, rfl⟩
    rw [call_eq]
    exact ⟨_, bind_ok.mpr ⟨idx, addressed, bind_ok.mpr ⟨f, getField_ok.mpr at_idx,
      bind_ok.mpr ⟨_, stored, rfl⟩⟩⟩⟩

theorem access_isOk_iff (r : Record F) (a : Access F) :
    (∃ out t, r.access a = .ok (out, t)) ↔ r.Fits a := by
  cases a with
  | set c =>
    rw [← call_isOk_iff]
    constructor
    · rintro ⟨out, t, done⟩
      obtain ⟨s, called, -⟩ := map_ok.mp done
      exact ⟨s, called⟩
    · rintro ⟨t, called⟩
      exact ⟨none, t, map_ok.mpr ⟨t, called, rfl⟩⟩
  | get field g =>
    constructor
    · rintro ⟨out, t, done⟩
      obtain ⟨got, read, -⟩ := map_ok.mp done
      obtain ⟨idx, f, addressed, at_idx, value⟩ := get_ok.mp read
      exact ⟨idx, f, addressed, at_idx, (f.kind.get_ok_iff g f.val).mp ⟨got, value⟩⟩
    · rintro ⟨idx, f, addressed, at_idx, sort⟩
      obtain ⟨got, value⟩ := (f.kind.get_ok_iff g f.val).mpr sort
      exact ⟨some got, r, map_ok.mpr ⟨got, get_ok.mpr ⟨idx, f, addressed, at_idx, value⟩, rfl⟩⟩

omit [CDouble F] in
theorem fits_iff (r : Record F) (a : Access F) : r.Fits a ↔ ∃ idx kind, r.target a.field = .ok idx ∧
    (r.fields.map (Option.map (·.kind)))[idx]? = some (some kind) ∧
    (a.isText = true ↔ kind = .str) := by
  constructor
  · rintro ⟨idx, f, addressed, at_idx, sort⟩
    exact ⟨idx, f.kind, addressed, by simp [at_idx], sort⟩
  · rintro ⟨idx, kind, addressed, at_idx, sort⟩
    rw [List.getElem?_map, Option.map_eq_some_iff] at at_idx
    obtain ⟨slot, there, kinds⟩ := at_idx
    obtain ⟨f, rfl, rfl⟩ := Option.map_eq_some_iff.mp kinds
    exact ⟨idx, f, addressed, there, sort⟩

theorem call_kinds {r t : Record F} {c : SetterCall F} (done : r.call c = .ok t) :
    t.fields.map (Option.map (·.kind)) = r.fields.map (Option.map (·.kind)) := by
  obtain ⟨idx, f, new, -, at_idx, stored, rfl⟩ := call_ok done
  obtain ⟨inside, here⟩ := List.getElem?_eq_some_iff.mp at_idx
  have kind : some new.kind = Option.map (·.kind) r.fields[idx] := by
    rw [here, Option.map_some, (BaseField.set_ok stored).2.1]
  rw [List.map_set, Option.map_some, kind, ← List.map_set, List.set_getElem_self]

theorem callAll_kinds {r t : Record F} {calls : List (SetterCall F)}
    (done : r.callAll calls = .ok t) :
    t.fields.map (Option.map (·.kind)) = r.fields.map (Option.map (·.kind)) := by
  induction calls generalizing r with
  | nil =>
    cases done
    rfl
  | cons c rest ih =>
    obtain ⟨s, first, later⟩ := bind_ok.mp done
    rw [ih later, call_kinds first]

theorem access_fits {r t : Record F} {a : Access F} {out : Option (Got F)}
    (done : r.access a = .ok (out, t)) (b : Access F) : t.Fits b ↔ r.Fits b := by
  cases a with
  | get field g =>
    obtain ⟨got, -, same⟩ := map_ok.mp done
    cases same
    exact Iff.rfl
  | set c =>
    obtain ⟨s, called, same⟩ := map_ok.mp done
    cases same
    rw [fits_iff, fits_iff, (call_frame called).target, call_kinds called]

theorem accessAll_isOk_iff (r : Record F) (accesses : List (Access F)) :
    (∃ outs t, r.accessAll accesses = .ok (outs, t)) ↔ ∀ a ∈ accesses, r.Fits a := by
  induction accesses generalizing r with
  | nil => exact iff_of_true ⟨[], r, rfl⟩ (by simp)
  | cons a rest ih =>
    rw [List.forall_mem_cons, ← access_isOk_iff]
    constructor
    · rintro ⟨outs, t, done⟩
      obtain ⟨⟨out, s⟩, first, later⟩ := bind_ok.mp done
      obtain ⟨⟨more, u⟩, others, -⟩ := bind_ok.mp later
      refine ⟨⟨out, s, first⟩, fun b member => ?_⟩
      exact (access_fits first b).mp ((ih s).mp ⟨more, u, others⟩ b member)
    · rintro ⟨⟨out, s, first⟩, fit⟩
      obtain ⟨outs, t, others⟩ := (ih s).mpr fun b member => (access_fits first b).mpr (fit b member)
      exact ⟨out :: outs, t, bind_ok.mpr ⟨(out, s), first, bind_ok.mpr ⟨(outs, t), others, rfl⟩⟩⟩

theorem accessAll_get {r t : Record F} {accesses : List (Access F)} {outs : List (Option (Got F))}
    (done : r.accessAll accesses = .ok (outs, t)) {i : Nat} {field : UInt32 ⊕ Bytes} {g : Getter}
    (at_i : accesses[i]? = some (.get field g)) :
    ∃ s out, r.callAll (Access.setters (accesses.take i)) = .ok s ∧ outs[i]? = some (some out) ∧
      s.get field g = .ok out := by
  induction accesses generalizing r outs i with
  | nil => cases at_i
  | cons a rest ih =>
    obtain ⟨⟨out, s⟩, first, later⟩ := bind_ok.mp done
    obtain ⟨⟨more, u⟩, others, same⟩ := bind_ok.mp later
    cases same
    cases i with
    | zero =>
      cases at_i
      obtain ⟨got, read, same⟩ := map_ok.mp first
      cases same
      exact ⟨r, got, rfl, rfl, read⟩
    | succ i =>
      obtain ⟨v, got, called, at_next, read⟩ := ih others at_i
      refine ⟨v, got, ?_, at_next, read⟩
      cases a with
      | get =>
        obtain ⟨_, _, same⟩ := map_ok.mp first
        cases same
        exact called
      | set c =>
        obtain ⟨next, set, same⟩ := map_ok.mp first
        cases same
        exact bind_ok.mpr ⟨_, set, called⟩

/-- Setters and getters in any order all return just when each addresses a field of its sort.
A getter then answers with what the last setter of its field stored, or with what the field held
before. A number that is set and got as `long long` comes back just when its field keeps it. -/
theorem getters_read_setters (r : Record F) (accesses : List (Access F)) :
    ((∃ outs t, r.accessAll accesses = .ok (outs, t)) ↔ ∀ a ∈ accesses, r.Fits a) ∧
    ∀ outs t, r.accessAll accesses = .ok (outs, t) →
      ∀ i field g, accesses[i]? = some (.get field g) →
        ∃ idx f out, r.target field = .ok idx ∧ r.fields[idx]? = some (some f) ∧
          outs[i]? = some (some out) ∧
          (f.holds (r.settings idx (Access.setters (accesses.take i)))).bind (f.kind.get g) =
            .ok out ∧
          ∀ v, (r.settings idx (Access.setters (accesses.take i))).getLast? = some (.int v) →
            g = .int → f.kind ≠ .dbl → (out = .int v ↔ f.kind.keepsInt v.toInt) := by
  refine ⟨accessAll_isOk_iff r accesses, fun outs t done i field g at_i => ?_⟩
  obtain ⟨s, out, called, answered, read⟩ := accessAll_get done at_i
  obtain ⟨idx, new, addressed, at_idx, value⟩ := get_ok.mp read
  rw [(callAll_frame called).target] at addressed
  have kind : (r.fields.map (Option.map (·.kind)))[idx]? = some (some new.kind) := by
    rw [← callAll_kinds called, List.getElem?_map, at_idx]
    rfl
  rw [List.getElem?_map, Option.map_eq_some_iff] at kind
  obtain ⟨slot, there, kinds⟩ := kind
  obtain ⟨f, rfl, -⟩ := Option.map_eq_some_iff.mp kinds
  obtain ⟨new', at_idx', stored⟩ := callAll_field called there
  obtain rfl : new' = new := by simpa [at_idx] using at_idx'.symm
  rw [BaseField.setAll_holds stored] at value
  refine ⟨idx, f, out, addressed, there, answered, value, ?_⟩
  rintro v last rfl approximate
  rw [BaseField.holds, last] at value
  obtain ⟨val, converted, got⟩ := bind_ok.mp value
  have number : f.kind ≠ .str := by
    intro str
    have text := ((f.kind.convert_ok_iff (.int v)).mp ⟨val, converted⟩).mpr str
    cases text
  obtain rfl : f.kind.ofInt v = val :=
    Except.ok.inj ((f.kind.convert_int v number).symm.trans converted)
  obtain ⟨w, read, keeps⟩ := f.kind.getInt_ofInt (F := F) v number approximate
  rw [FieldKind.get, read] at got
  cases got
  rw [← keeps, Got.int.injEq]

end Record

end LlbcDatabase
