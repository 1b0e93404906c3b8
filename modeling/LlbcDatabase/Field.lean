import LlbcDatabase.Library.CString

/-! Column descriptions and record fields: `DBFieldInfo`, the field templates and
`FieldFactory`. A field carries the proof that the factory made it, so its data
type always fits the description it refers to. -/

namespace LlbcDatabase

open CText

/-- `enum enum_field_types`. -/
inductive FieldType where
  | decimal | tiny | short | long | float | double | null | timestamp | longlong | int24
  | date | time | datetime | year | newdate | varchar | bit | json | newdecimal | enum | set
  | tinyBlob | mediumBlob | longBlob | blob | varString | string | geometry
  deriving DecidableEq

def PRI_KEY_FLAG : UInt32 := 2
def UNSIGNED_FLAG : UInt32 := 32
def AUTO_INCREMENT_FLAG : UInt32 := 512

structure DBFieldInfo where
  name : CString
  type : FieldType
  attr : UInt32
  len : UInt32
  deriving DecidableEq

/-- Undefined behaviour or a failed assertion. -/
inductive Fault where
  | assertion
  | outOfRange
  | overrun
  | badAlloc
  deriving DecidableEq

/-- What the code asks of `double`. -/
class CDouble (F : Type) where
  ofInt : Int → F
  toInt : F → Int64
  atof : Bytes → F
  format : F → Bytes

/-- The instances of `FieldTemplate`. -/
inductive FieldKind where
  | u8 | u16 | u32 | u64 | s8 | s16 | s32 | s64 | dbl | str
  deriving DecidableEq

namespace FieldKind

/-- The `DataType` of an instance. -/
@[reducible] def Data (F : Type) : FieldKind → Type
  | u8 => UInt8
  | u16 => UInt16
  | u32 => UInt32
  | u64 => UInt64
  | s8 => Int8
  | s16 => Int16
  | s32 => Int32
  | s64 => Int64
  | dbl => F
  | str => Bytes

variable {F : Type} [CDouble F]

/-- An assignment from `long long`; a string has none. -/
def ofInt : (k : FieldKind) → Int64 → k.Data F
  | u8, v => v.toUInt64.toUInt8
  | u16, v => v.toUInt64.toUInt16
  | u32, v => v.toUInt64.toUInt32
  | u64, v => v.toUInt64
  | s8, v => v.toInt8
  | s16, v => v.toInt16
  | s32, v => v.toInt32
  | s64, v => v
  | dbl, v => CDouble.ofInt v.toInt
  | str, _ => []

/-- An assignment from `double`. -/
def ofDouble (k : FieldKind) (v : F) : k.Data F :=
  match k with
  | dbl => v
  | k => k.ofInt (CDouble.toInt v)

/-- `DataType _val = 0`, and the empty string. -/
def zero (k : FieldKind) : k.Data F := k.ofInt 0

end FieldKind

def isSpace (c : UInt8) : Bool := c = 32 || (9 ≤ c && c ≤ 13)

def isDigit (c : UInt8) : Bool := 48 ≤ c && c ≤ 57

def leadingDigits : Bytes → Nat → Nat
  | [], acc => acc
  | c :: rest, acc => if isDigit c then leadingDigits rest (acc * 10 + (c.toNat - 48)) else acc

/-- A value out of range stops at the end of the range. -/
def clamp (v : Int) : Int64 :=
  if v < Int64.minValue.toInt then Int64.minValue
  else if Int64.maxValue.toInt < v then Int64.maxValue
  else Int64.ofInt v

def atoll (s : Bytes) : Int64 :=
  match s.dropWhile isSpace with
  | 45 :: digits => clamp (-(leadingDigits digits 0))
  | 43 :: digits => clamp (leadingDigits digits 0)
  | digits => clamp (leadingDigits digits 0)

namespace FieldFactory

/-- The instance that `CreateField` makes for a description, if any. -/
def createKind (info : DBFieldInfo) : Option FieldKind :=
  let p := if info.attr &&& UNSIGNED_FLAG = 0 then
    match info.type with
    | .tiny => some FieldKind.s8
    | .short => some .s16
    | .long => some .s32
    | .longlong | .timestamp => some .s64
    | _ => none
  else
    match info.type with
    | .tiny => some FieldKind.u8
    | .short => some .u16
    | .long => some .u32
    | .longlong | .timestamp => some .u64
    | _ => none
  match p with
  | some kind => some kind
  | none => match info.type with
    | .float | .double | .newdecimal => some .dbl
    | .string | .varString | .date | .datetime => some .str
    | .tinyBlob | .blob | .mediumBlob | .longBlob => some .str
    | _ => none

end FieldFactory

structure BaseField (F : Type) where
  info : DBFieldInfo
  kind : FieldKind
  created : FieldFactory.createKind info = some kind
  val : kind.Data F
  changed : Bool

variable {F : Type} [CDouble F]

def FieldFactory.createField (info : DBFieldInfo) : Option (BaseField F) :=
  match created : createKind info with
  | none => none
  | some kind => some { info, kind, created, val := kind.zero, changed := false }

theorem FieldFactory.createField_none {info : DBFieldInfo} (none : createKind info = none) :
    (createField info : Option (BaseField F)) = Option.none := by
  unfold createField
  split
  · rfl
  · simp_all

theorem FieldFactory.createField_some {info : DBFieldInfo} {kind : FieldKind}
    (made : createKind info = some kind) :
    (createField info : Option (BaseField F)) = some ⟨info, kind, made, kind.zero, false⟩ := by
  unfold createField
  split
  · simp_all
  · rename_i kind' created
    obtain rfl : kind = kind' := Option.some.inj (made.symm.trans created)
    rfl

/-- `SetValue` of the templates: the value stored and the value returned. A
`double` is stored, and then the `switch` falls through to `return false`. -/
def FieldKind.setValue (type : FieldType) (value : Option Buffer) (len : UInt32) :
    (k : FieldKind) → k.Data F → Bool × k.Data F
  | .str, old => match type with
    | .string | .varString | .tinyBlob | .blob | .mediumBlob | .longBlob | .date | .datetime =>
      (true, match value with
        | some b => b.read len.toNat
        | none => [])
    | _ => (false, old)
  | k, old => match type with
    | .tiny | .short | .long | .longlong | .newdecimal | .timestamp =>
      (true, k.ofInt (match value with
        | some b => atoll (cstr b.bytes)
        | none => 0))
    | .double | .float =>
      (false, k.ofDouble (match value with
        | some b => CDouble.atof (cstr b.bytes)
        | none => CDouble.ofInt 0))
    | _ => (false, old)

namespace FieldKind

def getInt : (k : FieldKind) → k.Data F → Except Fault Int64
  | u8, v => .ok v.toUInt64.toInt64
  | u16, v => .ok v.toUInt64.toInt64
  | u32, v => .ok v.toUInt64.toInt64
  | u64, v => .ok v.toInt64
  | s8, v => .ok v.toInt64
  | s16, v => .ok v.toInt64
  | s32, v => .ok v.toInt64
  | s64, v => .ok v
  | dbl, v => .ok (CDouble.toInt v)
  | str, _ => .error .assertion

def getDouble : (k : FieldKind) → k.Data F → Except Fault F
  | u8, v => .ok (CDouble.ofInt v.toNat)
  | u16, v => .ok (CDouble.ofInt v.toNat)
  | u32, v => .ok (CDouble.ofInt v.toNat)
  | u64, v => .ok (CDouble.ofInt v.toNat)
  | s8, v => .ok (CDouble.ofInt v.toInt)
  | s16, v => .ok (CDouble.ofInt v.toInt)
  | s32, v => .ok (CDouble.ofInt v.toInt)
  | s64, v => .ok (CDouble.ofInt v.toInt)
  | dbl, v => .ok v
  | str, _ => .error .assertion

def getStr : (k : FieldKind) → k.Data F → Except Fault Bytes
  | str, v => .ok v
  | _, _ => .error .assertion

end FieldKind

namespace BaseField

def setValue (f : BaseField F) (value : Option Buffer) (len : UInt32) : Bool × BaseField F :=
  let stored := f.kind.setValue f.info.type value len f.val
  (stored.1, { f with val := stored.2 })

def getInt (f : BaseField F) : Except Fault Int64 := f.kind.getInt f.val

def getDouble (f : BaseField F) : Except Fault F := f.kind.getDouble f.val

omit [CDouble F] in
def getStr (f : BaseField F) : Except Fault Bytes := f.kind.getStr f.val

end BaseField

/-- The types that `CreateField` maps to a string or a blob field. -/
def isText : FieldType → Bool
  | .string | .varString | .date | .datetime => true
  | .tinyBlob | .blob | .mediumBlob | .longBlob => true
  | _ => false

omit [CDouble F] in
theorem FieldFactory.createKind_str (info : DBFieldInfo) :
    createKind info = some .str ↔ isText info.type = true := by
  unfold createKind
  cases h : info.type <;> by_cases unsigned : info.attr &&& UNSIGNED_FLAG = 0 <;>
    simp [unsigned, isText]

theorem FieldKind.getStr_setValue {info : DBFieldInfo} {kind : FieldKind}
    (created : FieldFactory.createKind info = some kind) (value : Option Buffer) (len : UInt32)
    (old : kind.Data F) :
    kind.getStr (kind.setValue info.type value len old).2 =
      if isText info.type then
        .ok (match value with
          | some b => b.read len.toNat
          | none => [])
      else .error .assertion := by
  by_cases text : isText info.type = true
  · have str := (FieldFactory.createKind_str info).mpr text
    rw [created, Option.some.injEq] at str
    subst str
    rw [if_pos text]
    cases type : info.type <;> simp_all [isText, setValue, getStr]
  · have other : kind ≠ .str := fun str => text ((FieldFactory.createKind_str info).mp (str ▸ created))
    rw [if_neg text]
    cases kind <;> first | exact absurd rfl other | rfl

/-- A `double` for runs that meet none. -/
instance : CDouble Unit where
  ofInt _ := ()
  toInt _ := 0
  atof _ := ()
  format _ := []

end LlbcDatabase
