import LlbcDatabase.SqlDecode

/-! Integer columns between the text that the server sends and the texts of the
statements. `SetValue` reads with `atoll`, which stops at the largest `long long`, and
`BuildCondition` prints every number as a `long long`. -/

namespace LlbcDatabase

open CText SqlText

section Atoll

theorem leadingDigits_append {digits rest : Bytes} (all : ∀ c ∈ digits, isDigit c = true)
    (stops : ∀ c ∈ rest.head?, isDigit c = false) (acc : Nat) :
    leadingDigits (digits ++ rest) acc =
      digits.foldl (fun n c => 10 * n + (c.toNat - 48)) acc := by
  induction digits generalizing acc with
  | nil =>
    cases rest with
    | nil => rfl
    | cons c rest => simp [leadingDigits, stops c (by simp)]
  | cons c digits ih =>
    have later := ih fun d member => all d (.tail _ member)
    rw [List.cons_append, leadingDigits, if_pos (all c (.head _)), later, Nat.mul_comm acc,
      List.foldl_cons]

/-- A number as text, with a sign if it is negative. -/
def signed (negative : Bool) (digits : Bytes) : Bytes := if negative then 45 :: digits else digits

def signedValue (negative : Bool) (digits : Bytes) : Int :=
  if negative then -numberValue digits else numberValue digits

theorem isDigit_le {c : UInt8} (digit : isDigit c = true) : 48 ≤ c.toNat ∧ c.toNat ≤ 57 := by
  simp only [isDigit, Bool.and_eq_true, decide_eq_true_eq, UInt8.le_iff_toNat_le] at digit
  exact ⟨digit.1, digit.2⟩

theorem digit_ne {c : UInt8} (digit : isDigit c = true) : c ≠ 45 ∧ c ≠ 43 ∧ isSpace c = false := by
  obtain ⟨low, high⟩ := isDigit_le digit
  refine ⟨?_, ?_, ?_⟩
  · rintro rfl
    exact absurd low (by decide)
  · rintro rfl
    exact absurd low (by decide)
  · simp [isSpace, ← UInt8.toNat_inj, UInt8.le_iff_toNat_le]
    omega

theorem atoll_signed (negative : Bool) {digits rest : Bytes} (some_ : digits ≠ [])
    (all : ∀ c ∈ digits, isDigit c = true) (stops : ∀ c ∈ rest.head?, isDigit c = false) :
    atoll (signed negative digits ++ rest) = clamp (signedValue negative digits) := by
  have value := leadingDigits_append all stops 0
  cases negative with
  | true =>
    have minus : isSpace 45 = false := by decide
    simp [atoll, signed, minus, value, signedValue, numberValue]
  | false =>
    cases digits with
    | nil => exact absurd rfl some_
    | cons c digits =>
      obtain ⟨minus, plus, space⟩ := digit_ne (all c (.head _))
      simp only [List.cons_append] at value
      simp [atoll, signed, space, signedValue, numberValue, value, minus, plus]

theorem signedDecimal_eq (v : Int) : signedDecimal v = signed (v < 0) (decimal v.natAbs) := by
  by_cases negative : v < 0 <;> simp [signedDecimal, signed, negative]

theorem atoll_signedDecimal (v : Int) : atoll (signedDecimal v) = clamp v := by
  have read : atoll (signed (decide (v < 0)) (decimal v.natAbs) ++ []) =
      clamp (signedValue (decide (v < 0)) (decimal v.natAbs)) :=
    atoll_signed _ (decimal_ne_nil _) (fun c member => isDigit_decimal member) (by simp)
  have same : signedValue (decide (v < 0)) (decimal v.natAbs) = v := by
    rw [signedValue, numberValue_decimal]
    by_cases negative : v < 0
    · simp only [negative, decide_true, if_true]
      omega
    · simp only [negative, decide_false, Bool.false_eq_true, if_false]
      omega
  rwa [List.append_nil, same, ← signedDecimal_eq] at read

theorem toInt_clamp {v : Int} (low : -2 ^ 63 ≤ v) (high : v < 2 ^ 63) : (clamp v).toInt = v := by
  have min : Int64.minValue.toInt = -2 ^ 63 := rfl
  have max : Int64.maxValue.toInt = 2 ^ 63 - 1 := rfl
  rw [clamp, if_neg (by omega), if_neg (by omega), Int64.toInt_ofInt_of_le low high]

end Atoll

section Load

variable {F : Type} [CDouble F]

/-- The types that `SetValue` reads with `atoll`. -/
def readsInt : FieldType → Bool
  | .tiny | .short | .long | .longlong | .newdecimal | .timestamp => true
  | _ => false

theorem FieldKind.setValue_int {type : FieldType} (reads : readsInt type = true) {k : FieldKind}
    (other : k ≠ .str) (b : Buffer) (len : UInt32) (old : k.Data F) :
    k.setValue type (some b) len old = (true, k.ofInt (atoll (cstr b.bytes))) := by
  cases k <;> first | exact absurd rfl other | cases type <;> first | rfl | cases reads

theorem not_str_of_readsInt {info : DBFieldInfo} {kind : FieldKind}
    (created : FieldFactory.createKind info = some kind) (reads : readsInt info.type = true) :
    kind ≠ .str := by
  rintro rfl
  have text := (FieldFactory.createKind_str info).mp created
  cases type : info.type <;> simp [type, readsInt, isText] at reads text

theorem readsInt_of_isInteger {type : FieldType} (integer : isInteger type = true) :
    readsInt type = true := by
  cases type <;> simp_all [isInteger, readsInt]

def intBits : FieldType → Nat
  | .tiny => 8
  | .short => 16
  | .long => 32
  | .longlong => 64
  | _ => 0

def columnRange (info : DBFieldInfo) (v : Int) : Prop :=
  if info.attr &&& UNSIGNED_FLAG = 0 then
    -2 ^ (intBits info.type - 1) ≤ v ∧ v < 2 ^ (intBits info.type - 1)
  else 0 ≤ v ∧ v < 2 ^ intBits info.type

instance (info : DBFieldInfo) (v : Int) : Decidable (columnRange info v) := by
  unfold columnRange
  infer_instance

theorem columnRange_bounds {info : DBFieldInfo} {v : Int} (integer : isInteger info.type = true)
    (range : columnRange info v) : -2 ^ 63 ≤ v ∧ v < 2 ^ 64 := by
  unfold columnRange at range
  split_ifs at range <;> cases type : info.type <;>
    simp only [type, isInteger, Bool.false_eq_true, intBits] at integer range <;> omega

theorem createKind_integer {info : DBFieldInfo} (integer : isInteger info.type = true) :
    ∃ kind, FieldFactory.createKind info = some kind := by
  unfold FieldFactory.createKind
  by_cases unsigned : info.attr &&& UNSIGNED_FLAG = 0 <;>
    cases type : info.type <;> simp [type, isInteger] at integer <;> simp [unsigned]

theorem literal_ofInt {info : DBFieldInfo} {kind : FieldKind}
    (created : FieldFactory.createKind info = some kind) (integer : isInteger info.type = true)
    {v : Int} (range : columnRange info v) (small : v < 2 ^ 63) :
    kind.literal (kind.ofInt (Int64.ofInt v) : kind.Data F) = .int v := by
  unfold FieldFactory.createKind at created
  unfold columnRange at range
  by_cases unsigned : info.attr &&& UNSIGNED_FLAG = 0
  · cases type : info.type <;> simp only [type, isInteger, Bool.false_eq_true] at integer <;>
      simp only [type, unsigned, if_true, intBits, Option.some.injEq] at created range <;>
        subst created
    · simp [FieldKind.ofInt, FieldKind.literal, Int8.toInt_ofInt_of_le range.1 range.2]
    · simp [FieldKind.ofInt, FieldKind.literal, Int16.toInt_ofInt_of_le range.1 range.2]
    · simp [FieldKind.ofInt, FieldKind.literal, Int32.toInt_ofInt_of_le range.1 range.2]
    · simp [FieldKind.ofInt, FieldKind.literal, Int64.toInt_ofInt_of_le range.1 range.2]
  · rw [if_neg unsigned] at range
    obtain ⟨n, rfl⟩ := Int.eq_ofNat_of_zero_le range.1
    have same : Int64.ofInt n = Int64.ofNat n := rfl
    cases type : info.type <;> simp only [type, isInteger, Bool.false_eq_true] at integer <;>
      simp only [type, unsigned, if_false, intBits, Option.some.injEq] at created range <;>
        subst created <;> simp [FieldKind.ofInt, FieldKind.literal, same] <;> omega

theorem kind_of_large {info : DBFieldInfo} {kind : FieldKind}
    (created : FieldFactory.createKind info = some kind) (integer : isInteger info.type = true)
    {v : Int} (range : columnRange info v) (large : 2 ^ 63 ≤ v) : kind = .u64 := by
  unfold FieldFactory.createKind at created
  unfold columnRange at range
  by_cases unsigned : info.attr &&& UNSIGNED_FLAG = 0
  · rw [if_pos unsigned] at range
    cases type : info.type <;> simp only [type, isInteger, Bool.false_eq_true] at integer <;>
      simp only [type, intBits] at range <;> omega
  · rw [if_neg unsigned] at range
    cases type : info.type <;> simp only [type, isInteger, Bool.false_eq_true] at integer <;>
      simp only [type, unsigned, if_false, intBits, Option.some.injEq] at created range
    · omega
    · omega
    · omega
    · exact created.symm

/-- `atoll` cuts a value of the column to a `long long`, and nothing else is lost. -/
theorem literal_clamp {info : DBFieldInfo} {kind : FieldKind}
    (created : FieldFactory.createKind info = some kind) (integer : isInteger info.type = true)
    {v : Int} (range : columnRange info v) :
    kind.literal (kind.ofInt (clamp v) : kind.Data F) = .int (min v (2 ^ 63 - 1)) := by
  have bounds := columnRange_bounds integer range
  have min : Int64.minValue.toInt = -2 ^ 63 := rfl
  have max : Int64.maxValue.toInt = 2 ^ 63 - 1 := rfl
  by_cases small : v < 2 ^ 63
  · rw [clamp, if_neg (by omega), if_neg (by omega), literal_ofInt created integer range small,
      min_eq_left (by omega)]
  · obtain rfl := kind_of_large created integer range (by omega)
    rw [clamp, if_neg (by omega), if_pos (by omega), min_eq_right (by omega)]
    rfl

theorem load_int {info : DBFieldInfo} {kind : FieldKind}
    (created : FieldFactory.createKind info = some kind) (reads : readsInt info.type = true)
    (b : Buffer) (len : UInt32) :
    (⟨info, kind, created, kind.zero, false⟩ : BaseField F).setValue (some b) len =
      (true, ⟨info, kind, created, kind.ofInt (atoll (cstr b.bytes)), false⟩) := by
  simp only [BaseField.setValue, FieldKind.setValue_int reads (not_str_of_readsInt created reads)]

end Load

namespace SqlUtil

variable {F : Type} [CDouble F]

section RoundTrip

theorem print_int_injective {name : Bytes} {v w : Int}
    (same : (⟨name, .int v⟩ : Assignment).print = (⟨name, .int w⟩ : Assignment).print) : v = w := by
  simp only [Assignment.print, Literal.print, List.cons_append, List.cons.injEq, true_and,
    List.append_cancel_left_eq] at same
  exact signedDecimal_injective same

/-- A value of an integer column that is loaded from its decimal text is written as
itself just when it is a `long long`. -/
theorem integer_roundtrip_iff {info : DBFieldInfo} (integer : isInteger info.type = true) {v : Int}
    (range : columnRange info v) (rest : Nat → UInt8) (len : UInt32) :
    ∃ field : BaseField F, FieldFactory.createField info = some field ∧
      ((∀ (handle : Mysql) (formatSize : Nat),
        buildFormatSql handle (field.setValue (some ⟨signedDecimal v, rest⟩) len).2 formatSize =
          .ok (snprintf formatSize (named info.name (signedDecimal v)))) ↔ v < 2 ^ 63) := by
  obtain ⟨kind, created⟩ := createKind_integer integer
  refine ⟨_, FieldFactory.createField_some created, ?_⟩
  have written : ∀ (handle : Mysql) (formatSize : Nat),
      buildFormatSql handle ((⟨info, kind, created, kind.zero, false⟩ : BaseField F).setValue
        (some ⟨signedDecimal v, rest⟩) len).2 formatSize =
        .ok (snprintf formatSize (named info.name (signedDecimal (min v (2 ^ 63 - 1))))) := by
    intro handle formatSize
    rw [load_int created (readsInt_of_isInteger integer), cstr_eq_self (noNul_signedDecimal v),
      atoll_signedDecimal, buildFormatSql_integer handle _ integer, named_int, BaseField.edit,
      literal_clamp created integer range]
  constructor
  · intro all
    have same : named info.name (signedDecimal (min v (2 ^ 63 - 1))) =
        named info.name (signedDecimal v) :=
      snprintf_injective fun size => Except.ok.inj ((written client size).symm.trans (all client size))
    rw [named_int, named_int] at same
    have value := print_int_injective same
    omega
  · intro small handle formatSize
    rw [written, min_eq_left (by omega)]

/-- A key of type `bigint unsigned`. -/
def userId : DBFieldInfo := ⟨CString.lit "id", .longlong, PRI_KEY_FLAG ||| UNSIGNED_FLAG, 20⟩

theorem integer_roundtrip_userId : ∃ field : BaseField Unit,
    FieldFactory.createField userId = some field ∧
    buildFormatSql client
      (field.setValue (some ⟨signedDecimal 9223372036854775807, fun _ => 0⟩) 19).2 148 =
        .ok (ascii "`id`=9223372036854775807") := by
  obtain ⟨field, created, exact_⟩ := @integer_roundtrip_iff Unit _ userId rfl 9223372036854775807
    (by decide) (fun _ => 0) 19
  exact ⟨field, created, exact_.mpr (by decide) client 148⟩

/-- The largest value of the column comes back as the largest `long long`. -/
theorem lastId_not_roundtrip : columnRange userId 18446744073709551615 ∧
    ∃ field : BaseField Unit, FieldFactory.createField userId = some field ∧
      buildFormatSql client
        (field.setValue (some ⟨signedDecimal 18446744073709551615, fun _ => 0⟩) 20).2 148 =
          .ok (ascii "`id`=9223372036854775807") ∧
      ¬ ∀ (handle : Mysql) (formatSize : Nat), buildFormatSql handle
        (field.setValue (some ⟨signedDecimal 18446744073709551615, fun _ => 0⟩) 20).2 formatSize =
          .ok (snprintf formatSize (named userId.name (signedDecimal 18446744073709551615))) := by
  have cut : ∃ field : BaseField Unit, FieldFactory.createField userId = some field ∧
      buildFormatSql client
        (field.setValue (some ⟨signedDecimal 18446744073709551615, fun _ => 0⟩) 20).2 148 =
          .ok (ascii "`id`=9223372036854775807") := ⟨_, rfl, rfl⟩
  obtain ⟨field, created, written⟩ := cut
  refine ⟨by decide, field, created, written, fun all => ?_⟩
  have same := Except.ok.inj (written.symm.trans (all client 148))
  exact absurd same (by decide)

end RoundTrip

section Key

theorem toNat_toUInt64 (v : Int64) : (v.toUInt64.toNat : Int) = v.toInt % 2 ^ 64 := by
  have value : v.toInt = (v.toUInt64.toNat : Int).bmod (2 ^ 64) :=
    BitVec.toInt_eq_toNat_bmod v.toBitVec
  have bound := v.toUInt64.toNat_lt
  have modulus : (2 : Int) ^ 64 = (2 ^ 64 : Nat) := rfl
  rw [value, modulus, Int.bmod_emod]
  omega

theorem toInt_toInt64 (u : UInt64) : u.toInt64.toInt = (u.toNat : Int).bmod (2 ^ 64) :=
  BitVec.toInt_eq_toNat_bmod u.toBitVec

theorem toInt_toInt64_iff (u : UInt64) : u.toInt64.toInt = u.toNat ↔ u.toNat < 2 ^ 63 := by
  have bound := u.toNat_lt
  rw [toInt_toInt64]
  constructor
  · intro same
    have high := Int.bmod_lt (x := u.toNat) (m := 2 ^ 64) (by decide)
    omega
  · intro small
    exact Int.bmod_eq_of_le (by omega) (by omega)

theorem getInt_integer (field : BaseField F) (integer : isInteger field.info.type = true) {v : Int}
    (held : field.edit.value = .int v) :
    ∃ i, field.getInt = .ok i ∧ (i.toInt = v ↔ v < 2 ^ 63) := by
  obtain ⟨info, kind, created, val, changed⟩ := field
  have signed : ∀ {i : Int64} {v : Int}, i.toInt = v → v < 2 ^ 63 → (i.toInt = v ↔ v < 2 ^ 63) :=
    fun same small => iff_of_true same small
  have unsigned : ∀ (u : UInt64) {n : Nat}, u.toNat = n → (u.toInt64.toInt = n ↔ (n : Int) < 2 ^ 63) := by
    rintro u n rfl
    rw [toInt_toInt64_iff]
    omega
  unfold BaseField.getInt FieldKind.getInt
  cases kind with
  | u8 | u16 | u32 =>
    cases held
    exact ⟨_, rfl, unsigned _ (by simp)⟩
  | u64 =>
    cases held
    exact ⟨_, rfl, unsigned val rfl⟩
  | s8 =>
    cases held
    exact ⟨_, rfl, signed (by simp) (lt_trans val.toInt_lt (by decide))⟩
  | s16 =>
    cases held
    exact ⟨_, rfl, signed (by simp) (lt_trans val.toInt_lt (by decide))⟩
  | s32 =>
    cases held
    exact ⟨_, rfl, signed (by simp) (lt_trans val.toInt_lt (by decide))⟩
  | s64 =>
    cases held
    exact ⟨_, rfl, signed rfl val.toInt_lt⟩
  | dbl | str => cases held

/-- For an integer key the `where` and the `set` of its statements have one value just
when it is a `long long`. -/
theorem where_set_agree_iff {record : Record F} {field : BaseField F}
    (at_key : record.getField (u32 (keyIdx record)) = .ok field)
    (integer : isInteger field.info.type = true) {v : Int} (held : field.edit.value = .int v) :
    (∀ (handle : Mysql) (formatSize : Nat), buildFormatSql handle field formatSize =
      .ok (snprintf formatSize (named field.info.name (signedDecimal v)))) ∧
    ∃ w, (∀ cond, buildCondition record cond =
        .ok (true, snprintf 1023 (named field.info.name (signedDecimal w)))) ∧
      (w = v ↔ v < 2 ^ 63) := by
  constructor
  · intro handle formatSize
    rw [buildFormatSql_integer handle field integer, named_int, BaseField.edit, ← held]
    rfl
  · obtain ⟨i, read, same⟩ := getInt_integer field integer held
    refine ⟨i.toInt, fun cond => ?_, same⟩
    rw [buildCondition_eq, keyComparison_of_key at_key, keyLiteral,
      if_pos (isFieldNum_of_isInteger integer), read]
    rfl

/-- A user whose id is the key. -/
def userRecord (id : UInt64) : Record Unit where
  mode := .edit
  tableName := CString.lit "user"
  fields := [some ⟨userId, .u64, rfl, id, true⟩]
  fieldName2Idx := fun _ => some 0
  keyIdx := 0
  autoIncIdx := -1

theorem where_set_agree_user : buildCondition (userRecord 9223372036854775807) [] =
    .ok (true, ascii "`id`=9223372036854775807") := by
  obtain ⟨-, w, condition, same⟩ := @where_set_agree_iff Unit _ (userRecord 9223372036854775807)
    ⟨userId, .u64, rfl, 9223372036854775807, true⟩ rfl rfl 9223372036854775807 rfl
  obtain rfl := same.mpr (by decide)
  exact condition []

/-- The user that was inserted with the largest id is looked for under the id -1. -/
theorem lastUser_not_matched :
    buildInsertSql client (userRecord 18446744073709551615) [] =
      .ok (true, ascii "insert into `user` set `id`=18446744073709551615") ∧
    buildCondition (userRecord 18446744073709551615) [] = .ok (true, ascii "`id`=-1") ∧
    ¬ ∃ v, buildCondition (userRecord 18446744073709551615) [] =
        .ok (true, named userId.name (signedDecimal v)) ∧
      buildInsertSql client (userRecord 18446744073709551615) [] =
        .ok (true, insertText (ascii "user") (named userId.name (signedDecimal v))) := by
  refine ⟨rfl, rfl, ?_⟩
  rintro ⟨v, condition, inserted⟩
  have looked : ascii "`id`=-1" = named userId.name (signedDecimal v) :=
    (Prod.mk.inj (Except.ok.inj condition)).2
  have written : ascii "insert into `user` set `id`=18446744073709551615" =
      insertText (ascii "user") (named userId.name (signedDecimal v)) :=
    (Prod.mk.inj (Except.ok.inj inserted)).2
  rw [← looked] at written
  exact absurd written (by decide)

end Key

end SqlUtil

end LlbcDatabase
