import LlbcDatabase.IntegerColumns

/-! The texts of decimal and timestamp columns. `SetValue` reads both with `atoll`, so a
field keeps of a decimal what stands before the point, and of a timestamp the year. -/

namespace LlbcDatabase

open CText SqlText

section Digits

theorem numberValue_snoc (digits : Bytes) (c : UInt8) :
    numberValue (digits ++ [c]) = 10 * numberValue digits + (c.toNat - 48) := by
  rw [numberValue, List.foldl_append]
  rfl

theorem numberValue_lt {digits : Bytes} (all : ∀ c ∈ digits, isDigit c = true) :
    numberValue digits < 10 ^ digits.length := by
  induction digits using List.reverseRecOn with
  | nil => decide
  | append_singleton digits c ih =>
    have smaller := ih fun d member => all d (List.mem_append_left _ member)
    have digit := isDigit_le (all c (by simp))
    rw [numberValue_snoc, List.length_append, List.length_singleton, pow_succ]
    omega

def padded : Nat → Nat → Bytes
  | 0, _ => []
  | width + 1, n => padded width (n / 10) ++ [UInt8.ofNat (48 + n % 10)]

theorem digit_toNat_ofNat (n : Nat) : (UInt8.ofNat (48 + n % 10)).toNat = 48 + n % 10 := by
  rw [UInt8.toNat_ofNat']
  omega

theorem isDigit_padded {width n : Nat} : ∀ c ∈ padded width n, isDigit c = true := by
  induction width generalizing n with
  | zero => simp [padded]
  | succ width ih =>
    intro c member
    rcases List.mem_append.mp member with earlier | last
    · exact ih c earlier
    · rw [List.mem_singleton.mp last]
      simp only [isDigit, Bool.and_eq_true, decide_eq_true_eq, UInt8.le_iff_toNat_le,
        digit_toNat_ofNat]
      have low : (48 : UInt8).toNat = 48 := rfl
      have high : (57 : UInt8).toNat = 57 := rfl
      omega

theorem numberValue_padded {width n : Nat} (small : n < 10 ^ width) :
    numberValue (padded width n) = n := by
  induction width generalizing n with
  | zero =>
    obtain rfl : n = 0 := by simpa using small
    rfl
  | succ width ih =>
    have front := ih (n := n / 10) (by rw [pow_succ] at small; omega)
    rw [padded, numberValue_snoc, front, digit_toNat_ofNat]
    omega

end Digits

/-- The text of a value of a column `decimal(p, scale)` with at most 15 significant
digits. -/
structure DecimalText (scale : Nat) where
  negative : Bool
  whole : Bytes
  fraction : Bytes
  wholeDigits : ∀ c ∈ whole, isDigit c = true
  fractionDigits : ∀ c ∈ fraction, isDigit c = true
  noLeadingZero : ∃ c rest, whole = c :: rest ∧ (c = 48 → rest = [])
  scaled : fraction.length = scale
  significant : ((whole ++ fraction).dropWhile (· = 48)).length ≤ 15

namespace DecimalText

variable {scale : Nat}

def print (a : DecimalText scale) : Bytes :=
  signed a.negative a.whole ++ if a.fraction.isEmpty then [] else 46 :: a.fraction

/-- What stands before the point, as a number. -/
def wholeValue (a : DecimalText scale) : Int := signedValue a.negative a.whole

theorem wholeValue_lt (a : DecimalText scale) : |a.wholeValue| < 10 ^ 15 := by
  have small : numberValue a.whole < 10 ^ 15 := by
    obtain ⟨c, rest, whole, zero⟩ := a.noLeadingZero
    by_cases leading : c = 48
    · rw [whole, leading, zero leading]
      decide
    · have counted := a.significant
      rw [whole, List.cons_append, List.dropWhile_cons_of_neg (by simpa using leading),
        ← List.cons_append, ← whole, List.length_append] at counted
      calc numberValue a.whole
          < 10 ^ a.whole.length := numberValue_lt a.wholeDigits
        _ ≤ 10 ^ 15 := Nat.pow_le_pow_right (by decide) (by omega)
  rw [wholeValue, signedValue, abs_lt]
  split_ifs <;> omega

theorem atoll_print (a : DecimalText scale) : (atoll a.print).toInt = a.wholeValue := by
  have some_ : a.whole ≠ [] := by
    obtain ⟨c, rest, whole, -⟩ := a.noLeadingZero
    simp [whole]
  have stops : ∀ c ∈ (if a.fraction.isEmpty then [] else 46 :: a.fraction).head?,
      isDigit c = false := by
    intro c member
    split_ifs at member
    · cases member
    · cases member
      rfl
  have bound := abs_lt.mp a.wholeValue_lt
  rw [print, atoll_signed a.negative some_ a.wholeDigits stops]
  exact toInt_clamp (by rw [wholeValue] at bound; omega) (by rw [wholeValue] at bound; omega)

theorem noNul_print (a : DecimalText scale) : 0 ∉ a.print := by
  have digit : ∀ {digits : Bytes}, (∀ c ∈ digits, isDigit c = true) → 0 ∉ digits :=
    fun all member => absurd (all 0 member) (by decide)
  have whole := digit a.wholeDigits
  have fraction := digit a.fractionDigits
  unfold print signed
  split_ifs <;> simp [whole, fraction]

end DecimalText

structure Timestamp where
  year : Nat
  month : Nat
  day : Nat
  hour : Nat
  minute : Nat
  second : Nat
  years : year < 10000
  months : month ≤ 12
  days : day ≤ 31
  hours : hour < 24
  minutes : minute < 60
  seconds : second < 60

namespace Timestamp

/-- `YYYY-MM-DD hh:mm:ss`. -/
def print (t : Timestamp) : Bytes :=
  padded 4 t.year ++ 45 :: padded 2 t.month ++ 45 :: padded 2 t.day ++
    32 :: padded 2 t.hour ++ 58 :: padded 2 t.minute ++ 58 :: padded 2 t.second

theorem atoll_print (t : Timestamp) : (atoll t.print).toInt = t.year := by
  have value : signedValue false (padded 4 t.year) = t.year := by
    rw [signedValue, numberValue_padded t.years]
    rfl
  have bound := t.years
  have text : t.print = signed false (padded 4 t.year) ++ (45 :: padded 2 t.month ++
      45 :: padded 2 t.day ++ 32 :: padded 2 t.hour ++ 58 :: padded 2 t.minute ++
        58 :: padded 2 t.second) := by
    simp [print, signed]
  have some_ : padded 4 t.year ≠ [] := by simp [padded]
  rw [text, atoll_signed false some_ isDigit_padded (by simp [isDigit]), value]
  exact toInt_clamp (by omega) (by omega)

theorem noNul_print (t : Timestamp) : 0 ∉ t.print := by
  have digit : ∀ width n, 0 ∉ padded width n :=
    fun width n member => absurd (isDigit_padded 0 member) (by decide)
  simp [print, digit]

end Timestamp

section Stored

variable {F : Type} [CDouble F]

theorem kind_of_newdecimal {info : DBFieldInfo} (type : info.type = .newdecimal) :
    FieldFactory.createKind info = some .dbl := by
  by_cases unsigned : info.attr &&& UNSIGNED_FLAG = 0 <;>
    simp [FieldFactory.createKind, type, unsigned]

theorem kind_of_timestamp {info : DBFieldInfo} (type : info.type = .timestamp) :
    FieldFactory.createKind info = some .s64 ∨ FieldFactory.createKind info = some .u64 := by
  by_cases unsigned : info.attr &&& UNSIGNED_FLAG = 0 <;>
    simp [FieldFactory.createKind, type, unsigned]

theorem load_same {info : DBFieldInfo} {kind : FieldKind}
    (created : FieldFactory.createKind info = some kind) (reads : readsInt info.type = true)
    {b b' : Buffer} (same : atoll (cstr b.bytes) = atoll (cstr b'.bytes)) (len len' : UInt32) :
    ((⟨info, kind, created, kind.zero, false⟩ : BaseField F).setValue (some b) len).2 =
      ((⟨info, kind, created, kind.zero, false⟩ : BaseField F).setValue (some b') len').2 := by
  rw [load_int created reads, load_int created reads, same]

theorem load_differ {info : DBFieldInfo} {kind : FieldKind}
    (created : FieldFactory.createKind info = some kind) (reads : readsInt info.type = true)
    {text text' : Bytes} (noNul : 0 ∉ text) (noNul' : 0 ∉ text') (rest rest' : Nat → UInt8)
    (len len' : UInt32) :
    ((⟨info, kind, created, kind.zero, false⟩ : BaseField F).setValue (some ⟨text, rest⟩) len).2 ≠
      ((⟨info, kind, created, kind.zero, false⟩ : BaseField F).setValue (some ⟨text', rest'⟩) len').2 ↔
    (kind.ofInt (atoll text) : kind.Data F) ≠ kind.ofInt (atoll text') := by
  rw [load_int created reads, load_int created reads, cstr_eq_self noNul, cstr_eq_self noNul']
  simp

/-- The fields of two texts of one decimal column differ just when the texts differ before
the point, and those of two texts of one timestamp column just when the years differ. A
`double` is assumed to hold the integers up to 2^53. -/
theorem column_text_kept_iff
    (exact_ : ∀ v w : Int, |v| ≤ 2 ^ 53 → |w| ≤ 2 ^ 53 →
      (CDouble.ofInt v : F) = CDouble.ofInt w → v = w)
    (info : DBFieldInfo) :
    (info.type = .newdecimal → ∃ field : BaseField F, FieldFactory.createField info = some field ∧
      ∀ {scale : Nat} (a b : DecimalText scale) (rest rest' : Nat → UInt8) (len len' : UInt32),
        (field.setValue (some ⟨a.print, rest⟩) len).2 ≠
          (field.setValue (some ⟨b.print, rest'⟩) len').2 ↔ a.wholeValue ≠ b.wholeValue) ∧
    (info.type = .timestamp → ∃ field : BaseField F, FieldFactory.createField info = some field ∧
      ∀ (a b : Timestamp) (rest rest' : Nat → UInt8) (len len' : UInt32),
        (field.setValue (some ⟨a.print, rest⟩) len).2 ≠
          (field.setValue (some ⟨b.print, rest'⟩) len').2 ↔ a.year ≠ b.year) := by
  constructor
  · intro type
    have created := kind_of_newdecimal type
    have reads : readsInt info.type = true := by rw [type]; rfl
    refine ⟨_, FieldFactory.createField_some created, fun a b rest rest' len len' => ?_⟩
    have bound := abs_lt.mp a.wholeValue_lt
    have bound' := abs_lt.mp b.wholeValue_lt
    rw [load_differ created reads a.noNul_print b.noNul_print]
    simp only [FieldKind.ofInt, a.atoll_print, b.atoll_print]
    refine not_congr ⟨exact_ _ _ (abs_le.mpr ?_) (abs_le.mpr ?_), congrArg _⟩
    · omega
    · omega
  · intro type
    have reads : readsInt info.type = true := by rw [type]; rfl
    have same_iff : ∀ a b : Timestamp, atoll a.print = atoll b.print ↔ a.year = b.year := by
      intro a b
      rw [← Int64.toInt_inj, a.atoll_print, b.atoll_print]
      omega
    rcases kind_of_timestamp type with created | created <;>
      refine ⟨_, FieldFactory.createField_some created, fun a b rest rest' len len' => ?_⟩ <;>
        rw [load_differ created reads a.noNul_print b.noNul_print]
    · exact not_congr (same_iff a b)
    · have unsigned : Function.Injective Int64.toUInt64 :=
        Function.LeftInverse.injective Int64.toInt64_toUInt64
      exact not_congr (unsigned.eq_iff.trans (same_iff a b))

/-- A `double` for runs that meet only integers. -/
instance : CDouble Int where
  ofInt v := v
  toInt v := Int64.ofInt v
  atof s := (atoll s).toInt
  format v := signedDecimal v ++ ascii ".000000"

def price : DBFieldInfo := ⟨CString.lit "price", .newdecimal, 0, 12⟩

def createdAt : DBFieldInfo := ⟨CString.lit "created", .timestamp, UNSIGNED_FLAG, 19⟩

theorem column_text_kept_price : ∃ field : BaseField Int,
    FieldFactory.createField price = some field ∧
    (field.setValue (some ⟨ascii "1.25", fun _ => 0⟩) 4).2 ≠
      (field.setValue (some ⟨ascii "2.25", fun _ => 0⟩) 4).2 := by
  obtain ⟨field, created, differ⟩ :=
    (column_text_kept_iff (F := Int) (fun v w _ _ same => same) price).1 rfl
  have texts := differ
    (⟨false, ascii "1", ascii "25", List.all_eq_true.mp rfl, List.all_eq_true.mp rfl,
      ⟨49, [], rfl, fun _ => rfl⟩, rfl, by decide⟩ : DecimalText 2)
    ⟨false, ascii "2", ascii "25", List.all_eq_true.mp rfl, List.all_eq_true.mp rfl,
      ⟨50, [], rfl, fun _ => rfl⟩, rfl, by decide⟩ (fun _ => 0) (fun _ => 0) 4 4
  exact ⟨field, created, texts.mpr (by decide)⟩

/-- Two prices with one whole part, and two times of one year, are loaded as the same. -/
theorem price_text_lost :
    (∃ a b : DecimalText 2, a.print = ascii "1.25" ∧ b.print = ascii "1.50" ∧
      ∃ field : BaseField Int, FieldFactory.createField price = some field ∧
        (field.setValue (some ⟨a.print, fun _ => 0⟩) 4).2 =
          (field.setValue (some ⟨b.print, fun _ => 0⟩) 4).2) ∧
    ∃ a b : Timestamp, a.print = ascii "2024-01-01 00:00:00" ∧
      b.print = ascii "2024-06-30 12:15:00" ∧
      ∃ field : BaseField Int, FieldFactory.createField createdAt = some field ∧
        (field.setValue (some ⟨a.print, fun _ => 0⟩) 19).2 =
          (field.setValue (some ⟨b.print, fun _ => 0⟩) 19).2 := by
  constructor
  · refine ⟨⟨false, ascii "1", ascii "25", List.all_eq_true.mp rfl, List.all_eq_true.mp rfl,
      ⟨49, [], rfl, fun _ => rfl⟩, rfl, by decide⟩, ⟨false, ascii "1", ascii "50",
        List.all_eq_true.mp rfl, List.all_eq_true.mp rfl, ⟨49, [], rfl, fun _ => rfl⟩, rfl,
          by decide⟩, rfl, rfl, _, rfl, ?_⟩
    exact @load_same Int _ price .dbl rfl rfl _ _ (by decide) 4 4
  · refine ⟨⟨2024, 1, 1, 0, 0, 0, by decide, by decide, by decide, by decide, by decide,
      by decide⟩, ⟨2024, 6, 30, 12, 15, 0, by decide, by decide, by decide, by decide, by decide,
        by decide⟩, rfl, rfl, _, rfl, ?_⟩
    exact @load_same Int _ createdAt .u64 rfl rfl _ _ (by decide) 19 19

end Stored

end LlbcDatabase
