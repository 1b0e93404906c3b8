import LlbcDatabase.Library.SqlLexer

/-! Writing names, literals and lists of assignments into a statement, and reading
them back. A string is written escaped or raw: escaped it is always read back, and
raw just when it is `plain`. -/

namespace SqlText

open CText

/-- What may follow a literal without going on with it. -/
def Stops (rest : Bytes) : Prop := ∀ c ∈ rest.head?, c = 44 ∨ c = 32

theorem Stops.nil : Stops [] := nofun

theorem Stops.comma (rest : Bytes) : Stops (44 :: rest) := by simp [Stops]

theorem Stops.blank (rest : Bytes) : Stops (32 :: rest) := by simp [Stops]

section Names

theorem lex_identEnd (name : Bytes) {rest : Bytes} (single : rest.head? ≠ some 96) :
    lex (.identEnd name) rest = .ident name :: lex .gap rest := by
  cases rest with
  | nil => rfl
  | cons c rest =>
    have other : c ≠ 96 := by simpa using single
    rw [lex_cons, step, if_neg other, lex_after]
    rfl

theorem scan_ident {name : Bytes} (noTick : 96 ∉ name) (front : Bytes) :
    scan (.ident front) name = ([], .ident (front ++ name)) := by
  induction name generalizing front with
  | nil => simp
  | cons c name ih =>
    have other : c ≠ 96 := fun same => noTick (by simp [same])
    have rest : 96 ∉ name := fun member => noTick (.tail _ member)
    simp [scan, step, other, ih rest]

theorem lex_ident {name rest : Bytes} (noTick : 96 ∉ name) (single : rest.head? ≠ some 96) :
    lex .gap (96 :: name ++ 96 :: rest) = .ident name :: lex .gap rest := by
  have opened : step .gap 96 = ([], .ident []) := by decide
  rw [List.cons_append, lex_cons, opened, lex_append, scan_ident noTick, lex_cons]
  simp [step, lex_identEnd name single]

end Names

section Strings

theorem lex_strEnd (value : Bytes) {rest : Bytes} (stops : Stops rest) :
    lex (.strEnd 39 value) rest = .str value :: lex .gap rest := by
  cases rest with
  | nil => rfl
  | cons c rest =>
    have other : c ≠ 39 := by
      rcases stops c (by simp) with rfl | rfl <;> decide
    rw [lex_cons, step, if_neg other, lex_after]
    rfl

/-- The bytes that the client library escapes. -/
def special (c : UInt8) : Bool := c ∈ [0, 10, 13, 26, 34, 39, 92]

def escapeByte (c : UInt8) : Bytes :=
  if c = 0 then [92, 48]
  else if c = 10 then [92, 110]
  else if c = 13 then [92, 114]
  else if c = 26 then [92, 90]
  else if c = 34 || c = 39 || c = 92 then [92, c]
  else [c]

def escape (value : Bytes) : Bytes := value.flatMap escapeByte

theorem escapeByte_length (c : UInt8) :
    (escapeByte c).length = if special c then 2 else 1 := by
  unfold escapeByte special
  split_ifs <;> simp_all

theorem escape_length (value : Bytes) :
    (escape value).length = value.length + value.countP special := by
  induction value with
  | nil => rfl
  | cons c value ih =>
    rw [escape, List.flatMap_cons, List.length_append, ← escape, ih, escapeByte_length,
      List.countP_cons, List.length_cons]
    split_ifs <;> omega

/-- The escaping loop in a buffer of `room` bytes, with the terminator behind it: what is
left of the buffer, or none where a byte does not fit. -/
def escapeLoop : Nat → Bytes → Option Nat
  | room, [] => if 1 ≤ room then some (room - 1) else none
  | room, c :: rest =>
    if (escapeByte c).length ≤ room then escapeLoop (room - (escapeByte c).length) rest else none

theorem escapeLoop_eq_none_iff (room : Nat) (value : Bytes) :
    escapeLoop room value = none ↔ room < (escape value).length + 1 := by
  induction value generalizing room with
  | nil =>
    rw [escapeLoop]
    split_ifs with fits
    · simp only [escape, List.flatMap_nil, List.length_nil, false_iff]
      omega
    · simp only [escape, List.flatMap_nil, List.length_nil, true_iff]
      omega
  | cons c value ih =>
    have length : (escape (c :: value)).length = (escapeByte c).length + (escape value).length := by
      rw [escape, List.flatMap_cons, List.length_append, ← escape]
    rw [escapeLoop, length]
    split_ifs with fits
    · rw [ih]
      omega
    · simp only [true_iff]
      omega

theorem noNul_escape (value : Bytes) : 0 ∉ escape value := by
  intro member
  obtain ⟨c, -, member⟩ := List.mem_flatMap.mp member
  unfold escapeByte at member
  split_ifs at member <;> simp_all

theorem scan_escapeByte (front : Bytes) (c : UInt8) :
    scan (.str 39 front) (escapeByte c) = ([], .str 39 (front ++ [c])) := by
  unfold escapeByte
  split_ifs with nul newline return_ substitute quote
  · simp [scan, step, unescape, nul]
  · simp [scan, step, unescape, newline]
  · simp [scan, step, unescape, return_]
  · simp [scan, step, unescape, substitute]
  · simp only [Bool.or_eq_true, decide_eq_true_eq] at quote
    rcases quote with (rfl | rfl) | rfl <;> simp [scan, step, unescape]
  · have plain : c ≠ 39 ∧ c ≠ 92 := by simp_all
    simp [scan, step, plain]

theorem scan_append (m : Mode) (front rest : Bytes) :
    scan m (front ++ rest) = ((scan m front).1 ++ (scan (scan m front).2 rest).1,
      (scan (scan m front).2 rest).2) := by
  induction front generalizing m with
  | nil => rfl
  | cons c front ih => simp [scan, ih]

theorem scan_escape (front value : Bytes) :
    scan (.str 39 front) (escape value) = ([], .str 39 (front ++ value)) := by
  induction value generalizing front with
  | nil => simp [escape]
  | cons c value ih =>
    rw [escape, List.flatMap_cons, ← escape, scan_append, scan_escapeByte, ih]
    simp

theorem lex_quote (rest : Bytes) : lex .gap (39 :: rest) = lex (.str 39 []) rest := by
  have opened : step .gap 39 = ([], .str 39 []) := by decide
  rw [lex_cons, opened, List.nil_append]

theorem lex_unquote (value : Bytes) {rest : Bytes} (stops : Stops rest) :
    lex (.str 39 value) (39 :: rest) = .str value :: lex .gap rest := by
  have closed : step (.str 39 value) 39 = ([], .strEnd 39 value) := by simp [step]
  rw [lex_cons, closed, List.nil_append, lex_strEnd value stops]

/-- An escaped string is read back, whatever its bytes are. -/
theorem lex_str (value : Bytes) {rest : Bytes} (stops : Stops rest) :
    lex .gap (39 :: escape value ++ 39 :: rest) = .str value :: lex .gap rest := by
  rw [List.cons_append, lex_quote, lex_append, scan_escape, List.nil_append, List.nil_append,
    lex_unquote value stops]

/-- The strings that need no escaping: no single quote, and a backslash only before
`%` or `_`, which keep it. -/
def plain : Bytes → Bool
  | [] => true
  | [c] => c ≠ 39 && c ≠ 92
  | c :: d :: rest =>
    if c = 92 then (d = 37 || d = 95) && plain rest
    else c ≠ 39 && plain (d :: rest)

theorem scan_plain {value : Bytes} (safe : plain value = true) (front : Bytes) :
    scan (.str 39 front) value = ([], .str 39 (front ++ value)) := by
  induction value using plain.induct generalizing front with
  | case1 => simp
  | case2 c =>
    simp only [plain, Bool.and_eq_true, decide_eq_true_eq] at safe
    simp [scan, step, safe.1, safe.2]
  | case3 d rest ih =>
    simp only [plain, if_true, Bool.and_eq_true, Bool.or_eq_true, decide_eq_true_eq] at safe
    have kept : unescape d = [92, d] := by
      rcases safe.1 with rfl | rfl <;> rfl
    simp [scan, step, kept, ih safe.2]
  | case4 c d rest other ih =>
    simp only [plain, if_neg other, Bool.and_eq_true, decide_eq_true_eq] at safe
    rw [scan]
    simp [step, safe.1, other, ih safe.2]

theorem unescape_length_one {c : UInt8} (lost : ¬ (c = 37 ∨ c = 95)) : (unescape c).length = 1 := by
  unfold unescape
  split_ifs <;> simp_all

/-- A raw string that is read back is plain: whatever else its first quote or
backslash did, too few bytes are left for the value. -/
theorem plain_of_lex {value : Bytes} (front : Bytes)
    (read : lex (.str 39 front) (value ++ [39]) = [.str (front ++ value)]) :
    plain value = true := by
  induction value using plain.induct generalizing front with
  | case1 => rfl
  | case2 c =>
    by_cases quote : c = 39
    · simp [quote, lex_cons, step, finish] at read
    by_cases slash : c = 92
    · simp [slash, lex_cons, step, finish] at read
    simp [plain, quote, slash]
  | case3 d rest ih =>
    have escaped : step (.str 39 front) 92 = ([], .escaped 39 front) := rfl
    rw [List.cons_append, List.cons_append, lex_cons, escaped, lex_cons] at read
    simp only [step, List.nil_append] at read
    by_cases kept : d = 37 ∨ d = 95
    · have same : unescape d = [92, d] := by
        rcases kept with rfl | rfl <;> rfl
      rw [same] at read
      have safe := ih (front ++ [92, d]) (by simpa using read)
      simpa [plain, kept] using safe
    · have bound := lex_cost (.str 39 (front ++ unescape d)) (rest ++ [39])
      have lost := unescape_length_one kept
      simp [read, Mode.cost, Token.cost, lost] at bound
      omega
  | case4 c d rest other ih =>
    rw [List.cons_append, lex_cons] at read
    by_cases quote : c = 39
    · subst quote
      rw [List.cons_append, lex_cons] at read
      by_cases doubled : d = 39
      · have bound := lex_cost (.str 39 (front ++ [39])) (rest ++ [39])
        simp [doubled, step] at read
        simp [read, Mode.cost, Token.cost] at bound
        omega
      · simp [step, doubled, after] at read
    · have safe := ih (front ++ [c]) (by simpa [step, quote, other] using read)
      simp [plain, quote, other, safe]

/-- A comparison of a name with a string, both written raw. -/
def rawComparison (name value : Bytes) : Bytes := 96 :: name ++ 96 :: 61 :: 39 :: value ++ [39]

theorem lex_equals (rest : Bytes) : lex .gap (61 :: rest) = .symbol 61 :: lex .gap rest := by
  have symbol : step .gap 61 = ([.symbol 61], .gap) := by decide
  rw [lex_cons, symbol]
  rfl

theorem lex_rawComparison {name value rest : Bytes} (noTick : 96 ∉ name)
    (safe : plain value = true) (stops : Stops rest) :
    lex .gap (rawComparison name value ++ rest) =
      .ident name :: .symbol 61 :: .str value :: lex .gap rest := by
  have shape : rawComparison name value ++ rest =
      96 :: name ++ 96 :: (61 :: (39 :: (value ++ 39 :: rest))) := by simp [rawComparison]
  rw [shape, lex_ident noTick (by simp), lex_equals, lex_quote, lex_append, scan_plain safe,
    List.nil_append, List.nil_append, lex_unquote value stops]

theorem comparison_length {text name value : Bytes}
    (read : tokens text = [.ident name, .symbol 61, .str value]) :
    name.length + name.count 96 + value.length + 5 ≤ text.length := by
  have bound := lex_cost .gap text
  rw [← tokens, read] at bound
  simp only [cost_cons, cost_nil, Token.cost, Mode.cost] at bound
  omega

theorem tokens_rawComparison_iff (name value : Bytes) :
    tokens (rawComparison name value) = [.ident name, .symbol 61, .str value] ↔
      96 ∉ name ∧ plain value = true := by
  constructor
  · intro read
    have bound := comparison_length read
    simp only [rawComparison, List.length_append, List.length_cons, List.length_nil] at bound
    have noTick : 96 ∉ name := List.count_eq_zero.mp (by omega)
    refine ⟨noTick, plain_of_lex [] ?_⟩
    have shape : rawComparison name value =
        96 :: name ++ 96 :: (61 :: (39 :: (value ++ [39]))) := by simp [rawComparison]
    rw [tokens, shape, lex_ident noTick (by simp), lex_equals, lex_quote] at read
    simpa using read
  · intro ⟨noTick, safe⟩
    have read := lex_rawComparison noTick safe Stops.nil
    rwa [List.append_nil] at read

end Strings

section Numbers

def decimal (n : Nat) : Bytes := (Nat.toDigits 10 n).map fun c => UInt8.ofNat c.toNat

def signedDecimal (v : Int) : Bytes := if v < 0 then 45 :: decimal v.natAbs else decimal v.natAbs

def numberValue (digits : Bytes) : Nat := digits.foldl (fun n c => 10 * n + (c.toNat - 48)) 0

theorem decimal_ne_nil (n : Nat) : decimal n ≠ [] := by
  simp [decimal, Nat.toDigits_ne_nil]

theorem digit_toNat {c : Char} (digit : c.isDigit = true) :
    48 ≤ c.toNat ∧ c.toNat ≤ 57 ∧ (UInt8.ofNat c.toNat).toNat = c.toNat := by
  simp only [Char.isDigit, Bool.and_eq_true, decide_eq_true_eq, ge_iff_le, UInt32.le_iff_toNat_le]
    at digit
  have low : 48 ≤ c.toNat := digit.1
  have high : c.toNat ≤ 57 := digit.2
  refine ⟨low, high, ?_⟩
  rw [UInt8.toNat_ofNat']
  omega

theorem isDigit_decimal {n : Nat} {c : UInt8} (member : c ∈ decimal n) : isDigit c = true := by
  obtain ⟨d, found, rfl⟩ := List.mem_map.mp member
  obtain ⟨low, high, same⟩ := digit_toNat (Nat.isDigit_of_mem_toDigits (by decide) (by decide) found)
  simp only [isDigit, Bool.and_eq_true, decide_eq_true_eq, UInt8.le_iff_toNat_le, same]
  exact ⟨low, high⟩

theorem foldl_digits {cs : List Char} (all : ∀ c ∈ cs, c.isDigit = true) (acc : Nat) :
    (cs.map fun c => UInt8.ofNat c.toNat).foldl (fun n c => 10 * n + (c.toNat - 48)) acc =
      Nat.ofDigitChars 10 cs acc := by
  induction cs generalizing acc with
  | nil => simp
  | cons c cs ih =>
    obtain ⟨-, -, same⟩ := digit_toNat (all c (.head _))
    rw [List.map_cons, List.foldl_cons, same, Nat.ofDigitChars_cons,
      ih fun d member => all d (.tail _ member)]
    rfl

theorem numberValue_decimal (n : Nat) : numberValue (decimal n) = n := by
  have digits : ∀ c ∈ Nat.toDigits 10 n, c.isDigit = true := fun c member =>
    Nat.isDigit_of_mem_toDigits (by decide) (by decide) member
  rw [numberValue, decimal, foldl_digits digits]
  exact Nat.ofDigitChars_toDigits (by decide) (by decide)

theorem decimal_injective {m n : Nat} (same : decimal m = decimal n) : m = n := by
  rw [← numberValue_decimal m, same, numberValue_decimal]

theorem minus_notMem_decimal (n : Nat) : 45 ∉ decimal n := fun member =>
  absurd (isDigit_decimal member) (by decide)

theorem signedDecimal_injective {v w : Int} (same : signedDecimal v = signedDecimal w) :
    v = w := by
  unfold signedDecimal at same
  split_ifs at same with negative negative' negative'
  · have digits := decimal_injective (List.cons.inj same).2
    omega
  · exact absurd (same ▸ List.mem_cons_self) (minus_notMem_decimal w.natAbs)
  · exact absurd (same ▸ List.mem_cons_self) (minus_notMem_decimal v.natAbs)
  · have digits := decimal_injective same
    omega

theorem noNul_signedDecimal (v : Int) : 0 ∉ signedDecimal v := by
  have digits : 0 ∉ decimal v.natAbs := fun member => absurd (isDigit_decimal member) (by decide)
  unfold signedDecimal
  split_ifs <;> simp [digits]

theorem start_digit {c : UInt8} (digit : isDigit c = true) : start c = ([], .number [c]) := by
  simp only [isDigit, Bool.and_eq_true, decide_eq_true_eq, UInt8.le_iff_toNat_le] at digit
  have low : 48 ≤ c.toNat := digit.1
  have high : c.toNat ≤ 57 := digit.2
  have blank : isBlank c = false := by
    simp [isBlank, ← UInt8.toNat_inj, UInt8.le_iff_toNat_le]
    omega
  have others : c ≠ 96 ∧ c ≠ 39 ∧ c ≠ 34 := by
    simp only [ne_eq, ← UInt8.toNat_inj]
    refine ⟨?_, ?_, ?_⟩ <;> simp <;> omega
  simp [start, blank, others, isDigit, UInt8.le_iff_toNat_le, low, high]

theorem scan_digits {digits : Bytes} (all : ∀ c ∈ digits, isDigit c = true) (front : Bytes) :
    scan (.number front) digits = ([], .number (front ++ digits)) := by
  induction digits generalizing front with
  | nil => simp
  | cons c digits ih =>
    have digit := all c (.head _)
    simp [scan, step, digit, ih fun d member => all d (.tail _ member)]

theorem lex_numberEnd (digits : Bytes) {rest : Bytes} (stops : Stops rest) :
    lex (.number digits) rest = .number digits :: lex .gap rest := by
  cases rest with
  | nil => rfl
  | cons c rest =>
    have other : isDigit c = false ∧ isLetter c = false := by
      rcases stops c (by simp) with rfl | rfl <;> decide
    rw [lex_cons, step, other.1, other.2]
    simp only [Bool.false_eq_true, if_false]
    rw [lex_after]
    rfl

theorem lex_decimal (n : Nat) {rest : Bytes} (stops : Stops rest) :
    lex .gap (decimal n ++ rest) = .number (decimal n) :: lex .gap rest := by
  cases digits : decimal n with
  | nil => exact absurd digits (decimal_ne_nil n)
  | cons c tail =>
    have all : ∀ d ∈ c :: tail, isDigit d = true := fun d member =>
      isDigit_decimal (n := n) (digits ▸ member)
    rw [List.cons_append, lex_cons, step, start_digit (all c (.head _)), lex_append,
      scan_digits fun d member => all d (.tail _ member)]
    simp [lex_numberEnd _ stops]

end Numbers

end SqlText
