import Mathlib

/-! Byte strings as C code sees them: text that ends at its first NUL, formatted
output that is cut to its buffer, and buffers whose end only a length tells. -/

namespace CText

abbrev Bytes := List UInt8

def ascii (s : String) : Bytes := s.toList.map fun c => UInt8.ofNat c.toNat

/-- What `%s`, `strlen` and `c_str` readers see: the bytes before the first NUL. -/
def cstr (b : Bytes) : Bytes := b.takeWhile (· ≠ 0)

structure CString where
  bytes : Bytes
  noNul : 0 ∉ bytes
  deriving DecidableEq

theorem noNul_nil : 0 ∉ ([] : Bytes) := List.not_mem_nil

/-- `snprintf(buf, size, ..)`: the text is cut so that its terminator fits. -/
def snprintf (size : Nat) (text : Bytes) : Bytes := text.take (size - 1)

/-- `tolower` in the C locale. -/
def toLower (c : UInt8) : UInt8 := if 65 ≤ c ∧ c ≤ 90 then c + 32 else c

theorem cstr_eq_self {b : Bytes} (h : 0 ∉ b) : cstr b = b := by
  refine List.takeWhile_eq_self_iff.mpr fun c member => ?_
  have nonzero : c ≠ 0 := fun zero => h (zero ▸ member)
  simpa using nonzero

theorem cstr_length_le (b : Bytes) : (cstr b).length ≤ b.length :=
  (List.takeWhile_prefix _).length_le

theorem noNul_cstr (b : Bytes) : 0 ∉ cstr b := by
  intro member
  have nonzero := List.mem_takeWhile_imp member
  simp at nonzero

def CString.lit (s : String) : CString := ⟨cstr (ascii s), noNul_cstr _⟩

theorem cstr_length_eq_iff (b : Bytes) : (cstr b).length = b.length ↔ 0 ∉ b := by
  constructor
  · intro same
    have whole : cstr b = b := (List.takeWhile_prefix _).eq_of_length same
    rw [← whole]
    exact noNul_cstr b
  · intro h
    rw [cstr_eq_self h]

theorem snprintf_eq_self {size : Nat} {text : Bytes} (fits : text.length < size) :
    snprintf size text = text := List.take_of_length_le (by omega)

theorem snprintf_injective {text text' : Bytes}
    (same : ∀ size, snprintf size text = snprintf size text') : text = text' := by
  have long := same (text.length + text'.length + 1)
  rwa [snprintf_eq_self (by omega), snprintf_eq_self (by omega)] at long

theorem noNul_snprintf {size : Nat} {text : Bytes} (h : 0 ∉ text) : 0 ∉ snprintf size text :=
  fun member => h (List.mem_of_mem_take member)

/-- A buffer that holds its bytes, a NUL, and then bytes nobody has promised. -/
structure Buffer where
  bytes : Bytes
  rest : Nat → UInt8

namespace Buffer

def byte (b : Buffer) (i : Nat) : UInt8 :=
  if h : i < b.bytes.length then b.bytes[i]
  else if i = b.bytes.length then 0 else b.rest (i - b.bytes.length - 1)

/-- The first `n` bytes, whatever they are. -/
def read (b : Buffer) (n : Nat) : Bytes := (List.range n).map b.byte

@[simp] theorem read_length (b : Buffer) (n : Nat) : (b.read n).length = n := by simp [read]

theorem read_eq_iff (b : Buffer) (n : Nat) : b.read n = b.bytes ↔ n = b.bytes.length := by
  constructor
  · intro same
    rw [← same, read_length]
  · intro length
    refine List.ext_getElem (by rw [read_length, length]) fun i inside bound => ?_
    simp [read, byte, bound]

end Buffer

end CText
