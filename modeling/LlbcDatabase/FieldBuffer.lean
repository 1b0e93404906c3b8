import LlbcDatabase.SqlDecode

/-! The size of the buffer that `BuildOperation` gives to every assignment. It is that of
the last field whose declared length exceeds the size so far, which is twice the length of
the field that set it. The scratch buffer of a string has twice the length of its value. -/

namespace LlbcDatabase

open CText SqlText

namespace SqlUtil

variable {F : Type}

section Exact

/-- A step of the first loop without the bounds of its types. -/
def exactMax (max : Nat) (field : BaseField F) : Nat :=
  if isFieldNum field.info.type && max = 0 then 20
  else if max < field.info.len.toNat then 2 * field.info.len.toNat
  else max

def exactSize (fields : List (BaseField F)) : Nat :=
  (fields.filter (·.changed)).foldl exactMax 0 + 128

theorem le_exactMax (max : Nat) (field : BaseField F) : max ≤ exactMax max field := by
  unfold exactMax
  split_ifs with number longer
  · simp only [Bool.and_eq_true, decide_eq_true_eq] at number
    omega
  · omega
  · exact le_refl max

theorem le_foldl_exactMax (max : Nat) (fields : List (BaseField F)) :
    max ≤ fields.foldl exactMax max := by
  induction fields generalizing max with
  | nil => exact le_refl max
  | cons field rest ih => exact (le_exactMax max field).trans (ih _)

theorem maxFieldStrLen_exact {max : Nat} {field : BaseField F}
    (fits : exactMax max field < 2 ^ 31) : maxFieldStrLen max field = exactMax max field := by
  have whole : u32 max = max := by
    have below := le_exactMax max field
    rw [u32]
    omega
  have zero : decide ((max : Int) = 0) = decide (max = 0) := by simp
  unfold exactMax at fits ⊢
  rw [maxFieldStrLen, whole, zero]
  split_ifs at fits ⊢
  · rfl
  · have doubled : (field.info.len * 2).toNat = 2 * field.info.len.toNat := by
      rw [UInt32.toNat_mul, show UInt32.toNat 2 = 2 from rfl]
      omega
    rw [doubled, s32_of_lt fits]
  · rfl

theorem foldl_maxFieldStrLen {max : Nat} {fields : List (BaseField F)}
    (fits : fields.foldl exactMax max < 2 ^ 31) :
    fields.foldl maxFieldStrLen (max : Int) = (fields.foldl exactMax max : Nat) := by
  induction fields generalizing max with
  | nil => rfl
  | cons field rest ih =>
    have first : exactMax max field < 2 ^ 31 := (le_foldl_exactMax _ rest).trans_lt fits
    rw [List.foldl_cons, List.foldl_cons, maxFieldStrLen_exact first]
    exact ih fits

theorem bufferSize_eq_iff (fields : List (BaseField F)) :
    bufferSize fields = exactSize fields ↔ exactSize fields < 2 ^ 31 := by
  constructor
  · intro same
    have bound : bufferSize fields < 2 ^ 31 := Int.bmod_lt (m := 2 ^ 32) (by decide)
    omega
  · intro fits
    have bound : (fields.filter (·.changed)).foldl exactMax 0 < 2 ^ 31 := by
      unfold exactSize at fits
      omega
    have loop := foldl_maxFieldStrLen bound
    have size := s32_of_lt fits
    rw [bufferSize, ← size, exactSize, Nat.cast_add, ← loop]
    rfl

end Exact

section Rooms

/-- The rooms of the fields that set the size, the last one first. The first of them has 20
bytes if it is a number, and the others have twice their declared length, which exceeds
every room before. -/
def rooms : List Nat → List (BaseField F) → List Nat
  | before, [] => before
  | before, field :: rest =>
    if isFieldNum field.info.type && before.isEmpty then rooms [20] rest
    else if 0 < field.info.len.toNat ∧ ∀ room ∈ before, room < field.info.len.toNat then
      rooms (2 * field.info.len.toNat :: before) rest
    else rooms before rest

def changedRooms (fields : List (BaseField F)) : List Nat := rooms [] (fields.filter (·.changed))

/-- The latest room is the largest one. -/
def Growing (set : List Nat) : Prop := ∀ room ∈ set, 0 < room ∧ room ≤ set.headD 0

theorem Growing.headD_eq_zero {set : List Nat} (growing : Growing set) :
    set.headD 0 = 0 ↔ set = [] := by
  cases set with
  | nil => simp
  | cons room before =>
    have positive := (growing room (.head _)).1
    simp only [List.headD_cons, reduceCtorEq, iff_false]
    omega

theorem Growing.exceeds {set : List Nat} (growing : Growing set) (len : Nat) :
    (0 < len ∧ ∀ room ∈ set, room < len) ↔ set.headD 0 < len := by
  constructor
  · rintro ⟨positive, above⟩
    cases set with
    | nil => exact positive
    | cons room before => exact above room (.head _)
  · intro above
    exact ⟨by omega, fun room member => (growing room member).2.trans_lt above⟩

theorem rooms_growing {before : List Nat} (growing : Growing before) (fields : List (BaseField F)) :
    Growing (rooms before fields) ∧
      fields.foldl exactMax (before.headD 0) = (rooms before fields).headD 0 := by
  induction fields generalizing before with
  | nil => exact ⟨growing, rfl⟩
  | cons field rest ih =>
    rw [List.foldl_cons, exactMax, rooms]
    have empty : before.isEmpty = decide (before.headD 0 = 0) := by
      rw [Bool.eq_iff_iff, List.isEmpty_iff, decide_eq_true_iff, growing.headD_eq_zero]
    rw [empty]
    simp only [growing.exceeds]
    split_ifs with number longer
    · have first : Growing [20] := by simp [Growing]
      exact ih first
    · have next : Growing (2 * field.info.len.toNat :: before) := by
        intro room member
        rw [List.headD_cons]
        rcases List.mem_cons.mp member with rfl | member
        · omega
        · have old := growing room member
          omega
      exact ih next
    · exact ih growing

theorem mem_rooms {before : List Nat} {fields : List (BaseField F)} {room : Nat}
    (member : room ∈ rooms before fields) :
    room ∈ before ∨ room = 20 ∨ ∃ f ∈ fields, room = 2 * f.info.len.toNat := by
  induction fields generalizing before with
  | nil => exact .inl member
  | cons field rest ih =>
    rw [rooms] at member
    split_ifs at member
    · rcases ih member with first | number | ⟨f, inside, double⟩
      · exact .inr (.inl (List.mem_singleton.mp first))
      · exact .inr (.inl number)
      · exact .inr (.inr ⟨f, .tail _ inside, double⟩)
    · rcases ih member with first | number | ⟨f, inside, double⟩
      · rcases List.mem_cons.mp first with own | old
        · exact .inr (.inr ⟨field, .head _, own⟩)
        · exact .inl old
      · exact .inr (.inl number)
      · exact .inr (.inr ⟨f, .tail _ inside, double⟩)
    · rcases ih member with old | number | ⟨f, inside, double⟩
      · exact .inl old
      · exact .inr (.inl number)
      · exact .inr (.inr ⟨f, .tail _ inside, double⟩)

theorem changedRooms_growing (fields : List (BaseField F)) :
    Growing (changedRooms fields) ∧ exactSize fields = (changedRooms fields).headD 0 + 128 := by
  have none : Growing [] := by simp [Growing]
  have all := rooms_growing none (fields.filter (·.changed))
  exact ⟨all.1, congrArg (· + 128) all.2⟩

theorem exactSize_lt_iff (fields : List (BaseField F)) :
    exactSize fields < 2 ^ 31 ↔ ∀ room ∈ changedRooms fields, room + 128 < 2 ^ 31 := by
  obtain ⟨growing, size⟩ := changedRooms_growing fields
  rw [size]
  constructor
  · intro fits room member
    have below := (growing room member).2
    omega
  · intro fits
    cases set : changedRooms fields with
    | nil => decide
    | cons room before => exact fits room (by simp [set])

/-- The size is the exact one, positive and at least every room, just when every room with
its 128 bytes fits a `sint32`. -/
theorem bufferSize_exact_iff (fields : List (BaseField F)) :
    (bufferSize fields = exactSize fields ∧ 0 < bufferSize fields ∧
      ∀ room ∈ changedRooms fields, (room : Int) ≤ bufferSize fields) ↔
    ∀ room ∈ changedRooms fields, room + 128 < 2 ^ 31 := by
  rw [← exactSize_lt_iff, ← bufferSize_eq_iff]
  constructor
  · exact fun all => all.1
  · intro same
    obtain ⟨growing, size⟩ := changedRooms_growing fields
    refine ⟨same, by omega, fun room member => ?_⟩
    have below := (growing room member).2
    omega

/-- A changed `longtext`. -/
def article : BaseField Unit :=
  ⟨⟨CString.lit "body", .blob, 0, 4294967295⟩, .str, rfl, ascii "hello", true⟩

/-- Its length is doubled to -2, and its buffer has 126 bytes. -/
theorem article_size_wraps :
    bufferSize [article] = 126 ∧ exactSize [article] = 2 * 4294967295 + 128 ∧
    ¬ (bufferSize [article] = exactSize [article] ∧ 0 < bufferSize [article] ∧
      ∀ room ∈ changedRooms [article], (room : Int) ≤ bufferSize [article]) := by
  have size : bufferSize [article] = 126 := rfl
  have exact_ : exactSize [article] = 2 * 4294967295 + 128 := rfl
  refine ⟨size, exact_, fun all => ?_⟩
  rw [size, exact_] at all
  exact absurd all.1 (by decide)

end Rooms

section Need

variable [CDouble F]

/-- The bytes that the assignment of a field takes with its terminator, if every byte of a
string is written as two. -/
def need (field : BaseField F) : Nat :=
  match field.edit.value with
  | .int v => field.info.name.bytes.length + (signedDecimal v).length + 4
  | .text value => field.info.name.bytes.length + 2 * value.length + 6

theorem need_text {field : BaseField F} {value : Bytes} (text : field.edit.value = .text value) :
    need field = field.info.name.bytes.length + 2 * value.length + 6 := by
  rw [need, text]

theorem print_lt_need (field : BaseField F) : field.edit.print.length < need field := by
  unfold need
  cases literal : field.edit.value with
  | int v =>
    rw [Assignment.print, literal]
    simp [Literal.print, BaseField.edit]
    omega
  | text value =>
    have most : value.countP special ≤ value.length := List.countP_le_length
    rw [Assignment.print, literal]
    simp [Literal.print, BaseField.edit, escape_length]
    omega

theorem signedDecimal_length {v : Int} (low : -2 ^ 63 ≤ v) (high : v < 2 ^ 64) :
    (signedDecimal v).length ≤ 20 := by
  unfold signedDecimal decimal
  split_ifs with negative
  · have digits := Nat.toDigits_length 10 v.natAbs 19 (by decide) (by omega)
    simp only [List.length_cons, List.length_map]
    omega
  · have digits := Nat.toDigits_length 10 v.natAbs 20 (by decide) (by omega)
    simp only [List.length_map]
    omega

theorem integer_value {field : BaseField F} (integer : isInteger field.info.type = true) :
    ∃ v, field.edit.value = .int v ∧ -2 ^ 63 ≤ v ∧ v < 2 ^ 64 := by
  have notDouble : field.kind ≠ .dbl := kind_exact (by simp [isExact, integer])
  have notStr := not_str_of_isFieldNum field (isFieldNum_of_isInteger integer)
  obtain ⟨info, kind, created, val, changed⟩ := field
  cases kind with
  | u8 => exact ⟨val.toNat, rfl, by omega, by have := UInt8.toNat_lt val; omega⟩
  | u16 => exact ⟨val.toNat, rfl, by omega, by have := UInt16.toNat_lt val; omega⟩
  | u32 => exact ⟨val.toNat, rfl, by omega, by have := UInt32.toNat_lt val; omega⟩
  | u64 => exact ⟨val.toNat, rfl, by omega, by have := UInt64.toNat_lt val; omega⟩
  | s8 =>
    have low := Int8.le_toInt val
    have high := Int8.toInt_lt val
    exact ⟨val.toInt, rfl, by omega, by omega⟩
  | s16 =>
    have low := Int16.le_toInt val
    have high := Int16.toInt_lt val
    exact ⟨val.toInt, rfl, by omega, by omega⟩
  | s32 =>
    have low := Int32.le_toInt val
    have high := Int32.toInt_lt val
    exact ⟨val.toInt, rfl, by omega, by omega⟩
  | s64 =>
    have low := Int64.le_toInt val
    have high := Int64.toInt_lt val
    exact ⟨val.toInt, rfl, by omega, by omega⟩
  | dbl => exact absurd rfl notDouble
  | str => exact absurd rfl notStr

theorem need_integer {field : BaseField F} (integer : isInteger field.info.type = true)
    (name : field.info.name.bytes.length ≤ 64) : need field ≤ 88 := by
  obtain ⟨v, literal, low, high⟩ := integer_value integer
  have digits := signedDecimal_length low high
  rw [need, literal]
  simp only
  omega

/-- Every changed field has the room for its assignment just when a string or a blob that
needs more than 128 bytes finds them in the room of one that sets the size. Then the
texts are written whole. -/
theorem buffer_suffices_iff {fields : List (BaseField F)}
    (types : ∀ f ∈ fields, f.changed = true → isExact f.info.type = true)
    (names : ∀ f ∈ fields, f.changed = true → f.info.name.bytes.length ≤ 64)
    (lens : ∀ f ∈ fields, f.changed = true → f.info.len.toNat < 2 ^ 29) :
    ((∀ f ∈ fields, f.changed = true → (need f : Int) ≤ bufferSize fields) ↔
      ∀ f ∈ fields, f.changed = true → isText f.info.type = true →
        need f ≤ 128 ∨ ∃ room ∈ changedRooms fields, need f ≤ room + 128) ∧
    ((∀ f ∈ fields, f.changed = true → (need f : Int) ≤ bufferSize fields) →
      ∀ f ∈ fields, f.changed = true → ∀ handle : Mysql,
        buildFormatSql handle f (bufferSize fields).toNat =
          if overruns f then .error .overrun else .ok f.edit.print) := by
  obtain ⟨growing, size⟩ := changedRooms_growing fields
  have exact_ : bufferSize fields = (changedRooms fields).headD 0 + 128 := by
    have fits : ∀ room ∈ changedRooms fields, room + 128 < 2 ^ 31 := by
      intro room member
      rcases mem_rooms member with none | number | ⟨f, inside, double⟩
      · exact absurd none List.not_mem_nil
      · omega
      · obtain ⟨inside, changed⟩ := List.mem_filter.mp inside
        have small := lens f inside changed
        omega
    have same := (bufferSize_eq_iff fields).mpr ((exactSize_lt_iff fields).mpr fits)
    omega
  refine ⟨⟨fun all f inside changed text => ?_, fun some_ f inside changed => ?_⟩, ?_⟩
  · have room := all f inside changed
    cases set : changedRooms fields with
    | nil =>
      rw [exact_, set] at room
      exact .inl (by simpa using room)
    | cons first before =>
      rw [exact_, set, List.headD_cons] at room
      exact .inr ⟨first, .head _, by omega⟩
  · by_cases text : isText f.info.type = true
    · rcases some_ f inside changed text with short | ⟨room, member, short⟩
      · omega
      · have below := (growing room member).2
        omega
    · have integer : isInteger f.info.type = true := by
        simpa [isExact, text] using types f inside changed
      have short := need_integer integer (names f inside changed)
      omega
  · intro all f inside changed handle
    have room := all f inside changed
    have length := print_lt_need f
    exact buildFormatSql_edit handle (types f inside changed) (by omega)

theorem buffer_suffices_edited : bufferSize (editedFields 200 (ascii "it's")) = 256 ∧
    ∀ f ∈ editedFields 200 (ascii "it's"), f.changed = true →
      (need f : Int) ≤ bufferSize (editedFields 200 (ascii "it's")) :=
  ⟨rfl, (buffer_suffices_iff (by decide) (by decide) (by decide)).1.mpr (by decide)⟩

/-- A string column and a blob column of twice its length, both changed. -/
def shortThenLong (short long : Bytes) : List (BaseField Unit) :=
  [⟨⟨CString.lit "a", .varString, 0, 61⟩, .str, rfl, short, true⟩,
    ⟨⟨CString.lit "b", .blob, 0, 122⟩, .str, rfl, long, true⟩]

theorem quotes_overrun : ∀ f ∈ (shortThenLong [] (List.replicate 122 39)).tail,
    buildFormatSql client f 250 = .error .overrun := by
  have escaped : (escape (List.replicate 122 39)).length = 244 := by
    rw [escape_length, List.length_replicate, List.countP_replicate]
    rfl
  have opening : (snprintf 250 (named (CString.lit "b") (ascii "'"))).length = 5 := rfl
  intro f member
  obtain rfl := List.mem_singleton.mp member
  simp only [buildFormatSql, BaseField.getStr, FieldKind.getStr, bind, Except.bind, client, escaped,
    opening]
  rfl

/-- The length of the blob does not exceed the room of the string, and a blob full of
quotes is written past the end. -/
theorem quotes_past_end :
    (∀ f ∈ shortThenLong [] (List.replicate 122 39), f.changed = true ∧
      isExact f.info.type = true ∧ f.info.name.bytes.length ≤ 64 ∧ f.info.len.toNat < 2 ^ 29 ∧
      ∀ value, f.getStr = .ok value → value.length ≤ f.info.len.toNat) ∧
    bufferSize (shortThenLong [] (List.replicate 122 39)) = 250 ∧
    ∃ f ∈ shortThenLong [] (List.replicate 122 39), need f = 251 ∧
      buildFormatSql client f 250 = .error .overrun := by
  refine ⟨?valid, rfl, _, .tail _ (.head _), ?size, quotes_overrun _ (.head _)⟩
  case size =>
    rw [need_text rfl, List.length_replicate]
    rfl
  case valid =>
    intro f member
    simp only [shortThenLong, List.mem_cons, List.not_mem_nil, or_false] at member
    rcases member with rfl | rfl
    · refine ⟨rfl, rfl, by decide, by decide, ?_⟩
      rintro value ⟨⟩
      exact Nat.zero_le _
    · refine ⟨rfl, rfl, by decide, by decide, ?_⟩
      rintro value ⟨⟩
      rw [List.length_replicate]
      exact le_refl _

end Need

section Scratch

variable [CDouble F]

/-- A string or a date is escaped within its scratch buffer just when some byte of it is
written as one. -/
theorem scratch_suffices_iff {field : BaseField F} (quoted : isQuoted field.info.type = true)
    {value : Bytes} (held : field.getStr = .ok value) (some_ : value ≠ []) :
    (escapeLoop (2 * value.length) value ≠ none ↔ ∃ c ∈ value, special c = false) ∧
    ∀ (handle : Mysql) (formatSize : Nat),
      buildFormatSql handle field formatSize = .error .overrun ↔
        escapeLoop (2 * value.length) value = none := by
  have full : escapeLoop (2 * value.length) value = none ↔ value.all special = true := by
    rw [escapeLoop_eq_none_iff, escape_full_iff]
  rw [Ne, full]
  refine ⟨by simp, fun handle formatSize => ?_⟩
  obtain ⟨value', held', literal⟩ := text_field field (isText_of_isQuoted quoted)
  obtain rfl := Except.ok.inj (held.symm.trans held')
  have overrun : overruns field = value.all special := by
    simp [overruns, quoted, literal, some_]
  rw [buildFormatSql_quoted handle quoted, overrun]
  split_ifs with every
  · simpa using every
  · simpa using every

def titleField (value : Bytes) : BaseField Unit :=
  ⟨⟨CString.lit "title", .varString, 0, 64⟩, .str, rfl, value, true⟩

theorem scratch_suffices_title : escapeLoop 8 (ascii "it's") ≠ none ∧
    buildFormatSql client (titleField (ascii "it's")) 256 ≠ .error .overrun := by
  have held : (titleField (ascii "it's")).getStr = .ok (ascii "it's") := rfl
  obtain ⟨room, written⟩ := scratch_suffices_iff rfl held (by decide)
  have fits := room.mpr ⟨105, by decide, by decide⟩
  exact ⟨fits, fun overrun => fits ((written client 256).mp overrun)⟩

/-- The one quote is written as two bytes, and the terminator goes behind the buffer. -/
theorem quote_past_scratch :
    (titleField (ascii "'")).getStr = .ok (ascii "'") ∧ escapeLoop 2 (ascii "'") = none ∧
    buildFormatSql client (titleField (ascii "'")) 256 = .error .overrun := ⟨rfl, rfl, rfl⟩

end Scratch

end SqlUtil

end LlbcDatabase
