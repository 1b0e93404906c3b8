import LlbcDatabase.Library.SqlAssignment

/-! The columns that an `update` assigns, read from its text. The values may be any
texts that lex to neither a name nor the keyword `where`. -/

namespace SqlText

open CText

section Read

/-- The names before a `=`, up to the first `where`. -/
def assigned : List Token → List Bytes
  | [] => []
  | .ident name :: .symbol 61 :: rest => name :: assigned rest
  | .word keyword :: rest => if keyword = ascii "where" then [] else assigned rest
  | _ :: rest => assigned rest

def setColumns (text : Bytes) : List Bytes :=
  match tokens text with
  | .word update :: .ident _ :: .word set :: rest =>
    if update = ascii "update" ∧ set = ascii "set" then assigned rest else []
  | _ => []

def Token.quiet : Token → Bool
  | .ident _ => false
  | .word text => text ≠ ascii "where"
  | _ => true

theorem assigned_quiet {out : List Token} (quiet : ∀ t ∈ out, t.quiet = true) (rest : List Token) :
    assigned (out ++ rest) = assigned rest := by
  induction out with
  | nil => rfl
  | cons t out ih =>
    have first := quiet t (.head _)
    have later := ih fun u member => quiet u (.tail _ member)
    cases t with
    | ident name => cases first
    | word text =>
      simp only [Token.quiet, ne_eq, decide_not, Bool.not_eq_true', decide_eq_false_iff_not] at first
      rw [List.cons_append, assigned, if_neg first, later]
    | str | number | symbol | unterminated => simpa [assigned] using later

end Read

section Values

/-- Before a comma or a blank the text reads as tokens that name nothing. -/
def Quiet (text : Bytes) : Prop :=
  ∀ rest, Stops rest → ∃ out, lex .gap (text ++ rest) = out ++ lex .gap rest ∧
    ∀ t ∈ out, t.quiet = true

theorem quiet_literal (value : Literal) : Quiet value.print := by
  intro rest stops
  refine ⟨value.tokens, lex_literal value stops, ?_⟩
  cases value with
  | int v =>
    by_cases negative : v < 0 <;> simp [Literal.tokens, negative, Token.quiet]
  | text value => simp [Literal.tokens, Token.quiet]

/-- The bytes of a number as `%f` prints it, `inf` and `nan` included, its sign apart. -/
def numeralByte (c : UInt8) : Bool := isDigit c || c = 46 || c ∈ ascii "infa"

def numeral : Bytes → Bool
  | 45 :: c :: rest => numeralByte c && rest.all numeralByte
  | text => text.all numeralByte

/-- What the automaton is inside of when it reads a number. -/
def Mode.inNumeral : Mode → Bool
  | .gap => true
  | .number text | .word text => text.all numeralByte
  | _ => false

theorem numeral_ne_where {text : Bytes} (all : text.all numeralByte = true) :
    text ≠ ascii "where" := by
  rintro rfl
  revert all
  decide

theorem start_numeral {c : UInt8} (byte : numeralByte c = true) :
    (start c).2.inNumeral = true ∧ ∀ t ∈ (start c).1, t.quiet = true := by
  by_cases digit : isDigit c = true
  · simp [start_digit digit, Mode.inNumeral, byte]
  · have few : c = 46 ∨ c = 105 ∨ c = 110 ∨ c = 102 ∨ c = 97 := by
      simpa [numeralByte, digit, ascii] using byte
    rcases few with rfl | rfl | rfl | rfl | rfl <;> decide

theorem after_numeral {c : UInt8} (byte : numeralByte c = true) {out : List Token}
    (quiet : ∀ t ∈ out, t.quiet = true) :
    (after out c).2.inNumeral = true ∧ ∀ t ∈ (after out c).1, t.quiet = true := by
  obtain ⟨mode, first⟩ := start_numeral byte
  refine ⟨mode, fun t member => ?_⟩
  rcases List.mem_append.mp member with old | new
  · exact quiet t old
  · exact first t new

theorem step_numeral {m : Mode} (inside : m.inNumeral = true) {c : UInt8}
    (byte : numeralByte c = true) :
    (step m c).2.inNumeral = true ∧ ∀ t ∈ (step m c).1, t.quiet = true := by
  cases m with
  | gap => exact start_numeral byte
  | word text =>
    have whole : (text ++ [c]).all numeralByte = true := by
      simpa [Mode.inNumeral, byte] using inside
    simp only [step]
    split
    · exact ⟨whole, fun t member => absurd member List.not_mem_nil⟩
    · exact after_numeral byte fun t member => by
        obtain rfl := List.mem_singleton.mp member
        simpa [Token.quiet] using numeral_ne_where inside
  | number text =>
    have whole : (text ++ [c]).all numeralByte = true := by
      simpa [Mode.inNumeral, byte] using inside
    simp only [step]
    split_ifs
    · exact ⟨whole, fun t member => absurd member List.not_mem_nil⟩
    · exact ⟨whole, fun t member => absurd member List.not_mem_nil⟩
    · exact after_numeral byte fun t member => by
        obtain rfl := List.mem_singleton.mp member
        rfl
  | ident | identEnd | str | escaped | strEnd | dash | dashes | slash | line | slashStar | block
  | blockStar => cases inside

theorem finish_numeral {m : Mode} (inside : m.inNumeral = true) {rest : Bytes}
    (stops : Stops rest) :
    lex m rest = finish m ++ lex .gap rest ∧ ∀ t ∈ finish m, t.quiet = true := by
  cases m with
  | gap => exact ⟨rfl, fun t member => absurd member List.not_mem_nil⟩
  | number text =>
    refine ⟨lex_numberEnd text stops, fun t member => ?_⟩
    obtain rfl := List.mem_singleton.mp member
    rfl
  | word text =>
    refine ⟨?_, fun t member => ?_⟩
    · cases rest with
      | nil => rfl
      | cons c rest =>
        have other : (isLetter c || isDigit c) = false := by
          rcases stops c (by simp) with rfl | rfl <;> decide
        rw [lex_cons, step, other]
        simp only [Bool.false_eq_true, if_false]
        rw [lex_after]
        rfl
    · obtain rfl := List.mem_singleton.mp member
      simpa [Token.quiet] using numeral_ne_where inside
  | ident | identEnd | str | escaped | strEnd | dash | dashes | slash | line | slashStar | block
  | blockStar => cases inside

theorem lex_numeral {text : Bytes} (all : text.all numeralByte = true) {m : Mode}
    (inside : m.inNumeral = true) {rest : Bytes} (stops : Stops rest) :
    ∃ out, lex m (text ++ rest) = out ++ lex .gap rest ∧ ∀ t ∈ out, t.quiet = true := by
  induction text generalizing m with
  | nil =>
    obtain ⟨ended, quiet⟩ := finish_numeral inside stops
    exact ⟨finish m, ended, quiet⟩
  | cons c text ih =>
    simp only [List.all_cons, Bool.and_eq_true] at all
    obtain ⟨next, first⟩ := step_numeral inside all.1
    obtain ⟨out, read, later⟩ := ih all.2 next
    refine ⟨(step m c).1 ++ out, ?_, fun t member => ?_⟩
    · rw [List.cons_append, lex_cons, read, List.append_assoc]
    · rcases List.mem_append.mp member with old | new
      · exact first t old
      · exact later t new

theorem quiet_numeral {text : Bytes} (number : numeral text = true) : Quiet text := by
  intro rest stops
  unfold numeral at number
  split at number
  case h_1 c text =>
    simp only [Bool.and_eq_true] at number
    have minus : step .gap 45 = ([], .dash) := by decide
    have other : c ≠ 45 := by
      rintro rfl
      exact absurd number.1 (by decide)
    have sign : ∀ t ∈ [Token.symbol 45], t.quiet = true := by simp [Token.quiet]
    obtain ⟨mode, first⟩ := after_numeral number.1 sign
    obtain ⟨out, read, later⟩ := lex_numeral number.2 mode stops
    refine ⟨(after [.symbol 45] c).1 ++ out, ?_, fun t member => ?_⟩
    · rw [List.cons_append, lex_cons, minus, List.cons_append, lex_cons, step, if_neg other, read,
        List.nil_append, List.append_assoc]
    · rcases List.mem_append.mp member with old | new
      · exact first t old
      · exact later t new
  case h_2 => exact lex_numeral number (m := .gap) rfl stops

end Values

section Lists

def commaList : List Bytes → Bytes
  | [] => []
  | text :: rest => text ++ rest.flatMap (44 :: ·)

def setText (name value : Bytes) : Bytes := 96 :: name ++ 96 :: 61 :: value

theorem assigned_setText {name value : Bytes} (noTick : 96 ∉ name) (quiet : Quiet value)
    {rest : Bytes} (stops : Stops rest) :
    assigned (lex .gap (setText name value ++ rest)) = name :: assigned (lex .gap rest) := by
  have shape : setText name value ++ rest = 96 :: name ++ 96 :: (61 :: (value ++ rest)) := by
    simp [setText]
  obtain ⟨out, read, all⟩ := quiet rest stops
  rw [shape, lex_ident noTick (by simp), lex_equals, read, assigned, assigned_quiet all]

theorem assigned_rest {items : List (Bytes × Bytes)} (noTick : ∀ item ∈ items, 96 ∉ item.1)
    (quiet : ∀ item ∈ items, Quiet item.2) (rest : Bytes) :
    Stops ((items.map fun item => setText item.1 item.2).flatMap (44 :: ·) ++ 32 :: rest) ∧
    assigned (lex .gap ((items.map fun item => setText item.1 item.2).flatMap (44 :: ·) ++
      32 :: rest)) = items.map (·.1) ++ assigned (lex .gap (32 :: rest)) := by
  induction items with
  | nil => exact ⟨Stops.blank rest, rfl⟩
  | cons item items ih =>
    obtain ⟨stops, later⟩ := ih (fun i member => noTick i (.tail _ member))
      fun i member => quiet i (.tail _ member)
    refine ⟨Stops.comma _, ?_⟩
    have symbol : ∀ out, assigned (.symbol 44 :: out) = assigned out := fun out => by simp [assigned]
    rw [List.map_cons, List.flatMap_cons, List.cons_append, List.cons_append, List.append_assoc,
      lex_comma, symbol,
      assigned_setText (noTick item (.head _)) (quiet item (.head _)) stops, later]
    rfl

theorem setColumns_update {table : Bytes} (tick : 96 ∉ table) {items : List (Bytes × Bytes)}
    (noTick : ∀ item ∈ items, 96 ∉ item.1) (quiet : ∀ item ∈ items, Quiet item.2) (cond : Bytes) :
    setColumns (ascii "update `" ++ table ++ ascii "` set " ++
      commaList (items.map fun item => setText item.1 item.2) ++ ascii " where " ++ cond) =
      items.map (·.1) := by
  have shape : ascii "update `" ++ table ++ ascii "` set " ++
      commaList (items.map fun item => setText item.1 item.2) ++ ascii " where " ++ cond =
      ascii "update " ++ (96 :: table ++ 96 :: (ascii " set " ++
        (commaList (items.map fun item => setText item.1 item.2) ++ 32 :: (ascii "where " ++ cond)))) := by
    simp [ascii]
  have opening : scan .gap (ascii "update ") = ([.word (ascii "update")], .gap) := rfl
  have set : scan .gap (ascii " set ") = ([.word (ascii "set")], .gap) := rfl
  have keyword : scan .gap (32 :: ascii "where ") = ([.word (ascii "where")], .gap) := rfl
  have ended : assigned (lex .gap (32 :: (ascii "where " ++ cond))) = [] := by
    rw [show 32 :: (ascii "where " ++ cond) = 32 :: ascii "where " ++ cond from rfl, lex_append,
      keyword]
    simp [assigned]
  have list : assigned (lex .gap (commaList (items.map fun item => setText item.1 item.2) ++
      32 :: (ascii "where " ++ cond))) = items.map (·.1) := by
    cases items with
    | nil => exact ended
    | cons item items =>
      obtain ⟨stops, later⟩ := assigned_rest (fun i member => noTick i (.tail _ member))
        (fun i member => quiet i (.tail _ member)) (ascii "where " ++ cond)
      rw [List.map_cons, commaList, List.append_assoc,
        assigned_setText (noTick item (.head _)) (quiet item (.head _)) stops, later, ended]
      simp
  rw [setColumns, tokens, shape, lex_append, opening, lex_ident tick (by simp [ascii]), lex_append,
    set]
  simpa using list

end Lists

end SqlText
