import LlbcDatabase.Library.CString

/-! The lexical rules of MySQL in its default mode, as an automaton that reads a
statement byte by byte: names in backticks, strings in either quote with backslash
escapes and doubled quotes, runs of digits, words, and the three comment forms.
Every other byte is a symbol of its own. -/

namespace SqlText

open CText

inductive Token where
  | word (text : Bytes)
  | ident (name : Bytes)
  | str (value : Bytes)
  | number (digits : Bytes)
  | symbol (c : UInt8)
  | unterminated
  deriving DecidableEq

/-- What the automaton is inside of, with what it has read of it. -/
inductive Mode where
  | gap
  | word (text : Bytes)
  | number (digits : Bytes)
  | ident (name : Bytes)
  | identEnd (name : Bytes)
  | str (q : UInt8) (value : Bytes)
  | escaped (q : UInt8) (value : Bytes)
  | strEnd (q : UInt8) (value : Bytes)
  | dash
  | dashes
  | slash
  | line
  | slashStar
  | block
  | blockStar
  deriving DecidableEq

def isBlank (c : UInt8) : Bool := c = 32 || (9 ≤ c && c ≤ 13)

def isDigit (c : UInt8) : Bool := 48 ≤ c && c ≤ 57

def isLetter (c : UInt8) : Bool :=
  (65 ≤ c && c ≤ 90) || (97 ≤ c && c ≤ 122) || c = 95 || c = 36 || 128 ≤ c

/-- What a backslash and the byte after it stand for. -/
def unescape (c : UInt8) : Bytes :=
  if c = 48 then [0]
  else if c = 98 then [8]
  else if c = 110 then [10]
  else if c = 114 then [13]
  else if c = 116 then [9]
  else if c = 90 then [26]
  else if c = 37 || c = 95 then [92, c]
  else [c]

def start (c : UInt8) : List Token × Mode :=
  if isBlank c then ([], .gap)
  else if c = 96 then ([], .ident [])
  else if c = 39 || c = 34 then ([], .str c [])
  else if isDigit c then ([], .number [c])
  else if isLetter c then ([], .word [c])
  else if c = 45 then ([], .dash)
  else if c = 47 then ([], .slash)
  else if c = 35 then ([], .line)
  else ([.symbol c], .gap)

/-- The tokens before `c` are complete. -/
def after (out : List Token) (c : UInt8) : List Token × Mode :=
  (out ++ (start c).1, (start c).2)

def step : Mode → UInt8 → List Token × Mode
  | .gap, c => start c
  | .word text, c =>
    if isLetter c || isDigit c then ([], .word (text ++ [c])) else after [.word text] c
  | .number digits, c =>
    if isDigit c then ([], .number (digits ++ [c]))
    else if isLetter c then ([], .word (digits ++ [c]))
    else after [.number digits] c
  | .ident name, c => if c = 96 then ([], .identEnd name) else ([], .ident (name ++ [c]))
  | .identEnd name, c => if c = 96 then ([], .ident (name ++ [c])) else after [.ident name] c
  | .str q value, c =>
    if c = q then ([], .strEnd q value)
    else if c = 92 then ([], .escaped q value)
    else ([], .str q (value ++ [c]))
  | .escaped q value, c => ([], .str q (value ++ unescape c))
  | .strEnd q value, c => if c = q then ([], .str q (value ++ [c])) else after [.str value] c
  | .dash, c => if c = 45 then ([], .dashes) else after [.symbol 45] c
  | .dashes, c =>
    if c = 10 then ([], .gap)
    else if c ≤ 32 || c = 127 then ([], .line)
    else if c = 45 then ([.symbol 45], .dashes)
    else after [.symbol 45, .symbol 45] c
  | .slash, c => if c = 42 then ([], .slashStar) else after [.symbol 47] c
  | .line, c => if c = 10 then ([], .gap) else ([], .line)
  -- what stands in `/*! .. */` is executed
  | .slashStar, c =>
    if c = 33 then ([.symbol 47, .symbol 42, .symbol 33], .gap)
    else if c = 42 then ([], .blockStar)
    else ([], .block)
  | .block, c => if c = 42 then ([], .blockStar) else ([], .block)
  | .blockStar, c =>
    if c = 47 then ([], .gap) else if c = 42 then ([], .blockStar) else ([], .block)

def finish : Mode → List Token
  | .gap | .line | .dashes => []
  | .word text => [.word text]
  | .number digits => [.number digits]
  | .identEnd name => [.ident name]
  | .strEnd _ value => [.str value]
  | .dash => [.symbol 45]
  | .slash => [.symbol 47]
  | .ident _ | .str _ _ | .escaped _ _ | .slashStar | .block | .blockStar => [.unterminated]

def scan : Mode → Bytes → List Token × Mode
  | m, [] => ([], m)
  | m, c :: rest =>
    let next := scan (step m c).2 rest
    ((step m c).1 ++ next.1, next.2)

def lex (m : Mode) (text : Bytes) : List Token := (scan m text).1 ++ finish (scan m text).2

def tokens (text : Bytes) : List Token := lex .gap text

@[simp] theorem scan_nil (m : Mode) : scan m [] = ([], m) := rfl

@[simp] theorem lex_nil (m : Mode) : lex m [] = finish m := rfl

theorem lex_cons (m : Mode) (c : UInt8) (rest : Bytes) :
    lex m (c :: rest) = (step m c).1 ++ lex (step m c).2 rest := by
  simp [lex, scan]

theorem lex_append (m : Mode) (front rest : Bytes) :
    lex m (front ++ rest) = (scan m front).1 ++ lex (scan m front).2 rest := by
  induction front generalizing m with
  | nil => rfl
  | cons c front ih =>
    rw [List.cons_append, lex_cons, ih]
    simp [scan]

theorem lex_after (out : List Token) (c : UInt8) (rest : Bytes) :
    (after out c).1 ++ lex (after out c).2 rest = out ++ lex .gap (c :: rest) := by
  rw [lex_cons]
  simp [after, step]

section Cost

/-- The bytes a token takes at least. -/
def Token.cost : Token → Nat
  | .word text => text.length
  | .ident name => name.length + name.count 96 + 2
  | .str value => value.length + 2
  | .number digits => digits.length
  | .symbol _ => 1
  | .unterminated => 0

def cost (out : List Token) : Nat := (out.map Token.cost).sum

def Mode.cost : Mode → Nat
  | .gap | .line | .block | .blockStar => 0
  | .word text => text.length
  | .number digits => digits.length
  | .ident name => name.length + name.count 96 + 1
  | .identEnd name => name.length + name.count 96 + 2
  | .str _ value => value.length + 1
  | .escaped _ value => value.length + 2
  | .strEnd _ value => value.length + 2
  | .dash | .slash => 1
  | .dashes | .slashStar => 2

@[simp] theorem cost_nil : cost [] = 0 := rfl

@[simp] theorem cost_cons (t : Token) (out : List Token) : cost (t :: out) = t.cost + cost out := by
  simp [cost]

@[simp] theorem cost_append (xs ys : List Token) : cost (xs ++ ys) = cost xs + cost ys := by
  simp [cost]

theorem unescape_length (c : UInt8) : (unescape c).length ≤ 2 := by
  unfold unescape
  split_ifs <;> simp

theorem start_cost (c : UInt8) : cost (start c).1 + (start c).2.cost ≤ 1 := by
  unfold start
  split_ifs <;> simp [Mode.cost, Token.cost]

theorem after_cost (out : List Token) (c : UInt8) :
    cost (after out c).1 + (after out c).2.cost ≤ cost out + 1 := by
  have bound := start_cost c
  simp only [after, cost_append]
  omega

theorem step_cost (m : Mode) (c : UInt8) : cost (step m c).1 + (step m c).2.cost ≤ m.cost + 1 := by
  cases m with
  | gap =>
    have bound := start_cost c
    simpa [step, Mode.cost] using bound
  | word text =>
    simp only [step, Mode.cost]
    split_ifs
    · simp
    · exact after_cost [.word text] c
  | number digits =>
    simp only [step, Mode.cost]
    split_ifs
    · simp
    · simp
    · exact after_cost [.number digits] c
  | ident name =>
    simp only [step, Mode.cost]
    split_ifs with tick
    · simp
    · simp [tick]
      omega
  | identEnd name =>
    simp only [step, Mode.cost]
    split_ifs with tick
    · simp [tick]
      omega
    · exact after_cost [.ident name] c
  | str q value =>
    simp only [step, Mode.cost]
    split_ifs <;> simp
  | escaped q value =>
    have bound := unescape_length c
    simp only [step, Mode.cost, List.length_append, cost_nil]
    omega
  | strEnd q value =>
    simp only [step, Mode.cost]
    split_ifs
    · simp
    · exact after_cost [.str value] c
  | dash =>
    simp only [step, Mode.cost]
    split_ifs
    · simp
    · exact after_cost [.symbol 45] c
  | dashes =>
    simp only [step, Mode.cost]
    split_ifs
    · simp
    · simp
    · simp [Token.cost]
    · exact after_cost [.symbol 45, .symbol 45] c
  | slash =>
    simp only [step, Mode.cost]
    split_ifs
    · simp
    · exact after_cost [.symbol 47] c
  | slashStar =>
    simp only [step, Mode.cost]
    split_ifs <;> simp [Token.cost]
  | line | block | blockStar =>
    simp only [step, Mode.cost]
    split_ifs <;> simp

theorem finish_cost (m : Mode) : cost (finish m) ≤ m.cost := by
  cases m <;> simp [finish, Mode.cost, Token.cost]

/-- No reading of a text needs more bytes than the text has. -/
theorem lex_cost (m : Mode) (text : Bytes) : cost (lex m text) ≤ m.cost + text.length := by
  induction text generalizing m with
  | nil => exact finish_cost m
  | cons c rest ih =>
    have here := step_cost m c
    have later := ih (step m c).2
    rw [lex_cons, cost_append, List.length_cons]
    omega

end Cost

end SqlText
