import LlbcDatabase.Library.SqlWriting

/-! The assignment lists of `insert .. set` and `update .. set`, written and read
back: every name, integer and byte string comes back as it was. -/

namespace SqlText

open CText

inductive Literal where
  | int (v : Int)
  | text (value : Bytes)
  deriving DecidableEq

structure Assignment where
  name : Bytes
  value : Literal
  deriving DecidableEq

section Write

def Literal.print : Literal → Bytes
  | .int v => signedDecimal v
  | .text value => 39 :: escape value ++ [39]

def Assignment.print (a : Assignment) : Bytes := 96 :: a.name ++ 96 :: 61 :: a.value.print

def printList : List Assignment → Bytes
  | [] => []
  | [a] => a.print
  | a :: b :: rest => a.print ++ 44 :: printList (b :: rest)

theorem printList_cons (a : Assignment) (as : List Assignment) :
    printList (a :: as) = a.print ++ as.flatMap fun a => 44 :: a.print := by
  induction as generalizing a with
  | nil => simp [printList]
  | cons b as ih => simp [printList, ih]

theorem noNul_print {a : Assignment} (name : 0 ∉ a.name) : 0 ∉ a.print := by
  have value : 0 ∉ a.value.print := by
    cases a.value with
    | int v => exact noNul_signedDecimal v
    | text value => simp [Literal.print, noNul_escape]
  simp [Assignment.print, name, value]

theorem noNul_printList {as : List Assignment} (names : ∀ a ∈ as, 0 ∉ a.name) :
    0 ∉ printList as := by
  induction as using printList.induct with
  | case1 => simp [printList]
  | case2 a => exact noNul_print (names a (.head _))
  | case3 a b rest ih =>
    have first := noNul_print (names a (.head _))
    have later := ih fun c member => names c (.tail _ member)
    simp [printList, first, later]

def Literal.tokens : Literal → List Token
  | .int v =>
    if v < 0 then [.symbol 45, .number (decimal v.natAbs)] else [.number (decimal v.natAbs)]
  | .text value => [.str value]

def Assignment.tokens (a : Assignment) : List Token := .ident a.name :: .symbol 61 :: a.value.tokens

def listTokens : List Assignment → List Token
  | [] => []
  | [a] => a.tokens
  | a :: b :: rest => a.tokens ++ .symbol 44 :: listTokens (b :: rest)

theorem lex_negative (n : Nat) {rest : Bytes} (stops : Stops rest) :
    lex .gap (45 :: decimal n ++ rest) = .symbol 45 :: .number (decimal n) :: lex .gap rest := by
  have minus : step .gap 45 = ([], .dash) := by decide
  have number := lex_decimal n stops
  rw [List.cons_append, lex_cons, minus]
  cases digits : decimal n with
  | nil => exact absurd digits (decimal_ne_nil n)
  | cons c tail =>
    have digit : isDigit c = true := isDigit_decimal (n := n) (digits ▸ .head _)
    have other : c ≠ 45 := by
      intro same
      simp [same, isDigit] at digit
    rw [digits] at number
    rw [List.cons_append] at number ⊢
    rw [lex_cons, step, if_neg other, lex_after, number]
    rfl

theorem lex_literal (value : Literal) {rest : Bytes} (stops : Stops rest) :
    lex .gap (value.print ++ rest) = value.tokens ++ lex .gap rest := by
  cases value with
  | int v =>
    by_cases negative : v < 0
    · simpa [Literal.print, signedDecimal, Literal.tokens, negative] using lex_negative v.natAbs stops
    · simpa [Literal.print, signedDecimal, Literal.tokens, negative] using lex_decimal v.natAbs stops
  | text value => simpa [Literal.print, Literal.tokens] using lex_str value stops

theorem lex_assignment {a : Assignment} (noTick : 96 ∉ a.name) {rest : Bytes} (stops : Stops rest) :
    lex .gap (a.print ++ rest) = a.tokens ++ lex .gap rest := by
  have shape : a.print ++ rest = 96 :: a.name ++ 96 :: (61 :: (a.value.print ++ rest)) := by
    simp [Assignment.print]
  rw [shape, lex_ident noTick (by simp), lex_equals, lex_literal a.value stops]
  simp [Assignment.tokens]

theorem lex_comma (rest : Bytes) : lex .gap (44 :: rest) = .symbol 44 :: lex .gap rest := by
  have symbol : step .gap 44 = ([.symbol 44], .gap) := by decide
  rw [lex_cons, symbol]
  rfl

theorem lex_list {as : List Assignment} (noTick : ∀ a ∈ as, 96 ∉ a.name) {rest : Bytes}
    (stops : Stops rest) : lex .gap (printList as ++ rest) = listTokens as ++ lex .gap rest := by
  induction as using printList.induct with
  | case1 => rfl
  | case2 a => exact lex_assignment (noTick a (.head _)) stops
  | case3 a b rest' ih =>
    rw [printList, listTokens, List.append_assoc, List.append_assoc, List.cons_append,
      lex_assignment (noTick a (.head _)) (Stops.comma _), lex_comma,
      ih fun c member => noTick c (.tail _ member), List.cons_append]

end Write

section Read

def readLiteral : List Token → Option (Literal × List Token)
  | .str value :: rest => some (.text value, rest)
  | .number digits :: rest => some (.int (numberValue digits), rest)
  | .symbol 45 :: .number digits :: rest => some (.int (-(numberValue digits : Int)), rest)
  | _ => none

def readAssignment : List Token → Option (Assignment × List Token)
  | .ident name :: .symbol 61 :: rest =>
    (readLiteral rest).map fun (value, rest) => (⟨name, value⟩, rest)
  | _ => none

/-- At most `fuel` assignments with commas between them, and what follows. -/
def readList : Nat → List Token → Option (List Assignment × List Token)
  | 0, _ => none
  | fuel + 1, out => match readAssignment out with
    | none => none
    | some (a, .symbol 44 :: rest) => (readList fuel rest).map fun (as, rest) => (a :: as, rest)
    | some (a, rest) => some ([a], rest)

def readInsert (text : Bytes) : Option (Bytes × List Assignment) :=
  match tokens text with
  | .word insert :: .word into :: .ident table :: .word set :: rest =>
    if insert = ascii "insert" ∧ into = ascii "into" ∧ set = ascii "set" then
      match readList rest.length rest with
      | some (as, []) => some (table, as)
      | _ => none
    else none
  | _ => none

def readUpdate (text : Bytes) : Option (Bytes × List Assignment) :=
  match tokens text with
  | .word update :: .ident table :: .word set :: rest =>
    if update = ascii "update" ∧ set = ascii "set" then
      match readList rest.length rest with
      | some (as, .word keyword :: _) => if keyword = ascii "where" then some (table, as) else none
      | _ => none
    else none
  | _ => none

theorem readLiteral_tokens (value : Literal) (rest : List Token) :
    readLiteral (value.tokens ++ rest) = some (value, rest) := by
  cases value with
  | int v =>
    by_cases negative : v < 0
    · have same : -(v.natAbs : Int) = v := by omega
      rw [Literal.tokens, if_pos negative, List.cons_append, List.cons_append, List.nil_append,
        readLiteral, numberValue_decimal, same]
    · have same : (v.natAbs : Int) = v := by omega
      rw [Literal.tokens, if_neg negative, List.cons_append, List.nil_append, readLiteral,
        numberValue_decimal, same]
  | text value => rfl

theorem readAssignment_tokens (a : Assignment) (rest : List Token) :
    readAssignment (a.tokens ++ rest) = some (a, rest) := by
  simp [Assignment.tokens, readAssignment, readLiteral_tokens]

theorem readList_tokens {as : List Assignment} (some_ : as ≠ []) {fuel : Nat}
    (enough : as.length ≤ fuel) (rest : List Token) (last : rest.head? ≠ some (.symbol 44)) :
    readList fuel (listTokens as ++ rest) = some (as, rest) := by
  induction as using printList.induct generalizing fuel with
  | case1 => exact absurd rfl some_
  | case2 a =>
    obtain ⟨fuel, rfl⟩ : ∃ k, fuel = k + 1 := ⟨fuel - 1, by simp at enough; omega⟩
    rw [listTokens, readList, readAssignment_tokens]
    split
    · simp_all
    · simp_all
    · simp_all
  | case3 a b rest' ih =>
    obtain ⟨fuel, rfl⟩ : ∃ k, fuel = k + 1 := ⟨fuel - 1, by simp at enough; omega⟩
    rw [listTokens, List.append_assoc, readList, readAssignment_tokens, List.cons_append]
    simp only
    rw [ih (by simp) (by simpa using enough)]
    rfl

theorem length_le_listTokens (as : List Assignment) : as.length ≤ (listTokens as).length := by
  induction as using printList.induct with
  | case1 => simp
  | case2 a => simp [listTokens, Assignment.tokens]
  | case3 a b rest ih =>
    simp only [listTokens, List.length_append, List.length_cons] at ih ⊢
    omega

theorem readInsert_print {table : Bytes} {as : List Assignment} (noTick : 96 ∉ table)
    (names : ∀ a ∈ as, 96 ∉ a.name) (some_ : as ≠ []) :
    readInsert (ascii "insert into `" ++ table ++ ascii "` set " ++ printList as) =
      some (table, as) := by
  have shape : ascii "insert into `" ++ table ++ ascii "` set " ++ printList as =
      ascii "insert into " ++ (96 :: table ++ 96 :: (ascii " set " ++ (printList as ++ []))) := by
    simp [ascii]
  have opening : scan .gap (ascii "insert into ") =
    ([.word (ascii "insert"), .word (ascii "into")], .gap) := rfl
  have set : scan .gap (ascii " set ") = ([.word (ascii "set")], .gap) := rfl
  have read : readList (listTokens as).length (listTokens as) = some (as, []) := by
    have whole := readList_tokens some_ (length_le_listTokens as) [] (by simp)
    rwa [List.append_nil] at whole
  rw [readInsert, tokens, shape, lex_append, opening, lex_ident noTick (by simp [ascii]), lex_append,
    set, lex_list names Stops.nil]
  simp [finish, read]

theorem readUpdate_print {table : Bytes} {as : List Assignment} (noTick : 96 ∉ table)
    (names : ∀ a ∈ as, 96 ∉ a.name) (some_ : as ≠ []) (cond : Bytes) :
    readUpdate (ascii "update `" ++ table ++ ascii "` set " ++ printList as ++ ascii " where " ++
      cond) = some (table, as) := by
  have shape : ascii "update `" ++ table ++ ascii "` set " ++ printList as ++ ascii " where " ++
      cond = ascii "update " ++ (96 :: table ++ 96 ::
        (ascii " set " ++ (printList as ++ 32 :: (ascii "where " ++ cond)))) := by
    simp [ascii]
  have opening : scan .gap (ascii "update ") = ([.word (ascii "update")], .gap) := rfl
  have set : scan .gap (ascii " set ") = ([.word (ascii "set")], .gap) := rfl
  have keyword : scan .gap (32 :: ascii "where ") = ([.word (ascii "where")], .gap) := rfl
  have room : as.length ≤ (listTokens as).length + ((lex .gap cond).length + 1) := by
    have bound := length_le_listTokens as
    omega
  have read := readList_tokens some_ room (.word (ascii "where") :: lex .gap cond) (by simp)
  rw [readUpdate, tokens, shape, lex_append, opening, lex_ident noTick (by simp [ascii]), lex_append,
    set, lex_list names (Stops.blank _), show 32 :: (ascii "where " ++ cond) =
      32 :: ascii "where " ++ cond from rfl, lex_append, keyword]
  simp [read]

end Read

end SqlText
