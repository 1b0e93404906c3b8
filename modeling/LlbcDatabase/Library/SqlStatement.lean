import LlbcDatabase.Library.SqlAssignment

/-! Whole statements: an insert, an update and a delete of one row, and the two selects.
Each is read back from its text, whatever texts stand for the comparison. -/

namespace SqlText

open CText

inductive Statement where
  | insert (table : Bytes) (set : List Assignment)
  | update (table : Bytes) (set : List Assignment) (cond : Assignment)
  | delete (table : Bytes) (cond : Assignment)
  | select (table : Bytes) (cond : Assignment)
  | describe (table : Bytes)
  deriving DecidableEq

section Read

def readLimit : List Token → Option Nat
  | [.word limit, .number digits] => if limit = ascii "limit" then some (numberValue digits) else none
  | _ => none

def readClause (out : List Token) : Option Assignment :=
  match readAssignment out with
  | some (cond, rest) => if readLimit rest = some 1 then some cond else none
  | none => none

def readSource (table : Bytes) : List Token → Option Statement
  | .word keyword :: rest =>
    if keyword = ascii "where" then
      match readAssignment rest with
      | some (cond, []) => some (.select table cond)
      | _ => none
    else if readLimit (.word keyword :: rest) = some 0 then some (.describe table)
    else none
  | _ => none

def insertTokens : List Token → Option Statement
  | .word into :: .ident table :: .word set :: rest =>
    if into = ascii "into" ∧ set = ascii "set" then
      match readList rest.length rest with
      | some (as, []) => some (.insert table as)
      | _ => none
    else none
  | _ => none

def updateTokens : List Token → Option Statement
  | .ident table :: .word set :: rest =>
    if set = ascii "set" then
      match readList rest.length rest with
      | some (as, .word keyword :: clause) =>
        if keyword = ascii "where" then (readClause clause).map (.update table as) else none
      | _ => none
    else none
  | _ => none

def deleteTokens : List Token → Option Statement
  | .word source :: .ident table :: .word keyword :: clause =>
    if source = ascii "from" ∧ keyword = ascii "where" then (readClause clause).map (.delete table)
    else none
  | _ => none

def selectTokens : List Token → Option Statement
  | .symbol 42 :: .word source :: .ident table :: rest =>
    if source = ascii "from" then readSource table rest else none
  | .symbol 42 :: .word source :: .word table :: rest =>
    if source = ascii "from" then readSource table rest else none
  | _ => none

def readTokens : List Token → Option Statement
  | .word keyword :: rest =>
    if keyword = ascii "insert" then insertTokens rest
    else if keyword = ascii "update" then updateTokens rest
    else if keyword = ascii "delete" then deleteTokens rest
    else if keyword = ascii "select" then selectTokens rest
    else none
  | _ => none

@[simp] theorem readTokens_insert (rest : List Token) :
    readTokens (.word (ascii "insert") :: rest) = insertTokens rest := rfl

@[simp] theorem readTokens_update (rest : List Token) :
    readTokens (.word (ascii "update") :: rest) = updateTokens rest := rfl

@[simp] theorem readTokens_delete (rest : List Token) :
    readTokens (.word (ascii "delete") :: rest) = deleteTokens rest := rfl

def readStatement (text : Bytes) : Option Statement := readTokens (tokens text)

end Read

section Comparisons

/-- The text of a comparison, which is read as such in whatever statement it stands. -/
def Compares (text : Bytes) (cond : Assignment) : Prop :=
  ∀ rest, Stops rest → lex .gap (text ++ rest) = cond.tokens ++ lex .gap rest

theorem compares_print {cond : Assignment} (noTick : 96 ∉ cond.name) : Compares cond.print cond :=
  fun _ stops => lex_assignment noTick stops

theorem compares_raw {name value : Bytes} (noTick : 96 ∉ name) (safe : plain value = true) :
    Compares (rawComparison name value) ⟨name, .text value⟩ :=
  fun _ stops => lex_rawComparison noTick safe stops

variable {text : Bytes} {cond : Assignment}

theorem Compares.limit (h : Compares text cond) :
    lex .gap (text ++ ascii " limit 1") =
      cond.tokens ++ [.word (ascii "limit"), .number (ascii "1")] := by
  have clause := h (ascii " limit 1") (Stops.blank _)
  rw [clause]
  rfl

theorem readClause_limit (cond : Assignment) :
    readClause (cond.tokens ++ [.word (ascii "limit"), .number (ascii "1")]) = some cond := by
  rw [readClause, readAssignment_tokens]
  rfl

end Comparisons

section Texts

variable {table text : Bytes} {as : List Assignment} {cond : Assignment}

theorem lex_table (noTick : 96 ∉ table) {front : Bytes} {opening : List Token}
    (scanned : scan .gap front = (opening, .gap)) {rest : Bytes} (single : rest.head? ≠ some 96) :
    lex .gap (front ++ (96 :: table ++ 96 :: rest)) = opening ++ .ident table :: lex .gap rest := by
  rw [lex_append, scanned, lex_ident noTick single]

theorem readStatement_insert (noTick : 96 ∉ table) (names : ∀ a ∈ as, 96 ∉ a.name) (some_ : as ≠ []) :
    readStatement (ascii "insert into `" ++ table ++ ascii "` set " ++ printList as) =
      some (.insert table as) := by
  have shape : ascii "insert into `" ++ table ++ ascii "` set " ++ printList as =
      ascii "insert into " ++ (96 :: table ++ 96 :: (ascii " set " ++ (printList as ++ []))) := by
    simp [ascii]
  have opening : scan .gap (ascii "insert into ") =
    ([.word (ascii "insert"), .word (ascii "into")], .gap) := rfl
  have set : scan .gap (ascii " set ") = ([.word (ascii "set")], .gap) := rfl
  have read : readList (listTokens as).length (listTokens as) = some (as, []) := by
    have whole := readList_tokens some_ (length_le_listTokens as) [] (by simp)
    rwa [List.append_nil] at whole
  rw [readStatement, tokens, shape, lex_table noTick opening (by simp [ascii]), lex_append, set,
    lex_list names Stops.nil]
  simp [finish, insertTokens, read]

theorem readStatement_update (noTick : 96 ∉ table) (names : ∀ a ∈ as, 96 ∉ a.name) (some_ : as ≠ [])
    (compares : Compares text cond) :
    readStatement (ascii "update `" ++ table ++ ascii "` set " ++ printList as ++ ascii " where " ++
      text ++ ascii " limit 1") = some (.update table as cond) := by
  have shape : ascii "update `" ++ table ++ ascii "` set " ++ printList as ++ ascii " where " ++
      text ++ ascii " limit 1" = ascii "update " ++ (96 :: table ++ 96 :: (ascii " set " ++
        (printList as ++ 32 :: (ascii "where " ++ (text ++ ascii " limit 1"))))) := by
    simp [ascii]
  have opening : scan .gap (ascii "update ") = ([.word (ascii "update")], .gap) := rfl
  have set : scan .gap (ascii " set ") = ([.word (ascii "set")], .gap) := rfl
  have keyword : scan .gap (32 :: ascii "where ") = ([.word (ascii "where")], .gap) := rfl
  rw [readStatement, tokens, shape, lex_table noTick opening (by simp [ascii]), lex_append, set,
    lex_list names (Stops.blank _), show 32 :: (ascii "where " ++ (text ++ ascii " limit 1")) =
      32 :: ascii "where " ++ (text ++ ascii " limit 1") from rfl, lex_append, keyword,
    compares.limit]
  let clause := cond.tokens ++ [.word (ascii "limit"), .number (ascii "1")]
  have room : as.length ≤ (listTokens as ++ .word (ascii "where") :: clause).length := by
    have bound := length_le_listTokens as
    rw [List.length_append]
    omega
  have read := readList_tokens some_ room (.word (ascii "where") :: clause) (by simp)
  simp only [List.cons_append, List.nil_append, readTokens_update, updateTokens, if_true]
  rw [read]
  simp only [if_true, clause, readClause_limit, Option.map_some]

theorem readStatement_delete (noTick : 96 ∉ table) (compares : Compares text cond) :
    readStatement (ascii "delete from `" ++ table ++ ascii "` where " ++ text ++ ascii " limit 1") =
      some (.delete table cond) := by
  have shape : ascii "delete from `" ++ table ++ ascii "` where " ++ text ++ ascii " limit 1" =
      ascii "delete from " ++ (96 :: table ++ 96 :: (ascii " where " ++ (text ++ ascii " limit 1"))) := by
    simp [ascii]
  have opening : scan .gap (ascii "delete from ") =
    ([.word (ascii "delete"), .word (ascii "from")], .gap) := rfl
  have keyword : scan .gap (ascii " where ") = ([.word (ascii "where")], .gap) := rfl
  rw [readStatement, tokens, shape, lex_table noTick opening (by simp [ascii]), lex_append, keyword,
    compares.limit]
  simp only [List.cons_append, List.nil_append, readTokens_delete, deleteTokens, and_self, if_true,
    readClause_limit, Option.map_some]

end Texts

section Words

/-- A table name that needs no backticks. -/
def bareName : Bytes → Bool
  | [] => false
  | c :: rest => isLetter c && rest.all fun c => isLetter c || isDigit c

theorem scan_word {text : Bytes} (all : text.all (fun c => isLetter c || isDigit c) = true)
    (front : Bytes) : scan (.word front) text = ([], .word (front ++ text)) := by
  induction text generalizing front with
  | nil => simp
  | cons c rest ih =>
    simp only [List.all_cons, Bool.and_eq_true] at all
    simp [scan, step, all.1, ih all.2]

theorem start_letter {c : UInt8} (letter : isLetter c = true) : start c = ([], .word [c]) := by
  simp only [isLetter, Bool.or_eq_true, Bool.and_eq_true, decide_eq_true_eq,
    UInt8.le_iff_toNat_le, ← UInt8.toNat_inj] at letter
  have others : isBlank c = false ∧ c ≠ 96 ∧ c ≠ 39 ∧ c ≠ 34 ∧ isDigit c = false := by
    simp only [isBlank, isDigit, ne_eq, ← UInt8.toNat_inj, Bool.or_eq_false_iff,
      Bool.and_eq_false_iff, decide_eq_false_iff_not, UInt8.le_iff_toNat_le]
    simp at letter ⊢
    omega
  obtain ⟨blank, tick, quote, double, digit⟩ := others
  simp [start, blank, tick, quote, double, digit, isLetter, UInt8.le_iff_toNat_le,
    ← UInt8.toNat_inj]
  simp at letter
  omega

theorem readStatement_describe {table : Bytes} (bare : bareName table = true) :
    readStatement (ascii "select * from " ++ table ++ ascii " limit 0") = some (.describe table) := by
  have opening : scan .gap (ascii "select * from ") =
    ([.word (ascii "select"), .symbol 42, .word (ascii "from")], .gap) := rfl
  have clause : scan (.word table) (ascii " limit 0") =
    ([.word table, .word (ascii "limit")], .number (ascii "0")) := rfl
  cases table with
  | nil => cases bare
  | cons c rest =>
    simp only [bareName, Bool.and_eq_true] at bare
    have word : scan .gap (c :: rest) = ([], .word (c :: rest)) := by
      simp [scan, step, start_letter bare.1, scan_word bare.2]
    rw [readStatement, tokens, List.append_assoc, lex_append, opening, lex_append, word, lex, clause]
    rfl

end Words

end SqlText
