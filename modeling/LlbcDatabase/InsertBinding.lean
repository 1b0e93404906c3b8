import LlbcDatabase.RecordWrites

/-! A record made by `MakeDefRecord`, filled and inserted: it keeps the default of its
key, which is not what the server has assigned, and it keeps its flags. -/

namespace LlbcDatabase

open CText SqlText SqlUtil Transition

namespace RecordWrites

variable {F S V : Type} [CDouble F]

/-- Whatever is done with the record, as long as field `k` is not set, its condition is
true of the row. -/
def Finds (query : Bytes → S → Bool × S) (handle : Mysql) (columns : List MysqlField) (k : Nat)
    (denote : Literal → V) (row : List V) (r : Record F × S) : Prop :=
  ∀ later, ReachWhere (step query handle) (leaves k) r later →
    ∃ comparison, keyComparison later.1 = .ok (some comparison) ∧ Meets columns denote row comparison

/-- The record stands for its row, and an update of it sends nothing. -/
structure Bound (query : Bytes → S → Bool × S) (handle : Mysql) (columns : List MysqlField) (k : Nat)
    (denote : Literal → V) (row : List V) (r : Record F × List Bytes × S) : Prop where
  finds : Finds (recorded query) handle columns k denote row r
  silent : ∃ ret after t, update (recorded query) handle r.1 r.2 = .ok (ret, after, t) ∧ t.1 = r.2.1

section Insert

variable {query : Bytes → S → Bool × S} {handle : Mysql} {record : Record F} {s t : S}

theorem insert_ok (done : insert query handle record s = .ok (true, t)) :
    ∃ op, buildOperation handle record [] = .ok (true, op) ∧ op ≠ [] := by
  obtain ⟨⟨built, sql⟩, statement, later⟩ := bind_ok.mp done
  obtain ⟨⟨some_, op⟩, operation, text⟩ := bind_ok.mp statement
  cases some_ with
  | false =>
    cases text
    cases later
  | true =>
    refine ⟨op, operation, ?_⟩
    rintro rfl
    cases text
    cases later

theorem update_sends {s t : List Bytes × S} {op : Bytes} {ret : Bool} {after : Record F}
    (mode : record.mode = .edit) (operation : buildOperation handle record [] = .ok (true, op))
    (some_ : op ≠ []) (done : update (recorded query) handle record s = .ok (ret, after, t)) :
    t.1 ≠ s.1 := by
  have keyed := keyed_of_operation operation
  have built : ∃ cond, buildCondition record [] = .ok (true, cond) := by
    cases condition : buildCondition record [] with
    | error fault =>
      simp [update, mode, buildUpdateSql, condition, bind, Except.bind] at done
    | ok built =>
      rcases buildCondition_ok condition with ⟨-, keyless⟩ | ⟨comparison, -, rfl, -⟩
      · rw [keyed] at keyless
        cases keyless
      · exact ⟨_, rfl⟩
  obtain ⟨cond, condition⟩ := built
  rw [update_eq mode (buildUpdateSql_eq condition operation []), if_neg some_,
    if_neg (updateText_ne_nil _ _ _)] at done
  have grown : ∀ sql, (recorded query sql s).2.1 ≠ s.1 := fun sql => by simp [recorded]
  split at done
  · obtain ⟨cleared, -, same⟩ := map_ok.mp done
    cases same
    exact grown _
  · cases done
    exact grown _

end Insert

section Make

variable {C D : Type} {server : Server D} {look : C → MysqlField → Option DBFieldInfo × C}
  {conn conn' : MysqlConnect} {db db' db'' : D} {c c' : C} {record : Record F}
  {result : StoredResult}

def defSql (tableName : Bytes) : Bytes :=
  snprintf 255 (ascii "select * from " ++ cstr tableName ++ ascii " limit 0")

theorem makeDefRecord_some {tableName : Bytes}
    (made : MysqlConnect.makeDefRecord server look tableName conn db c =
      (some record, conn', db', c'))
    (answered : server.run (cstr (defSql tableName)) db = (.rows result, db'')) :
    createRecord look c none result.fields none .edit = (some record, c') := by
  rw [defSql] at answered
  rw [MysqlConnect.makeDefRecord] at made
  obtain ⟨opened, pending⟩ := conn
  cases opened with
  | false => simp [MysqlConnect.queryRes] at made
  | true =>
    cases pending with
    | some unread => simp [MysqlConnect.queryRes, MysqlConnect.mysqlRealQuery] at made
    | none =>
      simp only [MysqlConnect.queryRes, MysqlConnect.mysqlRealQuery, MysqlConnect.mysqlStoreResult,
        answered, Bool.not_true, Bool.false_eq_true, if_false, if_true, Prod.mk.injEq] at made
      exact Prod.ext made.1 made.2.2.2

/-- A record made by `MakeDefRecord` and inserted stands for no row: an update right after
the insert sends a statement. Its condition, whatever is done as long as the key is not
set, is true of a row just when this has the default that the record was made with for
its key. -/
theorem insert_not_bound {W : Type} {tableName : Bytes}
    (made : MysqlConnect.makeDefRecord server look tableName conn db c =
      (some record, conn', db', c'))
    (answered : server.run (cstr (defSql tableName)) db = (.rows result, db'')) {k : Nat}
    (counts : lastColumn AUTO_INCREMENT_FLAG result.fields = some k)
    (query : Bytes → W → Bool × W) (handle : Mysql) (start : List Bytes × W) {filled : Record F}
    {s t : List Bytes × W}
    (life : ReachWhere (step (recorded query) handle) (leaves k) (record, start) (filled, s))
    (inserted : insert (recorded query) handle filled s = .ok (true, t)) (denote : Literal → V)
    (row : List V) :
    ¬ Bound query handle result.fields k denote row (filled, t) ∧
    ∃ field, record.fields[k]? = some (some field) ∧
      ((∀ j, Named result.fields field.info.name j ↔ j = k) →
        (Finds (recorded query) handle result.fields k denote row (filled, t) ↔
          ∃ literal, keyLiteral field = .ok literal ∧ row[k]? = some (denote literal))) := by
  have loaded := makeDefRecord_some made answered
  have chosen : keyColumn result.fields = some k := by rw [keyColumn, counts, Option.some_or]
  have few : result.fields.length < 2 ^ 31 := Nat.lt_of_le_of_lt result.few (by decide)
  obtain ⟨field, at_k, -⟩ := loaded_key few loaded chosen
  have index := (loaded_keyIdx few loaded chosen).2
  have whole := kept life at_k
  constructor
  · rintro ⟨-, ret, after, u, updated, silent⟩
    obtain ⟨infos, -, made⟩ := loaded_filled loaded
    obtain ⟨op, operation, some_⟩ := insert_ok inserted
    have mode : filled.mode = .edit := whole.frame.mode.trans made.mode
    exact update_sends mode operation some_ updated silent
  · refine ⟨field, at_k, fun own => ?_⟩
    obtain ⟨flag, at_k'⟩ := whole.key
    have compared : ∀ later, ReachWhere (step (recorded query) handle) (leaves k) (filled, t) later →
        keyComparison later.1 = (keyLiteral field).map fun literal =>
          some (field.info.name, literal) := by
      intro later life
      have still : u32 (keyIdx filled) = k := by rw [keyIdx_frame whole.frame, index]
      have at_key : record.getField (u32 (keyIdx record)) = .ok field := by
        rw [index]
        exact Record.getField_ok.mpr at_k
      rw [(kept life at_k').keyComparison still at_k', whole.keyComparison index at_k,
        keyComparison_of_key at_key]
    constructor
    · intro finds
      obtain ⟨comparison, value, j, called, held⟩ := finds _ .start
      rw [compared _ .start] at value
      obtain ⟨literal, read, same⟩ := map_ok.mp value
      cases same
      obtain rfl := (own j).mp called
      exact ⟨literal, read, held⟩
    · rintro ⟨literal, read, held⟩ later life
      refine ⟨(field.info.name, literal), ?_, k, (own k).mpr rfl, held⟩
      rw [compared later life, read]
      rfl

/-- A table that numbers its rows. -/
def accounts : List MysqlField :=
  [⟨some (CString.lit "account"), some (CString.lit "id"), .long,
      PRI_KEY_FLAG ||| AUTO_INCREMENT_FLAG, 11, 0, none⟩,
    ⟨some (CString.lit "account"), some (CString.lit "name"), .varString, 0, 64, 0, none⟩]

theorem accounts_ne_nil : accounts ≠ [] := nofun

theorem accounts_few : accounts.length ≤ 4096 := by decide

theorem accounts_maxLength (i : Nat) (h : i < accounts.length) :
    accounts[i].maxLength.toNat = columnMax [] i := by
  match i with
  | 0 => rfl
  | 1 => rfl
  | i + 2 => exact absurd h (by simp [accounts])

theorem accounts_rect (row : Row) (member : row ∈ ([] : List Row)) :
    row.length = accounts.length := absurd member List.not_mem_nil

theorem accounts_named (j : Nat) : Named accounts (CString.lit "id") j ↔ j = 0 :=
  named_first rfl (by decide) j

def accountTable : StoredResult :=
  ⟨accounts, [], accounts_ne_nil, accounts_few, accounts_rect, accounts_maxLength⟩

def accountServer : Server Unit := ⟨fun _ db => (.rows accountTable, db)⟩

def makeAccount : Option (Record Unit) × MysqlConnect × Unit × FieldInfoCache :=
  MysqlConnect.makeDefRecord accountServer queryDBFieldInfo (ascii "account") ⟨true, none⟩ () []

def account : Record Unit := makeAccount.1.getD (Record.new 0 (CString.lit "account") .edit)

def setName : SetterCall Unit := ⟨.inl 1, .str (CString.lit "ann")⟩

def filled : Record Unit := (account.call setName).toOption.getD account

/-- A connection on which every statement succeeds. -/
def accepts : Bytes → Unit → Bool × Unit := fun _ s => (true, s)

def inserted : List Bytes := [ascii "insert into `account` set `name`='ann'"]

theorem insert_not_bound_account :
    ¬ Bound accepts client accounts 0 intValue [5, 0] (filled, inserted, ()) ∧
    Finds (recorded accepts) client accounts 0 intValue [0, 0] (filled, inserted, ()) := by
  have life : ReachWhere (step (recorded accepts) client) (leaves 0) (account, [], ())
      (filled, [], ()) := by
    refine .next .start (a := .set setName) ?_ rfl
    simp [leaves, setName, Record.target]
  have h := insert_not_bound
    (show makeAccount = (some account, ⟨true, none⟩, (), makeAccount.2.2.2) from rfl)
    (show accountServer.run _ () = (.rows accountTable, ()) from rfl)
    (show lastColumn AUTO_INCREMENT_FLAG accounts = some 0 from rfl) accepts client _ life
    (show insert _ client filled ([], ()) = .ok (true, inserted, ()) from rfl) intValue
  obtain ⟨field, at_k, finds⟩ := (h [0, 0]).2
  cases at_k
  exact ⟨(h [5, 0]).1, (finds accounts_named).mpr ⟨.int 0, rfl, rfl⟩⟩

/-- The server has numbered the row 5. The update right after the insert is sent, and
asks for row 0; so does the delete. -/
theorem row0_updated :
    insert (recorded accepts) client filled ([], ()) = .ok (true, inserted, ()) ∧
    (update (recorded accepts) client filled (inserted, ())).map (fun out => (out.1, out.2.2.1)) =
      .ok (true, inserted ++ [ascii "update `account` set `name`='ann' where `id`=0 limit 1"]) ∧
    (delete (recorded accepts) filled (inserted, ())).map (fun out => out.2.1) =
      .ok (inserted ++ [ascii "delete from `account` where `id`=0 limit 1"]) ∧
    ¬ Bound accepts client accounts 0 intValue [5, 0] (filled, inserted, ()) := by
  refine ⟨rfl, rfl, rfl, fun bound => ?_⟩
  obtain ⟨comparison, found, j, called, held⟩ := bound.finds _ .start
  have compared : keyComparison filled = .ok (some (CString.lit "id", .int 0)) := rfl
  rw [compared] at found
  cases found
  obtain rfl := (accounts_named j).mp called
  exact absurd held (by decide)

end Make

end RecordWrites

end LlbcDatabase
