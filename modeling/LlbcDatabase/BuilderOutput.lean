import LlbcDatabase.Library.Transition
import LlbcDatabase.DeleteStatement

/-! What the three builders leave in the caller's string: a statement of the record, or what
was there before. A caller may build for one record after another into one string. -/

namespace LlbcDatabase

open CText SqlText Transition

namespace SqlUtil

variable {F : Type} [CDouble F]

inductive Builder where
  | update
  | insert
  | delete

def Builder.build (handle : Mysql) (record : Record F) (sql : Bytes) :
    Builder → Except Fault (Bool × Bytes)
  | .update => buildUpdateSql handle record sql
  | .insert => buildInsertSql handle record sql
  | .delete => buildDelSql record sql

/-- The statements of a record, made of its table, its key and its changed fields. -/
inductive StatementOf (handle : Mysql) (record : Record F) : Builder → Bytes → Prop
  | update {comparison : CString × Literal} {op : Bytes}
      (compared : keyComparison record = .ok (some comparison))
      (operation : buildOperation handle record [] = .ok (true, op)) (some_ : op ≠ []) :
      StatementOf handle record .update
        (updateText record.tableName.bytes (cstr op) (whereText comparison))
  | insert {op : Bytes} (operation : buildOperation handle record [] = .ok (true, op))
      (some_ : op ≠ []) :
      StatementOf handle record .insert (insertText record.tableName.bytes (cstr op))
  | delete {comparison : CString × Literal}
      (compared : keyComparison record = .ok (some comparison)) :
      StatementOf handle record .delete
        (snprintf 1023 (delText record.tableName.bytes (whereText comparison)))

structure Unedited (record : Record F) : Prop where
  key : ∃ field, record.getField (u32 (keyIdx record)) = .ok field ∧
    printable field.info.type = true
  fields : ∀ o ∈ record.fields, ∃ f, o = some f ∧ f.changed = false

structure RecordOnly (handle : Mysql) (record : Record F) (b : Builder) : Prop where
  flag : ∀ sql sql', (b.build handle record sql).map Prod.fst =
    (b.build handle record sql').map Prod.fst
  same : ∀ sql sql' out out', b.build handle record sql = .ok (true, out) →
    b.build handle record sql' = .ok (true, out') → out = out'
  text : ∀ sql out, b.build handle record sql = .ok (true, out) →
    StatementOf handle record b out ∨
      b = .update ∧ (∀ f, some f ∈ record.fields → f.changed = false) ∧ out = []
  untouched : ∀ sql out, b.build handle record sql = .ok (false, out) → out = sql

section Cases

variable {handle : Mysql} {record : Record F} {sql op : Bytes}

omit [CDouble F] in
theorem collectFields_present {max : Int} {updateFields : List (BaseField F)}
    {fields : List (Option (BaseField F))} {out : Int × List (BaseField F)}
    (done : collectFields max updateFields fields = .ok out) : ∀ o ∈ fields, ∃ f, o = some f := by
  induction fields generalizing max updateFields with
  | nil => exact fun o member => absurd member List.not_mem_nil
  | cons first rest ih =>
    cases first with
    | none => cases done
    | some f =>
      rw [List.forall_mem_cons]
      refine ⟨⟨f, rfl⟩, ?_⟩
      rw [collectFields] at done
      split_ifs at done
      · exact ih done
      · exact ih done

theorem buildOperation_present (operation : buildOperation handle record [] = .ok (true, op)) :
    noKey record = false ∧ ∀ o ∈ record.fields, ∃ f, o = some f := by
  have keyed := keyed_of_operation operation
  refine ⟨keyed, ?_⟩
  rw [buildOperation, if_neg (by simp [keyed])] at operation
  obtain ⟨out, collected, -⟩ := bind_ok.mp operation
  exact collectFields_present collected

theorem buildOperation_unchanged (handle : Mysql) (keyed : noKey record = false)
    (unchanged : ∀ o ∈ record.fields, ∃ f, o = some f ∧ f.changed = false) :
    buildOperation handle record [] = .ok (true, []) := by
  have present : ∀ o ∈ record.fields, ∃ f, o = some f := by
    intro o member
    obtain ⟨f, same, -⟩ := unchanged o member
    exact ⟨f, same⟩
  obtain ⟨fields, filled⟩ := exists_map_some present
  refine buildOperation_none filled keyed ?_ []
  rw [List.filter_eq_nil_iff]
  intro f member
  obtain ⟨g, same, kept⟩ := unchanged (some f) (filled.symm ▸ List.mem_map_of_mem member)
  obtain rfl := Option.some.inj same
  simp [kept]

theorem operation_nil_iff (operation : buildOperation handle record [] = .ok (true, op)) :
    op = [] ↔ ∀ o ∈ record.fields, ∃ f, o = some f ∧ f.changed = false := by
  obtain ⟨keyed, present⟩ := buildOperation_present operation
  constructor
  · intro none o member
    obtain ⟨f, rfl⟩ := present o member
    refine ⟨f, rfl, ?_⟩
    by_contra changed
    exact operation_ne_nil ⟨f, member, by simpa using changed⟩ operation none
  · intro unchanged
    exact ok_snd operation (buildOperation_unchanged handle keyed unchanged)

theorem keyComparison_some {comparison : CString × Literal}
    (compared : keyComparison record = .ok (some comparison)) :
    ∃ field, record.getField (u32 (keyIdx record)) = .ok field ∧
      printable field.info.type = true := by
  rw [keyComparison] at compared
  split_ifs at compared
  · cases compared
  · obtain ⟨field, at_key, later⟩ := bind_ok.mp compared
    obtain ⟨literal, value, -⟩ := bind_ok.mp later
    exact ⟨field, at_key, (keyLiteral_ok_iff field).mp ⟨literal, value⟩⟩

theorem buildInsertSql_eq (operation : buildOperation handle record [] = .ok (true, op))
    (sql : Bytes) : buildInsertSql handle record sql =
      .ok (if op = [] then (false, sql)
        else (true, insertText record.tableName.bytes (cstr op))) := by
  simp only [buildInsertSql, operation, bind, Except.bind, pure, Except.pure, Bool.not_true,
    Bool.false_eq_true, if_false, List.isEmpty_iff]
  by_cases none : op = []
  · simp only [none, if_true]
  · have short := cstr_length_le op
    simp only [none, if_false]
    rw [snprintf_eq_self]
    simp [insertText, ascii]
    omega

inductive Outcome (handle : Mysql) (record : Record F) (b : Builder) : Prop
  | fails (fault : Fault) (all : ∀ sql, b.build handle record sql = .error fault)
  | refuses (all : ∀ sql, b.build handle record sql = .ok (false, sql))
  | writes (out : Bytes) (statement : StatementOf handle record b out)
      (all : ∀ sql, b.build handle record sql = .ok (true, out))
  | leaves (isUpdate : b = .update) (unedited : Unedited record)
      (all : ∀ sql, b.build handle record sql = .ok (true, sql))

theorem delete_outcome (handle : Mysql) (record : Record F) : Outcome handle record .delete := by
  cases condition : buildCondition record [] with
  | error fault =>
    exact .fails fault fun sql => by simp [Builder.build, buildDelSql, condition, bind, Except.bind]
  | ok built =>
    rcases buildCondition_ok condition with ⟨rfl, -⟩ | ⟨comparison, compared, rfl, -⟩
    · exact .refuses fun sql => by
        simp [Builder.build, buildDelSql, condition, bind, Except.bind, pure, Except.pure]
    · exact .writes _ (.delete compared) (buildDelSql_eq condition)

theorem insert_outcome (handle : Mysql) (record : Record F) : Outcome handle record .insert := by
  cases operation : buildOperation handle record [] with
  | error fault =>
    exact .fails fault fun sql => by
      simp [Builder.build, buildInsertSql, operation, bind, Except.bind]
  | ok built =>
    obtain ⟨some_, op⟩ := built
    cases some_ with
    | false =>
      exact .refuses fun sql => by
        simp [Builder.build, buildInsertSql, operation, bind, Except.bind, pure, Except.pure]
    | true =>
      have eq := buildInsertSql_eq operation
      by_cases none : op = []
      · exact .refuses fun sql => by rw [Builder.build, eq, if_pos none]
      · exact .writes _ (.insert operation none) fun sql => by rw [Builder.build, eq, if_neg none]

theorem update_outcome (handle : Mysql) (record : Record F) : Outcome handle record .update := by
  cases condition : buildCondition record [] with
  | error fault =>
    exact .fails fault fun sql => by
      simp [Builder.build, buildUpdateSql, condition, bind, Except.bind]
  | ok built =>
    rcases buildCondition_ok condition with ⟨rfl, -⟩ | ⟨comparison, compared, rfl, -⟩
    · exact .refuses fun sql => by
        simp [Builder.build, buildUpdateSql, condition, bind, Except.bind, pure, Except.pure]
    cases operation : buildOperation handle record [] with
    | error fault =>
      exact .fails fault fun sql => by
        simp [Builder.build, buildUpdateSql, condition, operation, bind, Except.bind]
    | ok built =>
      obtain ⟨some_, op⟩ := built
      cases some_ with
      | false =>
        exact .refuses fun sql => by
          simp [Builder.build, buildUpdateSql, condition, operation, bind, Except.bind, pure,
            Except.pure]
      | true =>
        have eq := buildUpdateSql_eq condition operation
        by_cases none : op = []
        · subst none
          exact .leaves rfl ⟨keyComparison_some compared, (operation_nil_iff operation).mp rfl⟩
            fun sql => by rw [Builder.build, eq, if_pos rfl]
        · exact .writes _ (.update compared operation none)
            fun sql => by rw [Builder.build, eq, if_neg none]

theorem outcome (handle : Mysql) (record : Record F) (b : Builder) : Outcome handle record b := by
  cases b with
  | update => exact update_outcome handle record
  | insert => exact insert_outcome handle record
  | delete => exact delete_outcome handle record

end Cases

namespace Unedited

variable {record : Record F}

theorem operation (handle : Mysql) (unedited : Unedited record) :
    buildOperation handle record [] = .ok (true, []) := by
  obtain ⟨field, at_key, -⟩ := unedited.key
  exact buildOperation_unchanged handle (noKey_of_getField at_key) unedited.fields

theorem build (handle : Mysql) (unedited : Unedited record) (sql : Bytes) :
    Builder.update.build handle record sql = .ok (true, sql) := by
  obtain ⟨field, at_key, printed⟩ := unedited.key
  obtain ⟨literal, value⟩ := (keyLiteral_ok_iff field).mpr printed
  have compared : keyComparison record = .ok (some (field.info.name, literal)) := by
    rw [keyComparison_of_key at_key, value]
    rfl
  have condition : buildCondition record [] =
      .ok (true, whereText (field.info.name, literal)) := by
    rw [buildCondition_eq, compared]
    rfl
  rw [Builder.build, buildUpdateSql_eq condition (unedited.operation handle), if_pos rfl]

theorem no_statement {handle : Mysql} (unedited : Unedited record) (out : Bytes) :
    ¬ StatementOf handle record .update out := by
  intro statement
  cases statement with
  | update compared operation some_ =>
    exact some_ (ok_snd operation (unedited.operation handle))

end Unedited

section Reuse

variable {handle : Mysql} {record : Record F} {b : Builder}

theorem recordOnly_iff : RecordOnly handle record b ↔ (b = .update → ¬ Unedited record) := by
  constructor
  · rintro only rfl unedited
    have kept := only.same [] [0] _ _ (unedited.build handle []) (unedited.build handle [0])
    cases kept
  · intro edited
    cases outcome handle record b with
    | fails fault all => exact ⟨by simp [all], by simp [all], by simp [all], by simp [all]⟩
    | refuses all =>
      exact ⟨by simp [all, Except.map], by simp [all], by simp [all],
        fun sql out built => ok_snd built (all sql)⟩
    | writes out statement all =>
      have only : ∀ sql text, b.build handle record sql = .ok (true, text) → text = out := by
        intro sql text built
        exact ok_snd built (all sql)
      refine ⟨by simp [all], fun sql sql' text text' built built' => ?_, fun sql text built => ?_,
        by simp [all]⟩
      · rw [only sql text built, only sql' text' built']
      · exact .inl (only sql text built ▸ statement)
    | leaves isUpdate unedited all => exact absurd unedited (edited isUpdate)

/-- What a caller with one string has in it after a job. -/
def reuse (handle : Mysql) (sql : Bytes) (job : Builder × Record F) : Option Bytes :=
  (job.1.build handle job.2 sql).toOption.map Prod.snd

/-- What the caller sends is a statement of the record of this job. -/
def SendsOwn (handle : Mysql) (sql : Bytes) (job : Builder × Record F) : Prop :=
  ∀ out, job.1.build handle job.2 sql = .ok (true, out) → out ≠ [] →
    StatementOf handle job.2 job.1 out

theorem sendsOwn_iff (sql : Bytes) (job : Builder × Record F) :
    SendsOwn handle sql job ↔ (job.1 = .update → Unedited job.2 → sql = []) := by
  obtain ⟨b, record⟩ := job
  constructor
  · rintro own rfl unedited
    by_contra some_
    exact unedited.no_statement _ (own sql (unedited.build handle sql) some_)
  · intro fresh out built some_
    cases outcome handle record b with
    | fails fault all => simp [all] at built
    | refuses all => simp [all] at built
    | writes text statement all =>
      obtain rfl := ok_snd built (all sql)
      exact statement
    | leaves isUpdate unedited all =>
      obtain rfl := ok_snd built (all sql)
      exact absurd (fresh isUpdate unedited) some_

/-- The builders depend on the record alone, but for an update of an unedited record, which
leaves the caller's string as it was. A caller that builds for one record after another into
one string sends their own statements alone just when it is empty wherever that happens. -/
theorem record_only_iff (handle : Mysql) :
    (∀ (record : Record F) (b : Builder),
      RecordOnly handle record b ↔ (b = .update → ¬ Unedited record)) ∧
    ∀ (sql : Bytes) (jobs : List (Builder × Record F)),
      (∀ p ∈ taken (reuse handle) sql jobs, SendsOwn handle p.1 p.2) ↔
        ∀ p ∈ taken (reuse handle) sql jobs, p.2.1 = .update → Unedited p.2.2 → p.1 = [] := by
  refine ⟨fun record b => recordOnly_iff, fun sql jobs => ?_⟩
  exact forall₂_congr fun p _ => sendsOwn_iff p.1 p.2

/-- A delete of player 8, and then an update of player 7, of which nothing is changed. -/
def deleteThenUpdate : List (Builder × Record Unit) :=
  [(.delete, editPlayer [⟨.inl 0, .int 8⟩]), (.update, player)]

/-- The update returns true with the delete in the string, and the caller sends it again. -/
theorem delete_sent_again :
    buildUpdateSql client player [] = .ok (true, []) ∧
    buildUpdateSql client player (ascii "delete from `player` where `id`=8 limit 1") =
      .ok (true, ascii "delete from `player` where `id`=8 limit 1") ∧
    ¬ RecordOnly client player .update ∧
    ¬ ∀ p ∈ taken (reuse client) [] deleteThenUpdate, SendsOwn client p.1 p.2 := by
  refine ⟨rfl, rfl, fun only => ?_, fun own => ?_⟩
  · have kept := only.same [] [0] [] [0] rfl rfl
    cases kept
  · have statement := own (ascii "delete from `player` where `id`=8 limit 1", .update, player)
      (.tail _ (.head _)) _ rfl (by decide)
    cases statement

end Reuse

end SqlUtil

end LlbcDatabase
