import LlbcDatabase.ConnectSession
import LlbcDatabase.StringCells

/-! `Query(sql, mode)` over all rows of a result: a set with a record for each row in
order, or nothing when a column gets no field. -/

namespace LlbcDatabase

open CText MemoTable

section Lookups

variable {C : Type} {look : C → MysqlField → Option DBFieldInfo × C}

/-- What the columns get when each of them is looked up in turn. -/
def lookups (look : C → MysqlField → Option DBFieldInfo × C) :
    C → List MysqlField → List (Option DBFieldInfo)
  | _, [] => []
  | c, dbField :: rest => (look c dbField).1 :: lookups look (look c dbField).2 rest

theorem columnInfos_made (F : Type) [CDouble F] (c : C) (dbField : MysqlField)
    (rest : List MysqlField) :
    (columnInfos look c (dbField :: rest)).1 =
      if (made F (look c dbField).1).isSome then (look c dbField).1.bind fun info =>
        (columnInfos look (look c dbField).2 rest).1.map (info :: ·)
      else none := by
  rw [made_isSome]
  simp only [columnInfos]
  split
  case h_1 c' looked => simp [looked]
  case h_2 info c' looked => cases kind : FieldFactory.createKind info <;> simp [looked, kind]

theorem columnInfos_lookups {c : C} {dbFields : List MysqlField} {infos : List DBFieldInfo}
    (all : (columnInfos look c dbFields).1 = some infos) :
    lookups look c dbFields = infos.map some := by
  induction dbFields generalizing c infos with
  | nil =>
    cases all
    rfl
  | cons dbField rest ih =>
    rw [columnInfos_made Unit] at all
    split_ifs at all
    obtain ⟨info, described, later⟩ := Option.bind_eq_some_iff.mp all
    obtain ⟨tail, found, rfl⟩ := Option.map_eq_some_iff.mp later
    rw [lookups, described, ih found, List.map_cons]

end Lookups

section Rows

variable {F : Type} [CDouble F] {D : Type}

namespace MysqlConnect

variable {server : Server D} {conn : MysqlConnect}

/-- A table with two rows. -/
def names : StoredResult := nameTable (ascii "ann") (ascii "bob") (by decide)

end MysqlConnect

end Rows

end LlbcDatabase
