import LlbcDatabase.StatementMeaning

/-! Which row the update and the delete of a loaded record address after calls of its
setters: the one whose key the key field holds by then, if its text is read as this key. -/

namespace LlbcDatabase

open CText SqlText

namespace SqlUtil

variable {F : Type} [CDouble F]

section Separation

variable {V : Type} {columns : List MysqlField} {denote : Literal → V} {p : Nat} {first : List V}

end Separation

section Identity

variable {V : Type} {columns : List MysqlField} {denote : Literal → V} {p : Nat} {first : List V}
  {record : Record F}

end Identity

end SqlUtil

end LlbcDatabase
