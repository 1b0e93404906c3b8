import LlbcDatabase.MysqlConnect

/-! The field-info cache against fresh descriptions. A history of result sets runs
with a log of its lookups; the log shows when every column is described as if no
cache were there. -/

namespace LlbcDatabase

open CText MemoTable

/-- A result set that one engine processes, on any of its connections. -/
inductive Processed where
  | query (result : StoredResult) (mode : Mode)
  | makeDef (result : StoredResult)

section Generic

variable (F : Type) [CDouble F] {C : Type} (look : C → MysqlField → Option DBFieldInfo × C)

def process (c : C) : Processed → C
  | .query result mode =>
    (readResult look c result mode : Except Fault (Option (Recordset F)) × C).2
  | .makeDef result => (readDefRecord look c result : Option (Record F) × C).2

def processAll (c : C) (history : List Processed) : C := history.foldl (process F look) c

variable {F}

theorem createRecord_state (c : C) (row : Option Row) (dbFields : List MysqlField)
    (colLens : Option (List UInt64)) (mode : Mode) :
    (createRecord look c row dbFields colLens mode : Option (Record F) × C).2 =
      (columnInfos look c dbFields).2 :=
  (createFields_filled look row colLens c 0 _ dbFields (by simp [Record.new])).1

variable {look}

theorem readRows_cons_keeps {I : C → Prop} {dbFields : List MysqlField}
    (keeps : ∀ c, I c → I (columnInfos look c dbFields).2) {colLens : Option (List UInt64)}
    {mode : Mode} {c : C} (held : I (columnInfos look c dbFields).2) (idx : Nat)
    (recSet : Recordset F) (row : Row) (rest : List Row) :
    I (readRows look dbFields colLens mode c idx recSet (row :: rest)).2 := by
  induction rest generalizing c idx recSet row with
  | nil =>
    rw [← createRecord_state (F := F) look c (some row) dbFields colLens mode] at held
    simp only [readRows]
    split
    case h_1 c' created => simpa [created] using held
    case h_2 newRec c' created =>
      rw [created] at held
      split <;> exact held
  | cons row' rest ih =>
    rw [← createRecord_state (F := F) look c (some row) dbFields colLens mode] at held
    unfold readRows
    split
    case h_1 c' created => simpa [created] using held
    case h_2 newRec c' created =>
      rw [created] at held
      split
      · exact ih (keeps c' held) _ _ _
      · exact held

theorem readRows_keeps {I : C → Prop} {dbFields : List MysqlField}
    (keeps : ∀ c, I c → I (columnInfos look c dbFields).2) {colLens : Option (List UInt64)}
    {mode : Mode} {c : C} (held : I c) (idx : Nat) (recSet : Recordset F) (rows : List Row) :
    I (readRows look dbFields colLens mode c idx recSet rows).2 := by
  cases rows with
  | nil => exact held
  | cons row rest => exact readRows_cons_keeps keeps (keeps c held) idx recSet row rest

theorem process_keeps {I : C → Prop} {e : Processed}
    (keeps : ∀ c result, (∃ mode, e = .query result mode ∧ result.rows ≠ []) ∨ e = .makeDef result →
      I c → I (columnInfos look c result.fields).2) {c : C} (held : I c) : I (process F look c e) := by
  cases e with
  | query result mode =>
    simp only [process, readResult_eq]
    by_cases none : result.rows = []
    · rw [none]
      exact held
    · exact readRows_keeps (fun c held => keeps c result (.inl ⟨mode, rfl, none⟩) held) held _ _ _
  | makeDef result =>
    simp only [process, readDefRecord, createRecord_state]
    exact keeps c result (.inr rfl) held

theorem processAll_keeps {I : C → Prop} {history : List Processed}
    (keeps : ∀ c, ∀ e ∈ history, I c → I (process F look c e)) {c : C} (held : I c) :
    I (processAll F look c history) := by
  induction history generalizing c with
  | nil => exact held
  | cons e rest ih =>
    exact ih (fun c e' member => keeps c e' (.tail _ member)) (keeps c e (.head _) held)

end Generic

/-- The cache, and each column looked up so far with what was found for it. -/
abbrev Logged := FieldInfoCache × List (MysqlField × Option DBFieldInfo)

def logged (s : Logged) (dbField : MysqlField) : Option DBFieldInfo × Logged :=
  let found := queryDBFieldInfo s.1 dbField
  (found.1, found.2, s.2 ++ [(dbField, found.1)])

/-- The columns of a record up to the first one that gets no field, with fresh descriptions. -/
def reachedColumns : List MysqlField → List MysqlField
  | [] => []
  | dbField :: rest =>
    dbField :: if (dbField.info.bind FieldFactory.createKind).isSome then reachedColumns rest else []

/-- The columns that an engine without a cache looks at. -/
def consulted : Processed → List MysqlField
  | .query result _ => if result.rows = [] then [] else reachedColumns result.fields
  | .makeDef result => reachedColumns result.fields

section Cache

variable {F : Type} [CDouble F]

/-- The field of a column, made as from a fresh description. -/
def clean (F : Type) [CDouble F] (e : MysqlField × Option DBFieldInfo) : Prop :=
  made F e.2 = made F e.1.info

/-- Columns with one key give fields alike. -/
def agree (F : Type) [CDouble F] (columns : List MysqlField) : Prop :=
  ∀ f ∈ columns, ∀ g ∈ columns, f.key = g.key → made F f.info = made F g.info

/-- Every description kept is one of these columns' own. -/
def offered (columns : List MysqlField) (cache : FieldInfoCache) : Prop :=
  ∀ k v, cache.lookup k = some v → ∃ f ∈ columns, f.key = some k ∧ f.info = some v

theorem lookup_offered {columns : List MysqlField} (agreed : agree F columns)
    {cache : FieldInfoCache} {f : MysqlField} (member : f ∈ columns) (own : offered columns cache) :
    made F (queryDBFieldInfo cache f).1 = made F f.info ∧
      offered columns (queryDBFieldInfo cache f).2 := by
  rcases key_info f with ⟨key, info⟩ | ⟨k, v, key, info⟩
  · rw [queryDBFieldInfo_none key, info]
    exact ⟨rfl, own⟩
  · rw [queryDBFieldInfo_some key info]
    have kept : offered columns (memo cache k v).2 := by
      intro j w found
      rcases memo_source found with old | ⟨rfl, rfl⟩
      · exact own j w old
      · exact ⟨f, member, key, info⟩
    obtain ⟨g, member', key', info'⟩ := kept k _ (memo_lookup cache k v)
    refine ⟨?_, kept⟩
    rw [← info']
    exact agreed g member' f member (key'.trans key.symm)

/-- The cache holds only descriptions of these columns, and the log is clean. -/
def sound (F : Type) [CDouble F] (columns : List MysqlField) (s : Logged) : Prop :=
  offered columns s.1 ∧ ∀ e ∈ s.2, clean F e

theorem lookup_clean {columns : List MysqlField} (agreed : agree F columns) {s : Logged}
    {f : MysqlField} (member : f ∈ columns) (held : sound F columns s) :
    made F (logged s f).1 = made F f.info ∧ sound F columns (logged s f).2 := by
  obtain ⟨same, kept⟩ := lookup_offered agreed member held.1
  refine ⟨same, kept, fun e logged => ?_⟩
  rcases List.mem_append.mp logged with old | new
  · exact held.2 e old
  · rw [List.mem_singleton.mp new]
    exact same

theorem columns_clean {columns : List MysqlField} (agreed : agree F columns)
    (dbFields : List MysqlField) (within : ∀ f ∈ reachedColumns dbFields, f ∈ columns)
    {s : Logged} (held : sound F columns s) :
    sound F columns (columnInfos logged s dbFields).2 := by
  induction dbFields generalizing s with
  | nil => exact held
  | cons f rest ih =>
    obtain ⟨same, next⟩ := lookup_clean agreed (within f (.head _)) held
    rw [columnInfos_cons, ← made_isSome (F := F), same, made_isSome]
    split
    case isTrue accepted =>
      refine ih (fun g member => within g ?_) next
      simp only [reachedColumns, accepted, if_true]
      exact .tail _ member
    case isFalse => exact next

/-- What the log says was found, the cache still says. -/
def remembered (s : Logged) : Prop :=
  ∀ e ∈ s.2, e.1.key = none ∧ e.2 = none ∨
    ∃ k v, e.1.key = some k ∧ e.2 = some v ∧ s.1.lookup k = some v

theorem lookup_remembered (s : Logged)
    (f : MysqlField) (held : remembered s) : remembered (logged s f).2 := by
  intro e member
  simp only [logged] at member ⊢
  rcases key_info f with ⟨key, info⟩ | ⟨k, v, key, info⟩
  · rw [queryDBFieldInfo_none key] at member ⊢
    rcases List.mem_append.mp member with old | new
    · exact held e old
    · rw [List.mem_singleton.mp new]
      exact .inl ⟨key, rfl⟩
  · rw [queryDBFieldInfo_some key info] at member ⊢
    rcases List.mem_append.mp member with old | new
    · rcases held e old with absent | ⟨j, w, key', value, found⟩
      · exact .inl absent
      · exact .inr ⟨j, w, key', value, memo_extends s.1 k v j w found⟩
    · rw [List.mem_singleton.mp new]
      exact .inr ⟨k, _, key, rfl, memo_lookup s.1 k v⟩

/-- Every column is in the log. -/
def covered (columns : List MysqlField) (log : List (MysqlField × Option DBFieldInfo)) : Prop :=
  ∀ f ∈ columns, ∃ found, (f, found) ∈ log

def logs (old : List (MysqlField × Option DBFieldInfo)) (s : Logged) : Prop := old ⊆ s.2

theorem lookup_grows {old : List (MysqlField × Option DBFieldInfo)} (s : Logged) (f : MysqlField)
    (held : logs old s) : logs old (logged s f).2 :=
  List.Subset.trans held (List.subset_append_left ..)

theorem columns_grow {old : List (MysqlField × Option DBFieldInfo)} (dbFields : List MysqlField)
    (s : Logged) (held : logs old s) : logs old (columnInfos logged s dbFields).2 :=
  columnInfos_keeps lookup_grows held dbFields

/-- As long as the log is clean, a record looks at the columns that a plain engine looks at. -/
theorem columns_covered (dbFields : List MysqlField)
    (s : Logged)
    (cleaned : ∀ e ∈ (columnInfos logged s dbFields).2.2, clean F e) :
    covered (reachedColumns dbFields) (columnInfos logged s dbFields).2.2 := by
  induction dbFields generalizing s with
  | nil => exact fun f member => absurd member List.not_mem_nil
  | cons f rest ih =>
    have entry : (f, (logged s f).1) ∈ (logged s f).2.2 :=
      List.mem_append_right _ (List.mem_singleton_self _)
    rw [columnInfos_cons] at cleaned ⊢
    split at cleaned
    case isTrue accepted =>
      have grown : logs (logged s f).2.2 (columnInfos logged (logged s f).2 rest).2 :=
        columns_grow rest _ (List.Subset.refl _)
      have same : made F (logged s f).1 = made F f.info :=
        cleaned _ (grown entry)
      have fresh : (f.info.bind FieldFactory.createKind).isSome = true := by
        rw [← made_isSome (F := F), ← same, made_isSome]
        exact accepted
      rw [if_pos accepted]
      intro g member
      simp only [reachedColumns, fresh, if_true, List.mem_cons] at member
      rcases member with rfl | later
      · exact ⟨_, grown entry⟩
      · exact ih _ cleaned g later
    case isFalse refused =>
      have same : made F (logged s f).1 = made F f.info := cleaned _ entry
      have fresh : (f.info.bind FieldFactory.createKind).isSome = false := by
        rw [← made_isSome (F := F), ← same, made_isSome]
        simpa using refused
      rw [if_neg refused]
      intro g member
      simp only [reachedColumns, fresh] at member
      have first : g = f := by simpa using member
      rw [first]
      exact ⟨_, entry⟩

theorem process_covered (s : Logged) (e : Processed)
    (cleaned : ∀ x ∈ (process F logged s e).2, clean F x) :
    covered (consulted e) (process F logged s e).2 := by
  cases e with
  | query result mode =>
    simp only [process, readResult_eq] at cleaned ⊢
    cases rows : result.rows with
    | nil => simp [consulted, rows, covered]
    | cons row rest =>
      rw [rows] at cleaned
      have grown : logs (columnInfos logged s result.fields).2.2
          (readRows logged result.fields none mode s 0
            (Recordset.new (result.rows.length % 2 ^ 32) : Recordset F) (row :: rest)).2 :=
        readRows_cons_keeps (columns_grow result.fields) (List.Subset.refl _) 0 _ row rest
      rw [rows] at grown
      have first := columns_covered result.fields s fun x member => cleaned x (grown member)
      simp only [consulted, rows, reduceCtorEq, if_false]
      exact fun f member => (first f member).imp fun _ entry => grown entry
  | makeDef result =>
    simp only [process, readDefRecord, createRecord_state] at cleaned ⊢
    exact columns_covered result.fields s cleaned

theorem processAll_covered (history : List Processed)
    (s : Logged)
    (cleaned : ∀ x ∈ (processAll F logged s history).2, clean F x) :
    covered (history.flatMap consulted) (processAll F logged s history).2 := by
  induction history generalizing s with
  | nil => exact fun f member => absurd member List.not_mem_nil
  | cons e rest ih =>
    have grown : logs (process F logged s e).2 (processAll F logged (process F logged s e) rest) :=
      processAll_keeps (I := logs (process F logged s e).2)
        (fun _ _ _ held => process_keeps (I := logs (process F logged s e).2)
          (fun s result _ => columns_grow result.fields s) held) (List.Subset.refl _)
    intro f member
    rw [List.flatMap_cons, List.mem_append] at member
    rcases member with here | later
    · have first := process_covered s e fun x member => cleaned x (grown member)
      exact (first f here).imp fun _ entry => grown entry
    · exact ih _ cleaned f later

/-- The cache is transparent on a history just when columns with one key that a
plain engine would look at give fields alike. -/
theorem cache_transparent_iff (F : Type) [CDouble F] (history : List Processed) :
    (∀ e ∈ (processAll F logged ([], []) history).2,
      made F e.2 = made F e.1.info) ↔
    ∀ f ∈ history.flatMap consulted, ∀ g ∈ history.flatMap consulted,
      f.key = g.key → made F f.info = made F g.info := by
  constructor
  · intro cleaned f member g member' same
    have kept : remembered (processAll F logged ([], []) history) :=
      processAll_keeps (I := remembered) (fun _ _ _ held => process_keeps (I := remembered)
        (fun _ _ _ held => columnInfos_keeps lookup_remembered held _) held) (by simp [remembered])
    obtain ⟨found, entry⟩ := processAll_covered history _ cleaned f member
    obtain ⟨found', entry'⟩ := processAll_covered history _ cleaned g member'
    have value : found = found' := by
      rcases kept _ entry with ⟨key, absent⟩ | ⟨k, v, key, value, stored⟩ <;>
        rcases kept _ entry' with ⟨key', absent'⟩ | ⟨k', v', key', value', stored'⟩
      · exact absent.trans absent'.symm
      · simp_all
      · simp_all
      · simp_all
    rw [← cleaned _ entry, ← cleaned _ entry', value]
  · intro agreed
    have held : sound F (history.flatMap consulted) (processAll F logged ([], []) history) := by
      refine processAll_keeps (I := sound F (history.flatMap consulted))
        (fun c e member held => process_keeps (I := sound F (history.flatMap consulted))
          (fun c result built held => ?_) held) ?_
      · refine columns_clean agreed result.fields (fun f reached => ?_) held
        refine List.mem_flatMap.mpr ⟨e, member, ?_⟩
        rcases built with ⟨mode, rfl, some⟩ | rfl
        · simpa [consulted, some] using reached
        · exact reached
      · exact ⟨nofun, fun e member => absurd member List.not_mem_nil⟩
    exact held.2

end Cache

section Fresh

variable {F : Type} [CDouble F]

/-- Look up without a cache. -/
def fresh (c : Unit) (dbField : MysqlField) : Option DBFieldInfo × Unit := (dbField.info, c)

theorem createFields_fresh {columns : List MysqlField} (agreed : agree F columns)
    (row : Option Row) (colLens : Option (List UInt64)) {cache : FieldInfoCache} (i : Nat)
    (newRec : Record F) (dbFields : List MysqlField)
    (within : ∀ f ∈ reachedColumns dbFields, f ∈ columns) (own : offered columns cache) :
    (createFields queryDBFieldInfo row colLens cache i newRec dbFields).1 =
        (createFields fresh row colLens () i newRec dbFields).1 ∧
      offered columns (createFields queryDBFieldInfo row colLens cache i newRec dbFields).2 := by
  induction dbFields generalizing cache i newRec with
  | nil => exact ⟨rfl, own⟩
  | cons f rest ih =>
    obtain ⟨same, kept⟩ := lookup_offered agreed (within f (.head _)) own
    rw [createFields_cons, createFields_cons, same]
    cases field : made F f.info with
    | none => simpa [fresh, field] using kept
    | some baseField =>
      have accepted : (f.info.bind FieldFactory.createKind).isSome = true := by
        rw [← made_isSome (F := F), field]
        rfl
      simp only [fresh, field]
      refine ih _ _ (fun g member => within g ?_) kept
      simp only [reachedColumns, accepted, if_true]
      exact .tail _ member

theorem readRows_fresh {columns : List MysqlField} (agreed : agree F columns)
    {dbFields : List MysqlField} (within : ∀ f ∈ reachedColumns dbFields, f ∈ columns)
    (colLens : Option (List UInt64)) (mode : Mode) {cache : FieldInfoCache} (idx : Nat)
    (recSet : Recordset F) (rows : List Row) (own : offered columns cache) :
    (readRows queryDBFieldInfo dbFields colLens mode cache idx recSet rows).1 =
        (readRows fresh dbFields colLens mode () idx recSet rows).1 ∧
      offered columns (readRows queryDBFieldInfo dbFields colLens mode cache idx recSet rows).2 := by
  induction rows generalizing cache idx recSet with
  | nil => exact ⟨rfl, own⟩
  | cons row rest ih =>
    obtain ⟨same, kept⟩ := createFields_fresh agreed (some row) colLens 0
      (Record.new dbFields.length (recordTable dbFields) mode) dbFields within own
    rw [← createRecord, ← createRecord] at same
    rw [← createRecord] at kept
    simp only [readRows]
    cases cached : (createRecord queryDBFieldInfo cache (some row) dbFields colLens mode :
        Option (Record F) × FieldInfoCache) with
    | mk found cache' =>
      cases plain : (createRecord fresh () (some row) dbFields colLens mode :
          Option (Record F) × Unit) with
      | mk found' rest' =>
        rw [cached, plain] at same
        rw [cached] at kept
        simp only at same kept
        subst same
        cases found with
        | none => exact ⟨rfl, kept⟩
        | some newRec =>
          simp only
          split
          · exact ih (idx + 1) _ kept
          · exact ⟨rfl, kept⟩

theorem readResult_fresh {columns : List MysqlField} (agreed : agree F columns)
    {result : StoredResult} {mode : Mode}
    (within : ∀ f ∈ consulted (.query result mode), f ∈ columns) {cache : FieldInfoCache}
    (own : offered columns cache) :
    (readResult (F := F) queryDBFieldInfo cache result mode).1 =
        (readResult fresh () result mode).1 ∧
      offered columns (readResult (F := F) queryDBFieldInfo cache result mode).2 := by
  rw [readResult_eq, readResult_eq]
  by_cases none : result.rows = []
  · rw [none]
    exact ⟨rfl, own⟩
  · refine readRows_fresh agreed (fun f reached => within f ?_) _ mode 0 _ result.rows own
    simpa [consulted, none] using reached

end Fresh

/-- The answer to `select 1, 'a'`: two computed columns, which have no table and no name. -/
def twoComputed : StoredResult where
  fields := [⟨some ⟨[], noNul_nil⟩, some ⟨[], noNul_nil⟩, .longlong, 0, 1, 1, none⟩,
    ⟨some ⟨[], noNul_nil⟩, some ⟨[], noNul_nil⟩, .varString, 0, 4, 1, none⟩]
  rows := [[some ⟨ascii "1", fun _ => 35⟩, some ⟨ascii "a", fun _ => 35⟩]]
  nonempty := by simp
  few := by simp
  rect := by simp
  maxLength i h := by
    match i, h with
    | 0, _ => rfl
    | 1, _ => rfl

/-- The text column is described, and decoded, as the number before it. -/
theorem cache_not_transparent :
    (¬ ∀ e ∈ (processAll Unit logged ([], []) [.query twoComputed .read]).2,
      made Unit e.2 = made Unit e.1.info) ∧
    ∃ (recSet : Recordset Unit) (newRec : Record Unit),
      (readResult queryDBFieldInfo [] twoComputed .read).1 = .ok (some recSet) ∧
      recSet[0]? = some (some newRec) ∧ newRec.getInt 1 = .ok 0 ∧
      newRec.getStr 1 = .error .assertion := by
  refine ⟨fun cleaned => ?_, _, _, rfl, rfl, rfl, rfl⟩
  have second := cleaned (twoComputed.fields[1], twoComputed.fields[0].info)
    (List.mem_cons_of_mem _ (List.mem_singleton_self _))
  have kinds := congrArg (Option.map BaseField.kind) second
  exact absurd kinds (by decide)

end LlbcDatabase
