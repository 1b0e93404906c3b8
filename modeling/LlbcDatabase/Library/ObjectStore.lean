import LlbcDatabase.Library.Simulation

/-! Objects over a table of keyed rows. An object is loaded from a row or made anew, set
column by column, and written to the row that its own key column names. Only the columns
that were set are written, so what one object has saved outlives the saves of others. -/

namespace ObjectStore

open Simulation

variable {H K I C V : Type}

/-- How cells of type `C` hold values of type `V`, and which row a value of the key names. -/
structure Layout (K I C V : Type) where
  read : I → C → V
  keep : V → C
  read_keep : ∀ i v, read i (keep v) = v
  key : I
  keyOf : V → Option K
  /-- What a new object holds, and what a row gets in a column that is not inserted. -/
  blank : I → V
  default : I → C

structure Object (I V : Type) where
  value : I → V
  dirty : Finset I
  editable : Bool

structure World (H K I C V : Type) where
  rows : K → Option (I → C)
  objects : H → Option (Object I V)

inductive Act (H K I V : Type) where
  | load (h : H) (k : K) (editable : Bool)
  | make (h : H)
  | set (h : H) (i : I) (v : V)
  | insert (h : H)
  | update (h : H)
  | delete (h : H)

section Objects

variable (L : Layout K I C V)

def Object.load (editable : Bool) (cells : I → C) : Object I V :=
  ⟨fun i => L.read i (cells i), ∅, editable⟩

def Object.made : Object I V := ⟨L.blank, ∅, true⟩

def Object.clean (o : Object I V) : Object I V := { o with dirty := ∅ }

/-- The row that the object names. -/
def Object.row (o : Object I V) : Option K := L.keyOf (o.value L.key)

variable [DecidableEq I]

def Object.set (o : Object I V) (i : I) (v : V) : Object I V :=
  { o with value := Function.update o.value i v, dirty := insert i o.dirty }

/-- The cells of a row after the object is written to it. -/
def Object.write (o : Object I V) (cells : I → C) (i : I) : C :=
  if i ∈ o.dirty then L.keep (o.value i) else cells i

theorem Object.write_dirty {o : Object I V} {i : I} (dirty : i ∈ o.dirty) (cells : I → C) :
    o.write L cells i = L.keep (o.value i) := if_pos dirty

theorem Object.write_other {o : Object I V} {i : I} (other : i ∉ o.dirty) (cells : I → C) :
    o.write L cells i = cells i := if_neg other

end Objects

section Steps

variable [DecidableEq H] [DecidableEq K] [DecidableEq I] (L : Layout K I C V)

/-- What an action does when its outcome is `true`, and what it may leave undone. -/
inductive Step : World H K I C V → Act H K I V → Bool → World H K I C V → Prop where
  | loaded {w h k editable cells} (row : w.rows k = some cells) :
      Step w (.load h k editable) true
        { w with objects := Function.update w.objects h (some (Object.load L editable cells)) }
  | missing {w h k editable} :
      Step w (.load h k editable) false { w with objects := Function.update w.objects h none }
  | made {w h} :
      Step w (.make h) true
        { w with objects := Function.update w.objects h (some (Object.made L)) }
  | unmade {w h} : Step w (.make h) false { w with objects := Function.update w.objects h none }
  | set {w h i v o} (held : w.objects h = some o) :
      Step w (.set h i v) true { w with objects := Function.update w.objects h (some (o.set i v)) }
  | refused {w h o a} (held : w.objects h = some o) (writes : a = .insert h ∨
      a = .update h ∧ (o.editable = true → o.dirty.Nonempty) ∨ a = .delete h) : Step w a false w
  | inserted {w h o k} (held : w.objects h = some o) (keyed : L.key ∈ o.dirty)
      (named : o.row L = some k) (free : w.rows k = none) :
      Step w (.insert h) true
        { w with rows := Function.update w.rows k (some (o.write L L.default)) }
  /-- Without a key of its own the row gets one from the store. -/
  | numbered {w h o k c} (held : w.objects h = some o) (some_ : o.dirty.Nonempty)
      (keyless : L.key ∉ o.dirty) (named : L.keyOf (L.read L.key c) = some k)
      (free : w.rows k = none) :
      Step w (.insert h) true { w with
        rows := Function.update w.rows k
          (some (o.write L (Function.update L.default L.key c))) }
  | unchanged {w h o} (held : w.objects h = some o) (editable : o.editable = true)
      (clean : o.dirty = ∅) : Step w (.update h) true w
  | updated {w h o k} (held : w.objects h = some o) (editable : o.editable = true)
      (some_ : o.dirty.Nonempty) (named : o.row L = some k) :
      Step w (.update h) true
        { rows := Function.update w.rows k ((w.rows k).map (o.write L))
          objects := Function.update w.objects h (some o.clean) }
  | deleted {w h o k} (held : w.objects h = some o) (editable : o.editable = true)
      (named : o.row L = some k) :
      Step w (.delete h) true { w with rows := Function.update w.rows k none }

inductive RowsCase (w : World H K I C V) : Act H K I V → (K → Option (I → C)) → Prop where
  | same {a} : RowsCase w a w.rows
  | insert {h o k base} (held : w.objects h = some o) (free : w.rows k = none)
      (named : L.keyOf (L.read L.key (o.write L base L.key)) = some k) :
      RowsCase w (.insert h) (Function.update w.rows k (some (o.write L base)))
  | update {h o k} (held : w.objects h = some o) (named : o.row L = some k) :
      RowsCase w (.update h) (Function.update w.rows k ((w.rows k).map (o.write L)))
  | delete {h o k} (held : w.objects h = some o) (named : o.row L = some k) :
      RowsCase w (.delete h) (Function.update w.rows k none)

variable {L} {w v : World H K I C V} {a : Act H K I V} {out : Bool}

theorem Step.rowsCase (taken : Step L w a out v) : RowsCase L w a v.rows := by
  cases taken with
  | loaded | missing | made | unmade | set | refused | unchanged => exact .same
  | inserted held keyed named free =>
    refine .insert held free ?_
    rw [Object.write_dirty L keyed, L.read_keep]
    exact named
  | numbered held some_ keyless named free =>
    refine .insert held free ?_
    rw [Object.write_other L keyless, Function.update_self]
    exact named
  | updated held _ _ named => exact .update held named
  | deleted held _ named => exact .delete held named

/-- The cell of row `k` and column `i`. -/
def Stored (w : World H K I C V) (k : K) (i : I) (c : C) : Prop :=
  ∃ cells, w.rows k = some cells ∧ cells i = c

/-- The action neither writes column `i` of row `k` nor deletes the row. -/
def Spares (L : Layout K I C V) (k : K) (i : I) (w : World H K I C V) : Act H K I V → Prop
  | .update h => ∀ o, w.objects h = some o → o.row L = some k → i ∉ o.dirty
  | .delete h => ∀ o, w.objects h = some o → o.row L ≠ some k
  | _ => True

theorem Step.stored {k : K} {i : I} {c : C} (taken : Step L w a out v) (spared : Spares L k i w a)
    (held : Stored w k i c) : Stored v k i c := by
  obtain ⟨cells, row, cell⟩ := held
  have rows := taken.rowsCase
  unfold Stored
  generalize v.rows = after at rows
  cases rows with
  | same => exact ⟨cells, row, cell⟩
  | @insert h o j base _ free _ =>
    have other : k ≠ j := by
      rintro rfl
      rw [free] at row
      cases row
    exact ⟨cells, by rw [Function.update_of_ne other, row], cell⟩
  | @update h o j held named =>
    by_cases here : k = j
    · subst here
      refine ⟨o.write L cells, by rw [Function.update_self, row, Option.map_some], ?_⟩
      rw [Object.write_other L (spared o held named), cell]
    · exact ⟨cells, by rw [Function.update_of_ne here, row], cell⟩
  | @delete h o j held named =>
    have other : k ≠ j := by
      rintro rfl
      exact spared o held named
    exact ⟨cells, by rw [Function.update_of_ne other, row], cell⟩

/-- Row `k` holds what was set of the object. -/
def Written (L : Layout K I C V) (w : World H K I C V) (o : Object I V) (k : K) : Prop :=
  ∃ cells, w.rows k = some cells ∧ ∀ i ∈ o.dirty, cells i = L.keep (o.value i)

theorem Step.saved {h : H} {o : Object I V} {k : K} (taken : Step L w (.update h) true v)
    (held : w.objects h = some o) (named : o.row L = some k) (row : w.rows k ≠ none) :
    Written L v o k ∧ ∀ j, j ≠ k → v.rows j = w.rows j := by
  obtain ⟨cells, found⟩ := Option.ne_none_iff_exists'.mp row
  cases taken with
  | unchanged held' _ clean =>
    rw [held, Option.some.injEq] at held'
    subst held'
    exact ⟨⟨cells, found, by simp [clean]⟩, fun _ _ => rfl⟩
  | updated held' _ _ named' =>
    rw [held, Option.some.injEq] at held'
    subst held'
    rw [named, Option.some.injEq] at named'
    subst named'
    have stored : Function.update w.rows k ((w.rows k).map (o.write L)) k = some (o.write L cells) := by
      rw [Function.update_self, found, Option.map_some]
    exact ⟨⟨_, stored, fun i dirty => Object.write_dirty L dirty cells⟩,
      fun j other => Function.update_of_ne other ..⟩

theorem Step.added {h : H} {o : Object I V} (taken : Step L w (.insert h) true v)
    (held : w.objects h = some o) :
    ∃ k, w.rows k = none ∧ (L.key ∈ o.dirty → o.row L = some k) ∧ Written L v o k ∧
      ∀ j, j ≠ k → v.rows j = w.rows j := by
  cases taken with
  | @inserted _ _ k held' _ named free =>
    rw [held, Option.some.injEq] at held'
    subst held'
    refine ⟨k, free, fun _ => named, ?_, fun j other => Function.update_of_ne other ..⟩
    exact ⟨o.write L L.default, Function.update_self .., fun i dirty => Object.write_dirty L dirty _⟩
  | @numbered _ _ k c held' _ keyless _ free =>
    rw [held, Option.some.injEq] at held'
    subst held'
    refine ⟨k, free, fun keyed => absurd keyed keyless, ?_,
      fun j other => Function.update_of_ne other ..⟩
    exact ⟨_, Function.update_self .., fun i dirty => Object.write_dirty L dirty _⟩

theorem Step.reads {h : H} {k : K} {i : I} {editable : Bool} {c : C}
    (taken : Step L w (.load h k editable) true v) (stored : Stored w k i c) :
    ∃ o, v.objects h = some o ∧ o.value i = L.read i c := by
  obtain ⟨cells, row, cell⟩ := stored
  cases taken with
  | loaded row' =>
    rw [row, Option.some.injEq] at row'
    subst row'
    exact ⟨Object.load L editable cells, Function.update_self .., by rw [← cell]; rfl⟩

/-- A value that is stored is read back after any run that spares it. -/
theorem read_back {u u' : World H K I C V} {h : H} {k : K} {i : I} {x : V} {editable : Bool}
    {events : List (Act H K I V × Bool)} (stored : Stored v k i (L.keep x))
    (run : RunWhere (Step L) (Spares L k i) v events u)
    (reload : Step L u (.load h k editable) true u') :
    ∃ o, u'.objects h = some o ∧ o.value i = x := by
  have kept := run.invariant (I := fun w => Stored w k i (L.keep x))
    (fun _ _ _ _ stored spared taken => taken.stored spared stored) stored
  obtain ⟨o, loaded, value⟩ := reload.reads kept
  exact ⟨o, loaded, by rw [value, L.read_keep]⟩

end Steps

end ObjectStore
