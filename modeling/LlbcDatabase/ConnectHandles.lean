import LlbcDatabase.MysqlDB
import LlbcDatabase.Library.Ownership
import LlbcDatabase.Library.Transition

/-! The handles of the client library: which of them `MysqlConnect` keeps open, and which
of its calls use one that it has closed. -/

namespace LlbcDatabase

open Ownership Transition

/-- What `mysql_init` and `mysql_real_connect` come to. -/
inductive ConnectOutcome where
  | noHandle
  | refused
  | connected
  deriving DecidableEq

/-- `MysqlConnect` with its handle. `lastError` is what `mysql_errno` and `mysql_error` said. -/
structure Connection (E : Type) where
  opened : Bool
  dbHandler : Option Nat
  lastError : Option E

namespace Connection

variable {E : Type}

def new : Connection E := ⟨false, none, none⟩

/-- `SetLastError`; for a null handle the library has an error of its own. -/
def setLastError (c : Connection E) (errors : Option Nat → E) (h : Heap) :
    Option (Connection E) :=
  if ∀ p ∈ c.dbHandler, p ∈ h.live then some { c with lastError := some (errors c.dbHandler) }
  else none

/-- `Connect`. The error of a refused one is asked of the handle that was there before. -/
def connect (c : Connection E) (outcome : ConnectOutcome) (errors : Option Nat → E) (h : Heap) :
    Option (Bool × Connection E × Heap) :=
  match outcome with
  | .noHandle => some (false, c, h)
  | .refused =>
    (c.setLastError errors h.new.2).bind fun c => (h.new.2.delete h.new.1).map fun h => (false, c, h)
  | .connected => some (true, { c with opened := true, dbHandler := some h.new.1 }, h.new.2)

/-- `Disconnect`, which leaves `_dbHandler` as it is. -/
def disconnect (c : Connection E) (h : Heap) : Option (Connection E × Heap) :=
  match c.opened, c.dbHandler with
  | true, some p => (h.delete p).map fun h => ({ c with opened := false }, h)
  | _, _ => some (c, h)

def useHandler (c : Connection E) (h : Heap) : Option Unit :=
  match c.dbHandler with
  | some p => if p ∈ h.live then some () else none
  | none => none

/-- The handle that the destructor closes. -/
def handles (c : Connection E) : List Nat := if c.opened then c.dbHandler.toList else []

end Connection

/-- A call on a `MysqlConnect`. `query` says whether the server refuses the statement, and
`escape` is a use of what `GetHandler` returns. -/
inductive ConnectCall (E : Type) where
  | connect (outcome : ConnectOutcome) (errors : Option Nat → E)
  | disconnect
  | ping
  | query (refused : Bool) (errors : Option Nat → E)
  | escape

structure Connecting (E : Type) where
  conn : Connection E
  heap : Heap

namespace Connecting

variable {E : Type}

def start : Connecting E := ⟨.new, Heap.empty⟩

/-- A call that returns; there is none where a handle is used that is not open. -/
def step (s : Connecting E) : ConnectCall E → Option (Connecting E)
  | .connect outcome errors =>
    (s.conn.connect outcome errors s.heap).map fun (_, conn, heap) => ⟨conn, heap⟩
  | .disconnect => (s.conn.disconnect s.heap).map fun (conn, heap) => ⟨conn, heap⟩
  | .ping => if s.conn.dbHandler.isNone then some s else (s.conn.useHandler s.heap).map fun _ => s
  | .query refused errors =>
    if !s.conn.opened then some s
    else (s.conn.useHandler s.heap).bind fun _ =>
      if refused then (s.conn.setLastError errors s.heap).map fun conn => ⟨conn, s.heap⟩ else some s
  | .escape => (s.conn.useHandler s.heap).map fun _ => s

def Owned (s : Connecting E) : Prop := s.heap.Holds s.conn.handles

def connectsClosed (s : Connecting E) : ConnectCall E → Prop
  | .connect .connected _ => s.conn.opened = false
  | _ => True

def Stale (s : Connecting E) : Prop := s.conn.opened = false ∧ s.conn.dbHandler ≠ none

def usesHandler (s : Connecting E) : ConnectCall E → Prop
  | .connect .refused _ | .ping => s.Stale
  | .escape => s.conn.opened = false
  | _ => False

structure Sound (s : Connecting E) : Prop where
  known : ∀ p ∈ s.conn.dbHandler, p < s.heap.next
  live_iff : ∀ p ∈ s.conn.dbHandler, p ∈ s.heap.live ↔ s.conn.opened = true
  opened : s.conn.opened = true → s.conn.dbHandler ≠ none

theorem start_sound : (start : Connecting E).Sound where
  known := by simp [start, Connection.new]
  live_iff := by simp [start, Connection.new]
  opened := by simp [start, Connection.new]

variable {s t : Connecting E} {a : ConnectCall E}

theorem Sound.not_stale_iff (h : s.Sound) :
    ¬ s.Stale ↔ ∀ p ∈ s.conn.dbHandler, p ∈ s.heap.live := by
  have live := h.live_iff
  unfold Stale
  cases handle : s.conn.dbHandler with
  | none => simp
  | some p =>
    rw [handle] at live
    simp [live p rfl]

theorem Sound.live_new (h : s.Sound) :
    (∀ p ∈ s.conn.dbHandler, p ∈ s.heap.new.2.live) ↔ ¬ s.Stale := by
  rw [h.not_stale_iff]
  refine forall₂_congr fun p member => ?_
  have below := h.known p member
  exact List.mem_cons.trans (or_iff_right below.ne)

theorem Sound.useHandler_iff (h : s.Sound) :
    s.conn.useHandler s.heap = some () ↔ s.conn.opened = true := by
  have live := h.live_iff
  have opened := h.opened
  unfold Connection.useHandler
  cases handle : s.conn.dbHandler with
  | none => simpa [handle] using opened
  | some p =>
    rw [handle] at live
    simp [live p rfl]

inductive Stepped (s : Connecting E) : ConnectCall E → Connecting E → Prop where
  | connected {errors : Option Nat → E} {t : Connecting E} (opened : t.conn.opened = true)
      (handle : t.conn.dbHandler = some s.heap.next) (heap : t.heap = s.heap.new.2) :
      Stepped s (.connect .connected errors) t
  | closed {p : Nat} {t : Connecting E} (opened : s.conn.opened = true) (handle : s.conn.dbHandler = some p)
      (after : t.conn.opened = false) (same : t.conn.dbHandler = some p)
      (deleted : s.heap.delete p = some t.heap) : Stepped s .disconnect t
  | quiet {a : ConnectCall E} {t : Connecting E} (other : ∀ errors, a ≠ .connect .connected errors)
      (opened : t.conn.opened = s.conn.opened) (same : t.conn.dbHandler = s.conn.dbHandler)
      (live : t.heap.live = s.heap.live) (next : s.heap.next ≤ t.heap.next) : Stepped s a t

theorem setLastError_some {c d : Connection E} {errors : Option Nat → E} {h : Heap}
    (set : c.setLastError errors h = some d) :
    d.opened = c.opened ∧ d.dbHandler = c.dbHandler := by
  unfold Connection.setLastError at set
  split at set
  case isTrue =>
    cases set
    exact ⟨rfl, rfl⟩
  case isFalse => cases set

theorem step_stepped (taken : step s a = some t) : Stepped s a t := by
  cases a with
  | connect outcome errors =>
    obtain ⟨⟨ok, conn, heap⟩, done, rfl⟩ := Option.map_eq_some_iff.mp taken
    cases outcome with
    | noHandle =>
      cases done
      exact .quiet (by simp) rfl rfl rfl le_rfl
    | refused =>
      obtain ⟨d, set, closes⟩ := Option.bind_eq_some_iff.mp done
      obtain ⟨k, deleted, live, next⟩ := s.heap.delete_new
      obtain ⟨opened, same⟩ := setLastError_some set
      rw [deleted] at closes
      cases closes
      exact .quiet (by simp) opened same live (by simp only; omega)
    | connected =>
      cases done
      exact .connected rfl rfl rfl
  | disconnect =>
    obtain ⟨⟨conn, heap⟩, done, rfl⟩ := Option.map_eq_some_iff.mp taken
    unfold Connection.disconnect at done
    split at done
    case h_1 p opened handle =>
      obtain ⟨h, deleted, same⟩ := Option.map_eq_some_iff.mp done
      cases same
      exact .closed opened handle rfl handle deleted
    case h_2 =>
      cases done
      exact .quiet (by simp) rfl rfl rfl le_rfl
  | ping =>
    have same : t = s := by
      rw [step] at taken
      split at taken
      · exact (Option.some.inj taken).symm
      · obtain ⟨_, -, same⟩ := Option.map_eq_some_iff.mp taken
        exact same.symm
    subst same
    exact .quiet (by simp) rfl rfl rfl le_rfl
  | query refused errors =>
    rw [step] at taken
    split at taken
    · cases taken
      exact .quiet (by simp) rfl rfl rfl le_rfl
    · obtain ⟨_, -, later⟩ := Option.bind_eq_some_iff.mp taken
      split at later
      · obtain ⟨conn, set, rfl⟩ := Option.map_eq_some_iff.mp later
        obtain ⟨opened, same⟩ := setLastError_some set
        exact .quiet (by simp) opened same rfl le_rfl
      · cases later
        exact .quiet (by simp) rfl rfl rfl le_rfl
  | escape =>
    obtain ⟨_, -, rfl⟩ := Option.map_eq_some_iff.mp taken
    exact .quiet (by simp) rfl rfl rfl le_rfl

theorem Sound.next (h : s.Sound) (taken : step s a = some t) : t.Sound := by
  cases step_stepped taken with
  | connected opened handle heap =>
    refine ⟨?_, ?_, fun _ => by simp [handle]⟩
    · simp [handle, heap, Heap.new]
    · simp [handle, heap, Heap.new, opened]
  | @closed p _ opened handle after same deleted =>
    refine ⟨?_, ?_, by simp [after]⟩
    · rw [Heap.delete_next deleted, same, ← handle]
      exact h.known
    · intro q member
      obtain rfl : p = q := by simpa [same] using member
      simp [Heap.mem_delete deleted, after]
  | quiet other opened same live next =>
    refine ⟨?_, ?_, ?_⟩
    · rw [same]
      exact fun p member => (h.known p member).trans_le next
    · rw [same, opened, live]
      exact h.live_iff
    · rw [same, opened]
      exact h.opened

theorem Sound.handles_nil_iff (h : s.Sound) : s.conn.handles = [] ↔ s.conn.opened = false := by
  have opened := h.opened
  unfold Connection.handles
  cases state : s.conn.opened with
  | false => simp
  | true => simpa [state] using opened

theorem Sound.owned_step_iff (h : s.Sound) (owned : s.Owned) (taken : step s a = some t) :
    t.Owned ↔ s.connectsClosed a := by
  cases step_stepped taken with
  | connected opened handle heap =>
    have held : s.heap.live = [] ↔ s.conn.opened = false := by
      rw [← h.handles_nil_iff]
      constructor
      · intro none
        exact (none ▸ owned : [].Perm _).nil_eq.symm
      · intro none
        exact (none ▸ owned : List.Perm _ []).eq_nil
    change t.heap.Holds (if t.conn.opened then t.conn.dbHandler.toList else []) ↔ _
    rw [opened, handle, heap, if_pos rfl, Option.toList_some]
    change (s.heap.next :: s.heap.live).Perm [s.heap.next] ↔ s.conn.opened = false
    rw [List.perm_cons, List.perm_nil, held]
  | @closed p _ opened handle after same deleted =>
    have one : s.heap.live.Perm [p] := by
      have own := owned
      rwa [Owned, Connection.handles, opened, handle] at own
    have none : t.heap.live.Perm [] :=
      (List.perm_cons p).mp ((Heap.delete_live deleted).symm.trans one)
    apply iff_of_true _ trivial
    rw [Owned, Connection.handles, after]
    exact none
  | quiet other opened same live next =>
    have free : s.connectsClosed a := by
      cases a with
      | connect outcome errors =>
        cases outcome with
        | connected => exact absurd rfl (other errors)
        | _ => trivial
      | _ => trivial
    apply iff_of_true _ free
    rw [Owned, Connection.handles, opened, same, Heap.Holds, live]
    exact owned

theorem Sound.step_none_iff (h : s.Sound) (a : ConnectCall E) :
    step s a = none ↔ s.usesHandler a := by
  have use := h.useHandler_iff
  cases a with
  | connect outcome errors =>
    cases outcome with
    | noHandle | connected => simp [step, Connection.connect, usesHandler]
    | refused =>
      obtain ⟨k, deleted, -⟩ := s.heap.delete_new
      have live := h.live_new
      simp only [step, Connection.connect, Connection.setLastError, usesHandler, deleted]
      split
      case isTrue all => simp [live.mp all]
      case isFalse other => simpa using (not_congr live).mp other
  | disconnect =>
    have live := h.live_iff
    simp only [step, Connection.disconnect, usesHandler, iff_false]
    split
    case h_1 p opened handle =>
      have there := Heap.delete_isSome_iff.mpr ((live p handle).mpr opened)
      obtain ⟨k, deleted⟩ := Option.isSome_iff_exists.mp there
      simp [deleted]
    case h_2 => simp
  | ping =>
    simp only [step, usesHandler, Stale]
    cases handle : s.conn.dbHandler with
    | none => simp
    | some p =>
      cases used : s.conn.useHandler s.heap <;> simp_all
  | query refused errors =>
    simp only [step, usesHandler, iff_false]
    cases opened : s.conn.opened with
    | false => simp
    | true =>
      have live : ∀ p ∈ s.conn.dbHandler, p ∈ s.heap.live :=
        fun p member => (h.live_iff p member).mpr opened
      have set : s.conn.setLastError errors s.heap = some _ := if_pos live
      cases refused <;> simp [use.mpr opened, set]
  | escape =>
    simp only [step, usesHandler]
    cases used : s.conn.useHandler s.heap <;> simp_all

/-- What a refused `Connect` records is not the error of its own handle. -/
theorem Sound.refused_error (h : s.Sound) {errors errors' : Option Nat → E}
    (same : ∀ p, p ≠ some s.heap.next → errors p = errors' p) :
    step s (.connect .refused errors) = step s (.connect .refused errors') := by
  have other : s.conn.dbHandler ≠ some s.heap.next :=
    fun handle => Nat.lt_irrefl _ (h.known _ handle)
  simp only [step, Connection.connect, Connection.setLastError, same _ other]

end Connecting

/-- Over any sequence of calls on a `MysqlConnect` the handles that are open are those its
destructor closes, just when no `Connect` succeeds on an open connection. No call closes a
handle twice; those that use a closed one are `Ping`, a refused `Connect` and what is done with
`GetHandler`, between a `Disconnect` and the next `Connect`. The error that a refused `Connect`
leaves does not depend on why it was refused. -/
theorem connect_handles_iff {E : Type} (calls : List (ConnectCall E)) :
    ((∀ t ∈ trace Connecting.step Connecting.start calls, t.Owned) ↔
      ∀ p ∈ taken Connecting.step Connecting.start calls, p.1.connectsClosed p.2) ∧
    ∀ t ∈ Connecting.start :: trace Connecting.step Connecting.start calls,
      (∀ a, t.step a = none ↔ t.usesHandler a) ∧
      ∀ errors errors', (∀ p, p ≠ some t.heap.next → errors p = errors' p) →
        t.step (.connect .refused errors) = t.step (.connect .refused errors') := by
  have sound : (Connecting.start : Connecting E).Sound := Connecting.start_sound
  constructor
  · exact trace_iff (fun _ _ _ held taken => Connecting.Sound.next held taken)
      (fun _ _ _ held owned taken => Connecting.Sound.owned_step_iff held owned taken) sound
      Heap.holds_empty calls
  · intro t passed
    have held : t.Sound := List.forall_mem_cons.mpr
      ⟨sound, trace_invariant (fun _ _ _ held taken => Connecting.Sound.next held taken) sound calls⟩
      t passed
    exact ⟨held.step_none_iff, fun errors errors' same => held.refused_error same⟩

end LlbcDatabase
