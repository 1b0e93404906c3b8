import LlbcDatabase.EngineFlush

/-! Which call of `Flush` an acknowledgement belongs to. The engine runs with a
history beside it: how often `_flushing` has been raised, and in which call each
worker read what it acknowledges. -/

namespace LlbcDatabase

open Transition

/-- `raised` counts the calls of `Flush` that have set `_flushing`. `readIn i` is the
call in which worker `i` last read it as true, and `storedIn i` the one in which
the worker had read it when it last stored true into its flag. -/
structure Epochs (Sql Conn D RS : Type) (n : Nat) where
  engine : Engine Sql Conn D RS n
  raised : Nat
  readIn : Fin n → Nat
  storedIn : Fin n → Nat

namespace Epochs

variable {Sql Conn D RS : Type} {n : Nat}

def initial (conns : Fin n → Conn) (flags : Fin n → Bool) (db : D) : Epochs Sql Conn D RS n where
  engine := Engine.initial conns flags db
  raised := 0
  readIn := fun _ => 0
  storedIn := fun _ => 0

def raisedAfter (e : Epochs Sql Conn D RS n) : Action Sql n → Nat
  | .main => match e.engine.main with
    | .flushSet _ => e.raised + 1
    | _ => e.raised
  | _ => e.raised

def readAfter (e : Epochs Sql Conn D RS n) : Action Sql n → Fin n → Nat
  | .worker i => match e.engine.workers i, e.engine.flushing with
    | .readFlushing, true => Function.update e.readIn i e.raised
    | _, _ => e.readIn
  | _ => e.readIn

def storedAfter (e : Epochs Sql Conn D RS n) : Action Sql n → Fin n → Nat
  | .worker i => match e.engine.workers i with
    | .setFlag => Function.update e.storedIn i (e.readIn i)
    | _ => e.storedIn
  | _ => e.storedIn

/-- A step of the engine, noted in the history. -/
def step (be : Backend Sql Conn D RS) (e : Epochs Sql Conn D RS n) (a : Action Sql n) :
    Option (Epochs Sql Conn D RS n) :=
  (Engine.step be e.engine a).map fun s =>
    { engine := s, raised := e.raisedAfter a, readIn := e.readAfter a, storedIn := e.storedAfter a }

/-- A worker stores its acknowledgement while a `Flush` that has cleared the flag is
still to read it only if it has read `_flushing` since that call raised it. -/
def freshStore (e : Epochs Sql Conn D RS n) (a : Action Sql n) : Prop :=
  ∀ i : Fin n, a = .worker i → e.engine.workers i = .setFlag →
    Engine.flagCleared i e.engine.main → ¬ Engine.shardSeen i e.engine.main →
      Engine.flushOpen e.engine.main ∧ e.readIn i = e.raised

/-- A worker stands between its read of `_flushing` as true and the end of that turn. -/
def holding (e : Epochs Sql Conn D RS n) (i : Fin n) : Prop :=
  e.engine.workers i = .readEmpty ∨ e.engine.workers i = .setFlag

/-- `Flush` clears the flag of a worker that holds no earlier read of `_flushing`. -/
def clearsIdle (e : Epochs Sql Conn D RS n) (a : Action Sql n) : Prop :=
  ∀ (i : Fin n) (caller : Caller), a = .main → e.engine.main = .flushClear i caller → ¬ e.holding i

instance (pc : MainPc Sql RS) : Decidable (Engine.flushOpen pc) := by
  unfold Engine.flushOpen
  split <;> infer_instance

instance [DecidableEq Sql] [DecidableEq RS] (e : Epochs Sql Conn D RS n) (a : Action Sql n) :
    Decidable (freshStore e a) := by
  unfold freshStore
  infer_instance

instance [DecidableEq Sql] [DecidableEq RS] (e : Epochs Sql Conn D RS n) (i : Fin n) :
    Decidable (e.holding i) := inferInstanceAs (Decidable (_ ∨ _))

instance [DecidableEq Sql] [DecidableEq RS] (e : Epochs Sql Conn D RS n) (a : Action Sql n) :
    Decidable (clearsIdle e a) :=
  decidable_of_iff (∀ i : Fin n, a = .main →
      e.engine.main = .flushClear i .user ∨ e.engine.main = .flushClear i .destroy → ¬ e.holding i) (by
    constructor
    · rintro idle i (_ | _) is_main at_pc
      · exact idle i is_main (.inl at_pc)
      · exact idle i is_main (.inr at_pc)
    · rintro idle i is_main (at_pc | at_pc) <;> exact idle i _ is_main at_pc)

section Steps

variable {be : Backend Sql Conn D RS} {e e' : Epochs Sql Conn D RS n} {a : Action Sql n}

variable {conns : Fin n → Conn} {flags : Fin n → Bool} {db : D}

/-- The history does not restrict the engine: its runs are those of the engine. -/
theorem engine_reach (reached : Reach (step be) (initial conns flags db) e) :
    Reach (Engine.step be) (Engine.initial conns flags db) e.engine := by
  refine Reach.invariant (I := fun e => Reach (Engine.step be)
    (Engine.initial conns flags db) e.engine) .start ?_ reached
  intro e e' a _ held h
  obtain ⟨s, taken, rfl⟩ := Option.map_eq_some_iff.mp h
  exact held.next taken

theorem reach_engine {s : Engine Sql Conn D RS n}
    (reached : Reach (Engine.step be) (Engine.initial conns flags db) s) :
    ∃ e, Reach (step be) (initial conns flags db) e ∧ e.engine = s := by
  refine Reach.invariant (I := fun s => ∃ e, Reach (step be) (initial conns flags db) e ∧
    e.engine = s) ⟨_, .start, rfl⟩ ?_ reached
  intro s t a _ held taken
  obtain ⟨e, before, rfl⟩ := held
  exact ⟨_, before.next (by rw [step, taken, Option.map_some]), rfl⟩

/-- While a `Flush` is to read the flag of worker `i`, nothing has been stored in it
before `_flushing` is raised, and only what was read in this call after it. -/
structure Fresh (e : Epochs Sql Conn D RS n) : Prop where
  silent : ∀ i : Fin n, Engine.flagCleared i e.engine.main → ¬ Engine.flushOpen e.engine.main →
    e.engine.flushFlag i = false
  acked : ∀ i : Fin n, Engine.flushOpen e.engine.main → ¬ Engine.shardSeen i e.engine.main →
    e.engine.flushFlag i = true → e.storedIn i = e.raised

theorem Fresh.initial : Fresh (initial conns flags db : Epochs Sql Conn D RS n) := by
  constructor <;> simp [Epochs.initial, Engine.initial, Engine.flagCleared, Engine.flushOpen]

theorem silent_next (flagsHold : Engine.Flags e.engine) (h : Fresh e) (fresh : freshStore e a)
    {s : Engine Sql Conn D RS n} (taken : Engine.Stepped be e.engine a s) (i : Fin n)
    (cleared : Engine.flagCleared i s.main) (unraised : ¬ Engine.flushOpen s.main) :
    s.flushFlag i = false := by
  have before := Engine.cleared_before flagsHold taken i cleared
  cases taken with
  | setFlag j at_pc =>
    by_cases same : i = j
    · subst same
      have unseen : ¬ Engine.shardSeen i e.engine.main := by
        cases main : e.engine.main <;> simp_all [Engine.flagCleared, Engine.flushOpen,
          Engine.shardSeen]
      exact absurd (fresh i rfl at_pc cleared unseen).1 unraised
    · simpa [same] using h.silent i cleared unraised
  | flushClear j at_pc =>
    rcases before with before | unset
    · by_cases same : i = j
      · simp [same]
      · simpa [same] using h.silent i before (by simp [at_pc, Engine.flushOpen])
    · exact unset
  | flushCleared at_pc past =>
    rcases before with before | unset
    · exact h.silent i before (by simp [at_pc, Engine.flushOpen])
    · exact unset
  | flushReturn => simp [Engine.not_flagCleared_afterFlush] at cleared
  | flushSet | flushSeen | flushAllSeen => exact absurd trivial unraised
  | flushBegin | destroyBegin => exact absurd cleared (Nat.not_lt_zero _)
  | updateSwap | destroyUnflushed | updateDone | invoke | callbackDone | destroyStop
  | destroyReset | destroyPast | joined | joinedAll | destroyClear => exact cleared.elim
  | _ => exact h.silent i cleared unraised

theorem acked_next (h : Fresh e) (fresh : freshStore e a) {s : Engine Sql Conn D RS n}
    (taken : Engine.Stepped be e.engine a s) (i : Fin n) (isOpen : Engine.flushOpen s.main)
    (unseen : ¬ Engine.shardSeen i s.main) (set : s.flushFlag i = true) :
    e.storedAfter a i = e.raisedAfter a := by
  cases taken with
  | setFlag j at_pc =>
    by_cases same : i = j
    · subst same
      have cleared : Engine.flagCleared i e.engine.main := by
        cases main : e.engine.main <;> simp_all [Engine.flagCleared, Engine.flushOpen]
      have read := (fresh i rfl at_pc cleared unseen).2
      simpa [storedAfter, raisedAfter, at_pc] using read
    · have before := h.acked i isOpen unseen (by simpa [same] using set)
      simpa [storedAfter, raisedAfter, at_pc, same] using before
  | flushSet at_pc =>
    have unset := h.silent i (by simp [at_pc, Engine.flagCleared])
      (by simp [at_pc, Engine.flushOpen])
    simp [unset] at set
  | flushSeen j at_pc =>
    have before := h.acked i (by simp [at_pc, Engine.flushOpen])
      (by simp only [at_pc, Engine.shardSeen] at unseen ⊢; omega) set
    simpa [storedAfter, raisedAfter, at_pc] using before
  | flushReturn => simp [Engine.not_flushOpen_afterFlush] at isOpen
  | flushAllSeen => exact absurd trivial unseen
  | updateSwap | flushBegin | destroyUnflushed | destroyBegin | updateDone | invoke | callbackDone
  | flushClear | flushCleared | destroyStop | destroyReset | destroyPast | joined | joinedAll
  | destroyClear => exact isOpen.elim
  | pop j at_pc | worked j at_pc | execute j at_pc | finish j at_pc | sawFlushing j at_pc
  | sawNoFlush j at_pc | sawEmpty j at_pc | sawTasks j at_pc | sawStoping j at_pc
  | sawGoing j at_pc | count j at_pc | flushSleep j at_pc | destroySleep at_pc =>
    have before := h.acked i isOpen unseen set
    simpa [storedAfter, raisedAfter, at_pc] using before
  | submit | updateNothing | flushRefused | destroyRefused => exact h.acked i isOpen unseen set

theorem Fresh.next (flagsHold : Engine.Flags e.engine) (h : Fresh e) (fresh : freshStore e a)
    (taken : step be e a = some e') : Fresh e' := by
  obtain ⟨s, moved, rfl⟩ := Option.map_eq_some_iff.mp taken
  have stepped := Engine.step_stepped moved
  exact ⟨silent_next flagsHold h fresh stepped, acked_next h fresh stepped⟩

theorem fresh (reached : ReachWhere (step be) freshStore (initial conns flags db) e) : Fresh e :=
  ReachWhere.invariant Fresh.initial
    (fun _ _ _ before held met taken =>
      held.next (Engine.handshake (engine_reach before.reach)).toFlags met taken) reached

theorem holding_before {s : Engine Sql Conn D RS n} (taken : Engine.Stepped be e.engine a s)
    (i : Fin n) (holds : s.workers i = .readEmpty ∨ s.workers i = .setFlag) :
    e.holding i ∨ a = .worker i ∧ e.engine.workers i = .readFlushing ∧ e.engine.flushing = true := by
  cases taken with
  | sawFlushing j at_pc saw | sawEmpty j at_pc saw =>
    by_cases same : i = j
    · subst same
      simp_all [holding]
    · left
      simpa [holding, same] using holds
  | pop j | worked j | execute j | finish j | sawNoFlush j | sawTasks j | setFlag j
  | sawStoping j | sawGoing j | count j =>
    left
    by_cases same : i = j
    · simp [same] at holds
    · simpa [holding, same] using holds
  | _ => exact .inl holds

theorem cleared_unless {s : Engine Sql Conn D RS n} (flagsHold : Engine.Flags e.engine)
    (taken : Engine.Stepped be e.engine a s) (i : Fin n) (cleared : Engine.flagCleared i s.main) :
    Engine.flagCleared i e.engine.main ∨
      ∃ caller, a = .main ∧ e.engine.main = .flushClear i caller := by
  cases taken with
  | @flushClear caller j at_pc =>
    by_cases same : i = j
    · right
      exact ⟨caller, rfl, by rw [at_pc, same]⟩
    · left
      have below : i.val < j.val + 1 := cleared
      have apart : i.val ≠ j.val := fun h => same (Fin.ext h)
      simp only [at_pc, Engine.flagCleared]
      omega
  | flushCleared at_pc past =>
    left
    have all := flagsHold.connNum_closing (by simp [at_pc, Engine.closing])
    have below := i.isLt
    simp only [at_pc, Engine.flagCleared]
    omega
  | flushReturn => simp [Engine.not_flagCleared_afterFlush] at cleared
  | flushSet at_pc | flushSeen _ at_pc | flushAllSeen at_pc =>
    exact .inl (by simp [at_pc, Engine.flagCleared])
  | flushBegin | destroyBegin => exact absurd cleared (Nat.not_lt_zero _)
  | updateSwap | destroyUnflushed | updateDone | invoke | callbackDone | destroyStop
  | destroyReset | destroyPast | joined | joinedAll | destroyClear => exact cleared.elim
  | _ => exact .inl cleared

theorem open_stays {s : Engine Sql Conn D RS n} (taken : Engine.Stepped be e.engine a s) (i : Fin n)
    (isOpen : Engine.flushOpen e.engine.main) (cleared : Engine.flagCleared i s.main) :
    Engine.flushOpen s.main ∧ e.raisedAfter a = e.raised := by
  cases taken with
  | flushReturn => simp [Engine.not_flagCleared_afterFlush] at cleared
  | flushSeen _ at_pc | flushAllSeen at_pc => exact ⟨trivial, by simp [raisedAfter, at_pc]⟩
  | flushSleep _ at_pc => exact ⟨isOpen, by simp [raisedAfter, at_pc]⟩
  | updateDone at_pc | invoke at_pc | callbackDone at_pc | flushClear _ at_pc | flushCleared at_pc
  | flushSet at_pc | destroyStop at_pc | destroyReset at_pc | destroySleep at_pc
  | destroyPast at_pc | joined _ at_pc | joinedAll at_pc | destroyClear at_pc
  | updateSwap at_pc | flushBegin at_pc | destroyUnflushed at_pc | destroyBegin at_pc =>
    rw [at_pc] at isOpen
    exact isOpen.elim
  | _ => exact ⟨isOpen, rfl⟩

theorem readAfter_holding {i : Fin n} (held : e.holding i) (a : Action Sql n) :
    e.readAfter a i = e.readIn i := by
  cases a with
  | worker j =>
    by_cases same : i = j
    · subst same
      rcases held with at_pc | at_pc <;> simp [readAfter, at_pc]
    · cases at_pc : e.engine.workers j <;> cases saw : e.engine.flushing <;>
        simp [readAfter, at_pc, saw, same]
  | _ => rfl

/-- Nobody holds a read from before the raise of `_flushing` once its flag is cleared. -/
def HoldsFresh (e : Epochs Sql Conn D RS n) : Prop :=
  ∀ i : Fin n, Engine.flagCleared i e.engine.main → e.holding i →
    Engine.flushOpen e.engine.main ∧ e.readIn i = e.raised

theorem HoldsFresh.next (flagsHold : Engine.Flags e.engine) (h : HoldsFresh e)
    (idle : clearsIdle e a) (taken : step be e a = some e') : HoldsFresh e' := by
  obtain ⟨s, moved, rfl⟩ := Option.map_eq_some_iff.mp taken
  have stepped := Engine.step_stepped moved
  intro i cleared holds
  change Engine.flagCleared i s.main at cleared
  change Engine.flushOpen s.main ∧ e.readAfter a i = e.raisedAfter a
  rcases holding_before stepped i holds with held | ⟨rfl, at_pc, saw⟩
  · have before : Engine.flagCleared i e.engine.main := by
      rcases cleared_unless flagsHold stepped i cleared with before | ⟨caller, is_main, at_pc⟩
      · exact before
      · exact absurd held (idle i caller is_main at_pc)
    obtain ⟨isOpen, read⟩ := h i before held
    obtain ⟨still, raised⟩ := open_stays stepped i isOpen cleared
    exact ⟨still, by rw [readAfter_holding held, raised, read]⟩
  · have isOpen := flagsHold.flushing_iff.mp saw
    obtain ⟨still, raised⟩ := open_stays stepped i isOpen cleared
    exact ⟨still, by simp [readAfter, raisedAfter, at_pc, saw]⟩

theorem holdsFresh (reached : ReachWhere (step be) clearsIdle (initial conns flags db) e) :
    HoldsFresh e :=
  ReachWhere.invariant (by intro i cleared; simp [initial, Engine.initial, Engine.flagCleared] at cleared)
    (fun _ _ _ before held met taken =>
      held.next (Engine.handshake (engine_reach before.reach)).toFlags met taken) reached

theorem freshStore_of_clearsIdle
    (reached : ReachWhere (step be) clearsIdle (initial conns flags db) e) :
    ReachWhere (step be) freshStore (initial conns flags db) e := by
  induction reached with
  | start => exact .start
  | next before _ taken ih =>
    refine ih.next ?_ taken
    intro i _ at_pc cleared _
    exact holdsFresh before i cleared (.inr at_pc)

end Steps

end Epochs

theorem Epochs.left_fresh {Sql Conn D RS : Type} {n : Nat} {be : Backend Sql Conn D RS}
    {conns : Fin n → Conn} {flags : Fin n → Bool} {db : D} {e e' : Epochs Sql Conn D RS n} {i : Fin n}
    {caller : Caller}
    (reached : ReachWhere (Epochs.step be) Epochs.freshStore (Epochs.initial conns flags db) e)
    (waits : e.engine.main = .flushWait i caller) (taken : Epochs.step be e .main = some e')
    (left : e'.engine.main = .flushWait (i + 1) caller) : e'.storedIn i = e'.raised := by
  obtain ⟨s, moved, rfl⟩ := Option.map_eq_some_iff.mp taken
  have set : e.engine.flushFlag i = true := by
    cases Engine.step_stepped moved with
    | flushSeen j at_pc _ seen =>
      rw [at_pc, MainPc.flushWait.injEq] at waits
      rw [← Fin.ext waits.1, seen]
    | flushSleep => simp [waits] at left
    | _ => simp_all
  have same := (Epochs.fresh reached).acked i (by simp [waits, Engine.flushOpen])
    (by simp [waits, Engine.shardSeen]) set
  simpa [Epochs.storedAfter, Epochs.raisedAfter, waits] using same

/-- In every run in which no worker holds an earlier read of `_flushing` when `Flush` clears
its flag, the acknowledgement on which `Flush` leaves a shard was read in that same call. Such runs
are among those in which a worker whose flag is cleared and not yet read stores only what it
has read since the call raised `_flushing`, which have the same property, and a store that `Flush`
sees at once is fresh only if it meets that condition. -/
theorem flush_acknowledged_fresh {Sql Conn D RS : Type} {n : Nat} (be : Backend Sql Conn D RS)
    (conns : Fin n → Conn) (flags : Fin n → Bool) (db : D) :
    (∀ (e e' : Epochs Sql Conn D RS n) (i : Fin n) (caller : Caller),
      ReachWhere (Epochs.step be) Epochs.clearsIdle (Epochs.initial conns flags db) e →
      e.engine.main = .flushWait i caller → Epochs.step be e .main = some e' →
      e'.engine.main = .flushWait (i + 1) caller → e'.storedIn i = e'.raised) ∧
    (∀ e : Epochs Sql Conn D RS n,
      ReachWhere (Epochs.step be) Epochs.clearsIdle (Epochs.initial conns flags db) e →
      ReachWhere (Epochs.step be) Epochs.freshStore (Epochs.initial conns flags db) e) ∧
    (∀ (e e' : Epochs Sql Conn D RS n) (i : Fin n) (caller : Caller),
      ReachWhere (Epochs.step be) Epochs.freshStore (Epochs.initial conns flags db) e →
      e.engine.main = .flushWait i caller → Epochs.step be e .main = some e' →
      e'.engine.main = .flushWait (i + 1) caller → e'.storedIn i = e'.raised) ∧
    ∀ (e e' : Epochs Sql Conn D RS n) (i : Fin n) (caller : Caller),
      e.engine.main = .flushWait i caller → e.engine.workers i = .setFlag →
      Epochs.step be e (.worker i) = some e' →
      (e'.storedIn i = e'.raised ↔ Epochs.freshStore e (.worker i)) := by
  refine ⟨fun e e' i caller reached => Epochs.left_fresh (Epochs.freshStore_of_clearsIdle reached),
    fun e => Epochs.freshStore_of_clearsIdle, fun e e' i caller => Epochs.left_fresh,
    fun e e' i caller waits stores taken => ?_⟩
  obtain ⟨s, moved, rfl⟩ := Option.map_eq_some_iff.mp taken
  simp [Epochs.storedAfter, Epochs.raisedAfter, stores, Epochs.freshStore, waits,
    Engine.flagCleared, Engine.shardSeen, Engine.flushOpen]

namespace Epochs

open Engine

/-- `Flush` on one shard; its worker reads `_flushing` and acknowledges in turn. -/
def acknowledged : Epochs Nat Unit (List Nat) Nat 1 :=
  runTo (step logServer) (initial (fun _ => ()) (fun _ => false) [])
    [.flush, .main, .main, .main, .worker only, .worker only, .worker only, .worker only, .worker only]

theorem flush_acknowledged_fresh_acknowledged :
    acknowledged.engine.main = .flushWait 0 .user ∧
    ∀ e, step logServer acknowledged .main = some e → e.storedIn 0 = e.raised := by
  refine ⟨rfl, fun e taken => ?_⟩
  refine (flush_acknowledged_fresh logServer (fun _ => ()) (fun _ => false) []).1 acknowledged e 0
    .user (runTo_reachWhere .start rfl) rfl taken ?_
  cases taken
  rfl

/-- The worker acknowledges the first `Flush` twice; the second acknowledgement waits
in its hand while that call returns and the next one clears the flag. -/
def lateStore : Epochs Nat Unit (List Nat) Nat 1 :=
  runTo (step logServer) (initial (fun _ => ()) (fun _ => false) [])
    [.flush, .main, .main, .main, .worker only, .worker only, .worker only, .worker only, .worker only,
      .worker only, .worker only, .worker only, .worker only, .main, .main, .main,
      .flush, .main, .main, .main, .worker only]

theorem lateStore_released :
    Reach (step logServer) (initial (fun _ => ()) (fun _ => false) []) lateStore ∧
    lateStore.engine.main = .flushWait 0 .user ∧
    ∃ e, step logServer lateStore .main = some e ∧ e.engine.main = .flushWait 1 .user ∧
      e.raised = 2 ∧ e.storedIn 0 = 1 :=
  ⟨runTo_reach .start, rfl, _, rfl, rfl, rfl, rfl⟩

end Epochs

end LlbcDatabase
