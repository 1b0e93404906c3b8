import LlbcDatabase.EngineDestroy

/-! Who owns the result set that a worker gets for a query: the task until its callback has
it. A task is deleted after its callback, or undelivered at the end of `Destroy`. -/

namespace LlbcDatabase.Engine

open Transition CommutingRuns

variable {Sql Conn D RS : Type} {n : Nat}

section Sets

def holdsSet (done : Executed Sql RS) : Bool :=
  match done.result with
  | .recordset (some _) => true
  | _ => false

/-- The result sets that tasks point to, each named by the task that got it. -/
def setsOf (tasks : List (Executed Sql RS)) : List Nat := (tasks.filter holdsSet).map (·.task.id)

@[simp] theorem setsOf_append (xs ys : List (Executed Sql RS)) :
    setsOf (xs ++ ys) = setsOf xs ++ setsOf ys := by simp [setsOf]

theorem setsOf_perm {xs ys : List (Executed Sql RS)} (perm : xs.Perm ys) :
    (setsOf xs).Perm (setsOf ys) := (perm.filter _).map _

theorem setsOf_sublist (tasks : List (Executed Sql RS)) :
    (setsOf tasks).Sublist (tasks.map (·.task.id)) := List.filter_sublist.map _

/-- `delete task`. The destructors are the default ones and `result` is a plain pointer, so
the result set is still there. -/
def deleteTask (live : List Nat) (_task : Executed Sql RS) : List Nat := live

theorem deleteTask_all (tasks : List (Executed Sql RS)) (live : List Nat) :
    tasks.foldl deleteTask live = live := by
  induction tasks with
  | nil => rfl
  | cons task rest ih => exact ih

end Sets

section Owners

def inHands (s : Engine Sql Conn D RS n) : List (Executed Sql RS) :=
  (List.finRange n).flatMap fun i => inHand (s.workers i)

def undelivered (s : Engine Sql Conn D RS n) : List (Executed Sql RS) :=
  inHands s ++ localTasks s.main ++ s.finishTasks

/-- The result sets that are there after a step. `Query` makes one, and a task is deleted
when its callback has returned and when `Destroy` empties the finish queue. -/
def liveAfter (be : Backend Sql Conn D RS) (s : Engine Sql Conn D RS n) (live : List Nat) :
    Action Sql n → List Nat
  | .worker i => match s.workers i with
    | .work (task :: _) =>
      live ++ setsOf [⟨task, (asyncDoWork be task (s.asyncConns i) s.db).1⟩]
    | _ => live
  | .main => match s.main with
    | .callback _ => s.calledBack.getLast?.elim live (deleteTask live)
    | .destroyClear => s.finishTasks.foldl deleteTask live
    | _ => live
  | _ => live

structure Owners (Sql Conn D RS : Type) (n : Nat) where
  engine : Engine Sql Conn D RS n
  live : List Nat

namespace Owners

def initial (conns : Fin n → Conn) (flags : Fin n → Bool) (db : D) : Owners Sql Conn D RS n :=
  ⟨Engine.initial conns flags db, []⟩

def step (be : Backend Sql Conn D RS) (o : Owners Sql Conn D RS n) (a : Action Sql n) :
    Option (Owners Sql Conn D RS n) :=
  (Engine.step be o.engine a).map fun t => ⟨t, liveAfter be o.engine o.live a⟩

structure Owned (o : Owners Sql Conn D RS n) : Prop where
  once : o.live.Nodup
  held : o.live.Perm (setsOf (undelivered o.engine) ++ setsOf o.engine.calledBack)

/-- `Destroy` finds no result set in the finish queue that it empties. -/
def delivers (o : Owners Sql Conn D RS n) (a : Action Sql n) : Prop :=
  a = .main → o.engine.main = .destroyClear → setsOf o.engine.finishTasks = []

end Owners

end Owners

section Steps

variable {be : Backend Sql Conn D RS} {s t : Engine Sql Conn D RS n} {a : Action Sql n}

theorem liveAfter_eq (taken : Stepped be s a t) :
    liveAfter be s (setsOf (s.executed.map Prod.snd)) a = setsOf (t.executed.map Prod.snd) := by
  cases taken with
  | @execute task tasks result conn db i at_pc ran => simp [liveAfter, at_pc, ran]
  | destroyClear at_pc => simp [liveAfter, at_pc, deleteTask_all, clear]
  | callbackDone at_pc =>
    simp only [liveAfter, at_pc]
    cases s.calledBack.getLast? <;> rfl
  | _ => simp_all [liveAfter]

theorem finished_before (taken : Stepped be s a t) {e : Executed Sql RS} (member : e ∈ finished t) :
    e ∈ finished s ∨ ∃ i, e ∈ inHand (s.workers i) := by
  cases taken with
  | @finish done tasks i at_pc =>
    by_cases new : e = done
    · exact .inr ⟨i, by rw [at_pc, new]; exact List.mem_singleton_self done⟩
    · exact .inl (by simpa [finished, new] using member)
  | updateSwap at_pc | updateDone at_pc | invoke at_pc | callbackDone at_pc | destroyClear at_pc =>
    left
    simp only [finished, clear, localTasks, at_pc, List.mem_append, List.mem_cons,
      List.not_mem_nil] at member ⊢
    tauto
  | flushReturn at_pc =>
    have none : localTasks s.main = [] := by rw [at_pc]; rfl
    exact .inl (by simpa [finished, none, localTasks_afterFlush] using member)
  | submit | updateNothing | flushRefused | destroyRefused | flushSleep | destroySleep | pop
  | worked | execute | sawFlushing | sawNoFlush | sawEmpty | sawTasks | setFlag | sawStoping
  | sawGoing | count => exact .inl member
  | flushClear i at_pc | flushSeen i at_pc | joined i at_pc | flushBegin at_pc
  | destroyUnflushed at_pc | destroyBegin at_pc | flushCleared at_pc | flushSet at_pc
  | flushAllSeen at_pc | destroyStop at_pc | destroyReset at_pc | destroyPast at_pc
  | joinedAll at_pc => exact .inl (by simpa [finished, localTasks, at_pc] using member)

theorem finished_shard_next (ordered : Order be s)
    (held : ∀ e ∈ finished s, shardOf n e.task.key < n) (taken : Stepped be s a t) :
    ∀ e ∈ finished t, shardOf n e.task.key < n := by
  intro e member
  rcases finished_before taken member with before | ⟨i, hand⟩
  · exact held e before
  · rw [ordered.hand_shard hand]
    exact i.isLt

theorem Order.finished_perm (h : Order be s) (shards : ∀ e ∈ finished s, shardOf n e.task.key < n) :
    (finished s ++ inHands s).Perm (s.executed.map Prod.snd) := by
  refine perm_of_part_eq (fun e => shardOf n e.task.key) fun k => ?_
  by_cases inside : k < n
  · have hands : part (fun e : Executed Sql RS => shardOf n e.task.key) k (inHands s) =
        inHand (s.workers ⟨k, inside⟩) :=
      part_flatMap _ Fin.val_injective (List.nodup_finRange n)
        (fun j _ done member => h.hand_shard member) (List.mem_finRange ⟨k, inside⟩)
    have whole := h.delivered ⟨k, inside⟩
    rw [← h.executed_part] at whole
    rw [part_append, hands]
    exact whole
  · have outside : ∀ tasks : List (Executed Sql RS), (∀ e ∈ tasks, shardOf n e.task.key < n) →
        part (fun e => shardOf n e.task.key) k tasks = [] :=
      fun tasks shards => part_eq_nil _ fun e member at_k => inside (at_k ▸ shards e member)
    rw [outside, outside]
    · intro e member
      obtain ⟨ran, there, rfl⟩ := List.mem_map.mp member
      rw [h.executed_shard (i := ran.1) there]
      exact ran.1.isLt
    · intro e member
      rcases List.mem_append.mp member with left | hand
      · exact shards e left
      · obtain ⟨i, -, here⟩ := List.mem_flatMap.mp hand
        rw [h.hand_shard here]
        exact i.isLt

theorem quiet_next (shake : Handshake s)
    (held : s.inited = false → localTasks s.main = [] ∧ s.finishTasks = [])
    (taken : Stepped be s a t) (dead : t.inited = false) :
    localTasks t.main = [] ∧ t.finishTasks = [] := by
  cases taken with
  | finish i at_pc =>
    simp [shake.past (.inr (by simpa using dead)) i] at at_pc
  | destroyClear at_pc => exact ⟨rfl, rfl⟩
  | flushReturn at_pc => exact ⟨localTasks_afterFlush _, (held dead).2⟩
  | _ => simp_all [localTasks]

theorem discarded_next (taken : Stepped be s a t) :
    t.discarded = s.discarded ∧ ¬ (a = .main ∧ s.main = .destroyClear) ∨
    t.discarded = s.discarded ++ s.finishTasks ∧ a = .main ∧ s.main = .destroyClear := by
  cases taken with
  | destroyClear at_pc => exact .inr ⟨rfl, rfl, at_pc⟩
  | _ => simp_all

end Steps

section Runs

variable {be : Backend Sql Conn D RS} {conns : Fin n → Conn} {flags : Fin n → Bool} {db : D}
  {o o' : Owners Sql Conn D RS n} {a : Action Sql n}

structure Sound (be : Backend Sql Conn D RS) (o : Owners Sql Conn D RS n) : Prop where
  shake : Handshake o.engine
  ordered : Order be o.engine
  shards : ∀ e ∈ finished o.engine, shardOf n e.task.key < n
  live : o.live = setsOf (o.engine.executed.map Prod.snd)
  quiet : o.engine.inited = false → localTasks o.engine.main = [] ∧ o.engine.finishTasks = []

namespace Sound

theorem initial : Sound be (Owners.initial conns flags db : Owners Sql Conn D RS n) where
  shake := Handshake.initial
  ordered := Order.initial
  shards := by simp [Owners.initial, Engine.initial, finished, localTasks]
  live := rfl
  quiet := by simp [Owners.initial, Engine.initial]

theorem next (h : Sound be o) (taken : o.step be a = some o') : Sound be o' := by
  obtain ⟨t, done, rfl⟩ := Option.map_eq_some_iff.mp taken
  have stepped := step_stepped done
  exact ⟨h.shake.next stepped, h.ordered.next h.shake stepped,
    finished_shard_next h.ordered h.shards stepped, h.live ▸ liveAfter_eq stepped,
    quiet_next h.shake h.quiet stepped⟩

/-- The result sets that were made are with the tasks that are to be delivered, with the
callbacks, or were left behind. -/
theorem made (h : Sound be o) : o.live.Perm (setsOf (undelivered o.engine) ++
    setsOf o.engine.calledBack ++ setsOf o.engine.discarded) := by
  have arranged : (finished o.engine ++ inHands o.engine).Perm
      (undelivered o.engine ++ o.engine.calledBack ++ o.engine.discarded) := by
    classical
    rw [List.perm_iff_count]
    intro e
    simp only [finished, undelivered, List.count_append]
    omega
  rw [h.live]
  simpa using setsOf_perm ((h.ordered.finished_perm h.shards).symm.trans arranged)

theorem nodup (h : Sound be o) : o.live.Nodup := by
  have ids := h.ordered.executed_nodup
  rw [h.live]
  exact (setsOf_sublist _).nodup (by simpa [Function.comp_def] using ids)

theorem owned_iff (h : Sound be o) : o.Owned ↔ setsOf o.engine.discarded = [] := by
  constructor
  · intro owned
    have all := h.made.length_eq
    have held := owned.held.length_eq
    rw [List.length_append] at all
    exact List.eq_nil_of_length_eq_zero (by omega)
  · intro none
    have made := h.made
    rw [none, List.append_nil] at made
    exact ⟨h.nodup, made⟩

theorem owned_step_iff (h : Sound be o) (owned : o.Owned) (taken : o.step be a = some o') :
    o'.Owned ↔ o.delivers a := by
  have none := h.owned_iff.mp owned
  rw [(h.next taken).owned_iff]
  obtain ⟨t, done, rfl⟩ := Option.map_eq_some_iff.mp taken
  rcases discarded_next (step_stepped done) with ⟨same, other⟩ | ⟨more, main, at_pc⟩
  · have free : o.delivers a := fun main at_pc => absurd ⟨main, at_pc⟩ other
    simp [same, none, free]
  · simp [more, none, Owners.delivers, main, at_pc]

theorem destroyed (h : Sound be o) (owned : o.Owned) (dead : o.engine.inited = false) :
    o.live.Perm (setsOf o.engine.calledBack) := by
  have hands : inHands o.engine = [] := List.flatMap_eq_nil_iff.mpr fun i _ => by
    rw [h.shake.past (.inr dead) i]
    rfl
  obtain ⟨update, queue⟩ := h.quiet dead
  have held := owned.held
  rwa [undelivered, hands, update, queue] at held

end Sound

/-- In every run each result set that a worker gets is held once, by its task until it is
delivered and by the callback then, just when `Destroy` finds no finished task with a result
set that waits for `OnUpdate`. After such a `Destroy` the callbacks have all result sets. -/
theorem recordsets_owned_iff (be : Backend Sql Conn D RS) (conns : Fin n → Conn)
    (flags : Fin n → Bool) (db : D) (actions : List (Action Sql n)) :
    ((∀ o ∈ trace (Owners.step be) (Owners.initial conns flags db) actions, o.Owned) ↔
      ∀ p ∈ taken (Owners.step be) (Owners.initial conns flags db) actions, p.1.delivers p.2) ∧
    ∀ o ∈ trace (Owners.step be) (Owners.initial conns flags db) actions,
      o.Owned → o.engine.inited = false → o.live.Perm (setsOf o.engine.calledBack) := by
  have sound : Sound be (Owners.initial conns flags db) := Sound.initial
  have start : (Owners.initial conns flags db : Owners Sql Conn D RS n).Owned :=
    sound.owned_iff.mpr rfl
  refine ⟨trace_iff (fun o o' a held taken => Sound.next held taken)
    (fun o o' a held owned taken => Sound.owned_step_iff held owned taken) sound start actions,
    fun o passed owned dead => ?_⟩
  have held := trace_invariant (fun o o' a held taken => Sound.next held taken) sound actions o passed
  exact held.destroyed owned dead

/-- A query on one connection, and `Destroy` to its end without an `OnUpdate`. -/
def orphaned : Owners Nat Unit (List Nat) Nat 1 :=
  runTo (Owners.step logServer) (Owners.initial (fun _ => ()) (fun _ => false) [])
    [.queryAsync 7 10 (.query .read), .destroy, .main, .main, .main, .worker only, .worker only,
      .worker only, .worker only, .worker only, .worker only, .worker only, .main, .main, .main,
      .main, .main, .worker only, .worker only, .worker only, .worker only, .worker only, .main,
      .main, .main, .main]

/-- The task is deleted undelivered, and its result set is with nobody. -/
theorem orphaned_not_owned :
    Reach (Owners.step logServer) (Owners.initial (fun _ => ()) (fun _ => false) []) orphaned ∧
    orphaned.engine.inited = false ∧ orphaned.live = [0] ∧
    setsOf orphaned.engine.calledBack = [] ∧ ¬ orphaned.Owned := by
  refine ⟨runTo_reach .start, rfl, rfl, rfl, fun owned => ?_⟩
  have held : [0].Perm ([] : List Nat) := owned.held
  cases held.length_eq

end Runs

end LlbcDatabase.Engine
