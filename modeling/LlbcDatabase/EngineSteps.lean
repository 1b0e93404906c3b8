import LlbcDatabase.Engine

/-! What one step of the engine can do, once for all invariants: one constructor
for each atomic access, with what it requires and what it changes. -/

namespace LlbcDatabase.Engine

variable {Sql Conn D RS : Type} {n : Nat}

/-- The program points from which the main thread may submit a task. -/
def maySubmit : MainPc Sql RS → Prop
  | .idle | .callback _ => True
  | _ => False

inductive Stepped (be : Backend Sql Conn D RS) (s : Engine Sql Conn D RS n) :
    Action Sql n → Engine Sql Conn D RS n → Prop where
  | submit {key sql info} (shard : Fin n) (may : maySubmit s.main) (live : s.asyncConnNum ≠ 0)
      (at_shard : shardOf s.asyncConnNum key = shard) :
      Stepped be s (.queryAsync key sql info) { s with
        taskQueues := Function.update s.taskQueues shard
          ((s.taskQueues shard).push ⟨s.submitted.length, key, sql, info⟩)
        submitted := s.submitted ++ [⟨s.submitted.length, key, sql, info⟩] }
  | updateNothing (idle : s.main = .idle) (none : s.finishTasks = []) :
      Stepped be s .onUpdate s
  | updateSwap (idle : s.main = .idle) :
      Stepped be s .onUpdate { s with finishTasks := [], main := .update s.finishTasks }
  | flushRefused (idle : s.main = .idle) (refused : s.inited = false ∨ s.flushing = true) :
      Stepped be s .flush s
  | flushBegin (idle : s.main = .idle) (inited : s.inited = true) (quiet : s.flushing = false) :
      Stepped be s .flush { s with main := .flushClear 0 .user }
  | destroyRefused (idle : s.main = .idle) (refused : s.inited = false ∨ s.stoping = true) :
      Stepped be s .destroy s
  | destroyUnflushed (idle : s.main = .idle) (inited : s.inited = true)
      (going : s.stoping = false) (busy : s.flushing = true) :
      Stepped be s .destroy { s with main := .destroyStop }
  | destroyBegin (idle : s.main = .idle) (inited : s.inited = true) (going : s.stoping = false)
      (quiet : s.flushing = false) :
      Stepped be s .destroy { s with main := .flushClear 0 .destroy }
  | updateDone (at_pc : s.main = .update []) : Stepped be s .main { s with main := .idle }
  | invoke {done tasks} (at_pc : s.main = .update (done :: tasks)) :
      Stepped be s .main { s with
        main := .callback tasks, calledBack := s.calledBack ++ [done] }
  | callbackDone {tasks} (at_pc : s.main = .callback tasks) :
      Stepped be s .main { s with main := .update tasks }
  | flushClear {caller} (i : Fin n) (at_pc : s.main = .flushClear i caller)
      (more : i < s.asyncConnNum) :
      Stepped be s .main { s with
        flushFlag := Function.update s.flushFlag i false, main := .flushClear (i + 1) caller }
  | flushCleared {i caller} (at_pc : s.main = .flushClear i caller) (past : s.asyncConnNum ≤ i) :
      Stepped be s .main { s with main := .flushSet caller }
  | flushSet {caller} (at_pc : s.main = .flushSet caller) :
      Stepped be s .main { s with flushing := true, main := .flushWait 0 caller }
  | flushSeen {caller} (i : Fin n) (at_pc : s.main = .flushWait i caller)
      (more : i < s.asyncConnNum) (seen : s.flushFlag i = true) :
      Stepped be s .main { s with main := .flushWait (i + 1) caller }
  | flushSleep {caller} (i : Fin n) (at_pc : s.main = .flushWait i caller)
      (unseen : s.flushFlag i = false) : Stepped be s .main s
  | flushAllSeen {i caller} (at_pc : s.main = .flushWait i caller) (past : s.asyncConnNum ≤ i) :
      Stepped be s .main { s with main := .flushReset caller }
  | flushReturn {caller} (at_pc : s.main = .flushReset caller) :
      Stepped be s .main { s with flushing := false, main := afterFlush caller }
  | destroyStop (at_pc : s.main = .destroyStop) :
      Stepped be s .main { s with stoping := true, main := .destroyReset }
  | destroyReset (at_pc : s.main = .destroyReset) :
      Stepped be s .main { s with stopedNum := 0, main := .destroyPoll }
  | destroySleep (at_pc : s.main = .destroyPoll) (unequal : s.stopedNum ≠ s.asyncConnNum) :
      Stepped be s .main s
  | destroyPast (at_pc : s.main = .destroyPoll) (equal : s.stopedNum = s.asyncConnNum) :
      Stepped be s .main { s with main := .destroyJoin 0 }
  | joined (i : Fin n) (at_pc : s.main = .destroyJoin i) (exited : s.workers i = .exited) :
      Stepped be s .main { s with main := .destroyJoin (i + 1) }
  | joinedAll {i} (at_pc : s.main = .destroyJoin i) (past : n ≤ i) :
      Stepped be s .main { s with main := .destroyClear }
  | destroyClear (at_pc : s.main = .destroyClear) : Stepped be s .main s.clear
  | pop (i : Fin n) (at_pc : s.workers i = .pop) :
      Stepped be s (.worker i) { s with
        taskQueues := Function.update s.taskQueues i (s.taskQueues i).timePopAll.2
        workers := Function.update s.workers i (.work (s.taskQueues i).tasks) }
  | worked (i : Fin n) (at_pc : s.workers i = .work []) :
      Stepped be s (.worker i) { s with workers := Function.update s.workers i .readFlushing }
  | execute {task tasks result conn db} (i : Fin n) (at_pc : s.workers i = .work (task :: tasks))
      (ran : asyncDoWork be task (s.asyncConns i) s.db = (result, conn, db)) :
      Stepped be s (.worker i) { s with
        asyncConns := Function.update s.asyncConns i conn
        db := db
        workers := Function.update s.workers i (.finish ⟨task, result⟩ tasks)
        executed := s.executed ++ [(i, ⟨task, result⟩)] }
  | finish {done tasks} (i : Fin n) (at_pc : s.workers i = .finish done tasks) :
      Stepped be s (.worker i) { s with
        finishTasks := s.finishTasks ++ [done]
        workers := Function.update s.workers i (.work tasks) }
  | sawFlushing (i : Fin n) (at_pc : s.workers i = .readFlushing) (saw : s.flushing = true) :
      Stepped be s (.worker i) { s with workers := Function.update s.workers i .readEmpty }
  | sawNoFlush (i : Fin n) (at_pc : s.workers i = .readFlushing) (saw : s.flushing = false) :
      Stepped be s (.worker i) { s with workers := Function.update s.workers i .readStoping }
  | sawEmpty (i : Fin n) (at_pc : s.workers i = .readEmpty)
      (saw : (s.taskQueues i).isEmpty = true) :
      Stepped be s (.worker i) { s with workers := Function.update s.workers i .setFlag }
  | sawTasks (i : Fin n) (at_pc : s.workers i = .readEmpty)
      (saw : (s.taskQueues i).isEmpty = false) :
      Stepped be s (.worker i) { s with workers := Function.update s.workers i .readStoping }
  | setFlag (i : Fin n) (at_pc : s.workers i = .setFlag) :
      Stepped be s (.worker i) { s with
        flushFlag := Function.update s.flushFlag i true
        workers := Function.update s.workers i .pop }
  | sawStoping (i : Fin n) (at_pc : s.workers i = .readStoping) (saw : s.stoping = true) :
      Stepped be s (.worker i) { s with workers := Function.update s.workers i .count }
  | sawGoing (i : Fin n) (at_pc : s.workers i = .readStoping) (saw : s.stoping = false) :
      Stepped be s (.worker i) { s with workers := Function.update s.workers i .pop }
  | count (i : Fin n) (at_pc : s.workers i = .count) :
      Stepped be s (.worker i) { s with
        stopedNum := s.stopedNum + 1, workers := Function.update s.workers i .exited }

variable {be : Backend Sql Conn D RS} {s t : Engine Sql Conn D RS n}

theorem queryAsync_stepped {key sql info} (may : maySubmit s.main)
    (h : s.queryAsync key sql info = some t) : Stepped be s (.queryAsync key sql info) t := by
  unfold queryAsync addAsyncTask at h
  split at h
  · cases h
  · split at h
    case isTrue live inside =>
      cases h
      exact .submit ⟨_, inside⟩ may live rfl
    case isFalse => cases h

theorem onUpdate_stepped (idle : s.main = .idle) : Stepped be s .onUpdate s.onUpdate := by
  cases h : s.finishTasks with
  | nil =>
    have nothing : s.onUpdate = s := by simp [onUpdate, h]
    rw [nothing]
    exact .updateNothing idle h
  | cons done rest =>
    have swap : s.onUpdate = { s with finishTasks := [], main := .update s.finishTasks } := by
      simp [onUpdate, h]
    rw [swap]
    exact .updateSwap idle

theorem flush_stepped (idle : s.main = .idle) : Stepped be s .flush (s.flush .user) := by
  unfold flush
  split
  case isTrue refused =>
    have same : s.goto (afterFlush .user) = s := by
      cases s
      simp_all [goto, afterFlush]
    rw [same]
    exact .flushRefused idle (by simpa using refused)
  case isFalse accepted =>
    simp only [Bool.or_eq_true, Bool.not_eq_eq_eq_not, Bool.not_true, not_or,
      Bool.not_eq_false, Bool.not_eq_true] at accepted
    exact .flushBegin idle accepted.1 accepted.2

theorem destroy_stepped (idle : s.main = .idle) : Stepped be s .destroy s.destroy := by
  unfold destroy
  split
  case isTrue refused => exact .destroyRefused idle (by simpa using refused)
  case isFalse accepted =>
    simp only [Bool.or_eq_true, Bool.not_eq_eq_eq_not, Bool.not_true, not_or,
      Bool.not_eq_false, Bool.not_eq_true] at accepted
    obtain ⟨inited, going⟩ := accepted
    unfold flush
    split
    case isTrue refused =>
      have busy : s.flushing = true := by simpa [inited] using refused
      exact .destroyUnflushed idle inited going busy
    case isFalse accepted =>
      have quiet : s.flushing = false := by simpa [inited] using accepted
      exact .destroyBegin idle inited going quiet

theorem mainStep_stepped (h : s.mainStep = some t) : Stepped be s .main t := by
  unfold mainStep at h
  split at h
  case h_1 => cases h
  case h_2 at_pc => cases h; exact .updateDone at_pc
  case h_3 at_pc => cases h; exact .invoke at_pc
  case h_4 at_pc => cases h; exact .callbackDone at_pc
  case h_5 i caller at_pc =>
    split at h
    case isTrue more =>
      split at h
      case isTrue inside => cases h; exact .flushClear ⟨i, inside⟩ at_pc more
      case isFalse => cases h
    case isFalse past => cases h; exact .flushCleared at_pc (by omega)
  case h_6 at_pc => cases h; exact .flushSet at_pc
  case h_7 i caller at_pc =>
    split at h
    case isTrue more =>
      split at h
      case isTrue inside =>
        cases h
        split
        case isTrue seen => exact .flushSeen ⟨i, inside⟩ at_pc more seen
        case isFalse unseen => exact .flushSleep ⟨i, inside⟩ at_pc (by simpa using unseen)
      case isFalse => cases h
    case isFalse past => cases h; exact .flushAllSeen at_pc (by omega)
  case h_8 at_pc => cases h; exact .flushReturn at_pc
  case h_9 at_pc => cases h; exact .destroyStop at_pc
  case h_10 at_pc => cases h; exact .destroyReset at_pc
  case h_11 at_pc =>
    cases h
    split
    case isTrue unequal => exact .destroySleep at_pc unequal
    case isFalse equal => exact .destroyPast at_pc (by simpa using equal)
  case h_12 i at_pc =>
    split at h
    case isTrue inside =>
      split at h
      case h_1 exited => cases h; exact .joined ⟨i, inside⟩ at_pc exited
      case h_2 => cases h
    case isFalse past => cases h; exact .joinedAll at_pc (by omega)
  case h_13 at_pc => cases h; exact .destroyClear at_pc

theorem workerStep_stepped {i : Fin n} (h : s.workerStep be i = some t) :
    Stepped be s (.worker i) t := by
  unfold workerStep at h
  split at h
  case h_1 at_pc => cases h; exact .pop i at_pc
  case h_2 at_pc => cases h; exact .worked i at_pc
  case h_3 at_pc => cases h; exact .execute i at_pc rfl
  case h_4 at_pc => cases h; exact .finish i at_pc
  case h_5 at_pc =>
    cases h
    split
    case isTrue saw => exact .sawFlushing i at_pc saw
    case isFalse saw => exact .sawNoFlush i at_pc (by simpa using saw)
  case h_6 at_pc =>
    cases h
    split
    case isTrue saw => exact .sawEmpty i at_pc saw
    case isFalse saw => exact .sawTasks i at_pc (by simpa using saw)
  case h_7 at_pc => cases h; exact .setFlag i at_pc
  case h_8 at_pc =>
    cases h
    split
    case isTrue saw => exact .sawStoping i at_pc saw
    case isFalse saw => exact .sawGoing i at_pc (by simpa using saw)
  case h_9 at_pc => cases h; exact .count i at_pc
  case h_10 => cases h

/-- The inversion every invariant of the engine is proved from. -/
theorem step_stepped {a : Action Sql n} (h : step be s a = some t) : Stepped be s a t := by
  cases a with
  | queryAsync key sql info =>
    simp only [step] at h
    split at h
    case h_1 at_pc => exact queryAsync_stepped (by simp [maySubmit, at_pc]) h
    case h_2 at_pc => exact queryAsync_stepped (by simp [maySubmit, at_pc]) h
    case h_3 => cases h
  | onUpdate =>
    simp only [step] at h
    split at h
    case h_1 idle => cases h; exact onUpdate_stepped idle
    case h_2 => cases h
  | flush =>
    simp only [step] at h
    split at h
    case h_1 idle => cases h; exact flush_stepped idle
    case h_2 => cases h
  | destroy =>
    simp only [step] at h
    split at h
    case h_1 idle => cases h; exact destroy_stepped idle
    case h_2 => cases h
  | main => exact mainStep_stepped h
  | worker i => exact workerStep_stepped h

end LlbcDatabase.Engine
