import LlbcDatabase.RecordHeap

/-! Who deletes what. The caller of `Query`, `MakeDefRecord` and `PopRecord` owns what they
return; a set owns the records that were not popped. Over any sequence of calls nothing is lost
or deleted twice, just when the caller deletes what it owns and nothing else. -/

namespace LlbcDatabase.RecordHeap

open Ownership CText Transition

structure Holder (F D : Type) where
  session : Session FieldInfoCache D
  heap : Heap
  sets : List (HeapSet F)
  records : List (HeapRecord F)

/-- What a caller does; sets and records are given by their pointers. -/
inductive HolderCall where
  | query (sql : Bytes) (mode : Mode)
  | execute (sql : Bytes)
  | makeDefRecord (tableName : Bytes)
  | getRecord (set : Nat) (idx : Nat)
  | readAt (set : Nat) (idx : Nat)
  | popRecord (set : Nat) (idx : Nat)
  | useRecord (record : Nat)
  | deleteRecord (record : Nat)
  | deleteSet (set : Nat)

namespace Holder

section Step

variable {F D : Type}

def start (session : Session FieldInfoCache D) : Holder F D := ⟨session, Heap.empty, [], []⟩

def setAt (s : Holder F D) (p : Nat) : Option (HeapSet F) :=
  if p ∈ s.heap.live then s.sets.find? fun t => t.self = p else none

/-- All records that can be there: those that the caller owns and those of its sets. -/
def reachable (s : Holder F D) : List (HeapRecord F) :=
  s.records ++ s.sets.flatMap (·.records.reduceOption)

def recordAt (s : Holder F D) (p : Nat) : Option (HeapRecord F) :=
  if p ∈ s.heap.live then s.reachable.find? fun r => r.self = p else none

variable [CDouble F] (server : Server D)

/-- A call that returns. Without one are the use of a deleted object, of a null pointer and of
an index outside the set, a second deletion, and the faults of `Query`. -/
def step (s : Holder F D) : HolderCall → Option (Holder F D)
  | .query sql mode =>
    (query queryDBFieldInfo server sql mode s.session.conn s.session.db s.session.fieldInfos
      s.heap).map fun (answer, conn, db, fieldInfos, h) =>
        ⟨⟨conn, db, fieldInfos⟩, h, answer.toList ++ s.sets, s.records⟩
  | .execute sql =>
    let (_, conn, db) := s.session.conn.execute server sql s.session.db
    some { s with session := ⟨conn, db, s.session.fieldInfos⟩ }
  | .makeDefRecord tableName =>
    (makeDefRecord queryDBFieldInfo server tableName s.session.conn s.session.db
      s.session.fieldInfos s.heap).map fun (answer, conn, db, fieldInfos, h) =>
        ⟨⟨conn, db, fieldInfos⟩, h, s.sets, answer.toList ++ s.records⟩
  | .getRecord set idx => (s.setAt set).bind fun t => t.records[idx]?.map fun _ => s
  | .readAt set idx =>
    (s.setAt set).bind fun t => t.records[idx]?.join.bind fun r => (s.recordAt r.self).map fun _ => s
  | .popRecord set idx =>
    (s.setAt set).bind fun t => t.records[idx]?.map fun slot => { s with
      sets := t.popRecord idx :: s.sets.eraseP fun t => t.self = set
      records := slot.toList ++ s.records }
  | .useRecord record => (s.recordAt record).map fun _ => s
  | .deleteRecord record =>
    (s.recordAt record).bind fun r => (s.heap.deleteAll r.objects).map fun h => { s with
      heap := h
      records := s.records.eraseP fun r => r.self = record }
  | .deleteSet set =>
    (s.setAt set).bind fun t => (s.heap.deleteAll t.objects).map fun h => { s with
      heap := h
      sets := s.sets.eraseP fun t => t.self = set }

end Step

section Owned

variable {F D : Type}

def objects (s : Holder F D) : List Nat :=
  s.sets.flatMap (·.objects) ++ s.records.flatMap (·.objects)

/-- Every object that is there is owned by the caller, directly or through a set, and once. -/
def Owned (s : Holder F D) : Prop := s.heap.Holds s.objects

/-- The caller deletes what it owns, and does not use what it has deleted or popped. -/
def Entitled (s : Holder F D) : HolderCall → Prop
  | .query _ _ | .execute _ | .makeDefRecord _ => True
  | .getRecord set idx | .popRecord set idx =>
    ∃ t ∈ s.sets, t.self = set ∧ idx < t.records.length
  | .readAt set idx => ∃ t ∈ s.sets, t.self = set ∧ ∃ r, t.records[idx]? = some (some r)
  | .useRecord record => ∃ r ∈ s.reachable, r.self = record
  | .deleteRecord record => ∃ r ∈ s.records, r.self = record
  | .deleteSet set => ∃ t ∈ s.sets, t.self = set

variable {s : Holder F D}

theorem self_mem_objects (r : HeapRecord F) : r.self ∈ r.objects := by simp [HeapRecord.objects]

theorem set_mem_objects (t : HeapSet F) : t.self ∈ t.objects := by simp [HeapSet.objects]

theorem mem_reachable {r : HeapRecord F} : r ∈ s.reachable ↔
    r ∈ s.records ∨ ∃ t ∈ s.sets, some r ∈ t.records := by
  simp [reachable, List.reduceOption_mem_iff]

theorem Owned.set_live (owned : s.Owned) {t : HeapSet F} (member : t ∈ s.sets) :
    t.self ∈ s.heap.live := by
  apply owned.mem_iff.mpr
  apply List.mem_append_left
  exact List.mem_flatMap.mpr ⟨t, member, set_mem_objects t⟩

theorem Owned.record_live (owned : s.Owned) {r : HeapRecord F} (member : r ∈ s.reachable) :
    r.self ∈ s.heap.live := by
  apply owned.mem_iff.mpr
  rcases mem_reachable.mp member with held | ⟨t, there, slot⟩
  · apply List.mem_append_right
    exact List.mem_flatMap.mpr ⟨r, held, self_mem_objects r⟩
  · apply List.mem_append_left
    refine List.mem_flatMap.mpr ⟨t, there, List.mem_append_left _ ?_⟩
    exact List.mem_flatMap.mpr ⟨r, List.reduceOption_mem_iff.mpr slot, self_mem_objects r⟩

theorem setAt_some {p : Nat} {t : HeapSet F} (found : s.setAt p = some t) :
    s.sets.find? (fun u => u.self = p) = some t ∧ t ∈ s.sets ∧ t.self = p := by
  unfold Holder.setAt at found
  split at found
  case isTrue =>
    exact ⟨found, List.mem_of_find?_eq_some found, by simpa using List.find?_some found⟩
  case isFalse => cases found

theorem recordAt_some {p : Nat} {r : HeapRecord F} (found : s.recordAt p = some r) :
    s.reachable.find? (fun u => u.self = p) = some r ∧ r ∈ s.reachable ∧ r.self = p := by
  unfold Holder.recordAt at found
  split at found
  case isTrue =>
    exact ⟨found, List.mem_of_find?_eq_some found, by simpa using List.find?_some found⟩
  case isFalse => cases found

theorem Owned.setAt (owned : s.Owned) {t : HeapSet F} (member : t ∈ s.sets) :
    ∃ u, s.setAt t.self = some u ∧ u ∈ s.sets ∧ u.self = t.self := by
  have there : (s.sets.find? fun u => u.self = t.self).isSome := by
    simpa using ⟨t, member, rfl⟩
  obtain ⟨u, first⟩ := Option.isSome_iff_exists.mp there
  have found : s.setAt t.self = some u := by rw [Holder.setAt, if_pos (owned.set_live member), first]
  exact ⟨u, found, (setAt_some found).2⟩

theorem Owned.recordAt (owned : s.Owned) {r : HeapRecord F} (member : r ∈ s.reachable) :
    ∃ u, s.recordAt r.self = some u ∧ u ∈ s.reachable ∧ u.self = r.self := by
  have there : (s.reachable.find? fun u => u.self = r.self).isSome := by
    simpa using ⟨r, member, rfl⟩
  obtain ⟨u, first⟩ := Option.isSome_iff_exists.mp there
  have found : s.recordAt r.self = some u := by
    rw [Holder.recordAt, if_pos (owned.record_live member), first]
  exact ⟨u, found, (recordAt_some found).2⟩

theorem objects_push_set (answer : Option (HeapSet F)) (sets : List (HeapSet F))
    (frame : List Nat) : (answer.toList ++ sets).flatMap (·.objects) ++ frame =
      treeOf HeapSet.objects answer ++ (sets.flatMap (·.objects) ++ frame) := by
  rw [List.flatMap_append, List.append_assoc]
  rfl

theorem objects_push_record (answer : Option (HeapRecord F)) (sets : List (HeapSet F))
    (records : List (HeapRecord F)) :
    (treeOf HeapRecord.objects answer ++ (sets.flatMap (·.objects) ++ records.flatMap (·.objects))).Perm
      (sets.flatMap (·.objects) ++ (answer.toList ++ records).flatMap (·.objects)) := by
  rw [List.flatMap_append]
  exact List.perm_append_comm_assoc _ _ _

theorem popRecord_objects (recSet : HeapSet F) {idx : Nat} (inside : idx < recSet.records.length) :
    recSet.objects.Perm ((recSet.popRecord idx).objects ++
      recSet.records[idx].toList.flatMap (·.objects)) := by
  have moved := (reduceOption_set recSet.records inside none).flatMap_right HeapRecord.objects
  simp only [Option.toList_none, List.nil_append, List.flatMap_append] at moved
  have front := moved.symm.append_right [recSet.self]
  simp only [HeapSet.objects, HeapSet.popRecord]
  rw [List.append_assoc] at front
  exact front.trans List.perm_append_comm

theorem objects_record {p : Nat} {r : HeapRecord F}
    (held : s.records.find? (fun r => r.self = p) = some r) :
    s.objects.Perm (r.objects ++ (s.sets.flatMap (·.objects) ++
      (s.records.eraseP fun r => r.self = p).flatMap (·.objects))) := by
  have records := (perm_eraseP_of_find held).flatMap_right HeapRecord.objects
  rw [List.flatMap_cons] at records
  exact (records.append_left _).trans (List.perm_append_comm_assoc _ _ _)

theorem objects_set {p : Nat} {t : HeapSet F} (held : s.sets.find? (fun t => t.self = p) = some t) :
    s.objects.Perm (t.objects ++ ((s.sets.eraseP fun t => t.self = p).flatMap (·.objects) ++
      s.records.flatMap (·.objects))) := by
  have sets := (perm_eraseP_of_find held).flatMap_right HeapSet.objects
  rw [List.flatMap_cons] at sets
  rw [← List.append_assoc]
  exact sets.append_right _

end Owned

section Steps

variable {F D : Type} [CDouble F] {server : Server D} {s t : Holder F D} {a : HolderCall}

theorem query_owned (owned : s.Owned) {sql : Bytes} {mode : Mode}
    (taken : step server s (.query sql mode) = some t) : t.Owned := by
  obtain ⟨⟨answer, conn, db, fieldInfos, h⟩, ran, rfl⟩ := Option.map_eq_some_iff.mp taken
  obtain ⟨returns, stuck⟩ := query_spec (F := F) queryDBFieldInfo server sql mode s.session.conn
    s.session.db s.session.fieldInfos owned
  generalize model : s.session.conn.query (F := F) server queryDBFieldInfo sql mode s.session.db
    s.session.fieldInfos = reply at returns stuck
  obtain ⟨found, conn', db', fieldInfos'⟩ := reply
  cases found with
  | error fault =>
    rw [stuck fault rfl] at ran
    cases ran
  | ok read =>
    obtain ⟨answer', h', same, -, -, left⟩ := returns read conn' db' fieldInfos' rfl
    rw [same] at ran
    cases ran
    rw [Owned, objects, objects_push_set]
    exact left

theorem makeDefRecord_owned (owned : s.Owned) {tableName : Bytes}
    (taken : step server s (.makeDefRecord tableName) = some t) : t.Owned := by
  obtain ⟨⟨answer, conn, db, fieldInfos, h⟩, ran, rfl⟩ := Option.map_eq_some_iff.mp taken
  obtain ⟨answer', h', same, -, -, left⟩ := makeDefRecord_spec (F := F) queryDBFieldInfo server
    tableName s.session.conn _ s.session.db _ s.session.fieldInfos _ rfl owned
  rw [same] at ran
  cases ran
  exact left.perm (objects_push_record ..)

theorem popRecord_owned (owned : s.Owned) {set idx : Nat}
    (taken : step server s (.popRecord set idx) = some t) :
    t.Owned ∧ s.Entitled (.popRecord set idx) := by
  obtain ⟨recSet, found, popped⟩ := Option.bind_eq_some_iff.mp taken
  obtain ⟨slot, at_idx, rfl⟩ := Option.map_eq_some_iff.mp popped
  obtain ⟨inside, rfl⟩ := List.getElem?_eq_some_iff.mp at_idx
  obtain ⟨first, member, self⟩ := setAt_some found
  refine ⟨?_, recSet, member, self, inside⟩
  apply owned.perm
  apply (objects_set first).trans
  apply ((popRecord_objects recSet inside).append_right _).trans
  simp only [objects, List.flatMap_cons, List.flatMap_append, List.append_assoc]
  apply List.Perm.append_left
  exact List.perm_append_comm_assoc _ _ _

theorem deleteRecord_owned_iff (owned : s.Owned) {record : Nat}
    (taken : step server s (.deleteRecord record) = some t) :
    t.Owned ↔ s.Entitled (.deleteRecord record) := by
  obtain ⟨r, found, deletes⟩ := Option.bind_eq_some_iff.mp taken
  obtain ⟨h, deleted, rfl⟩ := Option.map_eq_some_iff.mp deletes
  obtain ⟨first, member, self⟩ := recordAt_some found
  rw [Owned, Heap.holds_deleteAll deleted]
  cases held : s.records.find? fun r => r.self = record with
  | some r' =>
    rw [reachable, List.find?_append, held, Option.some_or, Option.some.injEq] at first
    subst first
    apply iff_of_true
    · exact owned.perm (objects_record held)
    · exact ⟨r', List.mem_of_find?_eq_some held, self⟩
  | none =>
    -- the record still belongs to its set, which would delete it again
    rw [List.find?_eq_none] at held
    have all : s.records.eraseP (fun r => r.self = record) = s.records :=
      List.eraseP_of_forall_not held
    apply iff_of_false
    · intro again
      rw [objects, all] at again
      have length := (List.Perm.trans (List.Perm.symm owned) again).length_eq
      simp only [objects, HeapRecord.objects, List.length_append, List.length_singleton] at length
      omega
    · rintro ⟨r', member', self'⟩
      exact held r' member' (by simpa using self')

theorem deleteSet_owned (owned : s.Owned) {set : Nat}
    (taken : step server s (.deleteSet set) = some t) : t.Owned ∧ s.Entitled (.deleteSet set) := by
  obtain ⟨recSet, found, deletes⟩ := Option.bind_eq_some_iff.mp taken
  obtain ⟨h, deleted, rfl⟩ := Option.map_eq_some_iff.mp deletes
  obtain ⟨first, member, self⟩ := setAt_some found
  refine ⟨?_, recSet, member, self⟩
  rw [Owned, Heap.holds_deleteAll deleted]
  exact owned.perm (objects_set first)

theorem owned_step_iff (owned : s.Owned) (taken : step server s a = some t) :
    t.Owned ↔ s.Entitled a := by
  cases a with
  | query sql mode => exact iff_of_true (query_owned owned taken) trivial
  | execute sql =>
    cases taken
    exact iff_of_true owned trivial
  | makeDefRecord tableName => exact iff_of_true (makeDefRecord_owned owned taken) trivial
  | getRecord set idx =>
    obtain ⟨recSet, found, got⟩ := Option.bind_eq_some_iff.mp taken
    obtain ⟨slot, at_idx, rfl⟩ := Option.map_eq_some_iff.mp got
    obtain ⟨-, member, self⟩ := setAt_some found
    exact iff_of_true owned ⟨recSet, member, self, (List.getElem?_eq_some_iff.mp at_idx).1⟩
  | readAt set idx =>
    obtain ⟨recSet, found, got⟩ := Option.bind_eq_some_iff.mp taken
    obtain ⟨r, at_idx, used⟩ := Option.bind_eq_some_iff.mp got
    obtain ⟨-, -, rfl⟩ := Option.map_eq_some_iff.mp used
    obtain ⟨-, member, self⟩ := setAt_some found
    exact iff_of_true owned ⟨recSet, member, self, r, Option.join_eq_some_iff.mp at_idx⟩
  | popRecord set idx =>
    obtain ⟨kept, entitled⟩ := popRecord_owned owned taken
    exact iff_of_true kept entitled
  | useRecord record =>
    obtain ⟨r, found, rfl⟩ := Option.map_eq_some_iff.mp taken
    obtain ⟨-, member, self⟩ := recordAt_some found
    exact iff_of_true owned ⟨r, member, self⟩
  | deleteRecord record => exact deleteRecord_owned_iff owned taken
  | deleteSet set =>
    obtain ⟨kept, entitled⟩ := deleteSet_owned owned taken
    exact iff_of_true kept entitled

end Steps

/-- The record of the first of two rows is popped. It and its field outlive the set. -/
example : (runTo (step (answers MysqlConnect.names))
    (start ⟨⟨true, none⟩, (), []⟩ : Holder Unit Unit) [.query (ascii "select name from player") .read,
      .popRecord 1 0, .deleteSet 1]).heap.live = [3, 2] := by
  decide +kernel

end Holder

end LlbcDatabase.RecordHeap
