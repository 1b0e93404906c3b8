import Mathlib

/-! A heap of objects, each named by its pointer. To delete a pointer that is not live is
undefined. What a computation does with the objects it is given is described by the pointers
that are live before and after it. -/

namespace Ownership

structure Heap where
  next : Nat
  live : List Nat
  fresh : ∀ p ∈ live, p < next
  nodup : live.Nodup

namespace Heap

variable {h h' : Heap} {p : Nat} {ps qs : List Nat}

def empty : Heap where
  next := 0
  live := []
  fresh := by simp
  nodup := List.nodup_nil

def new (h : Heap) : Nat × Heap where
  fst := h.next
  snd :=
    { next := h.next + 1
      live := h.next :: h.live
      fresh := List.forall_mem_cons.mpr
        ⟨Nat.lt_succ_self _, fun p member => Nat.lt_succ_of_lt (h.fresh p member)⟩
      nodup := List.nodup_cons.mpr ⟨fun member => Nat.lt_irrefl _ (h.fresh _ member), h.nodup⟩ }

def delete (h : Heap) (p : Nat) : Option Heap :=
  if p ∈ h.live then
    some { next := h.next
           live := h.live.erase p
           fresh := fun q member => h.fresh q (List.mem_of_mem_erase member)
           nodup := h.nodup.erase p }
  else none

def deleteAll : Heap → List Nat → Option Heap
  | h, [] => some h
  | h, p :: rest => (h.delete p).bind (·.deleteAll rest)

def Holds (h : Heap) (ps : List Nat) : Prop := h.live.Perm ps

theorem holds_empty : empty.Holds [] := List.Perm.refl _

theorem Holds.perm (held : h.Holds ps) (same : ps.Perm qs) : h.Holds qs := List.Perm.trans held same

theorem Holds.nodup (held : h.Holds ps) : ps.Nodup := List.Perm.nodup held h.nodup

theorem Holds.new (held : h.Holds ps) : h.new.2.Holds (h.new.1 :: ps) := List.Perm.cons _ held

theorem delete_live (deleted : h.delete p = some h') : h.live.Perm (p :: h'.live) := by
  unfold delete at deleted
  split at deleted
  case isTrue member =>
    cases deleted
    exact List.perm_cons_erase member
  case isFalse => cases deleted

theorem mem_delete (deleted : h.delete p = some h') (q : Nat) : q ∈ h'.live ↔ q ≠ p ∧ q ∈ h.live := by
  unfold delete at deleted
  split at deleted
  case isTrue =>
    cases deleted
    exact h.nodup.mem_erase_iff
  case isFalse => cases deleted

theorem delete_next (deleted : h.delete p = some h') : h'.next = h.next := by
  unfold delete at deleted
  split at deleted
  case isTrue =>
    cases deleted
    rfl
  case isFalse => cases deleted

theorem delete_isSome_iff : (h.delete p).isSome ↔ p ∈ h.live := by
  unfold delete
  split <;> simp [*]

theorem delete_new (h : Heap) : ∃ h', h.new.2.delete h.new.1 = some h' ∧ h'.live = h.live ∧
    h'.next = h.next + 1 :=
  ⟨_, if_pos List.mem_cons_self, List.erase_cons_head .., rfl⟩

theorem deleteAll_live (deleted : h.deleteAll ps = some h') : h.live.Perm (ps ++ h'.live) := by
  induction ps generalizing h with
  | nil =>
    cases deleted
    exact List.Perm.refl _
  | cons p rest ih =>
    obtain ⟨k, first, later⟩ := Option.bind_eq_some_iff.mp deleted
    exact (delete_live first).trans ((ih later).cons p)

theorem holds_deleteAll (deleted : h.deleteAll ps = some h') :
    h'.Holds qs ↔ h.Holds (ps ++ qs) := by
  constructor
  · intro held
    exact (deleteAll_live deleted).trans (List.Perm.append_left ps held)
  · intro held
    apply (List.perm_append_left_iff ps).mp
    exact (deleteAll_live deleted).symm.trans held

theorem Holds.delete (held : h.Holds (p :: ps)) : ∃ h', h.delete p = some h' ∧ h'.Holds ps := by
  have member : p ∈ h.live := List.Perm.mem_iff held |>.mpr List.mem_cons_self
  refine ⟨_, if_pos member, ?_⟩
  apply (List.perm_cons p).mp
  exact (List.perm_cons_erase member).symm.trans held

theorem Holds.deleteAll (held : h.Holds (ps ++ qs)) :
    ∃ h', h.deleteAll ps = some h' ∧ h'.Holds qs := by
  induction ps generalizing h with
  | nil => exact ⟨h, rfl, held⟩
  | cons p rest ih =>
    obtain ⟨k, first, left⟩ := Holds.delete held
    obtain ⟨h', later, done⟩ := ih left
    exact ⟨h', by rw [Heap.deleteAll, first, Option.bind_some, later], done⟩

end Heap

section Slots

variable {α : Type}

theorem reduceOption_set (slots : List (Option α)) {i : Nat} (inside : i < slots.length)
    (next : Option α) :
    (slots[i].toList ++ (slots.set i next).reduceOption).Perm
      (next.toList ++ slots.reduceOption) := by
  induction slots generalizing i with
  | nil => cases inside
  | cons slot rest ih =>
    cases i with
    | zero =>
      simp only [List.getElem_cons_zero, List.set_cons_zero]
      cases slot <;> cases next <;> simp [List.Perm.swap]
    | succ i =>
      have inside' : i < rest.length := Nat.lt_of_succ_lt_succ inside
      have later := ih inside'
      simp only [List.getElem_cons_succ, List.set_cons_succ]
      cases slot with
      | none => simpa using later
      | some a =>
        simp only [List.reduceOption_cons_of_some]
        calc rest[i].toList ++ a :: (rest.set i next).reduceOption
            |>.Perm (a :: (rest[i].toList ++ (rest.set i next).reduceOption)) := List.perm_middle
          _ |>.Perm (a :: (next.toList ++ rest.reduceOption)) := later.cons a
          _ |>.Perm (next.toList ++ a :: rest.reduceOption) := List.perm_middle.symm

theorem perm_eraseP_of_find {p : α → Bool} {xs : List α} {a : α} (found : xs.find? p = some a) :
    xs.Perm (a :: xs.eraseP p) := by
  induction xs with
  | nil => cases found
  | cons x rest ih =>
    by_cases here : p x = true
    · rw [List.find?_cons_of_pos here] at found
      cases found
      rw [List.eraseP_cons_of_pos here]
    · rw [List.find?_cons_of_neg here] at found
      rw [List.eraseP_cons_of_neg here]
      exact ((ih found).cons x).trans (List.Perm.swap a x _)

theorem flatMap_set (objects : α → List Nat) (xs : List α) {i : Nat} (inside : i < xs.length) :
    ∃ rest, ∀ a, ((xs.set i a).flatMap objects).Perm (objects a ++ rest) := by
  refine ⟨(xs.take i).flatMap objects ++ (xs.drop (i + 1)).flatMap objects, fun a => ?_⟩
  rw [List.set_eq_take_append_cons_drop, if_pos inside, List.flatMap_append, List.flatMap_cons]
  exact List.perm_append_comm_assoc _ _ _

end Slots

end Ownership
