import Mathlib.Data.List.Nodup
import Mathlib.Logic.Function.Basic

-- A heap of mutable objects that are shared by reference. References are never reused, so
-- that two objects are identical precisely when their references are equal.
structure Heap (α : Type*) where
  get  : Nat → α
  next : Nat

namespace Heap

abbrev Ref := Nat

variable {α β : Type*}

def modify (h : Heap α) (r : Ref) (f : α → α) : Heap α :=
  { h with get := Function.update h.get r (f <| h.get r) }

def modifyAll (h : Heap α) (f : α → α) (rs : List Ref) : Heap α :=
  rs.foldl (modify · · f) h

def alloc (h : Heap α) (a : α) : Heap α where
  get  := Function.update h.get h.next a
  next := h.next + 1

-- Allocates one object for each of the given values. The references of the new objects are
-- `h.fresh as.length`.
def allocAll (h : Heap α) (as : List α) : Heap α :=
  as.foldl alloc h

def fresh (h : Heap α) (n : Nat) : List Ref :=
  List.range' h.next n

def Owns (h : Heap α) (rs : List Ref) : Prop :=
  ∀ r ∈ rs, r < h.next

instance {h : Heap α} {rs : List Ref} : Decidable (h.Owns rs) :=
  inferInstanceAs <| Decidable (∀ r ∈ rs, r < h.next)

variable {h : Heap α} {f : α → α} {r r' : Ref} {rs : List Ref} {a : α} {as : List α}

@[simp]
theorem modify_next : (h.modify r f).next = h.next :=
  rfl

@[simp]
theorem modify_get_self : (h.modify r f).get r = f (h.get r) := by
  simp [modify]

theorem modify_get_of_ne (hr : r' ≠ r) : (h.modify r f).get r' = h.get r' := by
  simp [modify, hr]

theorem modify_preserves {φ : α → β} (hf : ∀ a, φ (f a) = φ a) :
    φ ((h.modify r f).get r') = φ (h.get r') := by
  by_cases hr : r' = r
  case pos => simp [hr, hf]
  case neg => rw [modify_get_of_ne hr]

@[simp]
theorem modifyAll_cons : h.modifyAll f (r :: rs) = (h.modify r f).modifyAll f rs :=
  rfl

@[simp]
theorem modifyAll_next : (h.modifyAll f rs).next = h.next := by
  induction rs generalizing h
  case nil => rfl
  case cons hi => simp [hi]

theorem modifyAll_get_of_not_mem (hr : r ∉ rs) : (h.modifyAll f rs).get r = h.get r := by
  induction rs generalizing h
  case nil => rfl
  case cons hd tl hi =>
    rw [List.mem_cons, not_or] at hr
    rw [modifyAll_cons, hi hr.right, modify_get_of_ne hr.left]

theorem modifyAll_get_of_mem (hn : rs.Nodup) (hr : r ∈ rs) :
    (h.modifyAll f rs).get r = f (h.get r) := by
  induction rs generalizing h
  case nil => contradiction
  case cons hd tl hi =>
    have ⟨hd_not_mem, hn⟩ := List.nodup_cons.mp hn
    rw [modifyAll_cons]
    rcases List.mem_cons.mp hr with rfl | hr
    · rw [modifyAll_get_of_not_mem hd_not_mem, modify_get_self]
    · rw [hi hn hr, modify_get_of_ne (ne_of_mem_of_not_mem hr hd_not_mem)]

theorem modifyAll_preserves {φ : α → β} (hf : ∀ a, φ (f a) = φ a) :
    φ ((h.modifyAll f rs).get r) = φ (h.get r) := by
  induction rs generalizing h
  case nil => rfl
  case cons hi => rw [modifyAll_cons, hi, modify_preserves hf]

@[simp]
theorem alloc_next : (h.alloc a).next = h.next + 1 :=
  rfl

@[simp]
theorem alloc_get_next : (h.alloc a).get h.next = a := by
  simp [alloc]

theorem alloc_get_of_lt (hr : r < h.next) : (h.alloc a).get r = h.get r := by
  simp [alloc, Nat.ne_of_lt hr]

@[simp]
theorem allocAll_next : (h.allocAll as).next = h.next + as.length := by
  induction as generalizing h
  case nil => rfl
  case cons a as hi =>
    have hi := hi (h := h.alloc a)
    simp only [allocAll, List.foldl_cons, alloc_next, List.length_cons] at hi ⊢
    omega

theorem allocAll_get_of_lt (hr : r < h.next) : (h.allocAll as).get r = h.get r := by
  induction as generalizing h
  case nil => rfl
  case cons a as hi =>
    have hr' : r < (h.alloc a).next := Nat.lt_succ_of_lt hr
    exact (hi hr').trans <| alloc_get_of_lt hr

theorem allocAll_map_get : (h.fresh as.length).map (h.allocAll as).get = as := by
  induction as generalizing h
  case nil => rfl
  case cons a as hi =>
    have h₁ : (h.allocAll (a :: as)).get h.next = a :=
      (allocAll_get_of_lt (h := h.alloc a) <| Nat.lt_succ_self _).trans alloc_get_next
    simp only [fresh, List.length_cons, List.range'_succ, List.map_cons, h₁]
    exact congrArg (a :: ·) (hi (h := h.alloc a))

theorem fresh_nodup {n : Nat} : (h.fresh n).Nodup :=
  List.nodup_range'

theorem allocAll_owns_fresh : (h.allocAll as).Owns (h.fresh as.length) := by
  intro r hr
  rw [allocAll_next]
  exact List.mem_range'_1.mp hr |>.right

theorem Owns.mono {h' : Heap α} (ho : h.Owns rs) (hn : h.next ≤ h'.next) : h'.Owns rs :=
  fun r hr => Nat.lt_of_lt_of_le (ho r hr) hn

theorem Owns.subset {rs' : List Ref} (ho : h.Owns rs) (hs : rs' ⊆ rs) : h.Owns rs' :=
  fun r hr => ho r (hs hr)

theorem Owns.append {rs' : List Ref} (ho : h.Owns rs) (ho' : h.Owns rs') : h.Owns (rs ++ rs') :=
  fun r hr => (List.mem_append.mp hr).elim (ho r) (ho' r)

end Heap
