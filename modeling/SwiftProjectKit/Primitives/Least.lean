import Mathlib.Order.Lattice
import Mathlib.Tactic.Common

-- The least element of a list, and another one if there are no elements.
namespace Least

variable {α K : Type*} [LinearOrder K] {f : α → K} {init a b : α} {l : List α}

-- The latter of two that are equally small.
def pick (f : α → K) (a b : α) : α :=
  if f a ≥ f b then b else a

def least (f : α → K) (init : α) (l : List α) : α :=
  l.foldl (pick f) init

theorem least_cons : least f init (a :: l) = least f (pick f init a) l :=
  rfl

theorem pick_of_ge (h : f a ≥ f b) : pick f a b = b :=
  if_pos h

theorem pick_mem : pick f a b ∈ [a, b] := by
  rw [pick]
  split <;> simp

theorem pick_le_left : f (pick f a b) ≤ f a := by
  rw [pick]
  split
  case isTrue h => exact h
  case isFalse  => exact le_rfl

theorem pick_le_right : f (pick f a b) ≤ f b := by
  rw [pick]
  split
  case isTrue    => exact le_rfl
  case isFalse h => exact le_of_lt <| not_le.mp h

theorem least_le_init : f (least f init l) ≤ f init := by
  induction l generalizing init
  case nil         => exact le_rfl
  case cons b l hi => exact le_trans hi pick_le_left

theorem least_le (h : a ∈ l) : f (least f init l) ≤ f a := by
  induction l generalizing init
  case nil => contradiction
  case cons b l hi =>
    rw [least_cons]
    cases h
    case head   => exact le_trans least_le_init pick_le_right
    case tail h => exact hi h

theorem least_mem_cons : least f init l ∈ init :: l := by
  induction l generalizing init
  case nil => exact List.mem_cons_self
  case cons b l hi =>
    rw [least_cons]
    cases List.mem_cons.mp <| @hi <| pick f init b
    case inr h => exact List.mem_cons_of_mem _ <| List.mem_cons_of_mem _ h
    case inl h =>
      rw [h]
      exact List.mem_append_left l pick_mem

theorem least_mem (hl : l ≠ []) (h : ∀ a ∈ l, f a ≤ f init) : least f init l ∈ l := by
  cases l
  case nil => contradiction
  case cons b l =>
    rw [least_cons, pick_of_ge <| h b List.mem_cons_self]
    exact least_mem_cons

end Least
