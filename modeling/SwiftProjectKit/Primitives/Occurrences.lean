import Mathlib.Data.List.Basic
import Mathlib.Data.List.Infix

-- Where a word occurs in a text.
namespace Occurrences

variable {α : Type*}

def Occurs (w s : List α) (x : Nat) : Prop :=
  w <+: s.drop x

instance [DecidableEq α] {w s : List α} : DecidablePred (Occurs w s) :=
  fun _ => inferInstanceAs <| Decidable (_ <+: _)

-- The occurrences that are found from a position on, if each one is searched for behind the previous one.
inductive Greedy (w s : List α) : Nat → List Nat → Prop
  | done {x : Nat} : (∀ y, x ≤ y → ¬Occurs w s y) → Greedy w s x []
  | next {x y : Nat} {ys : List Nat} : x ≤ y → Occurs w s y → (∀ z, x ≤ z → z < y → ¬Occurs w s z) →
    Greedy w s (y + w.length) ys → Greedy w s x (y :: ys)

variable {w s : List α} {x y z : Nat} {ys zs : List Nat}

theorem Occurs.add_length_le (h : Occurs w s x) (hw : w ≠ []) : x + w.length ≤ s.length := by
  have h := h.length_le
  have hw := List.length_pos_iff.mpr hw
  rw [List.length_drop] at h
  omega

namespace Greedy

theorem occurs (h : Greedy w s x ys) : ∀ y ∈ ys, Occurs w s y := by
  induction h
  case done => exact nofun
  case next ho _ _ hi => exact List.forall_mem_cons.mpr ⟨ho, hi⟩

theorem le (h : Greedy w s x ys) : ∀ y ∈ ys, x ≤ y := by
  induction h
  case done => exact nofun
  case next hl _ _ _ hi =>
    exact List.forall_mem_cons.mpr ⟨hl, fun y hy => hl.trans <| Nat.le_of_add_right_le <| hi y hy⟩

theorem apart (h : Greedy w s x ys) : ys.Pairwise fun y z => y + w.length ≤ z := by
  induction h
  case done => exact .nil
  case next hg hi => exact .cons hg.le hi

theorem overlaps (h : Greedy w s x ys) (hz : x ≤ z) (ho : Occurs w s z) :
    ∃ y ∈ ys, y < z + w.length ∧ z < y + w.length := by
  induction h
  case done hn => exact absurd ho <| hn z hz
  case next x y ys _ hy hn _ hi =>
    by_cases h : y + w.length ≤ z
    case pos =>
      have ⟨y', hy', h⟩ := hi h
      exact ⟨y', List.mem_cons_of_mem _ hy', h⟩
    case neg =>
      have hl : y ≤ z := Nat.le_of_not_lt fun h => hn z hz h ho
      exact ⟨y, List.mem_cons_self, by omega, Nat.lt_of_not_le h⟩

theorem unique (h₁ : Greedy w s x ys) (h₂ : Greedy w s x zs) : ys = zs := by
  induction h₁ generalizing zs
  case done hn =>
    cases h₂
    case done => rfl
    case next ho _ hl _ => exact absurd ho <| hn _ hl
  case next hl ho hn _ hi =>
    cases h₂
    case done hn' => exact absurd ho <| hn' _ hl
    case next ho' hg hl' hn' =>
      have h := le_antisymm (Nat.le_of_not_lt fun h => hn _ hl' h ho') (Nat.le_of_not_lt fun h => hn' _ hl h ho)
      subst h
      rw [hi hg]

theorem succ (h : Greedy w s x ys) (ho : ¬Occurs w s x) : Greedy w s (x + 1) ys := by
  cases h
  case done hn => exact .done fun y hy => hn y <| Nat.le_of_succ_le hy
  case next y ys hy hg hl hn =>
    have hl : x < y := lt_of_le_of_ne hl fun h => ho <| h ▸ hy
    exact .next hl hy (fun z hz => hn z <| Nat.le_of_succ_le hz) hg

theorem of_occurs (h : Greedy w s x ys) (ho : Occurs w s x) :
    ∃ zs, ys = x :: zs ∧ Greedy w s (x + w.length) zs := by
  cases h
  case done hn => exact absurd ho <| hn x le_rfl
  case next y zs hy hg hl hn =>
    have hx : y = x := le_antisymm (Nat.le_of_not_lt fun h => hn x le_rfl h ho) hl
    subst hx
    exact ⟨zs, rfl, hg⟩

end Greedy
end Occurrences
