import Mathlib.Data.Int.Log
import Mathlib.Data.Rat.Floor
import SwiftProjectKit.Primitives.Rounding

open Rounding (halfEven)

section

variable {K : Type*} [Field K] [LinearOrder K] [IsStrictOrderedRing K]

-- Numbers are rounded to those of a set that are nearest to them. Where there are two of these, either is chosen.
structure IsNearest (F : Set K) (r : K → K) : Prop where
  mem     : ∀ x, r x ∈ F
  nearest : ∀ x, ∀ a ∈ F, |r x - x| ≤ |a - x|

namespace IsNearest

variable {F : Set K} {r : K → K} {a b x y : K}

theorem eq_of_mem (h : IsNearest F r) (hx : x ∈ F) : r x = x := by
  have hn := h.nearest x x hx
  rw [sub_self, abs_zero] at hn
  exact sub_eq_zero.mp <| abs_nonpos_iff.mp hn

theorem add_le_two_mul (hl : a < b) (h : |b - x| ≤ |a - x|) : a + b ≤ 2 * x := by
  by_contra hx
  have hx := not_le.mp hx
  rw [abs_le] at h
  cases le_total x a
  case inl ha => rw [abs_of_nonneg (sub_nonneg.mpr ha)] at h; linarith
  case inr ha => rw [abs_of_nonpos (sub_nonpos.mpr ha)] at h; linarith

theorem two_mul_le_add (hl : a < b) (h : |a - x| ≤ |b - x|) : 2 * x ≤ a + b := by
  have h : |-a - -x| ≤ |-b - -x| := by
    rwa [neg_sub_neg, neg_sub_neg, abs_sub_comm x, abs_sub_comm x]
  have hm := add_le_two_mul (neg_lt_neg hl) h
  linarith

-- If the results were in reverse order, the numbers would be so with respect to their mean.
theorem mono (h : IsNearest F r) : Monotone r := by
  intro x y hxy
  by_contra hr
  have hr := not_le.mp hr
  have hx := add_le_two_mul hr <| h.nearest x (r y) <| h.mem y
  have hy := two_mul_le_add hr <| h.nearest y (r x) <| h.mem x
  have he : x = y := le_antisymm hxy <| by linarith
  exact hr.ne <| congrArg r he.symm

theorem le_of_le (h : IsNearest F r) (ha : a ∈ F) (hx : x ≤ a) : r x ≤ a :=
  h.eq_of_mem ha ▸ h.mono hx

theorem le_of_ge (h : IsNearest F r) (ha : a ∈ F) (hx : a ≤ x) : a ≤ r x :=
  h.eq_of_mem ha ▸ h.mono hx

theorem lt_of_near (h : IsNearest F r) (ha : a ∈ F) (hax : a ≤ x) (hx : 2 * x < a + b) : r x < b := by
  have hn := h.nearest x a ha
  rw [abs_of_nonpos (sub_nonpos.mpr hax)] at hn
  have hl := (abs_le.mp hn).right
  linarith

end IsNearest

theorem Rounding.abs_halfEven_sub_le [FloorRing K] (x : K) (m : Int) : |halfEven x - x| ≤ |m - x| := by
  by_contra hm
  have hm := not_le.mp hm
  rw [abs_sub_comm _ x, abs_sub_comm _ x] at hm
  have he := Rounding.eq_of_near (hm.trans_le Rounding.abs_sub_halfEven_le) Rounding.abs_sub_halfEven_le
  exact hm.ne <| by rw [he]

end

namespace Nearest

variable {bits : Nat} {least : Int} {x c : Rat} {m e : Int}

-- The numbers with the given number of bits behind the first one, where the last bit stands for a power of two that
-- is not smaller than the least one.
def Representable (bits : Nat) (least : Int) : Set Rat :=
  {x | ∃ n e : Int, least ≤ e ∧ |n| ≤ 2 ^ (bits + 1) ∧ x = n * 2 ^ e}

def exponent (bits : Nat) (least : Int) (x : Rat) : Int :=
  max (Int.log 2 |x| - bits) least

def unit (bits : Nat) (least : Int) (x : Rat) : Rat :=
  2 ^ exponent bits least x

def round (bits : Nat) (least : Int) (x : Rat) : Rat :=
  halfEven (x / unit bits least x) * unit bits least x

theorem unit_pos : 0 < unit bits least x :=
  zpow_pos rfl _

theorem abs_lt_unit : |x| < 2 ^ (bits + 1) * unit bits least x := by
  have hl : |x| < 2 ^ (Int.log 2 |x| + 1) := Int.lt_zpow_succ_log_self (by decide) _
  have he : Int.log 2 |x| + 1 ≤ (bits + 1 : Nat) + exponent bits least x := by
    have := le_max_left (Int.log 2 |x| - bits) least
    rw [exponent]
    omega
  calc |x| < 2 ^ (Int.log 2 |x| + 1) := hl
    _ ≤ 2 ^ ((bits + 1 : Nat) + exponent bits least x) := zpow_le_zpow_right₀ (by decide) he
    _ = 2 ^ (bits + 1) * unit bits least x := by rw [zpow_add₀ (by decide), zpow_natCast, unit]

theorem round_mem : round bits least x ∈ Representable bits least := by
  have hx : |x / unit bits least x| < 2 ^ (bits + 1) := by
    rw [abs_div, abs_of_pos unit_pos, div_lt_iff₀ unit_pos]
    exact abs_lt_unit
  have ⟨hl, hr⟩ := abs_le.mp hx.le
  refine ⟨halfEven (x / unit bits least x), exponent bits least x, le_max_right _ _, ?_, rfl⟩
  have hl : ((-2 ^ (bits + 1) : Int) : Rat) ≤ x / unit bits least x := by push_cast; exact hl
  have hr : x / unit bits least x ≤ ((2 ^ (bits + 1) : Int) : Rat) := by push_cast; exact hr
  have hl := Rounding.halfEven_mono hl
  have hr := Rounding.halfEven_mono hr
  rw [Rounding.halfEven_intCast] at hl hr
  exact abs_le.mpr ⟨hl, hr⟩

theorem abs_round_sub_le (x : Rat) (m : Int) : |round bits least x - x| ≤ |m * unit bits least x - x| := by
  have hu : 0 < unit bits least x := unit_pos
  have h (y : Rat) : |y * unit bits least x - x| = |y - x / unit bits least x| * unit bits least x := by
    rw [← abs_of_pos hu, ← abs_mul, abs_of_pos hu, sub_mul, div_mul_cancel₀ _ hu.ne']
  rw [round, h, h]
  exact mul_le_mul_of_nonneg_right (Rounding.abs_halfEven_sub_le _ m) hu.le

theorem mul_zpow_of_le (n : Int) {k : Int} (h : e ≤ k) : (n * 2 ^ k : Rat) = (n * 2 ^ (k - e).toNat : Int) * 2 ^ e := by
  push_cast
  rw [← zpow_natCast, Int.toNat_of_nonneg (by omega), mul_assoc, ← zpow_add₀ (by decide), sub_add_cancel]

theorem abs_mul_zpow_le {n k : Int} (hn : |n| ≤ 2 ^ (bits + 1)) (h : k < e) :
    |(n * 2 ^ k : Rat)| ≤ 2 ^ bits * 2 ^ e := by
  have hn : |(n : Rat)| ≤ 2 ^ (bits + 1) := by exact_mod_cast hn
  have hk : (2 : Rat) ^ k ≤ 2 ^ (e - 1) := zpow_le_zpow_right₀ (by decide) (by omega)
  calc |(n * 2 ^ k : Rat)| = |(n : Rat)| * 2 ^ k := by rw [abs_mul, abs_of_pos (zpow_pos rfl k : (0 : Rat) < 2 ^ k)]
    _ ≤ 2 ^ (bits + 1) * 2 ^ (e - 1) := mul_le_mul hn hk (zpow_nonneg (by decide) _) (by positivity)
    _ = 2 ^ bits * 2 ^ e := by rw [pow_succ, mul_assoc, ← zpow_one_add₀ (by decide), add_sub_cancel]

theorem exists_abs_sub (h : 2 ^ bits * unit bits least x ≤ |x|) :
    ∃ m : Int, |m * unit bits least x - x| = |x| - 2 ^ bits * unit bits least x := by
  cases le_total 0 x
  case inl hx =>
    rw [abs_of_nonneg hx] at h ⊢
    refine ⟨2 ^ bits, ?_⟩
    push_cast
    rw [abs_of_nonpos (sub_nonpos.mpr h), neg_sub]
  case inr hx =>
    rw [abs_of_nonpos hx] at h ⊢
    refine ⟨-2 ^ bits, ?_⟩
    push_cast
    rw [abs_of_nonneg (by linarith)]
    ring

-- Numbers that are no multiples of the last bit's value are farther from `x` than the power of two in front of it.
theorem isNearest : IsNearest (Representable bits least) (round bits least) where
  mem _ := round_mem
  nearest x a ha := by
    obtain ⟨n, k, hk, hn, rfl⟩ := ha
    cases le_or_gt (exponent bits least x) k
    case inl h =>
      rw [mul_zpow_of_le n h]
      exact abs_round_sub_le x _
    case inr h =>
      by_cases hx : x = 0
      case pos =>
        have h₀ : halfEven (0 : Rat) = 0 := mod_cast Rounding.halfEven_intCast (K := Rat) 0
        rw [hx, round, zero_div, h₀, Int.cast_zero, zero_mul, sub_self, abs_zero]
        exact abs_nonneg _
      case neg =>
        have he : exponent bits least x = Int.log 2 |x| - bits := by
          rcases max_choice (Int.log 2 |x| - bits) least with hm | hm
          · exact hm
          · rw [exponent, hm] at h
            omega
        have hu : (2 ^ bits * unit bits least x : Rat) = 2 ^ Int.log 2 |x| := by
          rw [unit, he, ← zpow_natCast, ← zpow_add₀ (by decide), add_sub_cancel]
        have hl : 2 ^ bits * unit bits least x ≤ |x| := hu ▸ Int.zpow_log_le_self (by decide) (abs_pos.mpr hx)
        have ⟨m, hm⟩ := exists_abs_sub hl
        calc |round bits least x - x| ≤ |m * unit bits least x - x| := abs_round_sub_le x m
          _ = |x| - 2 ^ bits * unit bits least x := hm
          _ ≤ |x| - |(n * 2 ^ k : Rat)| := sub_le_sub_left (abs_mul_zpow_le hn h) _
          _ ≤ |n * 2 ^ k - x| := abs_sub_comm x _ ▸ abs_sub_abs_le_abs_sub x _

theorem le_of_lt (hx : x ∈ Representable bits least) (hm : 2 ^ bits < m) (h : x < m * 2 ^ e) : x ≤ (m - 1) * 2 ^ e := by
  obtain ⟨n, k, -, hn, rfl⟩ := hx
  have he : (0 : Rat) < 2 ^ e := zpow_pos rfl e
  cases le_or_gt e k
  case inl hk =>
    rw [mul_zpow_of_le n hk] at h ⊢
    have hl : n * 2 ^ (k - e).toNat < m := by exact_mod_cast lt_of_mul_lt_mul_right h he.le
    have hl : (n * 2 ^ (k - e).toNat : Int) ≤ (m - 1 : Rat) := by exact_mod_cast Int.le_sub_one_of_lt hl
    exact mul_le_mul_of_nonneg_right hl he.le
  case inr hk =>
    have hm : (2 ^ bits : Rat) ≤ m - 1 := by exact_mod_cast Int.le_sub_one_of_lt hm
    calc (n * 2 ^ k : Rat) ≤ |(n * 2 ^ k : Rat)| := le_abs_self _
      _ ≤ 2 ^ bits * 2 ^ e := abs_mul_zpow_le hn hk
      _ ≤ (m - 1) * 2 ^ e := mul_le_mul_of_nonneg_right hm he.le

end Nearest
