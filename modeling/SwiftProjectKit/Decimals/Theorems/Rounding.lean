import SwiftProjectKit.Decimals.Model

namespace Decimals

open Numeral Rounding Binary64 NSDecimalNumber

section

variable [VaList]

theorem rat?_format_double {n : Int} {y : Rat} (hl : -2 ^ 63 ≤ n) (hu : n < 2 ^ 63)
    (h : rat? (format 6 <| VaList.double n) = some y) : y = 0 ∨ 3 / 2 ≤ |y - n| := by
  cases VaList.double_eq n
  case inl hd => exact format_ofInt64Bits_far hl hu (hd ▸ h)
  case inr hd =>
    have h₀ := rat?_format_ofRat 6 0
    rw [Int.cast_zero, zero_div, ← hd, h] at h₀
    exact .inl <| Option.some.inj h₀

theorem rat?_format_double_zero : rat? (format 6 <| VaList.double 0) = some 0 := by
  have h₀ : rat? (format 6 <| ofRat 0) = some 0 := by decide +kernel
  have h₁ : ofInt64Bits 0 = ofRat 0 := by decide +kernel
  cases VaList.double_eq 0
  case inl hd => rw [hd, h₁, h₀]
  case inr hd => rw [hd, h₀]

variable [NSDecimalNumber] {number : List Char} {x : Rat} {scale : Nat}

def RoundsHalfUp (number : List Char) (scale : Int) (x : Rat) : Prop :=
  ∃ text, rounding number scale = some text ∧ rat? text = some (toScale halfAway scale.toNat x)

instance {scale : Int} : Decidable (RoundsHalfUp number scale x) :=
  decidable_of_iff ((rounding number scale).bind rat? = some (toScale halfAway scale.toNat x)) <| by
    rw [Option.bind_eq_some_iff, RoundsHalfUp]

theorem rounding_zero (h : rat? number = some x) : rounding number 0 = some (format 0 <| ofRat <| halfEven x) := by
  have ha := adding_zero .bankers 0 h
  rw [rounding, int16_eq (by decide) (by decide)]
  simp_all [doubleValue, toScale, RoundingMode.round]

theorem rounding_pos (h : rat? number = some x) (h₁ : 0 < scale) (h₂ : scale < 2 ^ 15) :
    rounding number scale =
      (toInt64 <| mul (ofRat <| toScale halfEven scale x) <| ofRat (scale * 10 : Int)).map
      fun n => VaList.double (n.tdiv (scale * 10)) |>.format 6 := by
  have ha := adding_zero .bankers scale h
  rw [rounding, int16_eq (by omega) (by omega), Option.bind_eq_bind, Option.bind_some]
  simp only [ha]
  rw [if_neg (by omega), Option.map_eq_bind]
  rfl

theorem rounding_overflow (h : 2 ^ 15 ≤ scale) : rounding number scale = none := by
  rw [rounding, int16_eq_none (by exact_mod_cast h)]
  rfl

theorem roundsHalfUp_zero_iff (h : rat? number = some x) :
    RoundsHalfUp number 0 x ↔ ¬∃ k : Int, |x| = 2 * k + 1 / 2 := by
  have hp := rat?_format_ofRat 0 <| halfEven x
  have hs : toScale halfAway 0 x = halfAway x := by simp [toScale]
  rw [pow_zero, div_one] at hp
  rw [← halfEven_eq_halfAway_iff]
  simp [RoundsHalfUp, rounding_zero h, hp, hs]

theorem rounding_eq_some {text : List Char} (h : rat? number = some x) (h₁ : 0 < scale) (h₂ : scale < 2 ^ 15)
    (ht : rounding number scale = some text) :
    ∃ n : Int, text = format 6 (VaList.double n) ∧ -2 ^ 63 ≤ n ∧ n < 2 ^ 63 ∧ |toScale halfEven scale x - n| < 1 := by
  have hk : (0 : Int) < scale * 10 := by omega
  rw [rounding_pos h h₁ h₂] at ht
  have ⟨n, hn, ht⟩ := Option.map_eq_some_iff.mp ht
  have ⟨hd, hl, hu⟩ := toInt64_eq_some value_mul_ofRat hn
  have hq : (n.tdiv (scale * 10)).natAbs ≤ n.natAbs / 2 := by
    rw [Int.natAbs_tdiv]
    exact Nat.div_le_div_left (by omega) (by decide)
  exact ⟨_, ht.symm, by omega, by omega, abs_sub_tdiv_lt hk hd⟩

-- The integer is too near to the rounded number for its bits to represent that.
theorem not_roundsHalfUp (h : rat? number = some x) (h₁ : 0 < scale) (h₂ : scale < 2 ^ 15)
    (hx : ¬|x| < 1 / 2 / 10 ^ scale) : ¬RoundsHalfUp number scale x := by
  intro ⟨text, ht, hr⟩
  have ⟨n, hf, hl, hu, hn⟩ := rounding_eq_some h h₁ h₂ ht
  cases rat?_format_double hl hu (hf ▸ hr)
  case inl h₀ => exact hx <| toScale_halfAway_eq_zero_iff.mp h₀
  case inr hd =>
    have hs : (1 / 2 / 10 ^ scale : Rat) ≤ 1 / 2 / 10 :=
      div_le_div_of_nonneg_left (by norm_num) (by norm_num) <| le_self_pow₀ (by norm_num) (by omega)
    have h₁ : |x - toScale halfAway scale x| ≤ 1 / 2 / 10 ^ scale := abs_sub_toScale_le abs_sub_halfAway_le
    have h₂ : |x - toScale halfEven scale x| ≤ 1 / 2 / 10 ^ scale := abs_sub_toScale_le abs_sub_halfEven_le
    have h₃ := abs_sub_le (toScale halfAway scale x) x n
    have h₄ := abs_sub_le x (toScale halfEven scale x) n
    rw [abs_sub_comm _ x] at h₃
    simp only [Int.toNat_natCast] at hd
    linarith

theorem roundsHalfUp_of_lt (h : rat? number = some x) (h₁ : 0 < scale) (h₂ : scale < 2 ^ 15)
    (hx : |x| < 1 / 2 / 10 ^ scale) : RoundsHalfUp number scale x := by
  refine ⟨format 6 <| VaList.double 0, ?_, ?_⟩
  case refine_1 =>
    have hz : toInt64 (mul (ofRat 0) <| ofRat (scale * 10 : Int)) = some 0 :=
      toInt64_of_value_zero <| by rw [value_mul_ofRat, zero_mul]
    rw [rounding_pos h h₁ h₂, toScale_halfEven_eq_zero hx, hz, Option.map_some, Int.zero_tdiv]
  case refine_2 =>
    rw [rat?_format_double_zero, Int.toNat_natCast, toScale_halfAway_eq_zero_iff.mpr hx]

-- A result with digits behind the point is right if it is zero. If it is not, the bits of an integer are printed.
theorem roundsHalfUp_iff {scale : Int} (h : rat? number = some x) (hs : 0 ≤ scale) :
    RoundsHalfUp number scale x ↔
      scale = 0 ∧ (¬∃ k : Int, |x| = 2 * k + 1 / 2) ∨
      0 < scale ∧ scale < 2 ^ 15 ∧ |x| < 1 / 2 / 10 ^ scale.toNat := by
  have ⟨scale, hs⟩ := Int.eq_ofNat_of_zero_le hs
  subst hs
  rw [Int.toNat_natCast]
  rcases Nat.eq_zero_or_pos scale with hz | hp
  case inl =>
    subst hz
    simp [roundsHalfUp_zero_iff h]
  case inr =>
    rw [or_iff_right <| by omega, and_iff_right <| by exact_mod_cast hp]
    cases Nat.lt_or_ge scale (2 ^ 15)
    case inl hu =>
      rw [and_iff_right <| by exact_mod_cast hu]
      exact ⟨fun hr => of_not_not fun hx => not_roundsHalfUp h hp hu hx hr, roundsHalfUp_of_lt h hp hu⟩
    case inr hu =>
      have hn : ¬RoundsHalfUp number scale x := fun ⟨_, ht, _⟩ => by simp [rounding_overflow hu] at ht
      exact iff_of_false hn fun h => absurd h.left <| by omega

end

theorem sample_rounding :
    @RoundsHalfUp Sample.vaList Sample.decimalNumber "1.5".toList 0 (3 / 2) := by
  have hn : rat? "1.5".toList = some (3 / 2) := by decide +kernel
  refine @roundsHalfUp_iff Sample.vaList Sample.decimalNumber _ _ 0 hn (by decide) |>.mpr <| .inl ⟨rfl, ?_⟩
  intro ⟨k, hk⟩
  have hk : (1 : Rat) = 2 * k := by
    rw [abs_of_pos (by norm_num)] at hk
    linarith
  have hk : 1 = 2 * k := by exact_mod_cast hk
  omega

theorem rounding_wrong :
    rat? "0.5".toList = some (1 / 2) ∧
      @rounding Sample.decimalNumber Sample.vaList "0.5".toList 0 = some "0".toList ∧
      ¬@RoundsHalfUp Sample.vaList Sample.decimalNumber "0.5".toList 0 (1 / 2) ∧
      rat? "1.2".toList = some (6 / 5) ∧
      @rounding Sample.decimalNumber Sample.vaList "1.2".toList 1 = some "0.000000".toList ∧
      ¬@RoundsHalfUp Sample.vaList Sample.decimalNumber "1.2".toList 1 (6 / 5) := by
  decide +kernel

end Decimals
