import Mathlib.Algebra.Order.Field.Rat
import Mathlib.Data.Rat.Floor
import SwiftProjectKit.Primitives.Numeral
import SwiftProjectKit.Primitives.Rounding

-- The values of a binary64 number, where finite ones are not confined to those that have a representation.
inductive Binary64
  | finite (negative : Bool) (magnitude : Rat) (nonneg : 0 ≤ magnitude)
  | infinite (negative : Bool)
  | nan
deriving DecidableEq

namespace Binary64

open Numeral Rounding

def ofRat (x : Rat) : Binary64 :=
  .finite (x < 0) |x| (abs_nonneg x)

def value : Binary64 → Option Rat
  | finite negative magnitude _ => some <| if negative then -magnitude else magnitude
  | _                           => none

@[simp]
theorem value_ofRat (x : Rat) : (ofRat x).value = some x := by
  cases lt_or_ge x 0
  case inl h => simp [ofRat, value, h, abs_of_neg]
  case inr h => simp [ofRat, value, not_lt.mpr h, abs_of_nonneg h]

theorem abs_of_value_finite {negative : Bool} {magnitude x : Rat} {nonneg : 0 ≤ magnitude}
    (h : (finite negative magnitude nonneg).value = some x) :
    |x| = magnitude ∧ x = if negative then -|x| else |x| := by
  cases Option.some.inj h
  cases negative <;> simp [abs_of_nonneg nonneg]

def isNonpositive : Binary64 → Bool
  | finite negative magnitude _ => negative || magnitude = 0
  | infinite negative           => negative
  | nan                         => false

-- Finite numbers are multiplied exactly.
def mul : Binary64 → Binary64 → Binary64
  | finite n m h, finite n' m' h' => .finite (n != n') (m * m') (mul_nonneg h h')
  | finite n m _, infinite n'     => if m = 0 then .nan else .infinite (n != n')
  | infinite n,   finite n' m _   => if m = 0 then .nan else .infinite (n != n')
  | infinite n,   infinite n'     => .infinite (n != n')
  | _,            _               => .nan

theorem value_mul_ofRat {x y : Rat} : (mul (ofRat x) (ofRat y)).value = some (x * y) := by
  rw [ofRat, ofRat, mul, value, ← abs_mul]
  cases lt_or_ge x 0 <;> cases lt_or_ge y 0
  case inl.inl hx hy => simp [hx, hy, abs_of_pos <| mul_pos_of_neg_of_neg hx hy]
  case inl.inr hx hy => simp [hx, not_lt.mpr hy, abs_of_nonpos <| mul_nonpos_of_nonpos_of_nonneg hx.le hy]
  case inr.inl hx hy => simp [hy, not_lt.mpr hx, abs_of_nonpos <| mul_nonpos_of_nonneg_of_nonpos hx hy.le]
  case inr.inr hx hy => simp [not_lt.mpr hx, not_lt.mpr hy, abs_of_nonneg <| mul_nonneg hx hy]

def toInt64 (x : Binary64) : Option Int := do
  let x ← x.value
  let n := if x < 0 then ⌈x⌉ else ⌊x⌋
  if -2 ^ 63 ≤ n ∧ n < 2 ^ 63 then some n else none

theorem toInt64_eq_some {x : Binary64} {v : Rat} {n : Int} (hv : x.value = some v) (h : x.toInt64 = some n) :
    |v - n| < 1 ∧ -2 ^ 63 ≤ n ∧ n < 2 ^ 63 := by
  have h₁ := Int.floor_le v
  have h₂ := Int.lt_floor_add_one v
  have h₃ := Int.le_ceil v
  have h₄ := Int.ceil_lt_add_one v
  rw [toInt64, hv] at h
  have ⟨hb, hn⟩ := Option.ite_none_right_eq_some.mp h
  cases Option.some.inj hn
  refine ⟨abs_lt.mpr ?_, hb⟩
  split <;> constructor <;> linarith

theorem toInt64_of_value_zero {x : Binary64} (h : x.value = some 0) : x.toInt64 = some 0 := by
  rw [toInt64, h]
  decide +kernel

theorem toInt64_ofRat {x : Rat} (h₀ : 0 ≤ x) (h : x < 2 ^ 63) : (ofRat x).toInt64 = some ⌊x⌋ := by
  have hn : 0 ≤ ⌊x⌋ := Int.floor_nonneg.mpr h₀
  have hl : ⌊x⌋ < 2 ^ 63 := Int.floor_lt.mpr <| by push_cast; exact h
  rw [toInt64, value_ofRat, Option.bind_eq_bind, Option.bind_some, if_neg (not_lt.mpr h₀)]
  exact if_pos ⟨by omega, hl⟩

def format (precision : Nat) : Binary64 → List Char
  | finite negative magnitude _ =>
    let digits := ofScale precision (halfEven <| magnitude * 10 ^ precision).toNat |>.text
    if negative then '-' :: digits else digits
  | infinite negative => if negative then "-inf".toList else "inf".toList
  | nan               => "nan".toList

theorem rat?_format_finite {precision : Nat} {negative : Bool} {magnitude : Rat} {nonneg : 0 ≤ magnitude} :
    rat? (format precision <| finite negative magnitude nonneg) =
      value (finite negative (toScale halfEven precision magnitude) <| toScale_nonneg halfEven_nonneg nonneg) := by
  have h : 0 ≤ halfEven (magnitude * 10 ^ precision) := halfEven_nonneg <| mul_nonneg nonneg scale_pos.le
  have h : (halfEven (magnitude * 10 ^ precision)).toNat = (halfEven (magnitude * 10 ^ precision) : Rat) := by
    rw [← Int.cast_natCast, Int.toNat_of_nonneg h]
  cases negative
  case false => simp [format, rat?_text, value_ofScale, value, toScale, h]
  case true  => simp [format, rat?_neg_text, value_ofScale, value, toScale, h]

theorem format_near {precision : Nat} {x : Binary64} {y : Rat} (h : rat? (format precision x) = some y) :
    ∃ v, x.value = some v ∧ |y - v| ≤ 1 / 2 / 10 ^ precision ∧ (|v| < 1 / 2 / 10 ^ precision → y = 0) := by
  cases x
  case finite negative magnitude nonneg =>
    have hd : |magnitude - toScale halfEven precision magnitude| ≤ 1 / 2 / 10 ^ precision :=
      abs_sub_toScale_le abs_sub_halfEven_le
    have h₀ (h : |magnitude| < 1 / 2 / 10 ^ precision) : toScale halfEven precision magnitude = 0 :=
      toScale_halfEven_eq_zero h
    rw [rat?_format_finite] at h
    refine ⟨_, rfl, ?_⟩
    rw [← Option.some.inj h]
    cases negative
    case false => exact ⟨abs_sub_comm magnitude _ ▸ hd, h₀⟩
    case true  => exact ⟨by simpa [add_comm, ← sub_eq_add_neg] using hd, by simpa using h₀⟩
  case infinite negative => cases negative <;> contradiction
  case nan => contradiction

theorem rat?_format_ofRat (precision : Nat) (m : Int) :
    rat? (format precision <| ofRat <| m / 10 ^ precision) = some (m / 10 ^ precision : Rat) := by
  have h : toScale halfEven precision |(m / 10 ^ precision : Rat)| = |(m / 10 ^ precision : Rat)| := by
    rw [abs_div, abs_of_pos (scale_pos (K := Rat)), ← Int.cast_abs, toScale_of_multiple halfEven_intCast]
  rw [ofRat, rat?_format_finite]
  simp only [h]
  exact value_ofRat _

def unit (exponent : Nat) : Rat :=
  2 ^ exponent / 2 ^ 1075

def exponent (bits : Nat) : Nat :=
  bits / 2 ^ 52 % 2048

def significand (bits : Nat) : Nat :=
  if exponent bits = 0 then bits % 2 ^ 52 else 2 ^ 52 + bits % 2 ^ 52

theorem unit_pos {e : Nat} : 0 < unit e :=
  div_pos (pow_pos (by decide) _) <| pow_pos (by decide) _

theorem significand_unit_nonneg {bits e : Nat} : 0 ≤ significand bits * unit e :=
  mul_nonneg (Nat.cast_nonneg _) unit_pos.le

def ofBits (bits : Fin (2 ^ 64)) : Binary64 :=
  let negative := 2 ^ 63 ≤ bits.val
  if exponent bits = 2047 then
    if bits.val % 2 ^ 52 = 0 then .infinite negative else .nan
  else
    .finite negative (significand bits * unit (max 1 <| exponent bits)) significand_unit_nonneg

-- The bits of an integer are read as those of a number.
def ofInt64Bits (n : Int) : Binary64 :=
  ofBits <| Fin.ofNat _ (n % 2 ^ 64).toNat

example : ofInt64Bits 0x3FF8000000000000 = .finite false (3 / 2) (by norm_num) := by decide +kernel

section Far

variable {e s k d : Nat} {n : Int}

theorem unit_mono {e' : Nat} (h : e ≤ e') : unit e ≤ unit e' :=
  div_le_div_of_nonneg_right (pow_le_pow_right₀ (by decide) h) <| pow_nonneg (by decide) _

theorem unit_add : unit (1075 + d) = (2 ^ d : Nat) := by
  rw [unit, pow_add, mul_div_cancel_left₀ _ <| pow_ne_zero _ <| by decide, Nat.cast_pow, Nat.cast_ofNat]

theorem far_of_le (hd : e ≤ 1075 + d) (h : s * (2 ^ d : Nat) + 2 ≤ n) : 2 ≤ |s * unit e - n| := by
  have hu := mul_le_mul_of_nonneg_left (unit_add ▸ unit_mono hd) <| Nat.cast_nonneg (α := Rat) s
  have h : (s * (2 ^ d : Nat) + 2 : Rat) ≤ n := mod_cast h
  rw [le_abs]
  exact .inr <| by linarith

theorem far_of_ge (hd : 1075 + d ≤ e) (h : n + 2 ≤ s * (2 ^ d : Nat)) : 2 ≤ |s * unit e - n| := by
  have hu := mul_le_mul_of_nonneg_left (unit_add ▸ unit_mono hd) <| Nat.cast_nonneg (α := Rat) s
  have h : (n + 2 : Rat) ≤ s * (2 ^ d : Nat) := mod_cast h
  rw [le_abs]
  exact .inl <| by linarith

theorem far_of_eq (h : 2 ≤ |(s * (2 ^ d : Nat) - n : Int)|) : 2 ≤ |s * unit (1075 + d) - n| := by
  rw [unit_add]
  exact_mod_cast h

-- The bits of a positive integer represent a number that is smaller or greater than it by the magnitude of the
-- exponent. They are of equal magnitude for one exponent, where their difference is not divisible by 1023.
theorem far_of_pos (he : 1 < e) (hk : k < 2 ^ 52) (hn : n = 2 ^ 52 * e + k) (hn' : n < 2 ^ 63) :
    2 ≤ |(2 ^ 52 + k : Nat) * unit e - n| := by
  rcases Nat.lt_trichotomy e 1085 with h | h | h
  case inl =>
    cases Nat.lt_or_ge e 1076
    case inl h => exact far_of_le (d := 0) (by omega) (by omega)
    case inr h => exact far_of_le (d := 9) (by omega) (by omega)
  case inr.inl => exact h ▸ far_of_eq (d := 10) (by rw [le_abs]; omega)
  case inr.inr => exact far_of_ge (d := 11) (by omega) (by omega)

-- The same holds of a negative integer, with another exponent and the divisor 513.
theorem far_of_neg (hk : k < 2 ^ 52) (hn : n = 2 ^ 52 * (2048 - e) - k) :
    2 ≤ |(2 ^ 52 + k : Nat) * unit e - n| := by
  rcases Nat.lt_trichotomy e 1084 with h | h | h
  case inl     => exact far_of_le (d := 8) (by omega) (by omega)
  case inr.inl => exact h ▸ far_of_eq (d := 9) (by rw [le_abs]; omega)
  case inr.inr => exact far_of_ge (d := 10) (by omega) (by omega)

theorem ofBits_value {bits : Fin (2 ^ 64)} {x : Rat} (h : (ofBits bits).value = some x) :
    |x| = significand bits * unit (max 1 <| exponent bits) ∧ x = if 2 ^ 63 ≤ bits.val then -|x| else |x| := by
  rw [ofBits] at h
  split at h
  case isTrue  => split at h <;> contradiction
  case isFalse => simpa using abs_of_value_finite h

theorem ofInt64Bits_far {x : Rat} (h₁ : -2 ^ 63 ≤ n) (h₂ : n < 2 ^ 63) (hx : (ofInt64Bits n).value = some x) :
    |x| ≤ 2 ^ 53 * unit 1 ∨ 2 ≤ |x - n| := by
  have hb : (n % 2 ^ 64).toNat < 2 ^ 64 := by omega
  have ⟨hm, hs⟩ := ofBits_value hx
  rw [Fin.val_ofNat, Nat.mod_eq_of_lt hb] at hm hs
  rw [significand] at hm
  generalize hk : (n % 2 ^ 64).toNat % 2 ^ 52 = k at hm
  generalize he : exponent (n % 2 ^ 64).toNat = e at hm
  rw [exponent] at he
  cases Nat.lt_or_ge 1 e
  case inl h =>
    rw [if_neg <| by omega, max_eq_right h.le] at hm
    right
    split at hs
    case isTrue =>
      have h := @far_of_neg e k (-n) (by omega) (by omega)
      rw [hs, hm, ← abs_neg, neg_sub', neg_neg]
      rwa [Int.cast_neg] at h
    case isFalse =>
      have h := @far_of_pos e k n h (by omega) (by omega) h₂
      rwa [hs, hm]
  case inr h =>
    left
    rw [hm, max_eq_left h]
    have hs : (if e = 0 then k else 2 ^ 52 + k) ≤ 2 ^ 53 := by split <;> omega
    exact mul_le_mul_of_nonneg_right (mod_cast hs) unit_pos.le

theorem unit_one_lt : 2 ^ 53 * unit 1 < 1 / 2 / 10 ^ 6 := by
  decide +kernel

-- Printing an integer in place of a number either shows zero, or a number that is not near to the integer.
theorem format_ofInt64Bits_far {y : Rat} (h₁ : -2 ^ 63 ≤ n) (h₂ : n < 2 ^ 63)
    (h : rat? (format 6 <| ofInt64Bits n) = some y) : y = 0 ∨ 3 / 2 ≤ |y - n| := by
  have ⟨v, hv, hd, hz⟩ := format_near h
  cases ofInt64Bits_far h₁ h₂ hv
  case inl h => exact .inl <| hz <| h.trans_lt unit_one_lt
  case inr h =>
    have ht := abs_sub_le v y n
    rw [abs_sub_comm v y] at ht
    have he : (1 / 2 / 10 ^ 6 : Rat) ≤ 1 / 2 := by norm_num
    exact .inr <| by linarith

end Far

end Binary64
