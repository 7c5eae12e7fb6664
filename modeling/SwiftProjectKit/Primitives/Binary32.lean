import Mathlib.Data.Int.Log
import Mathlib.Data.Rat.Floor
import SwiftProjectKit.Primitives.Rounding

namespace Binary32

open Rounding (halfEven)

-- What the last bit of the number nearest to `x` stands for, where numbers have 24 bits.
def unit (x : Rat) : Rat :=
  2 ^ max (Int.log 2 |x| - 23) (-149)

def toFloat (x : Rat) : Rat :=
  halfEven (x / unit x) * unit x

theorem unit_natCast {n : Nat} (h : n < 2 ^ 24) : ∃ k : Nat, unit n * 2 ^ k = 1 := by
  have hl : Nat.log 2 n ≤ 23 := Nat.le_of_lt_succ <| Nat.log_lt_of_lt_pow' (by decide) h
  refine ⟨(-max (Int.log 2 |(n : Rat)| - 23) (-149)).toNat, ?_⟩
  rw [Nat.abs_cast, Int.log_natCast, unit, Nat.abs_cast, Int.log_natCast, ← zpow_natCast,
    Int.toNat_of_nonneg (by omega), ← zpow_add₀ (by decide), Int.add_right_neg, zpow_zero]

theorem toFloat_natCast {n : Nat} (h : n < 2 ^ 24) : toFloat n = n := by
  have ⟨k, hk⟩ := unit_natCast h
  have hu : unit n ≠ 0 := left_ne_zero_of_mul_eq_one hk
  have hd : n / unit n = (n * 2 ^ k : Int) := by
    rw [div_eq_iff hu]
    push_cast
    rw [mul_assoc, mul_comm _ (unit n), hk, mul_one]
  rw [toFloat, hd, Rounding.halfEven_intCast, ← hd, div_mul_cancel₀ _ hu]

end Binary32
