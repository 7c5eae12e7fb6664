import SwiftProjectKit.Primitives.Numeral

-- What `String(format:)` writes for integers.
namespace Format

open Numeral (padded)

variable {n : Int} {width : Nat}

-- Conversions without a length modifier are given the low 32 bits of an integer.
def int32 (n : Int) : Int :=
  n.bmod (2 ^ 32)

theorem int32_eq_self_iff : int32 n = n ↔ -2 ^ 31 ≤ n ∧ n < 2 ^ 31 := by
  rw [int32, Int.bmod_eq_iff (by decide)]
  constructor
  case mp  => omega
  case mpr => omega

-- `%0wd` for a width `w`, which the sign counts for.
def zeroPadded (width : Nat) (n : Int) : List Char :=
  if int32 n < 0 then '-' :: padded (width - 1) (int32 n).natAbs else padded width (int32 n).natAbs

-- `%.pd` for a precision `p`, which the sign does not count for.
def precise (precision : Nat) (n : Int) : List Char :=
  if int32 n < 0 then '-' :: padded precision (int32 n).natAbs else padded precision (int32 n).natAbs

theorem zeroPadded_natCast {n : Nat} (h : n < 2 ^ 31) : zeroPadded width n = padded width n := by
  have hn : int32 n = n := int32_eq_self_iff.mpr <| by omega
  rw [zeroPadded, hn, if_neg (Int.not_lt.mpr n.cast_nonneg), Int.natAbs_natCast]

theorem precise_natCast {n : Nat} (h : n < 2 ^ 31) : precise width n = padded width n := by
  have hn : int32 n = n := int32_eq_self_iff.mpr <| by omega
  rw [precise, hn, if_neg (Int.not_lt.mpr n.cast_nonneg), Int.natAbs_natCast]

end Format
