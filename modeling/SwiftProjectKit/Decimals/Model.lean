import SwiftProjectKit.Primitives.Binary64

namespace Decimals

open Numeral Rounding Binary64

-- The conversions of decimal numbers, where `none` is `notANumber`.
class NSDecimalNumber where
  string           : List Char → Option Rat
  stringValue      : Option Rat → List Char
  floatValue       : Option Rat → Binary64
  string_eq        : ∀ text x, rat? text = some x → string text = some x
  rat?_stringValue : ∀ scale (m : Int), rat? (stringValue <| some (m / 10 ^ scale)) = some (m / 10 ^ scale : Rat)
  floatValue_pos   : ∀ x, 0 < x → !(floatValue <| some x).isNonpositive

-- What a format reads as a floating point number if an integer is passed for it.
class VaList where
  double    : Int → Binary64
  double_eq : ∀ n, double n = .ofInt64Bits n ∨ double n = .ofRat 0

inductive RoundingMode
  | plain
  | down
  | up
  | bankers
deriving DecidableEq

-- The modes `down` and `up` round towards negative and positive infinity.
def RoundingMode.round : RoundingMode → Rat → Int
  | plain   => halfAway
  | down    => Int.floor
  | up      => Int.ceil
  | bankers => halfEven

structure NSDecimalNumberHandler where
  roundingMode : RoundingMode
  scale        : Int

def int16 (n : Int) : Option Int :=
  if -2 ^ 15 ≤ n ∧ n < 2 ^ 15 then some n else none

theorem int16_eq {n : Int} (h₁ : 0 ≤ n) (h₂ : n < 2 ^ 15) : int16 n = some n :=
  if_pos ⟨by omega, h₂⟩

theorem int16_eq_none {n : Int} (h : 2 ^ 15 ≤ n) : int16 n = none :=
  if_neg <| by omega

def adding (x y : Option Rat) (behavior : NSDecimalNumberHandler) : Option Rat := do
  let sum := (← x) + (← y)
  return behavior.roundingMode.round (sum * 10 ^ behavior.scale) / 10 ^ behavior.scale

def doubleValue (x : Option Rat) : Binary64 :=
  x.elim .nan .ofRat

theorem rat?_zero : rat? "0.00".toList = some 0 := by
  decide +kernel

section

variable [NSDecimalNumber]

open NSDecimalNumber

theorem string_zero : string "0.00".toList = some 0 :=
  string_eq _ _ rat?_zero

theorem adding_zero {number : List Char} {x : Rat} (mode : RoundingMode) (scale : Nat) (h : rat? number = some x) :
    adding (string number) (string "0.00".toList) ⟨mode, scale⟩ = some (toScale mode.round scale x) := by
  rw [string_eq _ _ h, string_zero]
  simp [adding, toScale]

-- The result is `none` if a conversion to an integer type fails. The integer is formatted as if it were a
-- floating point number.
def rounding [VaList] (number : List Char) (scale : Int) : Option (List Char) := do
  let formerDeci := string number
  let latterDeci := string "0.00".toList
  let hanle := ⟨.bankers, ← int16 scale⟩
  let value := adding formerDeci latterDeci hanle
  if scale = 0 then
    return doubleValue value |>.format 0
  else
    let value := doubleValue value |>.mul <| .ofRat (scale * 10 : Int)
    let intValue := (← value.toInt64).tdiv (scale * 10)
    return VaList.double intValue |>.format 6

def abnegate (former : List Char) (scale : Int) : Option (List Char) := do
  let formerDeci := string former
  let latterDeci := string "0.00".toList
  let hanle := ⟨.down, ← int16 scale⟩
  let value := adding formerDeci latterDeci hanle
  if (floatValue value).isNonpositive then
    return "0.00".toList
  return stringValue value

def intoOne (former : List Char) (scale : Int) : Option (List Char) := do
  let formerDeci := string former
  let latterDeci := string "0.00".toList
  let hanle := ⟨.up, ← int16 scale⟩
  let value := adding formerDeci latterDeci hanle
  return stringValue value

end

namespace Sample

def places : (fuel den : Nat) → Nat
  | 0,        _   => 0
  | fuel + 1, den => if den = 1 then 0 else places fuel (den / den.gcd 10) + 1

theorem dvd_places {fuel den scale : Nat} (h : den ∣ 10 ^ scale) (hf : den ≤ fuel) : den ∣ 10 ^ places fuel den := by
  have h₀ : 0 < den := Nat.pos_of_dvd_of_pos h <| Nat.pow_pos <| by decide
  induction fuel generalizing den
  case zero => omega
  case succ fuel hi =>
    rw [places]
    split
    case isTrue h₁ => exact h₁ ▸ Nat.one_dvd _
    case isFalse h₁ =>
      have hg : den.gcd 10 ≠ 1 := fun hg => h₁ <| Nat.Coprime.eq_one_of_dvd (Nat.Coprime.pow_right _ hg) h
      have hg₀ : 0 < den.gcd 10 := Nat.gcd_pos_of_pos_left _ h₀
      have hd := Nat.gcd_dvd_left den 10
      have hl : den / den.gcd 10 < den := Nat.div_lt_self h₀ <| by omega
      have hi := hi (Nat.dvd_trans (Nat.div_dvd_of_dvd hd) h) (by omega) <| Nat.div_pos (Nat.le_of_dvd h₀ hd) hg₀
      rw [pow_succ]
      exact Nat.div_mul_cancel hd ▸ Nat.mul_dvd_mul hi <| Nat.gcd_dvd_right den 10

@[reducible]
def decimalNumber : NSDecimalNumber where
  string           := rat?
  stringValue x    := match x with
    | none   => "NaN".toList
    | some x => let scale := places x.den x.den; fixed scale (x * 10 ^ scale).num
  floatValue       := doubleValue
  string_eq _ _    := id
  rat?_stringValue scale m := by
    have hd : (m / 10 ^ scale : Rat).den ∣ 10 ^ scale := by
      have := Rat.den_dvd m (10 ^ scale : Int)
      exact_mod_cast this
    generalize (m / 10 ^ scale : Rat) = x at hd
    have ⟨c, hc⟩ := dvd_places hd <| Nat.le_refl _
    have hc : (10 : Rat) ^ places x.den x.den = x.den * c := by exact_mod_cast hc
    have hm : x * 10 ^ places x.den x.den = (x.num * c : Int) := by
      rw [hc, ← mul_assoc, Rat.mul_den_eq_num]
      push_cast
      rfl
    rw [rat?_fixed, hm, Rat.num_intCast, ← hm, mul_div_cancel_right₀ _ scale_pos.ne']
  floatValue_pos x h := by
    simp [doubleValue, ofRat, isNonpositive, h.ne', h.le]

@[reducible]
def vaList : VaList where
  double      := .ofInt64Bits
  double_eq _ := .inl rfl

end Sample

end Decimals
