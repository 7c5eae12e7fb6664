import SwiftProjectKit.Decimals.Model

namespace Decimals

open Numeral Rounding NSDecimalNumber

section

variable [NSDecimalNumber] {former : List Char} {x : Rat}

def IsBracketed (former : List Char) (scale : Int) (x : Rat) : Prop :=
  ∃ lower upper down up, abnegate former scale = some lower ∧ intoOne former scale = some upper ∧
    rat? lower = some down ∧ rat? upper = some up ∧ Brackets scale.toNat x down up

theorem rat?_stringValue_toScale {r : Rat → Int} {scale : Nat} :
    rat? (stringValue <| some <| toScale r scale x) = some (toScale r scale x) :=
  rat?_stringValue ..

theorem intoOne_eq {scale : Nat} (h : rat? former = some x) (hs : scale < 2 ^ 15) :
    intoOne former scale = some (stringValue <| some <| toScale Int.ceil scale x) := by
  have ha := adding_zero .up scale h
  rw [intoOne, int16_eq (by omega) (by omega), Option.bind_eq_bind, Option.bind_some]
  simp only [ha]
  rfl

theorem abnegate_eq {scale : Nat} (h : rat? former = some x) (hs : scale < 2 ^ 15) :
    abnegate former scale =
      let value := some <| toScale Int.floor scale x
      some (if (floatValue value).isNonpositive then "0.00".toList else stringValue value) := by
  have ha := adding_zero .down scale h
  rw [abnegate, int16_eq (by omega) (by omega), Option.bind_eq_bind, Option.bind_some]
  simp only [ha]
  exact apply_ite some .. |>.symm

-- The text for a number that is not positive denotes the number, because it is not negative either.
theorem rat?_abnegate {scale : Nat} (h : rat? former = some x) (hx : 0 ≤ x) (hs : scale < 2 ^ 15) :
    ∃ lower, abnegate former scale = some lower ∧ rat? lower = some (toScale Int.floor scale x) := by
  have h₀ : 0 ≤ toScale Int.floor scale x := toScale_nonneg (Int.floor_nonneg.mpr ·) hx
  refine ⟨_, abnegate_eq h hs, ?_⟩
  split
  case isTrue hf =>
    have hz : ¬0 < toScale Int.floor scale x := fun hp => by simpa [hf] using floatValue_pos _ hp
    rw [le_antisymm (not_lt.mp hz) h₀, rat?_zero]
  case isFalse => exact rat?_stringValue_toScale

theorem isBracketed {scale : Int} (h : rat? former = some x) (hx : 0 ≤ x) (hs : 0 ≤ scale) (hs' : scale < 2 ^ 15) :
    IsBracketed former scale x := by
  have ⟨scale, hs⟩ := Int.eq_ofNat_of_zero_le hs
  subst hs
  have hs' : scale < 2 ^ 15 := by exact_mod_cast hs'
  have ⟨lower, hl, hd⟩ := rat?_abnegate h hx hs'
  exact ⟨lower, _, _, _, hl, intoOne_eq h hs', hd, rat?_stringValue_toScale, brackets_floor_ceil⟩

end

theorem sample_isBracketed : @IsBracketed Sample.decimalNumber "1.25".toList 1 (5 / 4) :=
  @isBracketed Sample.decimalNumber _ _ 1 (by decide +kernel) (by decide +kernel) (by decide) (by decide)

-- The scale of a handler has 16 bits.
theorem not_isBracketed :
    rat? "1.25".toList = some (5 / 4) ∧ ¬@IsBracketed Sample.decimalNumber "1.25".toList (2 ^ 15) (5 / 4) := by
  have hn : @abnegate Sample.decimalNumber "1.25".toList (2 ^ 15) = none := by decide +kernel
  exact ⟨by decide +kernel, fun ⟨_, _, _, _, h, _⟩ => absurd (hn.symm.trans h) <| Option.some_ne_none _ |>.symm⟩

end Decimals
