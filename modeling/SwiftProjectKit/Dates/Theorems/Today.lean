import Mathlib.Tactic.Linarith
import SwiftProjectKit.Dates.Model

namespace Dates

open Gregorian

namespace Instant

variable {offset : Rat}

theorem dayNumber_bounds (offset self : Rat) :
    dayNumber offset self * 86400 ≤ self + offset ∧ self + offset < (dayNumber offset self + 1) * 86400 := by
  have hl := Int.floor_le (self + offset)
  have hu := Int.lt_floor_add_one (self + offset)
  have hd : dayNumber offset self * 86400 ≤ ⌊self + offset⌋ ∧
      ⌊self + offset⌋ + 1 ≤ (dayNumber offset self + 1) * 86400 := by
    rw [dayNumber]
    omega
  have hd₁ : (dayNumber offset self * 86400 : Rat) ≤ ⌊self + offset⌋ := mod_cast hd.left
  have hd₂ : (⌊self + offset⌋ + 1 : Rat) ≤ (dayNumber offset self + 1) * 86400 := mod_cast hd.right
  exact ⟨hd₁.trans hl, hu.trans_le hd₂⟩

theorem sub_lt_of_dayNumber_eq {a b : Rat} (h : dayNumber offset a = dayNumber offset b) : a - b < 86400 := by
  have ha := dayNumber_bounds offset a
  have hb := dayNumber_bounds offset b
  rw [h] at ha
  linarith

theorem dayNumber_le_of_sub_lt {a b : Rat} (h : a - b < 86400) : dayNumber offset a ≤ dayNumber offset b + 1 := by
  have ha := dayNumber_bounds offset a
  have hb := dayNumber_bounds offset b
  have hr : (dayNumber offset a : Rat) < dayNumber offset b + 2 := by linarith
  have hi : dayNumber offset a < dayNumber offset b + 2 := mod_cast hr
  omega

end Instant

theorem day_eq_iff {offset a b : Rat} : @day Rat (Instant.calendar offset) a = @day Rat (Instant.calendar offset) b ↔
    (civil <| Instant.dayNumber offset a).day = (civil <| Instant.dayNumber offset b).day :=
  Int.natCast_inj

theorem isToday_iff (offset now self : Rat) :
    @isToday (Instant.calendar offset) now self ↔
      civil (Instant.dayNumber offset self) = civil (Instant.dayNumber offset now) := by
  rw [civil_injective.eq_iff]
  unfold isToday
  by_cases ht : |self - now| ≥ 86400
  case pos =>
    refine iff_of_false (by simp [ht]) fun h => ht.not_gt <| abs_sub_lt_iff.mpr ?_
    exact ⟨Instant.sub_lt_of_dayNumber_eq h, Instant.sub_lt_of_dayNumber_eq h.symm⟩
  case neg =>
    have ⟨h₁, h₂⟩ := abs_sub_lt_iff.mp <| not_le.mp ht
    rw [if_neg ht, beq_iff_eq, day_eq_iff]
    refine ⟨fun hd => ?_, fun h => by rw [h]⟩
    exact eq_of_civil_day_eq (Instant.dayNumber_le_of_sub_lt h₁) (Instant.dayNumber_le_of_sub_lt h₂) hd.symm

end Dates
