import Mathlib.Tactic.IntervalCases
import SwiftProjectKit.Dates.Model

namespace Dates

open Gregorian

section

variable {Date : Type*} [Calendar Date] {self : Date}

def civilDay (self : Date) : CivilDay :=
  civil <| Calendar.dayNumber self

structure EndsMonth (self : Date) : Prop where
  total : monthTotalDays self = monthLength (civilDay self).year (civilDay self).month
  last  : ∃ last, monthLastDay self = some last ∧ (civilDay last).year = (civilDay self).year ∧
    (civilDay last).month = (civilDay self).month ∧ (civilDay last).next = (civilDay self).followingMonth

theorem year_eq (h : 0 < (civilDay self).year) : year self = (civilDay self).year :=
  if_pos h

theorem month_eq : month self = (civilDay self).month :=
  rfl

theorem isLeapYear_iff (h : 0 < (civilDay self).year) : isLeapYear self ↔ (civilDay self).year % 4 = 0 := by
  simp only [isLeapYear, year_eq h, Bool.or_eq_true, decide_eq_true_eq]
  omega

-- The years that are divisible by 100 but not by 400 are taken for leap years.
theorem monthTotalDays_eq_iff (h : 0 < (civilDay self).year) :
    monthTotalDays self = monthLength (civilDay self).year (civilDay self).month ↔
      ¬((civilDay self).month = 2 ∧ (civilDay self).year % 100 = 0 ∧ (civilDay self).year % 400 ≠ 0) := by
  have hl := isLeapYear_iff h
  have hm := (civilDay self).month_pos
  have hm' := (civilDay self).month_le
  rw [monthTotalDays, month_eq]
  generalize (civilDay self).month = m at *
  by_cases h₂ : m = 2
  case pos =>
    subst h₂
    simp only [monthLength, hl, true_and]
    by_cases hi : IsLeap (civilDay self).year
    case pos =>
      rw [if_pos hi, if_pos hi.left]
      exact iff_of_true rfl fun h => hi.right.elim (· h.left) h.right
    case neg =>
      rw [if_neg hi]
      rw [IsLeap] at hi
      by_cases h₄ : (civilDay self).year % 4 = 0
      case pos =>
        rw [if_pos h₄]
        exact iff_of_false (by decide) fun h => by omega
      case neg =>
        rw [if_neg h₄]
        exact iff_of_true rfl fun h => by omega
  case neg =>
    refine iff_of_true ?_ fun h => h₂ h.left
    interval_cases m <;> first | rfl | contradiction

theorem monthFirstDay_spec : ∃ first, monthFirstDay self = some first ∧ (civilDay first).year = (civilDay self).year ∧
    (civilDay first).month = (civilDay self).month ∧ (civilDay first).day = 1 := by
  have h := @monthLength_bounds (civilDay self).year (civilDay self).month
  have ⟨first, hf, hd⟩ := Calendar.carries self 1 le_rfl <| by decide
  refine ⟨first, hf, ?_⟩
  rw [civilDay, hd]
  exact @civil_withDay _ 1 le_rfl <| Nat.le_trans (by decide) h.left

theorem monthLastDay_of_eq (ht : monthTotalDays self = monthLength (civilDay self).year (civilDay self).month) :
    ∃ last, monthLastDay self = some last ∧ (civilDay last).year = (civilDay self).year ∧
      (civilDay last).month = (civilDay self).month ∧ (civilDay last).next = (civilDay self).followingMonth := by
  have h := @monthLength_bounds (civilDay self).year (civilDay self).month
  have ⟨last, hl, hd⟩ := Calendar.carries self (monthTotalDays self) (by omega) (by omega)
  refine ⟨last, hl, ?_⟩
  rw [civilDay, hd, ht]
  have ⟨hy, hm, _⟩ := civil_withDay (n := Calendar.dayNumber self) (Nat.le_trans (by decide) h.left) le_rfl
  exact ⟨hy, hm, civil_next_monthLength _⟩

theorem monthLastDay_of_centurial (h : 0 < (civilDay self).year) (hm : (civilDay self).month = 2)
    (h₁ : (civilDay self).year % 100 = 0) (h₄ : (civilDay self).year % 400 ≠ 0) :
    ∃ last, monthLastDay self = some last ∧ civilDay last = (civilDay self).followingMonth := by
  have hl : monthLength (civilDay self).year (civilDay self).month = 28 := by
    rw [hm]
    exact if_neg fun hl => hl.right.elim (· h₁) h₄
  have ht : monthTotalDays self = monthLength (civilDay self).year (civilDay self).month + 1 := by
    rw [monthTotalDays, month_eq, hl, hm]
    exact if_pos <| isLeapYear_iff h |>.mpr <| by omega
  have ⟨last, hs, hd⟩ := Calendar.carries self (monthTotalDays self) (by omega) (by omega)
  refine ⟨last, hs, ?_⟩
  rw [civilDay, hd, ht, add_sub_right_comm, ← add_assoc, civil_add_one]
  exact civil_next_monthLength _

theorem endsMonth_iff (h : 0 < (civilDay self).year) : EndsMonth self ↔
    ¬((civilDay self).month = 2 ∧ (civilDay self).year % 100 = 0 ∧ (civilDay self).year % 400 ≠ 0) := by
  rw [← monthTotalDays_eq_iff h]
  exact ⟨EndsMonth.total, fun ht => ⟨ht, monthLastDay_of_eq ht⟩⟩

end

theorem Instant.civilDay_date (c : CivilDay) (offset : Rat) :
    @civilDay Rat (calendar offset) (c.number * 86400 - offset) = c := by
  have hn : Instant.dayNumber offset (c.number * 86400 - offset) = c.number := by
    rw [Instant.dayNumber, sub_add_cancel, ← Int.cast_ofNat, ← Int.cast_mul, Int.floor_intCast]
    omega
  exact congrArg civil hn |>.trans <| civil_number c

theorem sample_endsMonth :
    @EndsMonth Rat (Instant.calendar 0) ((CivilDay.first 2024 2 (by decide) (by decide)).number * 86400 - 0) :=
  @endsMonth_iff Rat (Instant.calendar 0) _ (by rw [Instant.civilDay_date]; decide) |>.mpr <| by
    rw [Instant.civilDay_date]
    decide

-- The first day of February in the year 1900. The last day is said to be the first of March.
theorem not_endsMonth_centurial :
    @civilDay Rat (Instant.calendar 0) (-2206310400) = CivilDay.first 1900 2 (by decide) (by decide) ∧
    ¬@EndsMonth Rat (Instant.calendar 0) (-2206310400) ∧
    ∃ last, @monthLastDay Rat (Instant.calendar 0) (-2206310400) = some last ∧
      @civilDay Rat (Instant.calendar 0) last = CivilDay.first 1900 3 (by decide) (by decide) := by
  have hn : (CivilDay.first 1900 2 (by decide) (by decide)).number = -25536 := rfl
  have hc := Instant.civilDay_date (CivilDay.first 1900 2 (by decide) (by decide)) 0
  rw [hn] at hc
  norm_num at hc
  have hy : 0 < (@civilDay Rat (Instant.calendar 0) (-2206310400)).year := by
    rw [hc]
    decide
  refine ⟨hc, fun h => ?_, ?_⟩
  case refine_1 =>
    have hi := @monthTotalDays_eq_iff Rat (Instant.calendar 0) _ hy |>.mp <| @EndsMonth.total _ (_) _ h
    rw [hc] at hi
    exact hi <| by decide
  case refine_2 =>
    obtain ⟨last, hs, hl⟩ := @monthLastDay_of_centurial Rat (Instant.calendar 0) _ hy
      (by rw [hc]; rfl) (by rw [hc]; decide) (by rw [hc]; decide)
    exact ⟨last, hs, hl.trans <| by rw [hc]; rfl⟩

end Dates
