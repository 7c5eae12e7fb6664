import Mathlib.Data.Int.Init
import Mathlib.Logic.Function.Iterate
import Mathlib.Tactic.Common
import Mathlib.Tactic.IntervalCases

-- The Gregorian calendar, which is extended to all years. The year before 1 is 0.
namespace Gregorian

def IsLeap (year : Int) : Prop :=
  year % 4 = 0 ∧ (year % 100 ≠ 0 ∨ year % 400 = 0)

instance {year : Int} : Decidable (IsLeap year) :=
  inferInstanceAs <| Decidable (_ ∧ _)

def monthLength (year : Int) : Nat → Nat
  | 2              => if IsLeap year then 29 else 28
  | 4 | 6 | 9 | 11 => 30
  | _              => 31

theorem monthLength_bounds {year : Int} {month : Nat} : 28 ≤ monthLength year month ∧ monthLength year month ≤ 31 := by
  unfold monthLength
  split
  case h_1 => split <;> decide
  all_goals decide

@[ext]
structure CivilDay where
  year      : Int
  month     : Nat
  day       : Nat
  month_pos : 1 ≤ month
  month_le  : month ≤ 12
  day_pos   : 1 ≤ day
  day_le    : day ≤ monthLength year month
deriving DecidableEq

namespace CivilDay

variable {c : CivilDay}

def first (year : Int) (month : Nat) (h₁ : 1 ≤ month) (h₂ : month ≤ 12) : CivilDay where
  year      := year
  month     := month
  day       := 1
  month_pos := h₁
  month_le  := h₂
  day_pos   := Nat.le_refl _
  day_le    := Nat.le_trans (by decide) monthLength_bounds.left

def last (year : Int) (month : Nat) (h₁ : 1 ≤ month) (h₂ : month ≤ 12) : CivilDay where
  year      := year
  month     := month
  day       := monthLength year month
  month_pos := h₁
  month_le  := h₂
  day_pos   := Nat.le_trans (by decide) monthLength_bounds.left
  day_le    := Nat.le_refl _

def followingMonth (c : CivilDay) : CivilDay :=
  if h : c.month < 12 then
    first c.year (c.month + 1) (Nat.le_add_left ..) h
  else
    first (c.year + 1) 1 (by decide) (by decide)

def next (c : CivilDay) : CivilDay :=
  if h : c.day < monthLength c.year c.month then
    { c with day := c.day + 1, day_pos := Nat.le_add_left .., day_le := h }
  else
    c.followingMonth

def prev (c : CivilDay) : CivilDay :=
  if h : 1 < c.day then
    { c with day := c.day - 1, day_pos := Nat.le_sub_one_of_lt h, day_le := Nat.le_trans (Nat.sub_le ..) c.day_le }
  else if h : 1 < c.month then
    last c.year (c.month - 1) (Nat.le_sub_one_of_lt h) (Nat.le_trans (Nat.sub_le ..) c.month_le)
  else
    last (c.year - 1) 12 (by decide) (by decide)

theorem next_of_lt (h : c.day < monthLength c.year c.month) :
    c.next.year = c.year ∧ c.next.month = c.month ∧ c.next.day = c.day + 1 := by
  rw [next, dif_pos h]
  exact ⟨rfl, rfl, rfl⟩

theorem next_of_eq (h : c.day = monthLength c.year c.month) : c.next = c.followingMonth :=
  dif_neg <| h ▸ Nat.lt_irrefl _

theorem followingMonth_day : c.followingMonth.day = 1 := by
  rw [followingMonth]
  split <;> rfl

theorem followingMonth_congr {c' : CivilDay} (hy : c.year = c'.year) (hm : c.month = c'.month) :
    c.followingMonth = c'.followingMonth := by
  simp only [followingMonth, hy, hm]

theorem prev_of_lt (h : 1 < c.day) :
    c.prev.year = c.year ∧ c.prev.month = c.month ∧ c.prev.day = c.day - 1 := by
  rw [prev, dif_pos h]
  exact ⟨rfl, rfl, rfl⟩

theorem next_prev (c : CivilDay) : c.prev.next = c := by
  have hl := c.day_le
  have hd := c.day_pos
  have hm := c.month_pos
  have hm' := c.month_le
  by_cases h : 1 < c.day
  case pos =>
    have ⟨hy, hm, hd⟩ := prev_of_lt h
    have ⟨hy', hm', hd'⟩ := next_of_lt (c := c.prev) <| by rw [hy, hm, hd]; omega
    ext
    case year  => rw [hy', hy]
    case month => rw [hm', hm]
    case day   => rw [hd', hd]; omega
  case neg =>
    rw [prev, dif_neg h]
    split
    case isTrue h =>
      rw [next_of_eq rfl, followingMonth, dif_pos (by simp only [last]; omega)]
      ext <;> simp only [first, last] <;> omega
    case isFalse h =>
      rw [next_of_eq rfl, followingMonth, dif_neg (by simp only [last]; omega)]
      ext <;> simp only [first, last] <;> omega

theorem prev_next (c : CivilDay) : c.next.prev = c := by
  have hd := c.day_pos
  have hm := c.month_pos
  have hm' := c.month_le
  cases Nat.lt_or_eq_of_le c.day_le
  case inl hl =>
    have ⟨hy, hm, hd⟩ := next_of_lt hl
    have ⟨hy', hm', hd'⟩ := prev_of_lt (c := c.next) <| by rw [hd]; omega
    ext
    case year  => rw [hy', hy]
    case month => rw [hm', hm]
    case day   => rw [hd', hd, Nat.add_sub_cancel]
  case inr he =>
    rw [next_of_eq he, prev, dif_neg (by rw [followingMonth_day]; decide), followingMonth]
    split
    case isTrue h =>
      rw [dif_pos (by simp only [first]; omega)]
      ext <;> simp only [first, last, Nat.add_sub_cancel, he]
    case isFalse h =>
      have hm : c.month = 12 := by omega
      rw [dif_neg (by simp only [first]; decide)]
      ext <;> simp only [first, last, Int.add_sub_cancel, he, hm]

theorem next_day_ne (c : CivilDay) : c.next.day ≠ c.day := by
  have h := @monthLength_bounds c.year c.month
  cases Nat.lt_or_eq_of_le c.day_le
  case inl hl =>
    rw [next_of_lt hl |>.right.right]
    exact Nat.succ_ne_self _
  case inr he =>
    rw [next_of_eq he, followingMonth_day]
    omega

end CivilDay

def daysBeforeYear (year : Int) : Int :=
  365 * (year - 1) + (year - 1) / 4 - (year - 1) / 100 + (year - 1) / 400

def daysBeforeMonth (year : Int) : Nat → Nat
  | 0 | 1     => 0
  | month + 1 => daysBeforeMonth year month + monthLength year month

def dayNumber (year : Int) (month : Nat) (day : Int) : Int :=
  daysBeforeYear year + daysBeforeMonth year month + day - 719163

theorem daysBeforeYear_succ (year : Int) :
    daysBeforeYear (year + 1) = daysBeforeYear year + daysBeforeMonth year 12 + monthLength year 12 := by
  by_cases h : IsLeap year
  case pos =>
    simp only [daysBeforeYear, daysBeforeMonth, monthLength, if_pos h]
    rw [IsLeap] at h
    omega
  case neg =>
    simp only [daysBeforeYear, daysBeforeMonth, monthLength, if_neg h]
    rw [IsLeap] at h
    omega

theorem daysBeforeMonth_succ {year : Int} {month : Nat} (h : 1 ≤ month) :
    daysBeforeMonth year (month + 1) = daysBeforeMonth year month + monthLength year month := by
  cases month
  case zero => contradiction
  case succ => rfl

namespace CivilDay

variable {c : CivilDay}

def number (c : CivilDay) : Int :=
  dayNumber c.year c.month c.day

theorem number_next (c : CivilDay) : c.next.number = c.number + 1 := by
  have hm := c.month_pos
  have hm' := c.month_le
  cases Nat.lt_or_eq_of_le c.day_le
  case inl hl =>
    have ⟨hy, hm, hd⟩ := next_of_lt hl
    rw [number, hy, hm, hd, number, dayNumber, dayNumber]
    omega
  case inr he =>
    rw [next_of_eq he, followingMonth, number]
    split
    case isTrue h =>
      simp only [number, dayNumber, first, he, daysBeforeMonth_succ hm]
      omega
    case isFalse h =>
      have hm : c.month = 12 := by omega
      simp only [number, dayNumber, first, daysBeforeYear_succ c.year, he, hm]
      simp only [daysBeforeMonth]
      omega

theorem number_prev (c : CivilDay) : c.prev.number = c.number - 1 := by
  have h := number_next c.prev
  rw [next_prev] at h
  omega

end CivilDay

open CivilDay

def epoch : CivilDay :=
  first 1970 1 (by decide) (by decide)

def civil : Int → CivilDay
  | .ofNat n   => next^[n] epoch
  | .negSucc n => prev^[n + 1] epoch

theorem civil_add_one (n : Int) : civil (n + 1) = (civil n).next := by
  cases n
  case ofNat n => exact Function.iterate_succ_apply' next n epoch
  case negSucc n =>
    have hn : civil (.negSucc n + 1) = prev^[n] epoch := by
      cases n <;> rfl
    rw [hn, civil, Function.iterate_succ_apply', next_prev]

theorem civil_sub_one (n : Int) : civil (n - 1) = (civil n).prev := by
  have h := civil_add_one (n - 1)
  rw [Int.sub_add_cancel] at h
  rw [h, prev_next]

theorem number_civil (n : Int) : (civil n).number = n := by
  induction n using Int.induction_on
  case zero => rfl
  case succ n hi => rw [civil_add_one, number_next, hi]
  case pred n hi => rw [civil_sub_one, number_prev, hi]

theorem civil_injective : Function.Injective civil :=
  fun m n h => number_civil m ▸ number_civil n ▸ congrArg number h

theorem daysBeforeMonth_add_le {year : Int} {month : Nat} (h : month ≤ 12) :
    daysBeforeMonth year month + monthLength year month ≤ daysBeforeMonth year 12 + monthLength year 12 := by
  by_cases hl : IsLeap year <;> interval_cases month <;> simp [daysBeforeMonth, monthLength, hl]

theorem eq_epoch (c : CivilDay) (h : c.number = 0) : c = epoch := by
  obtain ⟨year, month, day, hm, hm', hd, hd'⟩ := c
  have hy : year = 1970 := by
    have hb := @daysBeforeMonth_add_le year month hm'
    have hs := daysBeforeYear_succ year
    simp only [number, dayNumber, daysBeforeYear] at h hs
    omega
  subst hy
  have hn : daysBeforeMonth 1970 month + day = 1 := by
    simp only [number, dayNumber, daysBeforeYear] at h
    omega
  have hm : month = 1 := by
    interval_cases month <;> first | rfl | (simp [daysBeforeMonth, monthLength, IsLeap] at hn; omega)
  subst hm
  ext
  case year  => rfl
  case month => rfl
  case day   => exact day.zero_add.symm.trans hn

theorem civil_number (c : CivilDay) : civil c.number = c := by
  suffices h : ∀ n (c : CivilDay), c.number = n → c = civil n from h _ c rfl |>.symm
  intro n
  induction n using Int.induction_on
  case zero => exact eq_epoch
  case succ n hi =>
    intro c h
    rw [civil_add_one, ← hi c.prev <| by rw [number_prev, h, Int.add_sub_cancel], next_prev]
  case pred n hi =>
    intro c h
    rw [civil_sub_one, ← hi c.next <| by rw [number_next, h, Int.sub_add_cancel], prev_next]

theorem eq_of_civil_day_eq {m n : Int} (h₁ : m ≤ n + 1) (h₂ : n ≤ m + 1) (hd : (civil m).day = (civil n).day) :
    m = n := by
  by_contra hn
  have h : m = n + 1 ∨ n = m + 1 := by omega
  cases h
  case inl h =>
    rw [h, civil_add_one] at hd
    exact (civil n).next_day_ne hd
  case inr h =>
    rw [h, civil_add_one] at hd
    exact (civil m).next_day_ne hd.symm

theorem civil_add {n : Int} {k : Nat} (h : (civil n).day + k ≤ monthLength (civil n).year (civil n).month) :
    (civil (n + k)).year = (civil n).year ∧ (civil (n + k)).month = (civil n).month ∧
      (civil (n + k)).day = (civil n).day + k := by
  induction k
  case zero => simp
  case succ k hi =>
    have ⟨hy, hm, hd⟩ := hi <| by omega
    have ⟨hy', hm', hd'⟩ := next_of_lt (c := civil (n + k)) <| by rw [hy, hm, hd]; omega
    rw [Int.natCast_succ, ← Int.add_assoc, civil_add_one, hy', hm', hd', hy, hm, hd]
    exact ⟨rfl, rfl, rfl⟩

theorem civil_sub {n : Int} {k : Nat} (h : k < (civil n).day) :
    (civil (n - k)).year = (civil n).year ∧ (civil (n - k)).month = (civil n).month ∧
      (civil (n - k)).day = (civil n).day - k := by
  induction k
  case zero => simp
  case succ k hi =>
    have ⟨hy, hm, hd⟩ := hi <| by omega
    have ⟨hy', hm', hd'⟩ := prev_of_lt (c := civil (n - k)) <| by rw [hd]; omega
    rw [Int.natCast_succ, ← Int.sub_sub, civil_sub_one, hy', hm', hd', hy, hm, hd]
    exact ⟨rfl, rfl, by omega⟩

theorem civil_withDay {n : Int} {day : Nat} (h₁ : 1 ≤ day) (h₂ : day ≤ monthLength (civil n).year (civil n).month) :
    (civil (n + (day - (civil n).day))).year = (civil n).year ∧
      (civil (n + (day - (civil n).day))).month = (civil n).month ∧ (civil (n + (day - (civil n).day))).day = day := by
  cases Nat.le_total (civil n).day day
  case inl h =>
    have ⟨k, hk⟩ := Nat.exists_eq_add_of_le h
    have hn : n + (day - (civil n).day) = n + k := by omega
    rw [hn, hk]
    exact civil_add <| hk ▸ h₂
  case inr h =>
    have ⟨k, hk⟩ := Nat.exists_eq_add_of_le h
    have hn : n + (day - (civil n).day) = n - k := by omega
    have ⟨hy, hm, hd⟩ := civil_sub (n := n) (k := k) <| by omega
    rw [hn]
    exact ⟨hy, hm, by rw [hd, hk, Nat.add_sub_cancel]⟩

theorem civil_next_monthLength (n : Int) :
    (civil (n + (monthLength (civil n).year (civil n).month - (civil n).day))).next = (civil n).followingMonth := by
  have h := @monthLength_bounds (civil n).year (civil n).month
  have ⟨hy, hm, hd⟩ := civil_withDay (n := n) (by omega) le_rfl
  rw [next_of_eq <| by rw [hd, hy, hm], followingMonth_congr hy hm]

end Gregorian
