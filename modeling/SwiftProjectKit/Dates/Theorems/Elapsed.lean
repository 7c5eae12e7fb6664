import Mathlib.Tactic.Linarith
import Mathlib.Tactic.NormNum
import SwiftProjectKit.Dates.Elapsed

namespace Dates

variable {x y z timeInterval timeInterval' : Rat} {unit unit' : TimeUnit}

theorem quotient_mono (hz : 0 < z) (h : x ≤ y) : quotient x z ≤ quotient y z :=
  Nearest.isNearest.mono <| div_le_div_of_nonneg_right h hz.le

theorem le_quotient (hy : y ∈ Double) (hz : 0 < z) (h : y * z ≤ x) : y ≤ quotient x z :=
  Nearest.isNearest.le_of_ge hy <| (le_div_iff₀ hz).mpr h

theorem quotient_le (hy : y ∈ Double) (hz : 0 < z) (h : x ≤ y * z) : quotient x z ≤ y :=
  Nearest.isNearest.le_of_le hy <| (div_le_iff₀ hz).mpr h

theorem natCast_mem {n : Nat} (h : n ≤ 2 ^ 53) : (n : Rat) ∈ Double :=
  ⟨n, 0, by decide, by simpa using mod_cast h, by simp⟩

theorem one_le_quotient (hz : 0 < z) (h : z ≤ x) : 1 ≤ quotient x z :=
  le_quotient (natCast_mem (n := 1) <| by decide) hz <| by linarith

namespace TimeUnit

def seconds : TimeUnit → Rat
  | minute => 60
  | hour   => 60 * 60
  | day    => 24 * 60 * 60
  | month  => 30 * 24 * 60 * 60
  | year   => 12 * 30 * 24 * 60 * 60

def limit : TimeUnit → Option Nat
  | minute => some 60
  | hour   => some 24
  | day    => some 30
  | month  => some 12
  | year   => none

def temp (timeInterval : Rat) : TimeUnit → Rat
  | hour => quotient (quotient timeInterval 60) 60
  | unit => quotient timeInterval unit.seconds

def IsBelow (unit : TimeUnit) (timeInterval : Rat) : Prop :=
  ∀ n ∈ unit.limit, unit.temp timeInterval < n

theorem seconds_pos : 0 < unit.seconds := by
  cases unit <;> norm_num [seconds]

theorem exists_limit (h : unit.seconds < unit'.seconds) : ∃ n ∈ unit.limit, n * unit.seconds ≤ unit'.seconds := by
  revert h
  cases unit <;> cases unit' <;> norm_num [seconds, limit]

theorem seconds_inj (h : unit.seconds = unit'.seconds) : unit = unit' := by
  revert h
  cases unit <;> cases unit' <;> norm_num [seconds]

theorem temp_mono (h : timeInterval ≤ timeInterval') : unit.temp timeInterval ≤ unit.temp timeInterval' := by
  cases unit
  case hour => exact quotient_mono rfl <| quotient_mono rfl h
  all_goals exact quotient_mono seconds_pos h

theorem IsBelow.mono (h : timeInterval ≤ timeInterval') (hb : unit.IsBelow timeInterval') :
    unit.IsBelow timeInterval :=
  fun n hn => (temp_mono h).trans_lt <| hb n hn

theorem le_temp {n : Nat} (hn : n ≤ 2 ^ 47) (h : n * unit.seconds ≤ timeInterval) : n ≤ unit.temp timeInterval := by
  have hm : (n : Rat) ∈ Double := natCast_mem <| hn.trans <| by decide
  cases unit
  case hour =>
    have hm' : ((n * 60 : Nat) : Rat) ∈ Double := natCast_mem <| by omega
    refine le_quotient hm rfl <| mod_cast le_quotient hm' rfl ?_
    norm_num [seconds] at h ⊢
    linarith
  all_goals exact le_quotient hm seconds_pos h

theorem temp_le {n : Nat} (hn : n ≤ 2 ^ 47) (h : timeInterval ≤ n * unit.seconds) : unit.temp timeInterval ≤ n := by
  have hm : (n : Rat) ∈ Double := natCast_mem <| hn.trans <| by decide
  cases unit
  case hour =>
    have hm' : ((n * 60 : Nat) : Rat) ∈ Double := natCast_mem <| by omega
    refine quotient_le hm rfl <| mod_cast quotient_le hm' rfl ?_
    norm_num [seconds] at h ⊢
    linarith
  all_goals exact quotient_le hm seconds_pos h

theorem isBelow_minute : minute.IsBelow timeInterval ↔ quotient timeInterval 60 < 60 := by
  simp [IsBelow, limit, temp, seconds]

theorem isBelow_hour : hour.IsBelow timeInterval ↔ quotient (quotient timeInterval 60) 60 < 24 := by
  simp [IsBelow, limit, temp]

theorem isBelow_day : day.IsBelow timeInterval ↔ quotient timeInterval (24 * 60 * 60) < 30 := by
  simp [IsBelow, limit, temp, seconds]

theorem isBelow_month : month.IsBelow timeInterval ↔ quotient timeInterval (30 * 24 * 60 * 60) < 12 := by
  simp [IsBelow, limit, temp, seconds]

theorem isBelow_year : year.IsBelow timeInterval := by
  simp [IsBelow, limit]

theorem mem_double {n e : Int} (he : -1074 ≤ e) (hn : |n| ≤ 2 ^ 53) : (n * 2 ^ e : Rat) ∈ Double :=
  ⟨n, e, he, hn, rfl⟩

-- As many hours as make up a day are not displayed as less than a day, although they are computed in two steps.
theorem one_le_day (ht : timeInterval ∈ Double) (h : ¬hour.IsBelow timeInterval) : 1 ≤ day.temp timeInterval := by
  refine one_le_quotient seconds_pos <| not_lt.mp fun hl => h <| isBelow_hour.mpr ?_
  have hp : timeInterval ≤ ((86400 * 2 ^ 36 : Int) - 1) * 2 ^ (-36 : Int) :=
    Nearest.le_of_lt ht (by norm_num) <| by norm_num [seconds] at hl ⊢; linarith
  have hm : quotient timeInterval 60 ≤ (1440 * 2 ^ 42 - 1 : Int) * 2 ^ (-42 : Int) :=
    quotient_le (mem_double (by decide) (by norm_num)) rfl <| by norm_num at hp ⊢; linarith
  have hh : quotient (quotient timeInterval 60) 60 ≤ (24 * 2 ^ 48 - 1 : Int) * 2 ^ (-48 : Int) :=
    quotient_le (mem_double (by decide) (by norm_num)) rfl <| by norm_num at hm ⊢; linarith
  norm_num at hh ⊢
  linarith

theorem one_le_month (ht : timeInterval ∈ Double) (h : ¬day.IsBelow timeInterval) : 1 ≤ month.temp timeInterval := by
  refine one_le_quotient seconds_pos <| not_lt.mp fun hl => h <| isBelow_day.mpr ?_
  have hp : timeInterval ≤ ((2592000 * 2 ^ 31 : Int) - 1) * 2 ^ (-31 : Int) :=
    Nearest.le_of_lt ht (by norm_num) <| by norm_num [seconds] at hl ⊢; linarith
  have hd : quotient timeInterval (24 * 60 * 60) ≤ (30 * 2 ^ 48 - 1 : Int) * 2 ^ (-48 : Int) :=
    quotient_le (mem_double (by decide) (by norm_num)) (by norm_num) <| by norm_num at hp ⊢; linarith
  norm_num at hd ⊢
  linarith

-- The months in the last time that is less than a year are no representable number, but nearer to the one below them
-- than to twelve.
theorem one_le_year (ht : timeInterval ∈ Double) (h : ¬month.IsBelow timeInterval) : 1 ≤ year.temp timeInterval := by
  refine one_le_quotient seconds_pos <| not_lt.mp fun hl => h <| isBelow_month.mpr ?_
  have hp : timeInterval ≤ ((31104000 * 2 ^ 28 : Int) - 1) * 2 ^ (-28 : Int) :=
    Nearest.le_of_lt ht (by norm_num) <| by norm_num [seconds] at hl ⊢; linarith
  have ha : ((12 * 2 ^ 49 - 1 : Int) * 2 ^ (-49 : Int) : Rat) ∈ Double := mem_double (by decide) (by norm_num)
  exact (quotient_mono (by norm_num) hp).trans_lt <| Nearest.isNearest.lt_of_near ha (by norm_num) (by norm_num)

end TimeUnit

open TimeUnit

-- The unit that is displayed is the smallest one of which there are not as many as make up the next one.
structure Elapses (timeInterval : Rat) (unit : TimeUnit) : Prop where
  isBelow : unit.IsBelow timeInterval
  least   : ∀ unit' : TimeUnit, unit'.seconds < unit.seconds → ¬unit'.IsBelow timeInterval
  minute  : 1 ≤ TimeUnit.minute.temp timeInterval

theorem elapsed_eq_some (h : elapsed timeInterval = some (unit, z)) :
    z = unit.temp timeInterval ∧ Elapses timeInterval unit := by
  rw [elapsed] at h
  split_ifs at h with h₁ h₂ h₃ h₄ h₅
  all_goals obtain ⟨rfl, rfl⟩ := Prod.mk.inj <| Option.some.inj h
  all_goals refine ⟨rfl, ?_, fun unit' => ?_, not_lt.mp h₁⟩
  -- Each comparison in front of a unit excludes a smaller one.
  all_goals try cases unit' <;> norm_num [seconds]
  all_goals simp only [isBelow_minute, isBelow_hour, isBelow_day, isBelow_month, isBelow_year]
  all_goals assumption

theorem elapsed_eq_none (h : elapsed timeInterval = none) : TimeUnit.minute.temp timeInterval < 1 := by
  rw [elapsed] at h
  split_ifs at h with h₁
  exact h₁

theorem Elapses.one_le_temp (ht : timeInterval ∈ Double) (h : Elapses timeInterval unit) :
    1 ≤ unit.temp timeInterval := by
  cases unit
  case minute => exact h.minute
  case hour   =>
    have hm := h.least .minute <| by norm_num [seconds]
    rw [isBelow_minute, not_lt] at hm
    exact one_le_quotient rfl hm
  case day    => exact one_le_day ht <| h.least .hour <| by norm_num [seconds]
  case month  => exact one_le_month ht <| h.least .day <| by norm_num [seconds]
  case year   => exact one_le_year ht <| h.least .month <| by norm_num [seconds]

def display : Option (TimeUnit × Int) → List Char
  | none           => "刚刚".toList
  | some (unit, n) => (toString n).toList ++ unit.text

def duration : Option (TimeUnit × Int) → Rat
  | none           => 0
  | some (unit, n) => n * unit.seconds

def IsDisplayed : Option (TimeUnit × Int) → Prop
  | none           => True
  | some (unit, n) => 1 ≤ n ∧ ∀ limit ∈ unit.limit, n < limit

def reading (timeInterval : Rat) : Option (TimeUnit × Int) :=
  (elapsed timeInterval).map fun (unit, temp) => (unit, ⌊temp⌋)

theorem reading_eq_some {n : Int} (h : reading timeInterval = some (unit, n)) :
    n = ⌊unit.temp timeInterval⌋ ∧ Elapses timeInterval unit := by
  have ⟨(unit', z), he, hr⟩ := Option.map_eq_some_iff.mp h
  obtain ⟨rfl, rfl⟩ := Prod.mk.inj hr
  have ⟨hz, he⟩ := elapsed_eq_some he
  exact ⟨hz ▸ rfl, he⟩

theorem isDisplayed_reading (ht : timeInterval ∈ Double) : IsDisplayed (reading timeInterval) := by
  cases hr : reading timeInterval
  case none => trivial
  case some r =>
    have ⟨hn, he⟩ := reading_eq_some hr
    rw [IsDisplayed, hn]
    exact ⟨Int.le_floor.mpr <| by exact_mod_cast he.one_le_temp ht,
      fun limit hl => Int.floor_lt.mpr <| by exact_mod_cast he.isBelow limit hl⟩

theorem Elapses.seconds_le (h : Elapses timeInterval unit) (h' : Elapses timeInterval' unit')
    (hl : timeInterval ≤ timeInterval') : unit.seconds ≤ unit'.seconds :=
  not_lt.mp fun hs => h.least unit' hs <| h'.isBelow.mono hl

theorem duration_nonneg {r : Option (TimeUnit × Int)} (hd : IsDisplayed r) : 0 ≤ duration r := by
  cases r
  case none => rfl
  case some r => exact mul_nonneg (by exact_mod_cast zero_le_one.trans hd.left) seconds_pos.le

theorem duration_le {n n' : Int} (hd : IsDisplayed (some (unit, n))) (hd' : IsDisplayed (some (unit', n')))
    (hs : unit.seconds < unit'.seconds) : duration (some (unit, n)) ≤ duration (some (unit', n')) := by
  have ⟨limit, hlimit, hs⟩ := exists_limit hs
  have hn : (n : Rat) ≤ limit := by exact_mod_cast (hd.right limit hlimit).le
  have hn' : (1 : Rat) ≤ n' := by exact_mod_cast hd'.left
  calc n * unit.seconds ≤ limit * unit.seconds := mul_le_mul_of_nonneg_right hn seconds_pos.le
    _ ≤ unit'.seconds := hs
    _ ≤ n' * unit'.seconds := le_mul_of_one_le_left seconds_pos.le hn'

theorem duration_mono (ht : timeInterval ∈ Double) (ht' : timeInterval' ∈ Double) (hl : timeInterval ≤ timeInterval') :
    duration (reading timeInterval) ≤ duration (reading timeInterval') := by
  have hd := isDisplayed_reading ht
  have hd' := isDisplayed_reading ht'
  cases hr : reading timeInterval
  case none => exact duration_nonneg hd'
  case some r =>
    have ⟨hn, he⟩ := reading_eq_some hr
    cases hr' : reading timeInterval'
    case none =>
      have hm := elapsed_eq_none <| Option.map_eq_none_iff.mp hr'
      exact absurd hm <| not_lt.mpr <| he.minute.trans <| temp_mono hl
    case some r' =>
      have ⟨hn', he'⟩ := reading_eq_some hr'
      rw [hr] at hd
      rw [hr'] at hd'
      rcases (he.seconds_le he' hl).lt_or_eq with hs | hs
      · exact duration_le hd hd' hs
      · have hu := seconds_inj hs
        have hf : r.2 ≤ r'.2 := hn ▸ hn' ▸ Int.floor_mono (hu ▸ temp_mono hl)
        rw [duration, duration, ← hu]
        exact mul_le_mul_of_nonneg_right (by exact_mod_cast hf) seconds_pos.le

theorem Elapses.temp_lt (h : Elapses timeInterval unit) (hm : timeInterval < 2 ^ 63) :
    unit.temp timeInterval < 2 ^ 46 := by
  cases unit
  case year =>
    have hl : timeInterval ≤ (2 ^ 40 : Nat) * TimeUnit.year.seconds := hm.le.trans <| by norm_num [seconds]
    exact (temp_le (by decide) hl).trans_lt <| by norm_num
  all_goals exact (h.isBelow _ rfl).trans <| by norm_num

structure Displays (timeInterval : Rat) (r : Option (TimeUnit × Int)) : Prop where
  text        : compareCurrentTime timeInterval = some (display r)
  isDisplayed : IsDisplayed r
  recent      : r = none → timeInterval < 60
  near        : ∀ unit n, r = some (unit, n) → |timeInterval - n * unit.seconds| < unit.seconds

theorem Elapses.abs_sub_lt (ht : timeInterval ∈ Double) (h : Elapses timeInterval unit) (hm : timeInterval < 2 ^ 63) :
    |timeInterval - ⌊unit.temp timeInterval⌋ * unit.seconds| < unit.seconds := by
  have ⟨k, hk⟩ : ∃ k : Nat, ⌊unit.temp timeInterval⌋ = k + 1 := by
    have h₁ : 1 ≤ ⌊unit.temp timeInterval⌋ := Int.le_floor.mpr <| by exact_mod_cast h.one_le_temp ht
    exact ⟨⌊unit.temp timeInterval⌋.toNat - 1, by omega⟩
  have ⟨hk₁, hk₂⟩ := Int.floor_eq_iff.mp hk
  push_cast at hk₁ hk₂
  have hb : k + 2 ≤ 2 ^ 47 := by
    have hl := hk₁.trans_lt <| h.temp_lt hm
    have hl : k + 1 < 2 ^ 46 := by exact_mod_cast hl
    omega
  rw [hk, abs_lt]
  constructor
  · by_contra hl
    have hl := temp_le (by omega) (show timeInterval ≤ k * unit.seconds by push_cast at hl; linarith)
    linarith
  · by_contra hl
    have hl := le_temp hb (show (k + 2 : Nat) * unit.seconds ≤ timeInterval by push_cast at hl ⊢; linarith)
    push_cast at hl
    linarith

theorem displays_reading (ht : timeInterval ∈ Double) (hm : timeInterval < 2 ^ 63) :
    Displays timeInterval (reading timeInterval) where
  text := by
    cases he : elapsed timeInterval
    case none => rw [compareCurrentTime, reading, he]; rfl
    case some r =>
      have ⟨hz, h⟩ := elapsed_eq_some he
      have h₀ : 0 ≤ r.2 := hz ▸ zero_le_one.trans (h.one_le_temp ht)
      have h₁ : r.2 < 2 ^ 63 := hz ▸ (h.temp_lt hm).trans (by norm_num)
      rw [compareCurrentTime, reading, he]
      exact congrArg (Option.map _) <| Binary64.toInt64_ofRat h₀ h₁
  isDisplayed := isDisplayed_reading ht
  recent hr := by
    have hn := elapsed_eq_none <| Option.map_eq_none_iff.mp hr
    exact not_le.mp fun hl => absurd hn <| not_lt.mpr <| one_le_quotient seconds_pos hl
  near unit n hr := by
    have ⟨hn, h⟩ := reading_eq_some hr
    exact hn ▸ h.abs_sub_lt ht hm

-- Dates are displayed with less of a unit than make up the next one and never with none of it, and the one that is
-- farther back is not displayed as the more recent one, whatever is rounded when the numbers are computed.
theorem compareCurrentTime_displays (ht : timeInterval ∈ Double) (ht' : timeInterval' ∈ Double)
    (hl : timeInterval ≤ timeInterval') (hm : timeInterval' < 2 ^ 63) :
    ∃ r r', Displays timeInterval r ∧ Displays timeInterval' r' ∧ duration r ≤ duration r' :=
  ⟨_, _, displays_reading ht (hl.trans_lt hm), displays_reading ht' hm, duration_mono ht ht' hl⟩

theorem compareCurrentTime_displays_day :
    ∃ r r', Displays ((86400 * 2 ^ 36 - 1 : Int) * 2 ^ (-36 : Int)) r ∧ Displays ((86400 : Int) * 2 ^ (0 : Int)) r' ∧
      duration r ≤ duration r' :=
  compareCurrentTime_displays (mem_double (by decide) (by norm_num)) (mem_double (by decide) (by norm_num))
    (by norm_num) (by norm_num)

end Dates
