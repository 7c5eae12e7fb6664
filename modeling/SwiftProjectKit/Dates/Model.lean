import Mathlib.Data.Rat.Floor
import SwiftProjectKit.Primitives.Gregorian

namespace Dates

open Gregorian

structure DateComponents where
  era    : Int
  year   : Int
  month  : Int
  day    : Int
  hour   : Int
  minute : Int
  second : Int
deriving DecidableEq

structure Time where
  hour   : Int
  minute : Int
  second : Int
deriving DecidableEq

-- The components of an instant. Years in front of the year 1 are counted backwards in an era of their own.
def components (c : CivilDay) (time : Time) : DateComponents where
  era    := if 0 < c.year then 1 else 0
  year   := if 0 < c.year then c.year else 1 - c.year
  month  := c.month
  day    := c.day
  hour   := time.hour
  minute := time.minute
  second := time.second

def yearOf (era year : Int) : Int :=
  if era = 1 then year else 1 - year

theorem yearOf_components (c : CivilDay) (time : Time) :
    yearOf (components c time).era (components c time).year = c.year := by
  simp only [yearOf, components]
  split <;> simp

-- The current calendar is Gregorian. It tells the day and the time of an instant, and finds the instant of given
-- components, where a day that is out of range is carried over into another month.
class Calendar (Date : Type*) where
  dayNumber : Date → Int
  time      : Date → Time
  date      : DateComponents → Option Date
  carries   : ∀ (self : Date) (day : Int), 1 ≤ day → day ≤ 31 → ∃ date',
    date { components (civil <| dayNumber self) (time self) with day := day } = some date' ∧
    dayNumber date' = dayNumber self + (day - (civil <| dayNumber self).day)

section

variable {Date : Type*} [Calendar Date]

def dateComponents (self : Date) : DateComponents :=
  components (civil <| Calendar.dayNumber self) (Calendar.time self)

def year (self : Date) : Int :=
  (dateComponents self).year

def month (self : Date) : Int :=
  (dateComponents self).month

def day (self : Date) : Int :=
  (dateComponents self).day

def isLeapYear (self : Date) : Bool :=
  let year := year self
  year % 400 = 0 || year % 100 = 0 || year % 4 = 0

def monthTotalDays (self : Date) : Int :=
  match month self with
  | 1 | 3 | 5 | 7 | 8 | 10 | 12 => 31
  | 2                           => if isLeapYear self then 29 else 28
  | _                           => 30

-- The result is `none` if there is no such date, whose value is taken.
def monthFirstDay (self : Date) : Option Date :=
  Calendar.date { dateComponents self with day := 1 }

def monthLastDay (self : Date) : Option Date :=
  Calendar.date { dateComponents self with day := monthTotalDays self }

end

-- Instants are given by the seconds since the beginning of 1970. The time at a fixed offset is derived from whole
-- seconds.
namespace Instant

variable (offset : Rat)

def dayNumber (self : Rat) : Int :=
  ⌊self + offset⌋ / 86400

def time (self : Rat) : Time where
  hour   := ⌊self + offset⌋ % 86400 / 3600
  minute := ⌊self + offset⌋ % 3600 / 60
  second := ⌊self + offset⌋ % 60

def date (components : DateComponents) : Rat :=
  let year := yearOf components.era components.year
  let day := Gregorian.dayNumber year components.month.toNat components.day
  (day * 86400 + components.hour * 3600 + components.minute * 60 + components.second : Int) - offset

theorem dayNumber_date {c : CivilDay} {self : Rat} {day : Int} :
    dayNumber offset (date offset { components c (time offset self) with day := day }) =
      Gregorian.dayNumber c.year c.month day := by
  rw [dayNumber, date, sub_add_cancel, Int.floor_intCast, yearOf_components]
  simp only [components, Int.toNat_natCast, time]
  omega

theorem dayNumber_date_add (self : Rat) (day : Int) :
    dayNumber offset (date offset { components (civil <| dayNumber offset self) (time offset self) with day := day }) =
      dayNumber offset self + (day - (civil <| dayNumber offset self).day) := by
  have hn := number_civil <| dayNumber offset self
  rw [dayNumber_date]
  rw [CivilDay.number] at hn
  simp only [Gregorian.dayNumber] at *
  omega

@[reducible]
def calendar : Calendar Rat where
  dayNumber            := dayNumber offset
  time                 := time offset
  date                 := some ∘ date offset
  carries self day _ _ := ⟨_, rfl, dayNumber_date_add offset self day⟩

end Instant

def isToday [Calendar Rat] (now self : Rat) : Bool :=
  let time := |self - now|
  if time ≥ 86400 then
    false
  else
    day now == day self

end Dates
