import SwiftProjectKit.Primitives.Binary64
import SwiftProjectKit.Primitives.Nearest

namespace Dates

open Binary64 (ofRat)

-- The numbers with a representation in 64 bits, as far as they are finite, and the nearest one of them.
abbrev Double : Set Rat :=
  Nearest.Representable 52 (-1074)

def quotient (x y : Rat) : Rat :=
  Nearest.round 52 (-1074) (x / y)

inductive TimeUnit
  | minute
  | hour
  | day
  | month
  | year
deriving DecidableEq

def TimeUnit.text : TimeUnit → List Char
  | minute => "分钟前".toList
  | hour   => "小时前".toList
  | day    => "天前".toList
  | month  => "个月前".toList
  | year   => "年前".toList

def elapsed (timeInterval : Rat) : Option (TimeUnit × Rat) :=
  if quotient timeInterval 60 < 1 then
    none
  else if quotient timeInterval 60 < 60 then
    some (.minute, quotient timeInterval 60)
  else if quotient (quotient timeInterval 60) 60 < 24 then
    some (.hour, quotient (quotient timeInterval 60) 60)
  else if quotient timeInterval (24 * 60 * 60) < 30 then
    some (.day, quotient timeInterval (24 * 60 * 60))
  else if quotient timeInterval (30 * 24 * 60 * 60) < 12 then
    some (.month, quotient timeInterval (30 * 24 * 60 * 60))
  else
    some (.year, quotient timeInterval (12 * 30 * 24 * 60 * 60))

def compareCurrentTime (timeInterval : Rat) : Option (List Char) :=
  match elapsed timeInterval with
  | none              => some "刚刚".toList
  | some (unit, temp) => (ofRat temp).toInt64.map fun n => (toString n).toList ++ unit.text

end Dates
