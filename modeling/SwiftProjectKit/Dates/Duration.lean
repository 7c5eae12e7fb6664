import SwiftProjectKit.Primitives.Binary64
import SwiftProjectKit.Primitives.Format

namespace Dates

open Format (zeroPadded)
open Binary64 (ofRat)

def truncatingRemainder (x y : Rat) : Rat :=
  x - y * (if 0 ≤ x / y then ⌊x / y⌋ else ⌈x / y⌉)

-- The result is `none` if the number is too large for its parts to be integers.
def videoShowStr (secounds : Binary64) : Option (List Char) :=
  if secounds = .nan then
    "00:00".toList
  else do
    let secounds ← secounds.value
    let min ← ofRat (secounds / 60) |>.toInt64
    let sec ← ofRat (truncatingRemainder secounds 60) |>.toInt64
    if min ≥ 60 then
      let hour := min.tdiv 60
      let min := min - hour * 60
      return zeroPadded 2 hour ++ ':' :: zeroPadded 2 min ++ ':' :: zeroPadded 2 sec
    else
      return "00:".toList ++ zeroPadded 2 min ++ ':' :: zeroPadded 2 sec

end Dates
