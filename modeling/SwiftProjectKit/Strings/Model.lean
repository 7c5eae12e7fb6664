import SwiftProjectKit.Primitives.Numeral
import SwiftProjectKit.Search.Model

namespace Strings

open RichText Search

-- The digits are single characters, so that texts of numbers are lists of them.
def clearRedundantZero (self : List Char) : List Char :=
  let array := self.splitOn '.'
  if array.length > 1 then
    let str := array.getLastD [] |>.rdropWhile (· = '0')
    array.headD [] ++ '.' :: str
  else
    self

def clearFristRedundantZero (self : List Char) : List Char :=
  let array := self.splitOn '.'
  let str := array.headD [] |>.dropWhile (· = '0')
  if array.length > 1 then
    let str := if str = [] then ['0'] else str
    str ++ '.' :: array.getLastD []
  else
    str

variable [Characters]

open Characters

def hasPrefix (string start : String) : Bool :=
  characters start |>.isPrefixOf <| characters string

def removePrefixSpace : (fuel : Nat) → (temp : String) → Option String
  | 0,        _    => none
  | fuel + 1, temp =>
    if hasPrefix temp " " then
      -- The string becomes the character that is removed, rather than what is left without it.
      characters temp |>.head?.bind fun first => removePrefixSpace fuel first
    else
      some temp

def ofCharacters (characters : List String) : String :=
  .ofList <| characters.flatMap String.toList

-- The result is `none` if an index is out of bounds, and `nil` is returned for a range that ends there.
def substring (string : String) (range : NSRange) : Option (Option String) :=
  if range.maxLength > count string then
    some none
  else if 0 ≤ range.location ∧ range.location ≤ range.maxLength then
    let chars := characters string |>.take range.maxLength.toNat |>.drop range.location.toNat
    some <| ofCharacters chars
  else
    none

def utf16Offset : List Char → Nat → Option Nat
  | _,       0 => some 0
  | [],      _ => none
  | c :: cs, i =>
    if c.utf8Size ≤ i then (utf16Offset cs <| i - c.utf8Size).map (· + (NSString.encode c).length) else none

structure IndexRange where
  lowerBound : Nat
  upperBound : Nat
  le         : lowerBound ≤ upperBound

def rangeFrom (string : String) (range : IndexRange) : Option NSRange := do
  let lower ← utf16Offset string.toList range.lowerBound
  let upper ← utf16Offset string.toList range.upperBound
  return ⟨lower, upper - lower⟩

end Strings
