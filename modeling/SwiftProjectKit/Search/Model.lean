import SwiftProjectKit.RichText.NSString

namespace Search

open RichText

-- `NSString.range(of:range:)` finds the first literal match in a range. Nothing is found for an empty string.
def range (string searchString : NSString) (range : NSRange) : Option (Option NSRange) :=
  if !range.IsWithin string.length then
    none
  else if searchString.isEmpty then
    some none
  else
    let count := range.length.toNat + 1 - searchString.length
    let location := (List.range' range.location.toNat count).find? fun i => searchString.isPrefixOf <| string.drop i
    some <| location.map fun i => ⟨i, searchString.length⟩

def rangesFrom (tempStr str : NSString) : Nat → Option NSRange → List NSRange → Option (List NSRange)
  | 0,        _,          _      => none
  | _ + 1,    none,       ranges => some ranges
  | fuel + 1, some found, ranges =>
    let loc := found.location + found.length
    let searchRange := ⟨loc, tempStr.length - loc⟩
    range tempStr str searchRange |>.bind fun next => rangesFrom tempStr str fuel next <| ranges ++ [found]

def ranges (fuel : Nat) (string str : String) : Option (List NSRange) :=
  let tempStr := NSString.ofString string
  let str := NSString.ofString str
  range tempStr str ⟨0, tempStr.length⟩ |>.bind fun found => rangesFrom tempStr str fuel found []

-- The division of strings into characters, each of which consists of one or more code points.
class Characters where
  characters : String → List String
  flatMap    : ∀ string, (characters string).flatMap String.toList = string.toList
  nonempty   : ∀ string, "" ∉ characters string

def count [Characters] (string : String) : Nat :=
  (Characters.characters string).length

-- The length of the match that a valid pattern has at a location, where the match is confined to a range. No
-- match starts within a surrogate pair.
class NSRegularExpression where
  isValid    : String → Bool
  matchAt    : String → NSString → NSRange → Nat → Option Nat
  matchAt_le : ∀ pattern string range location length,
    matchAt pattern string range location = some length → location + length ≤ range.maxLength

-- Each match is searched for behind the previous one, and a character behind it if that one is empty.
def enumerateMatches [NSRegularExpression] (pattern : String) (string : NSString) (range : NSRange) :
    Option (List NSRange) :=
  if range.IsWithin string.length then
    some <| search range.location.toNat 0 (range.length.toNat + 1)
  else
    none
where
  search (location skip : Nat) : Nat → List NSRange
    | 0             => []
    | remaining + 1 => match skip with
      | skip + 1 => search (location + 1) skip remaining
      | 0        => match NSRegularExpression.matchAt pattern string range location with
        | none        => search (location + 1) 0 remaining
        | some length => ⟨location, length⟩ :: search (location + 1) (length - 1) remaining

variable [Characters] [NSRegularExpression]

-- The result is `nil` for an empty string. No match is found if the pattern is invalid.
def rangeOfString (string searchString : String) : Option (Option (List NSRange)) :=
  if count searchString = 0 then
    some none
  else if NSRegularExpression.isValid searchString then
    enumerateMatches searchString (.ofString string) ⟨0, count string⟩ |>.map some
  else
    some <| some []

end Search
