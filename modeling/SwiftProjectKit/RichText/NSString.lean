import Mathlib.Tactic.Common

namespace RichText

-- Foundation's strings are sequences of UTF-16 code units.
abbrev unichar := UInt16

abbrev NSString := List unichar

structure NSRange where
  location : Int
  length   : Int
deriving DecidableEq

namespace NSRange

def maxLength (range : NSRange) : Int :=
  range.location + range.length

-- Foundation raises an exception for ranges that are not within the bounds of a text.
def IsWithin (range : NSRange) (count : Nat) : Prop :=
  0 ≤ range.location ∧ 0 ≤ range.length ∧ range.maxLength ≤ count

instance {range : NSRange} {count : Nat} : Decidable (range.IsWithin count) :=
  inferInstanceAs <| Decidable (_ ∧ _ ∧ _)

variable {α : Type*}

def substring (range : NSRange) (text : List α) : Option (List α) :=
  if range.IsWithin text.length then
    some <| text.drop range.location.toNat |>.take range.length.toNat
  else
    none

def replace (range : NSRange) (text new : List α) : Option (List α) :=
  if range.IsWithin text.length then
    some <| text.take range.location.toNat ++ new ++ text.drop range.maxLength.toNat
  else
    none

-- The ranges of segments that follow each other from a location on.
def consecutive (location : Int) : List (List α) → List NSRange
  | []          => []
  | seg :: segs => ⟨location, seg.length⟩ :: consecutive (location + seg.length) segs

end NSRange

namespace NSString

def tab    : unichar := 0x09
def dot    : unichar := 0x2E
def bullet : unichar := 0x2022

def encode (c : Char) : List unichar :=
  if c.toNat < 0x10000 then
    [c.toNat.toUInt16]
  else
    let n := c.toNat - 0x10000
    [(0xD800 + n / 0x400).toUInt16, (0xDC00 + n % 0x400).toUInt16]

def ofString (string : String) : NSString :=
  string.toList.flatMap encode

def isParagraphSeparator (c : unichar) : Bool :=
  c == 0x0A || c == 0x0D || c == 0x2029

-- Whether a paragraph goes on from one character to the next. A carriage return and the line feed
-- after it are a single separator.
def continues (c d : unichar) : Bool :=
  !isParagraphSeparator c || (c == 0x0D && d == 0x0A)

def isParagraphStart (string : NSString) : Nat → Bool
  | 0     => true
  | i + 1 => match string[i]?, string[i + 1]? with
    | some c, some d => !continues c d
    | some c, none   => isParagraphSeparator c
    | none,   _      => false

def paragraphStart (string : NSString) : Nat → Nat
  | 0     => 0
  | i + 1 => if string.isParagraphStart (i + 1) then i + 1 else string.paragraphStart i

def paragraphEnd (string : NSString) (i : Nat) : Nat :=
  (List.range' (i + 1) (string.length - i)).find? string.isParagraphStart |>.getD string.length

-- The start of the first and the end of the last paragraph of a range. An empty range stands for
-- the character that follows it.
def getParagraphStart (string : NSString) (range : NSRange) : Option (Nat × Nat) :=
  if range.IsWithin string.length then
    let last := if range.length = 0 then range.location else range.maxLength - 1
    some (string.paragraphStart range.location.toNat, string.paragraphEnd last.toNat)
  else
    none

def isDigit (c : unichar) : Bool :=
  0x30 ≤ c && c ≤ 0x39

-- The length of the match of `\t[0-9]+\.\t|\t•\t` with which a string starts.
def tabPattern : NSString → Option Nat
  | []           => none
  | c :: string =>
    let digits := string.takeWhile isDigit
    if c != tab then
      none
    else if !digits.isEmpty && (string.drop digits.length).take 2 == [dot, tab] then
      some (digits.length + 3)
    else if string.take 2 == [bullet, tab] then
      some 3
    else
      none

def rangesWith (pattern : NSString → Option Nat) (string : NSString) : List NSRange :=
  search 0 0 string
where
  search (location skip : Nat) : NSString → List NSRange
    | []          => []
    | c :: string => match skip with
      | skip + 1 => search (location + 1) skip string
      | 0        => match pattern (c :: string) with
        | none        => search (location + 1) 0 string
        | some length => ⟨location, length⟩ :: search (location + 1) (length - 1) string

end NSString
end RichText
