import Mathlib.Data.Int.Bitwise
import SwiftProjectKit.Primitives.Hexadecimal
import SwiftProjectKit.Strings.Model

namespace Colors

open RichText Search Strings

-- The members of `CharacterSet.whitespacesAndNewlines`: separators, the tab, and what ends a line.
def isWhitespaceOrNewline (c : Char) : Bool :=
  let n := c.toNat
  (0x09 ≤ n && n ≤ 0x0D) || n == 0x20 || n == 0x85 || n == 0xA0 || n == 0x1680 || (0x2000 ≤ n && n ≤ 0x200A) ||
    n == 0x2028 || n == 0x2029 || n == 0x202F || n == 0x205F || n == 0x3000

def trimmingCharacters (string : String) : String :=
  .ofList <| string.toList.dropWhile isWhitespaceOrNewline |>.rdropWhile isWhitespaceOrNewline

-- The longest sequence of digits from a location on is read. Numbers that are too large become the largest one.
def scanHexInt32 (string : NSString) (scanLocation : Nat) : UInt32 :=
  let digits := string.drop scanLocation |>.map (Char.ofNat ·.toNat) |>.takeWhile Hexadecimal.isDigit
  .ofNat <| min (Hexadecimal.number digits) (2 ^ 32 - 1)

structure UIColor where
  red   : Rat
  green : Rat
  blue  : Rat
  alpha : Rat
deriving DecidableEq

namespace UIColor

def black : UIColor :=
  ⟨0, 0, 0, 1⟩

def ofBytes (r g b : UInt32) : UIColor :=
  ⟨r.toNat / 255, g.toNat / 255, b.toNat / 255, 1⟩

def RGB16 (code : Int) (alpha : Rat) : UIColor where
  red   := (code.land 0xFF0000 >>> 16 : Int) / 255
  green := (code.land 0xFF00 >>> 8 : Int) / 255
  blue  := code.land 0xFF / 255
  alpha := alpha

variable [Characters]

open Characters

def ofHex (hex : String) (alpha : Rat) : UIColor :=
  let hexString := trimmingCharacters hex
  let scanLocation := if hasPrefix hexString "#" then 1 else 0
  let color := scanHexInt32 (.ofString hexString) scanLocation
  let mask : Int := 0x000000FF
  let r := Int.land (color >>> 16).toNat mask
  let g := Int.land (color >>> 8).toNat mask
  let b := Int.land color.toNat mask
  ⟨r / 255, g / 255, b / 255, alpha⟩

def hex (hexString : String) : Option UIColor :=
  let cString := trimmingCharacters hexString
  if count cString < 6 then
    some black
  else
    let subString := ofCharacters <| (characters cString).drop (count cString - 6)
    let cString := if hasPrefix cString "0X" then subString else cString
    let cString := if hasPrefix cString "#" then subString else cString
    if count cString ≠ 6 then
      some black
    else do
      let rString ← NSRange.substring ⟨0, 2⟩ <| NSString.ofString cString
      let gString ← NSRange.substring ⟨2, 2⟩ <| NSString.ofString cString
      let bString ← NSRange.substring ⟨4, 2⟩ <| NSString.ofString cString
      return ofBytes (scanHexInt32 rString 0) (scanHexInt32 gString 0) (scanHexInt32 bString 0)

end UIColor
end Colors
