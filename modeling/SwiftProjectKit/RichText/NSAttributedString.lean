import SwiftProjectKit.RichText.NSString
import SwiftProjectKit.RichText.Style

namespace RichText

-- Attachments are told apart by the order in which they were created.
structure NSTextAttachment where
  number : Nat
deriving DecidableEq

inductive Key
  | paragraphStyle
  | link
  | attachment
  | backgroundColor
  | baselineOffset
  | strokeWidth
  | strokeColor
  | shadow
  | expansion
  | underlineStyle
  | underlineColor
  | strikethroughStyle
  | strikethroughColor
  | kern
  | tabStyle
  | originfontName
  | other (rawValue : String)
deriving DecidableEq

-- The values that the editor casts to a type, and the ones that it only passes on.
inductive Value
  | paragraphStyle (p : NSParagraphStyle)
  | tabStyle (style : RZTextTabStyle)
  | attachment (attach : NSTextAttachment)
  | int (n : Int)
  | other (description : String)
deriving DecidableEq

def Value.asParagraphStyle : Value → Option NSParagraphStyle
  | .paragraphStyle p => p
  | _                 => none

abbrev Attributes := Key → Option Value

namespace Attributes

def paragraphStyle (attributes : Attributes) : Option NSParagraphStyle :=
  attributes .paragraphStyle |>.bind Value.asParagraphStyle

def set (attributes : Attributes) (key : Key) (value : Option Value) : Attributes :=
  Function.update attributes key value

def add (attributes new : Attributes) : Attributes :=
  fun key => new key <|> attributes key

variable [ParagraphStyles]

def tabStyle (attributes : Attributes) : RZTextTabStyle :=
  match attributes.paragraphStyle with
  | some p => p.tabStyle
  | none   => .none

end Attributes

structure Character where
  char       : unichar
  attributes : Attributes

abbrev NSAttributedString := List Character

namespace NSAttributedString

def string (text : NSAttributedString) : NSString :=
  text.map Character.char

def ofString (string : NSString) (attributes : Attributes) : NSAttributedString :=
  string.map fun char => { char, attributes }

def whole (text : NSAttributedString) : NSRange :=
  ⟨0, text.length⟩

def attributes (text : NSAttributedString) (location : Int) : Option Attributes :=
  if 0 ≤ location then text[location.toNat]?.map Character.attributes else none

def attributedSubstring (text : NSAttributedString) (range : NSRange) : Option NSAttributedString :=
  range.substring text

def replaceCharacters (text : NSAttributedString) (range : NSRange) (new : NSAttributedString) :
    Option NSAttributedString :=
  range.replace text new

def insert (text new : NSAttributedString) (location : Int) : Option NSAttributedString :=
  text.replaceCharacters ⟨location, 0⟩ new

def mapAttributes (text : NSAttributedString) (f : Attributes → Attributes) : NSAttributedString :=
  text.map fun c => { c with attributes := f c.attributes }

def updateAttributes (text : NSAttributedString) (range : NSRange) (f : Attributes → Attributes) :
    Option NSAttributedString := do
  let part ← text.attributedSubstring range
  text.replaceCharacters range <| mapAttributes part f

def addAttributes (text : NSAttributedString) (attributes : Attributes) (range : NSRange) :
    Option NSAttributedString :=
  text.updateAttributes range (·.add attributes)

def addAttribute (text : NSAttributedString) (key : Key) (value : Value) (range : NSRange) :
    Option NSAttributedString :=
  text.updateAttributes range (·.set key value)

def removeAttribute (text : NSAttributedString) (key : Key) (range : NSRange) :
    Option NSAttributedString :=
  text.updateAttributes range (·.set key none)

def enumerateAttribute (text : NSAttributedString) (key : Key) (range : NSRange) :
    Option (List (Option Value × NSRange)) := do
  let part ← text.attributedSubstring range
  let runs := part.splitBy fun c d => c.attributes key == d.attributes key
  return runs.map (·.head?.bind (·.attributes key)) |>.zip <| NSRange.consecutive range.location runs

end NSAttributedString
end RichText
