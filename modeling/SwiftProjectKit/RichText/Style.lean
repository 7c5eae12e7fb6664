import Mathlib.Data.List.Infix

namespace RichText

inductive RZTextTabStyle
  | none
  | ul
  | ol
deriving DecidableEq

namespace RZTextTabStyleFormat

def ul : String := "format <\x7bdisc\x7d>"
def ol : String := "format <\x7bdecimal\x7d.>"

end RZTextTabStyleFormat

abbrev CGFloat := Rat

structure NSTextList where
  markerFormat : String
deriving DecidableEq

structure NSTextTab where
  alignment : Int
  location  : CGFloat
deriving DecidableEq

structure NSParagraphStyle where
  lineSpacing                          : CGFloat := 0
  paragraphSpacing                     : CGFloat := 0
  alignment                            : Int := 4
  firstLineHeadIndent                  : CGFloat := 0
  headIndent                           : CGFloat := 0
  tailIndent                           : CGFloat := 0
  lineBreakMode                        : Int := 0
  minimumLineHeight                    : CGFloat := 0
  maximumLineHeight                    : CGFloat := 0
  baseWritingDirection                 : Int := -1
  lineHeightMultiple                   : CGFloat := 0
  paragraphSpacingBefore               : CGFloat := 0
  hyphenationFactor                    : CGFloat := 0
  usesDefaultHyphenation               : Bool := false
  tabStops                             : List NSTextTab := []
  defaultTabInterval                   : CGFloat := 0
  allowsDefaultTighteningForTruncation : Bool := true
  lineBreakStrategy                    : Int := 0
  textLists                            : List NSTextList := []
deriving DecidableEq

-- What the editor relies on to recognize lists: how paragraph styles are described, and which styles
-- imported HTML starts with. The style `init` is that of `NSParagraphStyle.init()`.
class ParagraphStyles where
  init        : NSParagraphStyle
  description : NSParagraphStyle → String
  htmlString  : String → Option NSParagraphStyle

namespace NSParagraphStyle

variable [ParagraphStyles]

def ulParagraphStyle : NSParagraphStyle :=
  ParagraphStyles.htmlString "<ul><li></li></ul>" |>.getD ParagraphStyles.init

def olParagraphStyle : NSParagraphStyle :=
  ParagraphStyles.htmlString "<ol><li></li></ol>" |>.getD ParagraphStyles.init

def contains (description list : String) : Bool :=
  decide <| list.toList <:+: description.toList

def tabStyle (p : NSParagraphStyle) : RZTextTabStyle :=
  let descP := ParagraphStyles.description p
  if contains descP RZTextTabStyleFormat.ul then
    .ul
  else if contains descP RZTextTabStyleFormat.ol then
    .ol
  else
    .none

def transParagraphTo (origin : NSParagraphStyle) (style : RZTextTabStyle) : NSParagraphStyle :=
  let p := match style with
    | .none => ParagraphStyles.init
    | .ul   => ulParagraphStyle
    | .ol   => olParagraphStyle
  { p with
    lineSpacing                          := origin.lineSpacing
    paragraphSpacing                     := origin.paragraphSpacing
    alignment                            := origin.alignment
    firstLineHeadIndent                  := origin.firstLineHeadIndent
    headIndent                           := origin.headIndent
    tailIndent                           := origin.tailIndent
    lineBreakMode                        := origin.lineBreakMode
    minimumLineHeight                    := origin.minimumLineHeight
    maximumLineHeight                    := origin.maximumLineHeight
    baseWritingDirection                 := origin.baseWritingDirection
    lineHeightMultiple                   := origin.lineHeightMultiple
    paragraphSpacingBefore               := origin.paragraphSpacingBefore
    hyphenationFactor                    := origin.hyphenationFactor
    usesDefaultHyphenation               := origin.usesDefaultHyphenation
    tabStops                             := ParagraphStyles.init.tabStops
    defaultTabInterval                   := origin.defaultTabInterval
    allowsDefaultTighteningForTruncation := origin.allowsDefaultTighteningForTruncation
    lineBreakStrategy                    := origin.lineBreakStrategy }

end NSParagraphStyle
end RichText
