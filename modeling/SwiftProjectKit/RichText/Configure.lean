import SwiftProjectKit.Primitives.Binary32
import SwiftProjectKit.Primitives.Nearest
import SwiftProjectKit.Primitives.Run
import SwiftProjectKit.RichText.PickerView
import SwiftProjectKit.RichText.Style

namespace RichText

structure UIFont where
  fontName  : String
  pointSize : CGFloat
deriving DecidableEq

def UIFont.withSize (font : UIFont) (pointSize : CGFloat) : UIFont :=
  { font with pointSize }

structure UIColor where
  red   : CGFloat
  green : CGFloat
  blue  : CGFloat
  alpha : CGFloat
deriving DecidableEq

structure RZRichColor where
  r : CGFloat
  g : CGFloat
  b : CGFloat
  a : CGFloat
deriving DecidableEq

def RZRichColor.color (c : RZRichColor) : UIColor :=
  ⟨c.r / 255, c.g / 255, c.b / 255, c.a⟩

structure NSShadow where
  shadowOffset     : CGSize CGFloat := ⟨0, 0⟩
  shadowBlurRadius : CGFloat := 0
  shadowColor      : Option UIColor := none
deriving DecidableEq

-- The attributes that are configured. A value that is not of the type that is expected counts as none.
structure FontAttributes (Shadow : Type) where
  font               : Option UIFont := none
  foregroundColor    : Option UIColor := none
  backgroundColor    : Option UIColor := none
  strikethroughStyle : Option Int := none
  underlineStyle     : Option Int := none
  baselineOffset     : Option Int := none
  strokeWidth        : Option Int := none
  strokeColor        : Option UIColor := none
  shadow             : Option Shadow := none
  expansion          : Option Rat := none
  paragraphStyle     : Option NSParagraphStyle := none

-- A shadow is an object: the one that the configuration was given, or the one that it creates.
inductive ShadowReference
  | given (shadow : NSShadow)
  | created

def ShadowReference.shadow (created : NSShadow) : ShadowReference → NSShadow
  | given shadow => shadow
  | .created     => created

inductive RZTextViewFontStyle
  | bold
  | oblique
  | underline
  | deleteLine
  | fontSize
  | fontColor
  | fontBackgroundColor
  | baseOfline
  | stroken
  | shadow
  | expansion
  | paragraphAlignment
  | paragraphlineMultiple
  | paragraphlineSpace
  | paragraphspace
  | paragraphspaceBefore
  | paragraphFirstLineHeadIndent
  | paragraphHeadIndent
  | paragraphTailIndent
  | linkAttachment
  | tabStyle
deriving DecidableEq

inductive RZTextViewToolbarItem
  | endEdit
  | image
  | font
  | baseOfline
  | stroken
  | shadow
  | expansion
  | paragraph
  | link
  | tabStyle
deriving DecidableEq

structure RZToolBarItem where
  type  : RZTextViewToolbarItem
  items : Option (List RZTextViewFontStyle) := none

structure FontOptions where
  normalFont      : UIFont
  obliqueFont     : UIFont
  boldFont        : UIFont
  boldObliqueFont : UIFont
  colors          : List RZRichColor := [
    ⟨0, 0, 0, 0⟩, ⟨0, 0, 0, 1⟩, ⟨51, 51, 51, 1⟩, ⟨102, 102, 102, 1⟩, ⟨153, 153, 153, 1⟩, ⟨204, 204, 204, 1⟩,
    ⟨238, 238, 238, 1⟩, ⟨255, 255, 255, 1⟩, ⟨130, 60, 20, 1⟩, ⟨252, 13, 27, 1⟩, ⟨251, 104, 104, 1⟩, ⟨255, 127, 34, 1⟩,
    ⟨255, 209, 103, 1⟩, ⟨255, 255, 59, 1⟩, ⟨230, 250, 74, 1⟩, ⟨84, 128, 57, 1⟩, ⟨41, 255, 49, 1⟩, ⟨109, 249, 127, 1⟩,
    ⟨11, 36, 246, 1⟩, ⟨55, 157, 255, 1⟩, ⟨153, 38, 255, 1⟩, ⟨120, 100, 200, 1⟩]
  fontStyleItems  : List RZTextViewFontStyle := [
    .bold, .oblique, .underline, .deleteLine, .fontSize, .fontColor, .fontBackgroundColor]

inductive Wheel
  | fontSize
  | fontColor
  | fontBackgroundColor
  | baselineOffset
  | strokeWidth
  | strokeColor
  | shadowColor
  | shadowBlurRadius
  | shadowOffsetY
  | shadowOffsetX
  | expansion
  | lineHeightMultiple
  | lineSpacing
  | paragraphSpacing
  | paragraphSpacingBefore
  | firstLineHeadIndent
  | headIndent
  | tailIndent
deriving DecidableEq

inductive StyleButton
  | bold
  | italic
  | underline
  | delete
deriving DecidableEq

def StyleButton.style : StyleButton → RZTextViewFontStyle
  | bold      => .bold
  | italic    => .oblique
  | underline => .underline
  | delete    => .deleteLine

-- The view has attributes of its own, which are those that the configuration starts with.
structure RZRichFontStyleView where
  typingAttributes : FontAttributes ShadowReference
  isSelected       : StyleButton → Bool

-- Indents are counted in characters of the font that there was when the configuration was displayed.
structure RZRichFontConfigureViewController where
  typingAttributes : FontAttributes ShadowReference
  value            : Int
  shadow           : NSShadow
  paragraph        : NSParagraphStyle
  font             : UIFont
  fontStyleView    : RZRichFontStyleView

def truncate (x : CGFloat) : Int :=
  if 0 ≤ x then ⌊x⌋ else ⌈x⌉

-- The number in 64 bits that is nearest, which matters where a product is divided again.
def nearest (x : Rat) : CGFloat :=
  Nearest.round 52 (-1074) x

def rowIndent (index : Nat) (pointSize : CGFloat) : CGFloat :=
  nearest <| nearest ((index * 5 : Nat) / 10) * pointSize

def indentRow (indent pointSize : CGFloat) : Int :=
  truncate <| nearest <| nearest (nearest (indent / pointSize) * 10) / 5

namespace FontAttributes

def mapShadow {α β : Type} (attributes : FontAttributes α) (f : α → β) : FontAttributes β :=
  { attributes with shadow := attributes.shadow.map f }

variable (attributes : FontAttributes NSShadow)

def shadowCopy : NSShadow where
  shadowOffset     := attributes.shadow.elim ⟨0, 0⟩ NSShadow.shadowOffset
  shadowBlurRadius := attributes.shadow.elim 0 NSShadow.shadowBlurRadius
  shadowColor      := attributes.shadow.bind NSShadow.shadowColor

variable [ParagraphStyles]

def paragraph : NSParagraphStyle :=
  attributes.paragraphStyle.getD ParagraphStyles.init

end FontAttributes

namespace FontOptions

variable (options : FontOptions)

def fontIsBold (font : UIFont) : Bool :=
  font.fontName == options.boldFont.fontName || font.fontName == options.boldObliqueFont.fontName

def fontIsItal (font : UIFont) : Bool :=
  font.fontName == options.obliqueFont.fontName || font.fontName == options.boldObliqueFont.fontName

def styleFont (bold italic : Bool) : UIFont :=
  if bold && italic then
    options.boldObliqueFont
  else if bold && !italic then
    options.boldFont
  else if !bold && italic then
    options.obliqueFont
  else
    options.normalFont

def firstIndex (color : UIColor) : Int :=
  options.colors.findIdx? (·.color = color) |>.getD 0

-- The buttons that are selected when the configuration is displayed.
def setUpViews {α : Type} (attributes : FontAttributes α) : StyleButton → Bool
  | .bold      => attributes.font.any options.fontIsBold
  | .italic    => attributes.font.any options.fontIsItal
  | .underline => attributes.underlineStyle.getD 0 != 0
  | .delete    => attributes.strikethroughStyle.getD 0 != 0

end FontOptions

def lineHeightMultiples : List CGFloat :=
  [1, 3 / 2, 2, 3]

namespace RZRichFontConfigureViewController

variable (options : FontOptions)

def rows : Wheel → Nat
  | .fontSize               => 91
  | .fontColor              => options.colors.length
  | .fontBackgroundColor    => options.colors.length
  | .baselineOffset         => 201
  | .strokeWidth            => 21
  | .strokeColor            => options.colors.length
  | .shadowColor            => options.colors.length
  | .shadowBlurRadius       => 21
  | .shadowOffsetY          => 201
  | .shadowOffsetX          => 201
  | .expansion              => 41
  | .lineHeightMultiple     => lineHeightMultiples.length
  | .lineSpacing            => 51
  | .paragraphSpacing       => 51
  | .paragraphSpacingBefore => 51
  | .firstLineHeadIndent    => 51
  | .headIndent             => 51
  | .tailIndent             => 51

-- The wheels for the colors of the font are displayed along with the one for its size only, and the one for the indent
-- of other lines along with that of the first line.
def isShown (item : RZToolBarItem) (wheel : Wheel) : Bool :=
  let items := item.items.getD []
  match wheel with
  | .fontSize               => .fontSize ∈ items
  | .fontColor              => .fontSize ∈ items ∧ .fontColor ∈ items
  | .fontBackgroundColor    => .fontSize ∈ items ∧ .fontBackgroundColor ∈ items
  | .baselineOffset         => .baseOfline ∈ items
  | .strokeWidth            => .stroken ∈ items
  | .strokeColor            => .stroken ∈ items
  | .shadowColor            => .shadow ∈ items
  | .shadowBlurRadius       => .shadow ∈ items
  | .shadowOffsetY          => .shadow ∈ items
  | .shadowOffsetX          => .shadow ∈ items
  | .expansion              => .expansion ∈ items
  | .lineHeightMultiple     => item.type = .paragraph ∧ .paragraphlineMultiple ∈ items
  | .lineSpacing            => item.type = .paragraph ∧ .paragraphlineSpace ∈ items
  | .paragraphSpacing       => item.type = .paragraph ∧ .paragraphspace ∈ items
  | .paragraphSpacingBefore => item.type = .paragraph ∧ .paragraphspaceBefore ∈ items
  | .firstLineHeadIndent    => item.type = .paragraph ∧ .paragraphFirstLineHeadIndent ∈ items
  | .headIndent             => item.type = .paragraph ∧ .paragraphFirstLineHeadIndent ∈ items
  | .tailIndent             => item.type = .paragraph ∧ .paragraphTailIndent ∈ items

-- The alignments for which there is a button: natural, left, center and right.
def alignments : List Int :=
  [4, 0, 1, 2]

def isAlignmentShown (item : RZToolBarItem) : Bool :=
  item.type = .paragraph ∧ .paragraphAlignment ∈ item.items.getD []

-- The view of the buttons is displayed for any of them, but which of them it contains depends on the options.
def isButtonShown (item : RZToolBarItem) (button : StyleButton) : Bool :=
  let items := item.items.getD []
  (.bold ∈ items ∨ .oblique ∈ items ∨ .underline ∈ items ∨ .deleteLine ∈ items) ∧
    button.style ∈ options.fontStyleItems

variable [ParagraphStyles]

def currentIndex (attributes : FontAttributes NSShadow) : Wheel → Int
  | .fontSize               => truncate <| (attributes.font.getD options.normalFont).pointSize - 10
  | .fontColor              => options.firstIndex <| attributes.foregroundColor.getD ⟨0, 0, 0, 1⟩
  | .fontBackgroundColor    => options.firstIndex <| attributes.backgroundColor.getD ⟨0, 0, 0, 0⟩
  | .baselineOffset         => attributes.baselineOffset.getD 0 + 100
  | .strokeWidth            => attributes.strokeWidth.getD 0 + 10
  | .strokeColor            => options.firstIndex <| attributes.strokeColor.getD ⟨0, 0, 0, 1⟩
  | .shadowColor            => options.firstIndex <| attributes.shadowCopy.shadowColor.getD ⟨0, 0, 0, 0⟩
  | .shadowBlurRadius       => truncate attributes.shadowCopy.shadowBlurRadius
  | .shadowOffsetY          => truncate attributes.shadowCopy.shadowOffset.height + 100
  | .shadowOffsetX          => truncate attributes.shadowCopy.shadowOffset.width + 100
  | .expansion              => truncate (Binary32.toFloat <| attributes.expansion.getD 0 * 10) + 20
  | .lineHeightMultiple     => lineHeightMultiples.findIdx? (· = attributes.paragraph.lineHeightMultiple) |>.getD 0
  | .lineSpacing            => truncate attributes.paragraph.lineSpacing
  | .paragraphSpacing       => truncate attributes.paragraph.paragraphSpacing
  | .paragraphSpacingBefore => truncate attributes.paragraph.paragraphSpacingBefore
  | .firstLineHeadIndent    =>
    indentRow attributes.paragraph.firstLineHeadIndent (attributes.font.getD options.normalFont).pointSize
  | .headIndent             =>
    indentRow attributes.paragraph.headIndent (attributes.font.getD options.normalFont).pointSize
  | .tailIndent             =>
    truncate <| nearest <| attributes.paragraph.tailIndent / (attributes.font.getD options.normalFont).pointSize

def configureViews (attributes : FontAttributes NSShadow) : RZRichFontConfigureViewController :=
  let typingAttributes := attributes.mapShadow ShadowReference.given
  { typingAttributes
    value         := attributes.strokeWidth.getD 0
    shadow        := attributes.shadowCopy
    paragraph     := attributes.paragraph
    font          := attributes.font.getD options.normalFont
    fontStyleView := { typingAttributes, isSelected := options.setUpViews attributes } }

variable (s : RZRichFontConfigureViewController)

def updateAttributes (f : FontAttributes ShadowReference → FontAttributes ShadowReference) :
    RZRichFontConfigureViewController :=
  { s with typingAttributes := f s.typingAttributes }

def setParagraph (paragraph : NSParagraphStyle) : RZRichFontConfigureViewController :=
  { s with paragraph }.updateAttributes ({ · with paragraphStyle := some paragraph })

def selectedIndex (index : Nat) : Wheel → Option RZRichFontConfigureViewController
  | .fontSize =>
    let font := s.typingAttributes.font.getD options.normalFont
    some <| s.updateAttributes ({ · with font := some <| font.withSize <| index + 10 })
  | .fontColor => options.colors[index]?.map fun color =>
    s.updateAttributes ({ · with foregroundColor := some color.color })
  | .fontBackgroundColor => options.colors[index]?.map fun color =>
    s.updateAttributes ({ · with backgroundColor := if color = ⟨0, 0, 0, 0⟩ then none else some color.color })
  | .baselineOffset =>
    let value : Int := index - 100
    some <| s.updateAttributes ({ · with baselineOffset := if value = 0 then none else some value })
  | .strokeWidth =>
    let value : Int := index - 10
    some <| { s with value }.updateAttributes ({ · with strokeWidth := if value = 0 then none else some value })
  | .strokeColor => options.colors[index]?.map fun color =>
    s.updateAttributes ({ · with strokeColor := if s.value = 0 then none else some color.color })
  | .shadowColor => options.colors[index]?.map fun color =>
    if color = ⟨0, 0, 0, 0⟩ then
      { s with shadow.shadowColor := none }.updateAttributes ({ · with shadow := none })
    else
      { s with shadow.shadowColor := some color.color }.updateAttributes ({ · with shadow := some .created })
  | .shadowBlurRadius => some { s with shadow.shadowBlurRadius := index }
  | .shadowOffsetY => some { s with shadow.shadowOffset.height := index - 100 }
  | .shadowOffsetX => some { s with shadow.shadowOffset.width := index - 100 }
  | .expansion =>
    let value := Binary32.toFloat <| Binary32.toFloat (index - 20 : Int) / 10
    some <| s.updateAttributes ({ · with expansion := if value = 0 then none else some value })
  | .lineHeightMultiple => lineHeightMultiples[index]?.map fun v =>
    s.setParagraph { s.paragraph with lineHeightMultiple := v }
  | .lineSpacing => some <| s.setParagraph { s.paragraph with lineSpacing := index }
  | .paragraphSpacing => some <| s.setParagraph { s.paragraph with paragraphSpacing := index }
  | .paragraphSpacingBefore => some <| s.setParagraph { s.paragraph with paragraphSpacingBefore := index }
  | .firstLineHeadIndent =>
    some <| s.setParagraph { s.paragraph with firstLineHeadIndent := rowIndent index s.font.pointSize }
  | .headIndent => some <| s.setParagraph { s.paragraph with headIndent := rowIndent index s.font.pointSize }
  | .tailIndent => some <| s.setParagraph { s.paragraph with tailIndent := nearest <| index * s.font.pointSize }

def fontStyleChanged (typingAttributes : FontAttributes ShadowReference) : RZRichFontConfigureViewController :=
  let orifont := s.typingAttributes.font.elim 17 UIFont.pointSize
  let font := typingAttributes.font.getD options.normalFont
  s.updateAttributes ({ · with
    font               := some <| font.withSize orifont
    strikethroughStyle := typingAttributes.strikethroughStyle.map fun _ => 1
    underlineStyle     := typingAttributes.underlineStyle.map fun _ => 1 })

def btnClicked (sender : StyleButton) : RZRichFontConfigureViewController :=
  let isSelected := Function.update s.fontStyleView.isSelected sender (!s.fontStyleView.isSelected sender)
  let attributes := s.fontStyleView.typingAttributes
  let typingAttributes := match sender with
    | .bold | .italic => { attributes with font := some <| options.styleFont (isSelected .bold) (isSelected .italic) }
    | .underline      => { attributes with underlineStyle := if isSelected sender then some 1 else none }
    | .delete         => { attributes with strikethroughStyle := if isSelected sender then some 1 else none }
  { s with fontStyleView := { typingAttributes, isSelected } }.fontStyleChanged options typingAttributes

-- The attributes that are confirmed, with what has become of the shadows.
def confirmed : FontAttributes NSShadow :=
  s.typingAttributes.mapShadow <| ShadowReference.shadow s.shadow

inductive Event
  | select (wheel : Wheel) (index : Nat)
  | click (sender : StyleButton)
  | align (alignment : Int)

def step (item : RZToolBarItem) (s : RZRichFontConfigureViewController) : Event →
    Option RZRichFontConfigureViewController
  | .select wheel index =>
    if isShown item wheel ∧ index < rows options wheel then s.selectedIndex options index wheel else none
  | .click sender => if isButtonShown options item sender then s.btnClicked options sender else none
  | .align alignment =>
    if isAlignmentShown item ∧ alignment ∈ alignments then
      some <| s.setParagraph { s.paragraph with alignment }
    else
      none

abbrev exec (item : RZToolBarItem) : RZRichFontConfigureViewController → List Event →
    Option RZRichFontConfigureViewController :=
  Run.exec <| step options item

end RZRichFontConfigureViewController
end RichText
