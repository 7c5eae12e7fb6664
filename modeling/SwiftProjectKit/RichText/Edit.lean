import SwiftProjectKit.RichText.Tabs

namespace RichText

namespace Attributes

def absent (attributes : Attributes) (key : Key) : Bool :=
  (attributes key).isNone

def isZero (attributes : Attributes) (key : Key) : Bool :=
  attributes key == some (.int 0)

def removed (attributes : Attributes) : List Key :=
  [(attributes.absent .backgroundColor,    [Key.backgroundColor]),
   (attributes.absent .baselineOffset,     [.baselineOffset]),
   (attributes.isZero .baselineOffset,     [.baselineOffset]),
   (attributes.absent .strokeWidth,        [.strokeWidth, .strokeColor]),
   (attributes.isZero .strokeWidth,        [.strokeWidth, .strokeColor]),
   (attributes.absent .shadow,             [.shadow]),
   (attributes.absent .expansion,          [.expansion]),
   (attributes.absent .underlineStyle,     [.underlineStyle, .underlineColor]),
   (attributes.isZero .underlineStyle,     [.underlineStyle, .underlineColor]),
   (attributes.absent .strikethroughStyle, [.strikethroughStyle, .strikethroughColor]),
   (attributes.isZero .strikethroughStyle, [.strikethroughStyle, .strikethroughColor]),
   (attributes.absent .kern,               [.kern]),
   (attributes.isZero .kern,               [.kern])].flatMap fun (isRemoved, keys) =>
    if isRemoved then keys else []

end Attributes

namespace NSAttributedString

def replaceAttributes (text : NSAttributedString) (attributes : Attributes) (range : NSRange) :
    Option NSAttributedString := do
  let attr ← text.addAttributes attributes range
  attributes.removed.foldlM (·.removeAttribute · range) attr

def rangeFor (text : NSAttributedString) (attrName : Key) (selectedRange : NSRange) :
    Option (Option NSRange) := do
  let pr     ← text.parapraghRange selectedRange
  let values ← text.enumerateAttribute attrName pr
  return values.map Prod.snd |>.find? fun range =>
    range.location ≤ selectedRange.location && range.maxLength ≥ selectedRange.location

def richTextAttachments (text : NSAttributedString) : Option (List NSTextAttachment) := do
  let values ← text.enumerateAttribute .attachment text.whole
  return values.filterMap fun
    | (some (.attachment attach), _) => some attach
    | _                              => none

def newRangeFor (attributedText : NSAttributedString) (range : NSRange)
    (attributedText1 : NSAttributedString) : Option NSRange := do
  let allParagraphs ← attributedText.allParapraghRange
  if allParagraphs.length = 0 then
    return range
  let ranges ← attributedText.paragraphRanges range
  let firstLine := allParagraphs.findIdx? (some · == ranges.head?) |>.getD 0
  let lastLine  := allParagraphs.findIdx? (some · == ranges.getLast?) |>.getD 0
  let firstRange ← attributedText.parapraghRange ⟨range.location, 0⟩
  let lastRange  ← attributedText.parapraghRange ⟨range.maxLength, 0⟩
  let newRanges  ← attributedText1.allParapraghRange
  let newFirstRange ← newRanges[firstLine]?
  let newLastRange  ← newRanges[lastLine]?
  let firstEnd := firstRange.maxLength - range.location
  let lastEnd  := lastRange.maxLength - range.maxLength
  let star  := max (newFirstRange.maxLength - firstEnd) newFirstRange.location
  let «end» := max (newLastRange.maxLength - lastEnd) newLastRange.location
  return ⟨star, «end» - star⟩

variable [ParagraphStyles]

-- Converts the paragraph styles of a text, which has the initial one if it has none. That is done by
-- a recursive call, and `fuel` bounds the depth of the recursion.
def mutableTransParagraphTo (style : RZTextTabStyle) :
    (fuel : Nat) → (text : NSAttributedString) → Option NSAttributedString
  | 0,        _    => none
  | fuel + 1, text => do
    let values ← text.enumerateAttribute .paragraphStyle text.whole
    let flag := values.any (·.fst.bind Value.asParagraphStyle |>.isSome)
    let attr ← text.replaceParagraphStyles (·.transParagraphTo style)
    if flag then
      return attr
    else
      let p := ParagraphStyles.init
      mutableTransParagraphTo style fuel <|
        ← attr.addAttribute .paragraphStyle (.paragraphStyle p) attr.whole

def transParagraphsTo (attributedText : NSAttributedString) (selectedRange : NSRange)
    (style : RZTextTabStyle) : Option NSAttributedString := do
  let ranges ← attributedText.paragraphRanges selectedRange
  let rangesAttrs ← ranges.mapM fun range => do
    let tempAttr ← (← attributedText.attributedSubstring range).removeHeadTabString
    mutableTransParagraphTo style (tempAttr.length + 1) tempAttr
  -- Replacing from the back keeps the other ranges valid.
  let attributedText ← ranges.zip rangesAttrs |>.reverse.foldlM
    (fun text (range, attr) => text.replaceCharacters range attr) attributedText
  attributedText.resetTabOrderNumber

end NSAttributedString
end RichText
