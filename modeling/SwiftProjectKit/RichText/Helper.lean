import SwiftProjectKit.RichText.State

namespace RichText
namespace State

-- Puts the view of an attachment into the text view, if it is not there yet.
def reviseAttachment (s : State) (attach : NSTextAttachment) : State :=
  if s.textView.subviews.contains attach then
    s
  else
    { s with
      textView        := { s.textView with subviews := s.textView.subviews ++ [attach] }
      attachmentCalls := s.attachmentCalls ++ [.didInsetAttachment attach] }

def reviseImageMaskViewFrame (s : State) : Option State := do
  let attachments ← s.text.richTextAttachments
  let s := attachments.foldl reviseAttachment s
  let removed := s.attachments.filter (!attachments.contains ·)
  let subviews := s.textView.subviews.filter (!removed.contains ·)
  return { s with
    textView        := { s.textView with subviews }
    attachments     := attachments
    attachmentCalls :=
      if removed.length > 0 then
        s.attachmentCalls ++ [.didRemovedAttachment removed]
      else
        s.attachmentCalls }

def entry (s : State) (typingAttributes : Attributes) : Entry where
  attributedText   := s.textView.attributedText
  selectedRange    := s.textView.selectedRange
  typingAttributes := typingAttributes

variable [ParagraphStyles]

def addToHistory (s : State) : Option State := do
  let history := s.history ++ [s.entry <| ← s.typingAttributes]
  let history := if history.length > s.notesCount + 1 then history.tail else history
  return { s with
    history, stores := [], leftBtnSelected := history.length > 1, rightBtnSelected := false }

def textViewDidChange (s : State) : Option State := do
  let s ← s.reviseImageMaskViewFrame
  let range := s.textView.markedTextRange
  let pos := s.textView.position 0
  if range.isSome && pos.isSome then
    return s
  s.addToHistory

def textViewDidBeginEditing (s : State) : Option State :=
  if s.isFirstUse then do
    return { ← s.addToHistory with isFirstUse := false }
  else
    s

def setTypingAttributes (s : State) (typingAttributes : Attributes) : State :=
  { s with textView := s.textView.setTypingAttributes typingAttributes }

variable [UITextView]

def setSelectedRange (s : State) (selectedRange : NSRange) : State :=
  { s with textView := s.textView.setSelectedRange selectedRange }

def setAttributedText (s : State) (text : NSAttributedString) : State :=
  { s with textView := s.textView.setAttributedText text }

def setEntry (s : State) (value : Entry) : State :=
  s.setAttributedText value.attributedText
  |>.setSelectedRange value.selectedRange
  |>.setTypingAttributes value.typingAttributes

def undo (s : State) : State :=
  if s.history.length ≤ 1 then
    s
  else
    let s := match s.history.getLast? with
      | some now => { s with stores := s.stores ++ [now] }
      | none     => s
    match s.history[s.history.length - 2]? with
    | some value => { s.setEntry value with history := s.history.dropLast }
    | none       => s

def redo (s : State) : State :=
  match s.stores.getLast? with
  | some value =>
    let s := { s with history := s.history ++ [value] }
    { s.setEntry value with stores := s.stores.dropLast }
  | none       => s

def revokeText (s : State) (revoke : Bool) : Option State :=
  let s := if revoke then s.undo else s.redo
  reviseImageMaskViewFrame { s with
    leftBtnSelected  := s.history.length > 1
    rightBtnSelected := s.stores.length > 0 }

def inserted (s : State) (text : Option NSString) (image : Option UIImage) :
    NSAttributedString × Option NSTextAttachment :=
  let tempImage := image.bind fun image =>
    match s.options.willInsetImage with
    | some insert => insert image
    | none        => image
  let attachment := tempImage.map fun _ => NSTextAttachment.mk s.created
  let attr := attachment.toList.map fun attach =>
    { char := 0xFFFC, attributes := fun key => if key = .attachment then some (.attachment attach) else none }
  (attr ++ NSAttributedString.ofString (text.getD []) fun _ => none, attachment)

-- The text into which `tempAttr` is inserted, or whose attributes are replaced if there is nothing to
-- insert or to delete, with the selection that follows.
def replaced (s : State) (tempAttr : NSAttributedString) (typing : Attributes)
    (replaceRange : Option NSRange) : Option (NSAttributedString × NSRange) := do
  let range := replaceRange.getD s.textView.selectedRange
  if tempAttr.length > 0 || tempAttr.length == 0 && (replaceRange.map (·.length)).getD 0 > 0 then
    let text ←
      if range.length > 0 then
        s.text.replaceCharacters range tempAttr
      else
        s.text.insert tempAttr range.location
    return (text, ⟨range.location + tempAttr.length, 0⟩)
  else
    let attr ← s.text.attributedSubstring range
    let newAttr ← attr.replaceAttributes typing attr.whole
    let text ← s.text.replaceCharacters range newAttr
    return (text, if replaceRange.isSome then { range with length := 0 } else range)

-- The text to display after an insertion, with the selection that follows.
def insertedText (s : State) (tempAttr : NSAttributedString) (typing : Attributes)
    (changeParagraph : Bool) (replaceRange : Option NSRange) :
    Option (NSAttributedString × NSRange) := do
  let tempAttr ← tempAttr.addAttributes typing tempAttr.whole
  let (textAttributedstring, range) ← s.replaced tempAttr typing replaceRange
  let textAttributedstring ←
    if changeParagraph then
      let tempRange ← textAttributedstring.parapraghRange range
      let p := typing.paragraphStyle.getD ParagraphStyles.init
      textAttributedstring.addAttribute .paragraphStyle (.paragraphStyle p) tempRange
    else
      pure textAttributedstring
  let new ←
    if s.options.enableTabStyle then
      textAttributedstring.resetTabOrderNumber
    else
      pure textAttributedstring
  return (new, range)

def addSubview (s : State) (attachment : Option NSTextAttachment) : State :=
  { s with
    textView := { s.textView with subviews := s.textView.subviews ++ attachment.toList }
    created  := s.created + attachment.toList.length }

def didInsetAttachment (s : State) (attachment : Option NSTextAttachment) : State :=
  { s with attachmentCalls := s.attachmentCalls ++ attachment.toList.map .didInsetAttachment }

def insert (s : State) (text : Option NSString) (image : Option UIImage) (changeParagraph : Bool)
    (replaceRange : Option NSRange) : Option State := do
  let (tempAttr, attachment) := s.inserted text image
  let typing ← s.typingAttributes
  let (new, range) ← s.insertedText tempAttr typing changeParagraph replaceRange
  let s := s.addSubview attachment |>.setAttributedText new |>.setSelectedRange range
  let s := if changeParagraph then s.setTypingAttributes typing else s
  let s ← s.textViewDidChange
  return s.didInsetAttachment attachment

-- The new selection is assigned later, on the main queue.
def insetOrDeleteTabStyle (s : State) (style : RZTextTabStyle) : Option State := do
  let attributedText ←
    if s.text.length = 0 && style != .none then
      pure <| NSAttributedString.ofString (.ofString "\n") (← s.typingAttributes)
    else
      pure s.text
  let new ← attributedText.transParagraphsTo s.textView.selectedRange style
  let newRange ← s.text.newRangeFor s.textView.selectedRange new
  return { s.setAttributedText new with mainQueue := s.mainQueue ++ [newRange] }

end State
end RichText
