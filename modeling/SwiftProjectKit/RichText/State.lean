import SwiftProjectKit.RichText.Edit

namespace RichText

structure UIImage where
  content : List UInt8

structure RZRichTextViewOptions where
  enableTabStyle              : Bool := true
  shouldRemoveLinkWhenEditing : Bool := true
  willInsetImage              : Option (UIImage → Option UIImage) := none

-- What a text view does by itself: where its selection is and whether it still has marked text after
-- a text is assigned to it, and what is typed with at a selection.
class UITextView where
  selectedRange    : NSAttributedString → NSRange
  markedTextRange  : NSAttributedString → Option NSRange → Option NSRange
  typingAttributes : NSAttributedString → NSRange → Attributes

-- The text view, with the attachments whose views it contains.
structure RZRichTextView where
  attributedText   : NSAttributedString
  selectedRange    : NSRange
  typingAttributes : Attributes
  markedTextRange  : Option NSRange := none
  subviews         : List NSTextAttachment := []

structure Entry where
  attributedText   : NSAttributedString
  selectedRange    : NSRange
  typingAttributes : Attributes

inductive AttachmentCall
  | didInsetAttachment   (attach : NSTextAttachment)
  | didRemovedAttachment (removed : List NSTextAttachment)
deriving DecidableEq

-- The helper of a text view. The number of the next attachment is `created`, and `mainQueue` holds the
-- selections that are yet to be assigned.
structure State where
  options         : RZRichTextViewOptions := {}
  textView        : RZRichTextView
  history         : List Entry := []
  stores          : List Entry := []
  notesCount      : Int := 20
  isFirstUse      : Bool := true
  attachments     : List NSTextAttachment := []
  created         : Nat := 0
  leftBtnSelected  : Bool := false
  rightBtnSelected : Bool := false
  attachmentCalls : List AttachmentCall := []
  mainQueue       : List NSRange := []

namespace RZRichTextView

def position (textView : RZRichTextView) (offset : Int) : Option Int :=
  if 0 ≤ offset ∧ offset ≤ textView.attributedText.length then offset else none

def setTypingAttributes (textView : RZRichTextView) (typingAttributes : Attributes) :
    RZRichTextView :=
  { textView with typingAttributes }

variable [UITextView]

def setSelectedRange (textView : RZRichTextView) (selectedRange : NSRange) : RZRichTextView where
  attributedText   := textView.attributedText
  selectedRange    := selectedRange
  typingAttributes := UITextView.typingAttributes textView.attributedText selectedRange
  markedTextRange  := textView.markedTextRange
  subviews         := textView.subviews

def setAttributedText (textView : RZRichTextView) (text : NSAttributedString) : RZRichTextView :=
  { textView with
    attributedText  := text
    markedTextRange := UITextView.markedTextRange text textView.markedTextRange }
  |>.setSelectedRange <| UITextView.selectedRange text

end RZRichTextView

namespace State

def text (s : State) : NSAttributedString :=
  s.textView.attributedText

variable [ParagraphStyles]

-- The attributes to type with. At the end of a list, what UIKit provides are still those of the list.
def typingAttributes (s : State) : Option Attributes := do
  let type := s.textView.typingAttributes.set .originfontName none
  let tab ← s.text.tabStyleFor s.textView.selectedRange
  if tab != type.tabStyle && tab == .none && s.options.enableTabStyle then
    match type.paragraphStyle with
    | some p => return type.set .paragraphStyle <| some <| .paragraphStyle <| p.transParagraphTo tab
    | none   => return type
  else
    return type

end State
end RichText
