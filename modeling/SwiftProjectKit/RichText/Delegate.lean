import SwiftProjectKit.Primitives.Run
import SwiftProjectKit.RichText.Helper

namespace RichText
namespace State

variable [ParagraphStyles] [UITextView]

def removeLink (s : State) : Option State := do
  return s.setTypingAttributes <| (← s.typingAttributes).set .link none

-- Removes the link from the typing attributes when text is changed outside of it.
def updateLink (s : State) (range : NSRange) : Option State := do
  if s.options.shouldRemoveLinkWhenEditing then
    s.removeLink
  else
    match (← s.typingAttributes) .link with
    | some _ =>
      match ← s.text.rangeFor .link range with
      | some pr =>
        if range.location < pr.location || range.location ≥ pr.maxLength ||
            (range.location == pr.location && range.maxLength > pr.maxLength) then
          s.removeLink
        else
          return s
      | none => return s
    | none => return s

-- Deletes a range together with the list header in front of it. The flag tells whether the text view
-- is to change the text on its own.
def deleteTab (s : State) (range : NSRange) : Option (State × Bool) := do
  let typing ← s.typingAttributes
  match typing.paragraphStyle with
  | some p =>
    let newp := p.transParagraphTo .none
    let s := s.setTypingAttributes <| typing.set .paragraphStyle <| some <| .paragraphStyle newp
    let headLength := (← s.text.tabStyleLengthFor range) - 1
    let s ← s.insert (some []) none true <|
      some ⟨range.location - headLength, range.length + headLength⟩
    return (s, false)
  | none => return (s, true)

def shouldDelete (s : State) (range : NSRange) (tab : RZTextTabStyle) : Option (State × Bool) := do
  let text ← s.text.attributedSubstring range
  if text.string.head? == some NSString.tab then
    let pr ← s.text.parapraghRange range
    let headLength ← s.text.tabStyleLengthFor range
    if range.location ≥ pr.location + headLength then
      return (s, true)
    else
      s.deleteTab range
  else if text.string.head? == some 0x0A && tab == .ol then
    return (← s.insert (some []) none false range, false)
  else
    return (s, true)

def shouldBreak (s : State) (range : NSRange) : Option (State × Bool) := do
  let p ← (← s.text.paragraphAttributedSubString range).removeHeadTabString
  if p.string == [0x0A] then
    s.deleteTab ⟨range.location - 1, range.length + 1⟩
  else
    return (← s.insert (some <| .ofString "\n") none false range, false)

def shouldChangeTextIn (s : State) (range : NSRange) (text : NSString) : Option (State × Bool) := do
  if !s.options.enableTabStyle then
    return (s, true)
  let s ← s.updateLink range
  let tab ← s.text.tabStyleFor range
  if tab == .none then
    return (s, true)
  else if text.isEmpty && range.length > 0 then
    s.shouldDelete range tab
  else if text == .ofString "\n" && range.length == 0 then
    s.shouldBreak range
  else
    return (s, true)

def textViewDidChangeSelection (s : State) : Option State := do
  let selectedRange := s.textView.selectedRange
  if !s.options.enableTabStyle then
    return s
  else if selectedRange.maxLength ≥ s.text.length then
    if s.text.string.getLast? == some 0x0A then
      if (← s.text.tabStyleFor selectedRange) == .none then
        return s
      else
        return s.setSelectedRange ⟨selectedRange.location, selectedRange.length - 1⟩
    else
      return s
  else if (← s.text.tabStyleFor selectedRange) == .none then
    return s
  else
    let rg ← s.text.parapraghRange selectedRange
    let headLength ← s.text.tabStyleLengthFor selectedRange
    if selectedRange.location - rg.location ≥ headLength then
      return s
    else
      let star := rg.location + headLength
      return s.setSelectedRange ⟨star, selectedRange.maxLength - star⟩

-- Changes the text the way the text view does. New text is marked while an input method composes it.
def changeText (s : State) (range : NSRange) (text : NSString) (isMarked : Bool) : Option State := do
  let new ← s.text.replaceCharacters range <| .ofString text s.textView.typingAttributes
  textViewDidChange { s with textView := { s.textView with
    attributedText  := new
    selectedRange   := ⟨range.location + text.length, 0⟩
    markedTextRange :=
      if isMarked && !text.isEmpty then some ⟨range.location, text.length⟩ else none } }

def typeText (s : State) (range : NSRange) (text : NSString) : Option State := do
  let (s, shouldChange) ← s.shouldChangeTextIn range text
  if shouldChange then
    s.changeText range text false
  else
    return s

end State

inductive Event
  | textViewDidBeginEditing
  | typeText (range : NSRange) (text : NSString)
  | setMarkedText (range : NSRange) (text : NSString)
  | changeSelection (range : NSRange)
  | setTypingAttributes (typingAttributes : Attributes)
  | insert (text : Option NSString) (image : Option UIImage) (changeParagraph : Bool)
      (replaceRange : Option NSRange)
  | insetOrDeleteTabStyle (style : RZTextTabStyle)
  | runMainQueue
  | setNotesCount (notesCount : Nat)
  | revokeAction
  | restoreAction

namespace State

variable [ParagraphStyles] [UITextView]

-- An event that does not happen in a state, or at which the program stops with an exception, leads to
-- no state.
def step (s : State) : Event → Option State
  | .textViewDidBeginEditing => s.textViewDidBeginEditing
  | .typeText range text     => s.typeText range text
  | .setMarkedText range text => s.changeText range text true
  | .changeSelection range   => s.setSelectedRange range |>.textViewDidChangeSelection
  | .setTypingAttributes typingAttributes => s.setTypingAttributes typingAttributes
  | .insert text image changeParagraph replaceRange => s.insert text image changeParagraph replaceRange
  | .insetOrDeleteTabStyle style => s.insetOrDeleteTabStyle style
  | .runMainQueue =>
    match s.mainQueue with
    | []                 => none
    | newRange :: others => some { s.setSelectedRange newRange with mainQueue := others }
  | .setNotesCount notesCount => some { s with notesCount }
  | .revokeAction  => s.revokeText true
  | .restoreAction => s.revokeText false

abbrev exec : State → List Event → Option State :=
  Run.exec step

def start (options : RZRichTextViewOptions) (textView : RZRichTextView) (notesCount : Nat) : State :=
  { options, textView, notesCount }

end State

-- A text view that puts the caret at the end of a text that is assigned to it, gives up its marked
-- text, and types with the attributes of the last character.
namespace Sample

@[reducible]
def behaviour : UITextView where
  selectedRange text := ⟨text.length, 0⟩
  markedTextRange _ _ := none
  typingAttributes text _ := text.getLast?.elim (fun _ => none) Character.attributes

def textView : RZRichTextView where
  attributedText   := []
  selectedRange    := ⟨0, 0⟩
  typingAttributes := Attributes.set (fun _ => none) .paragraphStyle <| some <| .paragraphStyle {}

def exec (events : List Event) : Option State :=
  @State.exec styles behaviour (.start {} textView 20) events

end Sample
end RichText
