import SwiftProjectKit.RichText.Delegate

namespace RichText

-- What happens to the undo buffer of a helper. In between, the text view comes to be in any state.
inductive BufferEvent
  | changeTextView (textView : RZRichTextView)
  | addToHistory
  | revokeAction
  | restoreAction
  | setNotesCount (notesCount : Nat)

namespace State

variable [ParagraphStyles] [UITextView]

def bufferStep (s : State) : BufferEvent → Option State
  | .changeTextView textView  => some { s with textView }
  | .addToHistory             => s.addToHistory
  | .revokeAction             => s.revokeText true
  | .restoreAction            => s.revokeText false
  | .setNotesCount notesCount => some { s with notesCount }

end State
end RichText
