import SwiftProjectKit.RichText.Configure
import SwiftProjectKit.RichText.Helper
import SwiftProjectKit.Strings.Percent

namespace RichText
namespace State

variable [ParagraphStyles] [UITextView]

-- The URL becomes the text if there is neither a text nor an image.
def linkEditEnd (s : State) (text : String) (image : Option UIImage) (url : String) : Option State := do
  let tempText := if url ≠ "" ∧ text = "" ∧ image.isNone then url else text
  let s ←
    if url ≠ "" then
      pure <| s.setTypingAttributes <| (← s.typingAttributes).set .link <| some <| .other url
    else
      pure s
  s.insert (some <| .ofString tempText) image false none

def finish (s : State) (type : RZTextViewToolbarItem) (typingAttributes : Attributes) : Option State :=
  let s := s.setTypingAttributes typingAttributes
  if type = .tabStyle then do
    match (← s.typingAttributes) .tabStyle with
    | some (.tabStyle style) => s.insetOrDeleteTabStyle style
    | _                      => s
  else
    s.insert none none (type = .paragraph) none

-- A link is confirmed along with the attributes that were there when its fields were displayed.
def confirmLink (s : State) (linkTextField textField : Option String) (image : Option UIImage) : Option State := do
  let typingAttributes ← s.typingAttributes
  let url := Strings.linkString linkTextField |>.getD ""
  let text := textField.getD ""
  let s ← s.linkEditEnd text image url
  s.finish .link typingAttributes

end State
end RichText
