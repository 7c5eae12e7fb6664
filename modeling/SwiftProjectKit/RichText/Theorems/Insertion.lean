import SwiftProjectKit.RichText.Theorems.Attachments
import SwiftProjectKit.RichText.Theorems.History
import SwiftProjectKit.RichText.Theorems.Selection

namespace RichText

namespace Attributes

variable {attributes : Attributes} {key : Key} {value : Option Value}

theorem paragraphStyle_set_of_ne (h : key ≠ .paragraphStyle) :
    (attributes.set key value).paragraphStyle = attributes.paragraphStyle := by
  rw [paragraphStyle, set, Function.update_of_ne h.symm, paragraphStyle]

theorem tabStyle_of_paragraphStyle [ParagraphStyles] {p : NSParagraphStyle}
    (h : attributes.paragraphStyle = some p) : attributes.tabStyle = p.tabStyle := by
  rw [tabStyle, h]

end Attributes

namespace NSAttributedString

variable {text : NSAttributedString} {range : NSRange} {f : Nat}

theorem rangeFor_isSome (key : Key) (hr : range.IsWithin text.length)
    (hf : Segments.Holds text.paragraphs f range.location.toNat) (hlt : range.location < text.length) :
    ∃ pr, text.rangeFor key range = some pr := by
  have ⟨l, hfl, hrg⟩ := parapraghRange_eq_slice hr hf hlt
  simp only [rangeFor, hrg, enumerateAttribute, attributedSubstring_slice (Nat.le_of_lt hfl),
    Option.bind_eq_bind, Option.bind_some]
  exact ⟨_, rfl⟩

end NSAttributedString

namespace State

variable {s s' : State} {typing : Attributes} {range : NSRange}

theorem replaced_eq {tempAttr : NSAttributedString} (hl : 0 ≤ range.length)
    (h : tempAttr ≠ [] ∨ 0 < range.length) : s.replaced tempAttr typing range =
      (s.text.replaceCharacters range tempAttr).map fun new => (new, ⟨range.location + tempAttr.length, 0⟩) := by
  have hc : (tempAttr.length > 0 || tempAttr.length == 0 && range.length > 0) = true := by
    cases tempAttr
    case nil  => simpa using h
    case cons => simp
  simp only [replaced, Option.map_some, Option.getD_some, hc, if_true]
  rw [Option.map_eq_bind]
  by_cases hp : range.length > 0
  case pos => rw [if_pos hp]; rfl
  case neg =>
    have hr : range = ⟨range.location, 0⟩ := by
      rw [← Int.le_antisymm (Int.not_lt.mp hp) hl]
    rw [if_neg hp, NSAttributedString.insert, ← hr]
    rfl

variable [ParagraphStyles]

theorem typingAttributes_isSome (hw : s.textView.selectedRange.IsWithin s.text.length) :
    ∃ typing, s.typingAttributes = some typing := by
  have ⟨tab, ht⟩ := NSAttributedString.exists_tabStyleFor hw
  rw [typingAttributes, ht, Option.bind_eq_bind, Option.bind_some]
  split
  case isFalse => exact ⟨_, rfl⟩
  case isTrue =>
    split
    case h_1 => exact ⟨_, rfl⟩
    case h_2 => exact ⟨_, rfl⟩

theorem paragraphStyle_typingAttributes (h : s.typingAttributes = some typing) :
    typing.paragraphStyle.isSome = s.textView.typingAttributes.paragraphStyle.isSome := by
  have hf : (s.textView.typingAttributes.set .originfontName none).paragraphStyle =
      s.textView.typingAttributes.paragraphStyle := Attributes.paragraphStyle_set_of_ne (by decide)
  cases typingAttributes_eq_some h
  case inl h => rw [h, hf]
  case inr h =>
    have ⟨_, _, hp, h⟩ := h
    rw [h, Attributes.paragraphStyle_set, ← hf, hp]
    rfl

theorem typingAttributes_of_none (hw : s.textView.selectedRange.IsWithin s.text.length)
    (h : s.textView.typingAttributes.tabStyle = .none) :
    s.typingAttributes = some (s.textView.typingAttributes.set .originfontName none) := by
  have ⟨tab, ht⟩ := NSAttributedString.exists_tabStyleFor hw
  have hn : (s.textView.typingAttributes.set .originfontName none).tabStyle = .none := by
    have hp : (s.textView.typingAttributes.set .originfontName none).paragraphStyle = _ :=
      Attributes.paragraphStyle_set_of_ne (by decide)
    rw [Attributes.tabStyle, hp]
    exact h
  rw [typingAttributes, ht, Option.bind_eq_bind, Option.bind_some, hn]
  cases tab <;> rfl

theorem textViewDidChange_isSome (hw : s.textView.selectedRange.IsWithin s.text.length) :
    ∃ s', s.textViewDidChange = some s' := by
  have ⟨s₁, hs⟩ := s.reviseImageMaskViewFrame_isSome
  have ⟨_, _, _, he⟩ := reviseImageMaskViewFrame_eq_some hs
  have ⟨typing, ht⟩ : ∃ typing, s₁.typingAttributes = some typing :=
    typingAttributes_isSome <| he ▸ hw
  simp only [textViewDidChange, hs, Option.bind_eq_bind, Option.bind_some]
  split
  case isTrue  => exact ⟨_, rfl⟩
  case isFalse => exact ⟨_, by rw [addToHistory, ht]; rfl⟩

theorem textViewDidChange_textView (h : s.textViewDidChange = some s') : s'.text = s.text ∧
    s'.textView.selectedRange = s.textView.selectedRange ∧
    s'.textView.typingAttributes = s.textView.typingAttributes := by
  have ⟨s₁, hr, h⟩ := Option.bind_eq_some_iff.mp h
  have ⟨_, _, _, he⟩ := reviseImageMaskViewFrame_eq_some hr
  dsimp only at h
  split at h
  case isTrue  => exact Option.some.inj h ▸ he ▸ ⟨rfl, rfl, rfl⟩
  case isFalse =>
    have ⟨_, _, ht, _⟩ := addToHistory_eq_some h
    rw [text, ht, he]
    exact ⟨rfl, rfl, rfl⟩

theorem changeText_eq_some {string : NSString} {isMarked : Bool}
    (h : s.changeText range string isMarked = some s') :
    s.text.replaceCharacters range (.ofString string s.textView.typingAttributes) = some s'.text := by
  have ⟨new, hn, h⟩ := Option.bind_eq_some_iff.mp h
  have ⟨ht, _⟩ := textViewDidChange_textView h
  rw [hn, ht]
  rfl

variable [UITextView] {new : NSAttributedString} {string : Option NSString} {image : Option UIImage}
  {changeParagraph : Bool} {replaceRange : Option NSRange}

theorem insert_isSome (ht : s.typingAttributes = some typing)
    (hi : s.insertedText (s.inserted string image).fst typing changeParagraph replaceRange =
      some (new, range)) (hw : range.IsWithin new.length) :
    ∃ s', s.insert string image changeParagraph replaceRange = some s' := by
  let s₁ := s.addSubview (s.inserted string image).snd |>.setAttributedText new |>.setSelectedRange range
  let s₂ := if changeParagraph then s₁.setTypingAttributes typing else s₁
  have hw : s₂.textView.selectedRange.IsWithin s₂.text.length := by
    simp only [s₂]
    split
    case isTrue  => exact hw
    case isFalse => exact hw
  have ⟨s₃, hs⟩ := textViewDidChange_isSome hw
  refine ⟨s₃.didInsetAttachment (s.inserted string image).snd, ?_⟩
  simp only [insert, ht, hi, Option.bind_eq_bind, Option.bind_some]
  exact congrArg (Option.bind · _) hs

theorem insert_insertedText (h : s.insert string image changeParagraph replaceRange = some s') :
    ∃ typing range, s.typingAttributes = some typing ∧
      s.insertedText (s.inserted string image).fst typing changeParagraph replaceRange =
        some (s'.text, range) ∧
      s'.textView.selectedRange = range ∧
      (changeParagraph → s'.textView.typingAttributes = typing) := by
  have ⟨typing, ht, h⟩ := Option.bind_eq_some_iff.mp h
  have ⟨(new, range), hi, h⟩ := Option.bind_eq_some_iff.mp h
  have ⟨s₃, hs, h⟩ := Option.bind_eq_some_iff.mp h
  have ⟨htext, hsel, htyp⟩ := textViewDidChange_textView hs
  have ht' : s₃.text = new := by
    rw [htext]
    split <;> rfl
  have hr : s₃.textView.selectedRange = range := by
    rw [hsel]
    split <;> rfl
  cases Option.some.inj h
  refine ⟨typing, range, ht, ht' ▸ hi, hr, fun hc => ?_⟩
  subst hc
  exact htyp

end State
end RichText
