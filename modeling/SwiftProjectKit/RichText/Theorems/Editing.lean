import SwiftProjectKit.RichText.Delegate

namespace RichText
namespace State

variable {s s' s'' : State}

def withViews (s : State) (subviews attachments : List NSTextAttachment) (calls : List AttachmentCall) :
    State :=
  { s with textView := { s.textView with subviews }, attachments, attachmentCalls := calls }

theorem foldl_reviseAttachment_eq (attachments : List NSTextAttachment) :
    ∃ subviews calls, attachments.foldl reviseAttachment s = s.withViews subviews s.attachments calls := by
  induction attachments generalizing s
  case nil => exact ⟨_, _, rfl⟩
  case cons attach attachments hi =>
    have ⟨subviews, calls, hr⟩ : ∃ subviews calls,
        s.reviseAttachment attach = s.withViews subviews s.attachments calls := by
      rw [reviseAttachment]
      split
      case isTrue  => exact ⟨_, _, rfl⟩
      case isFalse => exact ⟨_, _, rfl⟩
    have ⟨subviews', calls', hi⟩ := hi (s := s.reviseAttachment attach)
    rw [hr] at hi
    exact ⟨subviews', calls', by rw [List.foldl_cons, hr, hi]; rfl⟩

theorem reviseImageMaskViewFrame_eq_some (h : s.reviseImageMaskViewFrame = some s') :
    ∃ subviews attachments calls, s' = s.withViews subviews attachments calls := by
  have ⟨attachments, _, h⟩ := Option.bind_eq_some_iff.mp h
  have ⟨_, _, hs⟩ := foldl_reviseAttachment_eq attachments (s := s)
  rw [hs] at h
  exact ⟨_, _, _, (Option.some.inj h).symm⟩

variable [ParagraphStyles]

def Retypes (s s' : State) : Prop :=
  ∃ typing : Attributes, typing .attachment = s.textView.typingAttributes .attachment ∧
    s' = s.setTypingAttributes typing

omit [ParagraphStyles] in
theorem Retypes.refl (s : State) : Retypes s s :=
  ⟨_, rfl, rfl⟩

omit [ParagraphStyles] in
theorem Retypes.trans (h : Retypes s s') (h' : Retypes s' s'') : Retypes s s'' := by
  have ⟨_, ht, hs⟩ := h
  have ⟨typing, ht', hs'⟩ := h'
  refine ⟨typing, ht'.trans <| ?_, hs' ▸ hs ▸ rfl⟩
  rw [hs]
  exact ht

theorem typingAttributes_eq_some {typing : Attributes} (h : s.typingAttributes = some typing) :
    typing = s.textView.typingAttributes.set .originfontName none ∨
      ∃ p tab, (s.textView.typingAttributes.set .originfontName none).paragraphStyle = some p ∧
        typing = (s.textView.typingAttributes.set .originfontName none).set .paragraphStyle
          (some <| .paragraphStyle <| p.transParagraphTo tab) := by
  have ⟨tab, _, h⟩ := Option.bind_eq_some_iff.mp h
  split at h
  case isFalse => exact .inl (Option.some.inj h).symm
  case isTrue =>
    split at h
    case h_1 p hp => exact .inr ⟨p, tab, hp, (Option.some.inj h).symm⟩
    case h_2 => exact .inl (Option.some.inj h).symm

theorem typingAttributes_attachment {typing : Attributes} (h : s.typingAttributes = some typing) :
    typing .attachment = s.textView.typingAttributes .attachment := by
  cases typingAttributes_eq_some h
  case inl h => exact h ▸ rfl
  case inr h =>
    have ⟨_, _, _, h⟩ := h
    exact h ▸ rfl

theorem Retypes.of_typingAttributes {typing new : Attributes} (h : s.typingAttributes = some typing)
    (hn : new .attachment = typing .attachment) : Retypes s (s.setTypingAttributes new) :=
  ⟨new, hn.trans <| typingAttributes_attachment h, rfl⟩

theorem removeLink_retypes (h : s.removeLink = some s') : Retypes s s' := by
  have ⟨typing, ht, h⟩ := Option.bind_eq_some_iff.mp h
  exact Option.some.inj h ▸ .of_typingAttributes ht rfl

variable {range : NSRange}

theorem updateLink_eq_some (h : s.updateLink range = some s') : s' = s ∨ s.removeLink = some s' := by
  rw [updateLink] at h
  split at h
  case isTrue => exact .inr h
  case isFalse =>
    have ⟨_, _, h⟩ := Option.bind_eq_some_iff.mp h
    split at h
    case h_2 => exact .inl (Option.some.inj h).symm
    case h_1 =>
      have ⟨_, _, h⟩ := Option.bind_eq_some_iff.mp h
      split at h
      case h_2 => exact .inl (Option.some.inj h).symm
      case h_1 =>
        split at h
        case isTrue  => exact .inr h
        case isFalse => exact .inl (Option.some.inj h).symm

theorem updateLink_retypes (h : s.updateLink range = some s') : Retypes s s' := by
  cases updateLink_eq_some h
  case inl h => exact h ▸ .refl s
  case inr h => exact removeLink_retypes h

variable [UITextView] {answer : State × Bool} {string : NSString}

-- When asked whether the text view may change the text, the helper either leaves this to the text
-- view, or inserts or deletes something itself.
inductive Answers (s : State) : State × Bool → Prop
  | leaves {s' : State} (h : Retypes s s') : Answers s (s', true)
  | inserts {s' s'' : State} (string : NSString) (changeParagraph : Bool) (replaceRange : NSRange)
    (h : Retypes s s') (hi : s'.insert string none changeParagraph replaceRange = some s'') :
    Answers s (s'', false)

theorem Answers.of_retypes (h : Retypes s s') (ha : s'.Answers answer) : s.Answers answer := by
  cases ha
  case leaves h' => exact .leaves <| h.trans h'
  case inserts string changeParagraph replaceRange h' hi =>
    exact .inserts string changeParagraph replaceRange (h.trans h') hi

theorem deleteTab_answers (h : s.deleteTab range = some answer) : s.Answers answer := by
  have ⟨typing, ht, h⟩ := Option.bind_eq_some_iff.mp h
  split at h
  case h_2 => exact Option.some.inj h ▸ .leaves (.refl s)
  case h_1 =>
    have ⟨_, _, h⟩ := Option.bind_eq_some_iff.mp h
    have ⟨_, hi, h⟩ := Option.bind_eq_some_iff.mp h
    refine Option.some.inj h ▸ .inserts _ _ _ ?_ hi
    exact .of_typingAttributes ht rfl

theorem shouldDelete_answers {style : RZTextTabStyle} (h : s.shouldDelete range style = some answer) :
    s.Answers answer := by
  have ⟨_, _, h⟩ := Option.bind_eq_some_iff.mp h
  split_ifs at h with ht hl
  · have ⟨_, _, h⟩ := Option.bind_eq_some_iff.mp h
    have ⟨_, _, h⟩ := Option.bind_eq_some_iff.mp h
    split_ifs at h
    · exact Option.some.inj h ▸ .leaves (.refl s)
    · exact deleteTab_answers h
  · have ⟨_, hi, h⟩ := Option.bind_eq_some_iff.mp h
    exact Option.some.inj h ▸ .inserts _ _ _ (.refl s) hi
  · exact Option.some.inj h ▸ .leaves (.refl s)

theorem shouldBreak_answers (h : s.shouldBreak range = some answer) : s.Answers answer := by
  have ⟨_, _, h⟩ := Option.bind_eq_some_iff.mp h
  have ⟨_, _, h⟩ := Option.bind_eq_some_iff.mp h
  split_ifs at h
  · exact deleteTab_answers h
  · have ⟨_, hi, h⟩ := Option.bind_eq_some_iff.mp h
    exact Option.some.inj h ▸ .inserts _ _ _ (.refl s) hi

theorem shouldChangeTextIn_answers (h : s.shouldChangeTextIn range string = some answer) :
    s.Answers answer := by
  rw [shouldChangeTextIn] at h
  split at h
  case isTrue => exact Option.some.inj h ▸ .leaves (.refl s)
  case isFalse =>
    have ⟨_, hl, h⟩ := Option.bind_eq_some_iff.mp h
    have ⟨_, _, h⟩ := Option.bind_eq_some_iff.mp h
    refine .of_retypes (updateLink_retypes hl) ?_
    split_ifs at h
    · exact Option.some.inj h ▸ .leaves (.refl _)
    · exact shouldDelete_answers h
    · exact shouldBreak_answers h
    · exact Option.some.inj h ▸ .leaves (.refl _)

theorem typeText_cases (h : s.typeText range string = some s') : ∃ s₁, Retypes s s₁ ∧
    (s₁.changeText range string false = some s' ∨ ∃ string changeParagraph replaceRange,
      s₁.insert (some string) none changeParagraph (some replaceRange) = some s') := by
  have ⟨answer, ha, h⟩ := Option.bind_eq_some_iff.mp h
  cases shouldChangeTextIn_answers ha
  case leaves s₁ hr => exact ⟨s₁, hr, .inl h⟩
  case inserts s₁ _ string changeParagraph replaceRange hr hi =>
    exact ⟨s₁, hr, .inr ⟨string, changeParagraph, replaceRange, Option.some.inj h ▸ hi⟩⟩

theorem textViewDidChangeSelection_eq_some (h : s.textViewDidChangeSelection = some s') :
    s' = s ∨ ∃ selectedRange, s' = s.setSelectedRange selectedRange := by
  simp only [textViewDidChangeSelection, Option.bind_eq_bind, Option.pure_def] at h
  split_ifs at h
  · exact .inl (Option.some.inj h).symm
  · have ⟨_, _, h⟩ := Option.bind_eq_some_iff.mp h
    split_ifs at h
    · exact .inl (Option.some.inj h).symm
    · exact .inr ⟨_, (Option.some.inj h).symm⟩
  · exact .inl (Option.some.inj h).symm
  · have ⟨_, _, h⟩ := Option.bind_eq_some_iff.mp h
    split at h
    case isTrue => exact .inl (Option.some.inj h).symm
    case isFalse =>
      have ⟨_, _, h⟩ := Option.bind_eq_some_iff.mp h
      have ⟨_, _, h⟩ := Option.bind_eq_some_iff.mp h
      split_ifs at h
      · exact .inl (Option.some.inj h).symm
      · exact .inr ⟨_, (Option.some.inj h).symm⟩

end State
end RichText
