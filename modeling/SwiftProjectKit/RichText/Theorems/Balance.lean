import SwiftProjectKit.RichText.Theorems.Notifications

namespace RichText

def Event.changesText : Event → Bool
  | .typeText .. | .setMarkedText .. | .insert .. | .revokeAction | .restoreAction => true
  | _                                                                              => false

def Event.TypesNoAttachment (e : Event) : Prop :=
  ∀ typingAttributes, e = .setTypingAttributes typingAttributes → typingAttributes .attachment = none

namespace State

open NSAttributedString (Carries)

variable {s s' : State} {e : Event}

structure Balances (s : State) (e : Event) (s' : State) : Prop where
  alternates : ∀ attach, Alternates (s'.notifications attach)
  last       : e.changesText →
    ∀ attach, (s'.notifications attach).getLast? = some true ↔ s'.text.Carries attach

-- Every attachment is accounted for.
def IsAnnounced (s : State) : Prop :=
  s.Known ∧ ∀ attach, s.Announced attach

theorem Keeps.balances (h : Keeps s s') (hs : s.IsAnnounced) (he : e.changesText = false) :
    s'.IsAnnounced ∧ Balances s e s' := by
  have ha (attach : NSTextAttachment) := h.announced hs.left attach <| hs.right attach
  exact ⟨⟨h.known hs.left, ha⟩, fun attach => ha attach |>.alternates, fun hc => absurd hc (by simp [he])⟩

theorem Settles.balances (h : Settles s s') (hs : s.IsAnnounced) :
    s'.IsAnnounced ∧ Balances s e s' := by
  have ha (attach : NSTextAttachment) := h.announced hs.left attach <| hs.right attach
  refine ⟨⟨h.known hs.left, ha⟩, fun attach => ha attach |>.alternates, fun _ attach => ?_⟩
  rw [(ha attach).last, h.settled hs.left]

section

variable [ParagraphStyles] [UITextView]
  (hu : ∀ text range, UITextView.typingAttributes text range .attachment = none)
include hu

theorem typeText_settles {range : NSRange} {string : NSString} (hk : s.Known)
    (h : s.typeText range string = some s') : Settles s s' := by
  have ⟨s₁, hr, h⟩ := typeText_cases h
  refine hr.keeps.trans_settles ?_
  cases h
  case inl h => exact changeText_settles h
  case inr h =>
    have ⟨_, _, _, h⟩ := h
    exact insert_settles hu (hr.keeps.known hk) h

theorem step_balances (hs : s.IsAnnounced) (he : e.TypesNoAttachment) (h : s.step e = some s') :
    s'.IsAnnounced ∧ Balances s e s' := by
  have hk := hs.left
  cases e
  case textViewDidBeginEditing =>
    refine Keeps.balances ?_ hs rfl
    rw [step, textViewDidBeginEditing] at h
    split at h
    case isFalse => exact Option.some.inj h ▸ .refl s
    case isTrue =>
      obtain ⟨_, ha, h⟩ := Option.bind_eq_some_iff.mp h
      obtain ⟨hv, hk⟩ := addToHistory_keeps ha
      refine Option.some.inj h ▸ .of_known (fun hs => ?_) ?_ hv.attachments hv.calls
      · exact ⟨(hk hs).current, (hk hs).history, (hk hs).stores, (hk hs).attachments⟩
      · exact congrArg RZRichTextView.subviews hv.textView
  case typeText => exact typeText_settles hu hk h |>.balances hs
  case setMarkedText => exact changeText_settles h |>.balances hs
  case changeSelection range =>
    refine Keeps.balances ?_ hs rfl
    cases textViewDidChangeSelection_eq_some h
    case inl h => exact h ▸ setSelectedRange_keeps hu
    case inr h =>
      obtain ⟨_, h⟩ := h
      exact h ▸ (setSelectedRange_keeps hu).trans (setSelectedRange_keeps hu)
  case setTypingAttributes typing =>
    refine Keeps.balances ?_ hs rfl
    exact Retypes.keeps ⟨typing, he typing rfl |>.trans hk.current.typing.symm, (Option.some.inj h).symm⟩
  case insert => exact insert_settles hu hk h |>.balances hs
  case insetOrDeleteTabStyle => exact insetOrDeleteTabStyle_keeps hu h |>.balances hs rfl
  case runMainQueue =>
    refine Keeps.balances ?_ hs rfl
    rw [step] at h
    split at h
    case h_1 => contradiction
    case h_2 newRange _ _ =>
      have hr : Keeps s (s.setSelectedRange newRange) := setSelectedRange_keeps hu
      refine hr.trans <| Option.some.inj h ▸ .of_known (fun hk => ?_) rfl rfl rfl
      exact ⟨hk.current, hk.history, hk.stores, hk.attachments⟩
  case setNotesCount =>
    refine Keeps.balances ?_ hs rfl
    refine Option.some.inj h ▸ .of_known (fun hk => ?_) rfl rfl rfl
    exact ⟨hk.current, hk.history, hk.stores, hk.attachments⟩
  case revokeAction | restoreAction => exact revokeText_settles h |>.balances hs

end

theorem isAnnounced_start {options : RZRichTextViewOptions} {textView : RZRichTextView}
    {notesCount created : Nat} (hv : textView.subviews = [])
    (ht : textView.typingAttributes .attachment = none)
    (hn : ∀ attach, Carries textView.attributedText attach → attach.number < created) :
    { start options textView notesCount with created : State }.IsAnnounced := by
  refine ⟨⟨⟨ht, hn⟩, nofun, nofun, nofun⟩, fun attach => ⟨.nil, ?_, ?_⟩⟩
  · simp [start, hv]
  · simp [start, notifications]

-- Assumes that a text view does not type with attachments, so that each attachment of a text has been
-- there from the beginning or comes from an inserted image.
theorem steps_balances [ParagraphStyles] [UITextView]
    (hu : ∀ text range, UITextView.typingAttributes text range .attachment = none)
    {options : RZRichTextViewOptions} {textView : RZRichTextView} {notesCount created : Nat}
    {es : List Event} (hv : textView.subviews = []) (ht : textView.typingAttributes .attachment = none)
    (hn : ∀ attach, Carries textView.attributedText attach → attach.number < created)
    (he : ∀ e ∈ es, e.TypesNoAttachment) :
    Run.Steps step Balances { start options textView notesCount with created } es :=
  have hc : Run.Meets step (fun _ e => e.TypesNoAttachment) _ es :=
    Run.meets_of_forall fun e h _ => he e h
  Run.steps_of_invariant IsAnnounced (fun hs he h => step_balances hu hs he h)
    (isAnnounced_start hv ht hn) hc

end State

namespace Sample

@[reducible]
def noAttachment : UITextView :=
  { behaviour with
    typingAttributes text range := behaviour.typingAttributes text range |>.set .attachment none }

def replaced : List Event :=
  [.textViewDidBeginEditing, .insert none (some ⟨[]⟩) false none,
   .typeText ⟨0, 1⟩ (.ofString "a"), .revokeAction, .restoreAction]

end Sample

theorem State.sample_balances :
    (@State.exec Sample.styles Sample.noAttachment (.start {} Sample.textView 20) Sample.replaced).map
      (·.notifications ⟨0⟩) = some [true, false, true, false] ∧
    @Run.Steps _ _ (@State.step Sample.styles Sample.noAttachment) State.Balances
      (.start {} Sample.textView 20) Sample.replaced :=
  ⟨by decide +kernel,
    @State.steps_balances Sample.styles Sample.noAttachment (fun _ _ => rfl) {} Sample.textView 20 0
      Sample.replaced rfl rfl (by rintro _ ⟨_, hm, _⟩; nomatch hm)
      (by simp [Sample.replaced, Event.TypesNoAttachment])⟩

end RichText
