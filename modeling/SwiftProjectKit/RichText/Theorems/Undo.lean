import SwiftProjectKit.RichText.Theorems.History

namespace RichText

def Event.changesListStyle : Event → Bool
  | .insetOrDeleteTabStyle _ => true
  | _                        => false

namespace State

variable [UITextView] {s s₁ s₂ : State} {revoke : Bool}

theorem revokeText_isSome (s : State) (revoke : Bool) : ∃ s', s.revokeText revoke = some s' :=
  reviseImageMaskViewFrame_isSome _

theorem revokeText_records (hr : s.IsRecorded) (h : s.revokeText revoke = some s₁) :
    Records s s₁ := by
  have hs := revokeText_eq_some h
  cases revoke
  case true  => exact undo_records hr |>.trans_same hs
  case false => exact redo_records hr |>.trans_same hs

theorem current_redo (h : s.stores ≠ []) :
    s.redo.undoHistory.current.map (·.attributedText) = some s.redo.text := by
  have ⟨_, _, _, hr⟩ := s.redo_cases.resolve_left fun hn => h hn.left
  rw [hr]
  exact congrArg _ UndoHistory.current_append

theorem text_undo_redo (hr : s.IsRecorded) (hm : s.textView.markedTextRange = none)
    (hl : 1 < s.history.length) (h₁ : s.revokeText true = some s₁)
    (h₂ : s₁.revokeText false = some s₂) : s₂.text = s.text := by
  have hu₁ : s₁.undoHistory = s.undoHistory.undo := undoHistory_revokeText h₁
  have hu₂ : s₁.redo.undoHistory = s.undoHistory := by
    rw [undoHistory_redo, hu₁, UndoHistory.redo_undo hl]
  have hn : s₁.stores ≠ [] := by
    have ⟨done, a, b, hh, _⟩ := s.undo_cases.resolve_left fun hn => Nat.not_le_of_lt hl hn.left
    have hs := congrArg UndoHistory.undone hu₁
    rw [hh, UndoHistory.undo_append] at hs
    exact ne_of_eq_of_ne hs <| by simp
  have ht : s₂.text = s₁.redo.text := revokeText_eq_some h₂ |>.text
  have hc := current_redo hn
  rw [hu₂, hr hm] at hc
  exact ht.trans <| Option.some.inj hc.symm

variable [ParagraphStyles] {e : Event}

-- If there is something to undo, undoing and redoing it gives back the text that was displayed,
-- unless an input method is composing text.
def IsRestorable (s : State) : Prop :=
  s.textView.markedTextRange = none → 1 < s.history.length →
    ∃ s₁ s₂, s.step .revokeAction = some s₁ ∧ s₁.step .restoreAction = some s₂ ∧ s₂.text = s.text

theorem IsRecorded.isRestorable (h : s.IsRecorded) : s.IsRestorable := by
  intro hm hl
  have ⟨s₁, h₁⟩ := revokeText_isSome s true
  have ⟨s₂, h₂⟩ := revokeText_isSome s₁ false
  exact ⟨s₁, s₂, h₁, h₂, text_undo_redo h hm hl h₁ h₂⟩

theorem step_isRecorded (hr : s.IsRecorded ∧ 0 ≤ s.notesCount) (hc : e.changesListStyle = false)
    (h : s.step e = some s₁) : s₁.IsRecorded ∧ 0 ≤ s₁.notesCount := by
  have hn := hr.right
  cases e
  case textViewDidBeginEditing =>
    exact textViewDidBeginEditing_records (fun _ => hr.left) hn h |>.isRecorded hn
  case typeText => exact typeText_records hn h |>.isRecorded hn
  case setMarkedText => exact changeText_records hn h |>.isRecorded hn
  case changeSelection =>
    have hs := setSelectedRange_same.trans <| textViewDidChangeSelection_same h
    exact ⟨hs.isRecorded hr.left, hs.notesCount ▸ hn⟩
  case setTypingAttributes => exact Option.some.inj h ▸ hr
  case insert => exact insert_records hn h |>.isRecorded hn
  case insetOrDeleteTabStyle => contradiction
  case runMainQueue =>
    simp only [step] at h
    split at h
    case h_1 => contradiction
    case h_2 => exact Option.some.inj h ▸ hr
  case setNotesCount n => exact Option.some.inj h ▸ ⟨hr.left, Int.natCast_nonneg n⟩
  case revokeAction | restoreAction => exact revokeText_records hr.left h |>.isRecorded hn

theorem always_restorable {options : RZRichTextViewOptions} {textView : RZRichTextView}
    {notesCount : Nat} {es : List Event}
    (hb : (start options textView notesCount).step .textViewDidBeginEditing = some s)
    (hc : ∀ e ∈ es, e.changesListStyle = false) :
    Run.Always step (fun s => s.IsRecorded ∧ s.IsRestorable) s es := by
  have hn : (0 : Int) ≤ notesCount := Int.natCast_nonneg _
  have hr := textViewDidBeginEditing_records Bool.noConfusion hn hb
  have hm : Run.Meets step (fun _ e => e.changesListStyle = false) s es :=
    Run.meets_of_forall fun e he _ => hc e he
  refine Run.always_of_invariant (fun s => s.IsRecorded ∧ 0 ≤ s.notesCount) step_isRecorded ?_
    (hr.isRecorded hn) hm
  exact fun h => ⟨h.left, h.left.isRestorable⟩

end State

namespace Sample

def restorable : List Event :=
  [.typeText ⟨0, 0⟩ (.ofString "a"), .insert none (some ⟨[]⟩) false none, .revokeAction,
   .restoreAction]

def changed : List Event :=
  [.textViewDidBeginEditing, .typeText ⟨0, 0⟩ (.ofString "a"), .insetOrDeleteTabStyle .ul]

end Sample

namespace State

theorem sample_restorable :
    ∃ s, Sample.exec [.textViewDidBeginEditing] = some s ∧
      @Run.Always _ _ (@step Sample.styles Sample.behaviour) (fun s =>
        s.IsRecorded ∧ @s.IsRestorable Sample.behaviour Sample.styles) s Sample.restorable :=
  have h : (Sample.exec [.textViewDidBeginEditing]).isSome := by decide +kernel
  have hs := (Option.some_get h).symm
  have hb := Run.exec_singleton.symm.trans hs
  ⟨_, hs, @always_restorable Sample.behaviour _ Sample.styles _ _ _ _ hb (by decide)⟩

-- A change of the list style is displayed without being recorded, so that undoing it jumps past it
-- and redoing loses it.
theorem insetOrDeleteTabStyle_not_restorable :
    ∃ s, Sample.exec Sample.changed = some s ∧ s.textView.markedTextRange = none ∧
      ¬s.IsRecorded ∧ 1 < s.history.length ∧ ¬@IsRestorable Sample.behaviour Sample.styles s := by
  have h : (Sample.exec Sample.changed).map (fun s => (s.textView.markedTextRange, s.history.length,
      s.text.string, s.undoHistory.current.map (·.attributedText.string))) =
        some (none, 2, .ofString "\t•\ta", some <| .ofString "a") := by decide +kernel
  have hr : (Sample.exec <| Sample.changed ++ [.revokeAction, .restoreAction]).map (·.text.string) =
      some (.ofString "a") := by decide +kernel
  have ⟨s, hs, h⟩ := Option.map_eq_some_iff.mp h
  simp only [Prod.mk.injEq] at h
  have ⟨hm, hl, ht, hc⟩ := h
  refine ⟨s, hs, hm, fun h => ?_, by omega, fun h => ?_⟩
  · have h := congrArg (Option.map (·.string)) <| h hm
    rw [Option.map_map, Option.map_some, ht] at h
    exact absurd (hc.symm.trans h) (by decide)
  · have ⟨s₁, s₂, h₁, h₂, h⟩ := h hm (by omega)
    have he : Sample.exec (Sample.changed ++ [.revokeAction, .restoreAction]) = some s₂ := by
      refine Run.exec_append.trans <| congrArg (Option.bind · _) hs |>.trans ?_
      simp [Run.exec, h₁, h₂]
    rw [he, Option.map_some, h, ht] at hr
    exact absurd hr (by decide)

end State
end RichText
