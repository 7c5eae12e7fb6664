import SwiftProjectKit.Primitives.Run
import SwiftProjectKit.Primitives.UndoHistory
import SwiftProjectKit.RichText.Theorems.Editing
import SwiftProjectKit.RichText.Theorems.Styles

namespace RichText
namespace State

-- What is displayed, recorded and configured. The views of attachments are not part of it.
structure Same (s s' : State) : Prop where
  text       : s'.text = s.text
  marked     : s'.textView.markedTextRange = s.textView.markedTextRange
  history    : s'.history = s.history
  stores     : s'.stores = s.stores
  notesCount : s'.notesCount = s.notesCount

-- The history of the helper as one of states of a document.
def undoHistory (s : State) : UndoHistory Entry where
  done   := s.history
  undone := s.stores

-- The last entry of the history holds what is displayed, unless an input method is composing text.
def IsRecorded (s : State) : Prop :=
  s.textView.markedTextRange = none →
    s.undoHistory.current.map (·.attributedText) = some s.text

structure Records (s s' : State) : Prop where
  recorded   : s'.IsRecorded
  notesCount : s'.notesCount = s.notesCount

variable {s s' s'' : State}

theorem Same.isRecorded (h : Same s s') (hr : s.IsRecorded) : s'.IsRecorded := by
  intro hm
  rw [undoHistory, h.history, h.text]
  exact hr <| h.marked ▸ hm

theorem Same.trans (h : Same s s') (h' : Same s' s'') : Same s s'' where
  text       := h'.text.trans h.text
  marked     := h'.marked.trans h.marked
  history    := h'.history.trans h.history
  stores     := h'.stores.trans h.stores
  notesCount := h'.notesCount.trans h.notesCount

theorem Records.of_notesCount (h : Records s' s'') (hc : s'.notesCount = s.notesCount) :
    Records s s'' where
  recorded   := h.recorded
  notesCount := h.notesCount.trans hc

theorem Records.trans_same (h : Records s s') (hs : Same s' s'') : Records s s'' where
  recorded   := hs.isRecorded h.recorded
  notesCount := hs.notesCount.trans h.notesCount

theorem Records.isRecorded (h : Records s s') (hn : 0 ≤ s.notesCount) :
    s'.IsRecorded ∧ 0 ≤ s'.notesCount :=
  ⟨h.recorded, h.notesCount ▸ hn⟩

theorem reviseImageMaskViewFrame_same (h : s.reviseImageMaskViewFrame = some s') : Same s s' := by
  have ⟨_, _, _, h⟩ := reviseImageMaskViewFrame_eq_some h
  exact h ▸ ⟨rfl, rfl, rfl, rfl, rfl⟩

theorem reviseImageMaskViewFrame_isSome (s : State) : ∃ s', s.reviseImageMaskViewFrame = some s' := by
  simp [reviseImageMaskViewFrame, NSAttributedString.richTextAttachments,
    NSAttributedString.enumerateAttribute_whole]

section

variable [UITextView] {done : List Entry} {a b : Entry}

theorem setSelectedRange_same {range : NSRange} : Same s (s.setSelectedRange range) :=
  ⟨rfl, rfl, rfl, rfl, rfl⟩

theorem undo_append (h : s.history = done ++ [a, b]) :
    s.undo = { setEntry { s with stores := s.stores ++ [b] } a with history := done ++ [a] } := by
  have hs : done ++ [a, b] = done ++ [a] ++ [b] := by simp
  have hl : ¬s.history.length ≤ 1 := by simp [h]
  have hn : s.history.getLast? = some b := by rw [h, hs, List.getLast?_concat]
  have hv : s.history[s.history.length - 2]? = some a := by simp [h]
  have hd : s.history.dropLast = done ++ [a] := by rw [h, hs, List.dropLast_concat]
  simp only [undo, if_neg hl, hn, hv, hd]

theorem undo_cases (s : State) :
    (s.history.length ≤ 1 ∧ s.undo = s) ∨ ∃ done a b, s.undoHistory = ⟨done ++ [a, b], s.stores⟩ ∧
      s.undo = { setEntry { s with stores := s.stores ++ [b] } a with history := done ++ [a] } := by
  by_cases h : s.history.length ≤ 1
  case pos => exact .inl ⟨h, by rw [undo, if_pos h]⟩
  case neg =>
    have ⟨done, a, b, hd⟩ := UndoHistory.exists_append (h := s.undoHistory) <| Nat.lt_of_not_le h
    exact .inr ⟨done, a, b, congrArg (UndoHistory.mk · s.stores) hd, undo_append hd⟩

theorem redo_cases (s : State) :
    (s.stores = [] ∧ s.redo = s) ∨ ∃ undone a, s.undoHistory = ⟨s.history, undone ++ [a]⟩ ∧
      s.redo = { setEntry { s with history := s.history ++ [a] } a with stores := undone } := by
  cases h : s.stores.getLast?
  case none => exact .inl ⟨List.getLast?_eq_none_iff.mp h, by simp only [redo, h]⟩
  case some a =>
    have ⟨undone, hu⟩ := List.getLast?_eq_some_iff.mp h
    have hd : s.stores.dropLast = undone := by rw [hu, List.dropLast_concat]
    exact .inr ⟨undone, a, congrArg (UndoHistory.mk s.history) hu, by simp only [redo, h, hd]⟩

theorem undoHistory_undo (s : State) : s.undo.undoHistory = s.undoHistory.undo := by
  cases s.undo_cases
  case inl h =>
    have ⟨hl, hu⟩ := h
    rw [hu, UndoHistory.undo_of_length_le hl]
  case inr h =>
    have ⟨done, a, b, hh, hu⟩ := h
    rw [hu, hh, UndoHistory.undo_append]
    rfl

theorem undoHistory_redo (s : State) : s.redo.undoHistory = s.undoHistory.redo := by
  cases s.redo_cases
  case inl h =>
    have ⟨hs, hr⟩ := h
    rw [hr, undoHistory, hs]
    rfl
  case inr h =>
    have ⟨undone, a, hh, hr⟩ := h
    rw [hr, hh, UndoHistory.redo_append]
    rfl

theorem undo_records (h : s.IsRecorded) : Records s s.undo := by
  cases s.undo_cases
  case inl hu => exact hu.right.symm ▸ ⟨h, rfl⟩
  case inr hu =>
    have ⟨_, _, _, _, hu⟩ := hu
    exact hu ▸ ⟨fun _ => congrArg _ UndoHistory.current_append, rfl⟩

theorem redo_records (h : s.IsRecorded) : Records s s.redo := by
  cases s.redo_cases
  case inl hr => exact hr.right.symm ▸ ⟨h, rfl⟩
  case inr hr =>
    have ⟨_, _, _, hr⟩ := hr
    exact hr ▸ ⟨fun _ => congrArg _ UndoHistory.current_append, rfl⟩

theorem revokeText_eq_some {revoke : Bool} (h : s.revokeText revoke = some s') :
    Same (if revoke then s.undo else s.redo) s' :=
  have hs := reviseImageMaskViewFrame_same h
  ⟨hs.text, hs.marked, hs.history, hs.stores, hs.notesCount⟩

theorem undoHistory_revokeText {revoke : Bool} (h : s.revokeText revoke = some s') :
    s'.undoHistory = if revoke then s.undoHistory.undo else s.undoHistory.redo := by
  have hs := revokeText_eq_some h
  rw [undoHistory, hs.history, hs.stores]
  cases revoke
  case false => exact undoHistory_redo s
  case true  => exact undoHistory_undo s

end

section

variable [ParagraphStyles]

theorem addToHistory_eq_some (h : s.addToHistory = some s') :
    ∃ typing, s'.undoHistory = s.undoHistory.record (s.notesCount + 1) (s.entry typing) ∧
      s'.textView = s.textView ∧ s'.notesCount = s.notesCount := by
  simp only [addToHistory, Option.bind_eq_bind, Option.bind_eq_some_iff, Option.pure_def,
    Option.some.injEq] at h
  have ⟨typing, _, h⟩ := h
  exact ⟨typing, by rw [← h]; rfl, by rw [← h], by rw [← h]⟩

theorem addToHistory_records (hn : 0 ≤ s.notesCount) (h : s.addToHistory = some s') :
    Records s s' := by
  have ⟨typing, hh, ht, hc⟩ := addToHistory_eq_some h
  refine ⟨fun _ => ?_, hc⟩
  rw [hh, UndoHistory.current_record (by omega), text, ht]
  rfl

theorem textViewDidBeginEditing_records (hr : s.isFirstUse = false → s.IsRecorded)
    (hn : 0 ≤ s.notesCount) (h : s.textViewDidBeginEditing = some s') : Records s s' := by
  rw [textViewDidBeginEditing] at h
  split at h
  case isTrue =>
    simp only [Option.bind_eq_bind, Option.bind_eq_some_iff, Option.pure_def, Option.some.injEq] at h
    have ⟨_, ha, he⟩ := h
    have ⟨hs, hc⟩ := addToHistory_records hn ha
    exact he ▸ ⟨hs, hc⟩
  case isFalse hf =>
    exact Option.some.inj h ▸ ⟨hr <| by simpa using hf, rfl⟩

theorem textViewDidChange_records (hn : 0 ≤ s.notesCount) (h : s.textViewDidChange = some s') :
    Records s s' := by
  simp only [textViewDidChange, Option.bind_eq_bind, Option.bind_eq_some_iff] at h
  have ⟨s₁, hr, h⟩ := h
  have hs := reviseImageMaskViewFrame_same hr
  split at h
  case isTrue hm =>
    cases Option.some.inj h
    refine ⟨fun hn => ?_, hs.notesCount⟩
    simp [hn] at hm
  case isFalse =>
    exact addToHistory_records (hs.notesCount ▸ hn) h |>.of_notesCount hs.notesCount

variable {range : NSRange}

theorem changeText_records {string : NSString} {isMarked : Bool} (hn : 0 ≤ s.notesCount)
    (h : s.changeText range string isMarked = some s') : Records s s' := by
  simp only [changeText, Option.bind_eq_bind, Option.bind_eq_some_iff] at h
  have ⟨_, _, h⟩ := h
  exact textViewDidChange_records (by exact hn) h |>.of_notesCount rfl

variable [UITextView]

theorem insert_eq_some {string : Option NSString} {image : Option UIImage} {changeParagraph : Bool}
    {replaceRange : Option NSRange} (h : s.insert string image changeParagraph replaceRange = some s') :
    ∃ s₁ s₂ : State, s₁.notesCount = s.notesCount ∧ s₁.textViewDidChange = some s₂ ∧ Same s₂ s' := by
  simp only [insert, Option.bind_eq_bind, Option.bind_eq_some_iff, Option.pure_def,
    Option.some.injEq] at h
  have ⟨_, _, _, _, s₂, hd, he⟩ := h
  refine ⟨_, s₂, ?_, hd, he ▸ ⟨rfl, rfl, rfl, rfl, rfl⟩⟩
  cases changeParagraph <;> rfl

theorem insert_records {string : Option NSString} {image : Option UIImage} {changeParagraph : Bool}
    {replaceRange : Option NSRange} (hn : 0 ≤ s.notesCount)
    (h : s.insert string image changeParagraph replaceRange = some s') : Records s s' := by
  have ⟨_, _, hc, hd, hs⟩ := insert_eq_some h
  exact textViewDidChange_records (hc ▸ hn) hd |>.of_notesCount hc |>.trans_same hs

theorem typeText_records {string : NSString} (hn : 0 ≤ s.notesCount)
    (h : s.typeText range string = some s') : Records s s' := by
  have ⟨s₁, ⟨_, _, hr⟩, h⟩ := typeText_cases h
  have hc : s₁.notesCount = s.notesCount := hr ▸ rfl
  cases h
  case inl h => exact changeText_records (hc ▸ hn) h |>.of_notesCount hc
  case inr h =>
    have ⟨_, _, _, h⟩ := h
    exact insert_records (hc ▸ hn) h |>.of_notesCount hc

theorem textViewDidChangeSelection_same (h : s.textViewDidChangeSelection = some s') : Same s s' := by
  cases textViewDidChangeSelection_eq_some h
  case inl h => exact h ▸ ⟨rfl, rfl, rfl, rfl, rfl⟩
  case inr h =>
    have ⟨_, h⟩ := h
    exact h ▸ setSelectedRange_same

end

end State
end RichText
