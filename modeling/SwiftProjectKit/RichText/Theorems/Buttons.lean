import SwiftProjectKit.RichText.Theorems.Buffer
import SwiftProjectKit.RichText.Theorems.Undo

namespace RichText
namespace State

variable {s s' : State}

structure Lit (s : State) : Prop where
  left  : s.leftBtnSelected = decide (1 < s.history.length)
  right : s.rightBtnSelected = decide (0 < s.stores.length)

theorem lit_of_revised (h : s.reviseImageMaskViewFrame = some s') (hs : s.Lit) : s'.Lit := by
  have ⟨_, _, _, h⟩ := reviseImageMaskViewFrame_eq_some h
  exact h ▸ ⟨hs.left, hs.right⟩

theorem revokeText_lit [UITextView] {revoke : Bool} (h : s.revokeText revoke = some s') : s'.Lit :=
  lit_of_revised h ⟨rfl, rfl⟩

section

variable [ParagraphStyles]

theorem addToHistory_lit (h : s.addToHistory = some s') : s'.Lit := by
  obtain ⟨_, _, h⟩ := Option.bind_eq_some_iff.mp h
  exact Option.some.inj h ▸ ⟨rfl, rfl⟩

theorem textViewDidBeginEditing_lit (hs : s.Lit) (h : s.textViewDidBeginEditing = some s') : s'.Lit := by
  rw [textViewDidBeginEditing] at h
  split at h
  case isTrue =>
    obtain ⟨_, ha, h⟩ := Option.bind_eq_some_iff.mp h
    have hs := addToHistory_lit ha
    exact Option.some.inj h ▸ ⟨hs.left, hs.right⟩
  case isFalse => exact Option.some.inj h ▸ hs

theorem textViewDidChange_lit (hs : s.Lit) (h : s.textViewDidChange = some s') : s'.Lit := by
  simp only [textViewDidChange, Option.bind_eq_bind, Option.bind_eq_some_iff] at h
  obtain ⟨s₁, hr, h⟩ := h
  split at h
  case isTrue  => exact Option.some.inj h ▸ lit_of_revised hr hs
  case isFalse => exact addToHistory_lit h

theorem changeText_lit {range : NSRange} {string : NSString} {isMarked : Bool} (hs : s.Lit)
    (h : s.changeText range string isMarked = some s') : s'.Lit := by
  obtain ⟨_, _, h⟩ := Option.bind_eq_some_iff.mp h
  refine textViewDidChange_lit ?_ h
  exact ⟨hs.left, hs.right⟩

variable [UITextView] {s₀ : State} {e : Event} {es es' : List Event}

theorem insert_lit {string : Option NSString} {image : Option UIImage} {changeParagraph : Bool}
    {replaceRange : Option NSRange} (hs : s.Lit)
    (h : s.insert string image changeParagraph replaceRange = some s') : s'.Lit := by
  obtain ⟨_, _, h⟩ := Option.bind_eq_some_iff.mp h
  obtain ⟨_, _, h⟩ := Option.bind_eq_some_iff.mp h
  obtain ⟨s₁, hd, h⟩ := Option.bind_eq_some_iff.mp h
  have hs₁ : s₁.Lit := by
    refine textViewDidChange_lit ?_ hd
    cases changeParagraph <;> exact ⟨hs.left, hs.right⟩
  exact Option.some.inj h ▸ ⟨hs₁.left, hs₁.right⟩

theorem typeText_lit {range : NSRange} {string : NSString} (hs : s.Lit)
    (h : s.typeText range string = some s') : s'.Lit := by
  have ⟨s₁, ⟨_, _, hr⟩, h⟩ := typeText_cases h
  have hs₁ : s₁.Lit := hr ▸ ⟨hs.left, hs.right⟩
  rcases h with h | ⟨_, _, _, h⟩
  · exact changeText_lit hs₁ h
  · exact insert_lit hs₁ h

theorem insetOrDeleteTabStyle_lit {style : RZTextTabStyle} (hs : s.Lit)
    (h : s.insetOrDeleteTabStyle style = some s') : s'.Lit := by
  simp only [insetOrDeleteTabStyle, Option.bind_eq_bind, Option.pure_def] at h
  split at h
  all_goals simp only [Option.bind_some, Option.bind_eq_some_iff, Option.some.injEq] at h
  case isTrue =>
    obtain ⟨_, _, _, _, _, _, h⟩ := h
    exact h ▸ ⟨hs.left, hs.right⟩
  case isFalse =>
    obtain ⟨_, _, _, _, h⟩ := h
    exact h ▸ ⟨hs.left, hs.right⟩

theorem step_lit (hs : s.Lit) (h : s.step e = some s') : s'.Lit := by
  cases e
  case textViewDidBeginEditing => exact textViewDidBeginEditing_lit hs h
  case typeText      => exact typeText_lit hs h
  case setMarkedText => exact changeText_lit hs h
  case changeSelection =>
    rcases textViewDidChangeSelection_eq_some h with h | ⟨_, h⟩
    all_goals exact h ▸ ⟨hs.left, hs.right⟩
  case setTypingAttributes => exact Option.some.inj h ▸ ⟨hs.left, hs.right⟩
  case insert => exact insert_lit hs h
  case insetOrDeleteTabStyle => exact insetOrDeleteTabStyle_lit hs h
  case runMainQueue =>
    simp only [step] at h
    split at h
    case h_1 => cases h
    case h_2 => exact Option.some.inj h ▸ ⟨hs.left, hs.right⟩
  case setNotesCount => exact Option.some.inj h ▸ ⟨hs.left, hs.right⟩
  case revokeAction  => exact revokeText_lit h
  case restoreAction => exact revokeText_lit h

theorem revoke_iff : (∃ s', s.step .revokeAction = some s' ∧ s'.history ≠ s.history) ↔ 1 < s.history.length := by
  obtain ⟨s₁, h₁⟩ := revokeText_isSome s true
  have hd : s₁.history = s.undoHistory.undo.done := congrArg UndoHistory.done <| undoHistory_revokeText h₁
  have hl : s.undoHistory.undo.done.length =
    if 1 < s.history.length then s.history.length - 1 else s.history.length := UndoHistory.length_done_undo _
  constructor
  case mp =>
    rintro ⟨s', h, hn⟩
    cases Option.some.inj <| h.symm.trans h₁
    by_contra hn'
    exact hn <| hd.trans <| congrArg UndoHistory.done <| UndoHistory.undo_of_length_le <| Nat.le_of_not_lt hn'
  case mpr =>
    intro h
    refine ⟨s₁, h₁, fun hn => ?_⟩
    rw [← hd, hn, if_pos h] at hl
    omega

theorem restore_iff : (∃ s', s.step .restoreAction = some s' ∧ s'.history ≠ s.history) ↔ 0 < s.stores.length := by
  obtain ⟨s₁, h₁⟩ := revokeText_isSome s false
  have hd : s₁.history = s.undoHistory.redo.done := congrArg UndoHistory.done <| undoHistory_revokeText h₁
  have ht : s.undoHistory.timeline.length = s.history.length + s.stores.length := by
    simp [UndoHistory.timeline, undoHistory]
  have hl : s.undoHistory.redo.done.length = if s.history.length < s.undoHistory.timeline.length then
    s.history.length + 1 else s.history.length := UndoHistory.length_done_redo _
  constructor
  case mp =>
    rintro ⟨s', h, hn⟩
    cases Option.some.inj <| h.symm.trans h₁
    by_contra hn'
    have hs : s.stores = [] := List.length_eq_zero_iff.mp <| Nat.eq_zero_of_not_pos hn'
    exact hn <| hd.trans <| by simp [UndoHistory.redo, undoHistory, hs]
  case mpr =>
    intro h
    refine ⟨s₁, h₁, fun hn => ?_⟩
    rw [← hd, hn, ht, if_pos (Nat.lt_add_of_pos_right h)] at hl
    omega

-- A button is selected precisely if pressing it moves through the history, whatever has happened before.
theorem exec_buttons {options : RZRichTextViewOptions} {textView : RZRichTextView} {notesCount : Nat}
    (h : exec (start options textView notesCount) es = some s) :
    (s.leftBtnSelected ↔ ∃ s', s.step .revokeAction = some s' ∧ s'.history ≠ s.history) ∧
    (s.rightBtnSelected ↔ ∃ s', s.step .restoreAction = some s' ∧ s'.history ≠ s.history) := by
  have h₀ : Lit (start options textView notesCount) := ⟨rfl, rfl⟩
  have hl : s.Lit := Run.invariant' step_lit h₀ h
  rw [revoke_iff, restore_iff, hl.left, hl.right, decide_eq_true_iff, decide_eq_true_iff]
  exact ⟨Iff.rfl, Iff.rfl⟩

-- Where undoing and redoing lead to among the given number of states.
def travel (total : Nat) (n : Nat) : Event → Nat
  | .revokeAction  => if 1 < n then n - 1 else n
  | .restoreAction => if n < total then n + 1 else n
  | _              => n

theorem step_travel (he : e = .revokeAction ∨ e = .restoreAction) (h : s.step e = some s') :
    s'.undoHistory.timeline = s.undoHistory.timeline ∧
    s'.history.length = travel s.undoHistory.timeline.length s.history.length e := by
  rcases he with rfl | rfl
  case inl =>
    have hu : s'.undoHistory = s.undoHistory.undo := undoHistory_revokeText h
    exact ⟨hu ▸ (UndoHistory.moves_undo _).left.states,
      (congrArg (·.done.length) hu).trans <| UndoHistory.length_done_undo s.undoHistory⟩
  case inr =>
    have hu : s'.undoHistory = s.undoHistory.redo := undoHistory_revokeText h
    exact ⟨hu ▸ (UndoHistory.moves_redo _).left.states,
      (congrArg (·.done.length) hu).trans <| UndoHistory.length_done_redo s.undoHistory⟩

theorem exec_timeline (he : ∀ e ∈ es, e = .revokeAction ∨ e = .restoreAction) (h : exec s es = some s') :
    s'.undoHistory.timeline = s.undoHistory.timeline ∧
    s'.history.length = es.foldl (travel s.undoHistory.timeline.length) s.history.length := by
  induction es generalizing s
  case nil => exact Option.some.inj h ▸ ⟨rfl, rfl⟩
  case cons e es hi =>
    have ⟨he, hes⟩ := List.forall_mem_cons.mp he
    have ⟨s₁, hs, h⟩ := Run.exec_cons_eq_some.mp h
    have ⟨ht, hl⟩ := step_travel he hs
    have ⟨ht', hl'⟩ := hi hes h
    exact ⟨ht'.trans ht, by rw [hl', ht, hl, List.foldl_cons]⟩

theorem exec_isRecorded (hr : s.IsRecorded ∧ 0 ≤ s.notesCount) (hc : ∀ e ∈ es, e.changesListStyle = false)
    (h : exec s es = some s') : s'.IsRecorded ∧ 0 ≤ s'.notesCount := by
  have hm : Run.Meets step (fun _ e => e.changesListStyle = false) s es := Run.meets_of_forall fun e he _ => hc e he
  have ha : Run.Always step (fun s => s.IsRecorded ∧ 0 ≤ s.notesCount) s es :=
    Run.always_of_invariant _ step_isRecorded id hr hm
  exact ha es s' List.prefix_rfl h

-- Undoing and redoing, in any order and any number of times, moves through what has been recorded, and displays
-- what was recorded where it has come to.
theorem exec_travel {options : RZRichTextViewOptions} {textView : RZRichTextView} {notesCount : Nat}
    (hb : (start options textView notesCount).step .textViewDidBeginEditing = some s₀)
    (hc : ∀ e ∈ es, e.changesListStyle = false) (h : exec s₀ es = some s)
    (he : ∀ e ∈ es', e = .revokeAction ∨ e = .restoreAction) (h' : exec s es' = some s') :
    let timeline := s.undoHistory.timeline
    let n := es'.foldl (travel timeline.length) s.history.length
    s'.history = timeline.take n ∧ s'.stores = (timeline.drop n).reverse ∧
      (s'.textView.markedTextRange = none →
        (timeline.take n).getLast?.map (·.attributedText) = some s'.text) := by
  intro timeline n
  have ⟨ht, hl⟩ := exec_timeline he h'
  have hd : s'.history = timeline.take n := by
    refine s'.undoHistory.done_eq_take.trans ?_
    rw [ht]
    exact congrArg (List.take · timeline) hl
  refine ⟨hd, ?_, fun hm => ?_⟩
  case refine_1 =>
    refine s'.undoHistory.undone_eq_drop.trans ?_
    rw [ht]
    exact congrArg (List.drop · timeline |>.reverse) hl
  case refine_2 =>
    have hn : (0 : Int) ≤ notesCount := Int.natCast_nonneg _
    have hr₀ := textViewDidBeginEditing_records Bool.noConfusion hn hb |>.isRecorded hn
    have hc' : ∀ e ∈ es', e.changesListStyle = false := fun e he' => by rcases he e he' with rfl | rfl <;> rfl
    have hr' := exec_isRecorded (exec_isRecorded hr₀ hc h) hc' h'
    exact hd ▸ hr'.left hm

end

def undoneRun : List Event :=
  [.textViewDidBeginEditing, .typeText ⟨0, 0⟩ (.ofString "a"), .typeText ⟨1, 0⟩ (.ofString "b"), .revokeAction]

theorem exec_buttons_undoneRun : ∃ s, Sample.exec undoneRun = some s ∧
    (∃ s', @step Sample.styles Sample.behaviour s .revokeAction = some s' ∧ s'.history ≠ s.history) ∧
    ∃ s', @step Sample.styles Sample.behaviour s .restoreAction = some s' ∧ s'.history ≠ s.history := by
  have h : (Sample.exec undoneRun).map (fun s => (s.leftBtnSelected, s.rightBtnSelected)) = some (true, true) := by
    decide +kernel
  have ⟨s, hs, h⟩ := Option.map_eq_some_iff.mp h
  have ⟨hl, hr⟩ := Prod.mk.inj h
  have hb := @exec_buttons s Sample.styles Sample.behaviour _ _ _ _ hs
  exact ⟨s, hs, hb.left.mp hl, hb.right.mp hr⟩

theorem exec_travel_undoneRun : ∃ s s', Sample.exec undoneRun = some s ∧
    @exec Sample.styles Sample.behaviour s [.revokeAction, .revokeAction, .restoreAction] = some s' ∧
    s'.history = s.undoHistory.timeline.take 2 := by
  have h : ((Sample.exec undoneRun).bind fun s =>
      (@exec Sample.styles Sample.behaviour s [.revokeAction, .revokeAction, .restoreAction]).map fun _ =>
        (s.history.length, s.undoHistory.timeline.length)) = some (2, 3) := by
    decide +kernel
  have ⟨s, hs, h⟩ := Option.bind_eq_some_iff.mp h
  have ⟨s', hs', h⟩ := Option.map_eq_some_iff.mp h
  have ⟨hl, ht⟩ := Prod.mk.inj h
  have ⟨s₀, hb, he⟩ := Run.exec_cons_eq_some.mp hs
  have htr := @exec_travel s s' Sample.styles Sample.behaviour s₀ _ _ _ _ _ hb (by decide) he (by simp) hs'
  refine ⟨s, s', hs, hs', ?_⟩
  rw [htr.left, ht, hl]
  rfl

end State
end RichText
