import SwiftProjectKit.RichText.Buffer
import SwiftProjectKit.RichText.Theorems.History

namespace RichText
namespace State

variable {s s' : State} {e : BufferEvent}

structure KeepsBuffer [ParagraphStyles] (s : State) (e : BufferEvent) (s' : State) : Prop where
  adds    : e = .addToHistory → ∀ typing ∈ s.typingAttributes,
    LongestSuffix (s.notesCount + 1).toNat (s.history ++ [s.entry typing]) s'.history ∧ s'.stores = []
  moves   : e = .revokeAction ∨ e = .restoreAction → s.undoHistory.Moves s'.undoHistory
  ne_nil  : s.history ≠ [] → s'.history ≠ []

-- The history holds no more entries than are allowed for when another one is added to it.
def HasRoom (s : State) (e : BufferEvent) : Prop :=
  e = .addToHistory → s.history.length ≤ s.notesCount + 1

-- What the history holds, together with what can be redone, is within what is allowed for.
def Fits (s : State) : Prop :=
  0 ≤ s.notesCount ∧ (s.history.length : Int) + s.stores.length ≤ s.notesCount + 1

def KeepsFitting (s : State) (e : BufferEvent) : Prop :=
  ∀ notesCount, e = .setNotesCount notesCount → s.history.length + s.stores.length ≤ notesCount + 1

theorem Fits.hasRoom (h : s.Fits) : s.HasRoom e := by
  have ⟨_, h⟩ := h
  intro
  omega

theorem Fits.of_moves (h : s.Fits) (hc : s'.notesCount = s.notesCount)
    (hm : s.undoHistory.Moves s'.undoHistory) : s'.Fits := by
  have hl : s'.history.length + s'.stores.length = s.history.length + s.stores.length := hm.count
  have ⟨h₀, h⟩ := h
  rw [Fits, hc]
  omega

section

variable [UITextView]

theorem undo_notesCount (s : State) : s.undo.notesCount = s.notesCount := by
  cases s.undo_cases
  case inl h => rw [h.right]
  case inr h =>
    have ⟨_, _, _, _, h⟩ := h
    rw [h]
    rfl

theorem redo_notesCount (s : State) : s.redo.notesCount = s.notesCount := by
  cases s.redo_cases
  case inl h => rw [h.right]
  case inr h =>
    have ⟨_, _, _, h⟩ := h
    rw [h]
    rfl

theorem revokeText_notesCount {revoke : Bool} (h : s.revokeText revoke = some s') :
    s'.notesCount = s.notesCount := by
  refine revokeText_eq_some h |>.notesCount.trans ?_
  cases revoke
  case false => exact redo_notesCount s
  case true  => exact undo_notesCount s

end

section

variable [ParagraphStyles]

theorem addToHistory_keepsBuffer_iff (hn : 0 ≤ s.notesCount) (h : s.addToHistory = some s') :
    KeepsBuffer s .addToHistory s' ↔ s.history.length ≤ s.notesCount + 1 := by
  have ⟨typing, ht, h⟩ := Option.bind_eq_some_iff.mp h
  have ⟨limit, hl⟩ := Int.eq_ofNat_of_zero_le (a := s.notesCount + 1) (by omega)
  have hd : s'.history = (s.undoHistory.record limit (s.entry typing)).done :=
    hl ▸ Option.some.inj h ▸ rfl
  have hs : s'.stores = [] := Option.some.inj h ▸ rfl
  have hi : LongestSuffix limit (s.history ++ [s.entry typing]) s'.history ↔ s.history.length ≤ limit :=
    hd ▸ UndoHistory.longestSuffix_record_iff (h := s.undoHistory)
  have hne : s'.history ≠ [] := hd ▸ UndoHistory.done_record_ne_nil (by omega)
  rw [hl, Int.ofNat_le, ← hi]
  constructor
  case mp =>
    intro hk
    have hk := hk.adds rfl typing ht |>.left
    rwa [hl, Int.toNat_natCast] at hk
  case mpr =>
    intro hk
    refine ⟨fun _ typing' ht' => ?_, nofun, fun _ => hne⟩
    cases Option.some.inj <| ht.symm.trans ht'
    rw [hl, Int.toNat_natCast]
    exact ⟨hk, hs⟩

variable [UITextView]

theorem bufferStep_keepsBuffer_iff (hn : 0 ≤ s.notesCount) (h : s.bufferStep e = some s') :
    KeepsBuffer s e s' ↔ s.HasRoom e := by
  cases e
  case addToHistory => simpa [HasRoom] using addToHistory_keepsBuffer_iff hn h
  case changeTextView =>
    cases Option.some.inj h
    exact iff_of_true ⟨nofun, nofun, id⟩ nofun
  case setNotesCount =>
    cases Option.some.inj h
    exact iff_of_true ⟨nofun, nofun, id⟩ nofun
  case revokeAction =>
    have hu : s'.undoHistory = s.undoHistory.undo := undoHistory_revokeText h
    have hd : s'.history = s.undoHistory.undo.done := congrArg UndoHistory.done hu
    have ⟨hm, hn⟩ := UndoHistory.moves_undo s.undoHistory
    exact iff_of_true ⟨nofun, fun _ => hu ▸ hm, fun hs => hd ▸ hn hs⟩ nofun
  case restoreAction =>
    have hu : s'.undoHistory = s.undoHistory.redo := undoHistory_revokeText h
    have hd : s'.history = s.undoHistory.redo.done := congrArg UndoHistory.done hu
    have ⟨hm, hn⟩ := UndoHistory.moves_redo s.undoHistory
    exact iff_of_true ⟨nofun, fun _ => hu ▸ hm, fun hs => hd ▸ hn hs⟩ nofun

theorem bufferStep_notesCount (hn : 0 ≤ s.notesCount) (h : s.bufferStep e = some s') :
    0 ≤ s'.notesCount := by
  cases e
  case changeTextView => exact Option.some.inj h ▸ hn
  case addToHistory =>
    have ⟨_, _, _, hc⟩ := addToHistory_eq_some h
    exact hc ▸ hn
  case revokeAction  => exact (revokeText_notesCount h).symm ▸ hn
  case restoreAction => exact (revokeText_notesCount h).symm ▸ hn
  case setNotesCount notesCount => exact Option.some.inj h ▸ Int.natCast_nonneg notesCount

theorem steps_keepsBuffer_iff (options : RZRichTextViewOptions) (textView : RZRichTextView)
    (notesCount : Nat) (es : List BufferEvent) :
    Run.Steps bufferStep KeepsBuffer (start options textView notesCount) es ↔
      Run.Meets bufferStep HasRoom (start options textView notesCount) es :=
  Run.steps_iff_meets (fun s => 0 ≤ s.notesCount) (fun hn hs _ => bufferStep_notesCount hn hs)
    bufferStep_keepsBuffer_iff <| Int.natCast_nonneg notesCount

theorem bufferStep_fits (h : s.Fits) (hk : s.KeepsFitting e) (hs : s.bufferStep e = some s') :
    s'.Fits := by
  have hb := bufferStep_keepsBuffer_iff h.left hs |>.mpr h.hasRoom
  cases e
  case changeTextView => exact Option.some.inj hs ▸ h
  case addToHistory =>
    have ⟨typing, ht, _⟩ := Option.bind_eq_some_iff.mp hs
    have ⟨_, _, _, hc⟩ := addToHistory_eq_some hs
    have ⟨hl, hn⟩ := hb.adds rfl typing ht
    have hl := hl.length_le
    have h₀ := h.left
    rw [Fits, hc, hn, List.length_nil]
    omega
  case revokeAction  => exact h.of_moves (revokeText_notesCount hs) <| hb.moves <| .inl rfl
  case restoreAction => exact h.of_moves (revokeText_notesCount hs) <| hb.moves <| .inr rfl
  case setNotesCount notesCount =>
    have hk := hk notesCount rfl
    cases Option.some.inj hs
    exact ⟨Int.natCast_nonneg notesCount, by simp only; omega⟩

theorem meets_hasRoom (options : RZRichTextViewOptions) (textView : RZRichTextView) (notesCount : Nat)
    {es : List BufferEvent} (hk : Run.Meets bufferStep KeepsFitting (start options textView notesCount) es) :
    Run.Meets bufferStep HasRoom (start options textView notesCount) es := by
  refine Run.meets_of_invariant Fits bufferStep_fits (fun h _ => h.hasRoom) ?_ hk
  refine ⟨Int.natCast_nonneg notesCount, ?_⟩
  simp only [start, List.length_nil]
  omega

end

theorem setNotesCount_not_keepsBuffer :
    ¬ Run.Steps (@bufferStep Sample.styles Sample.behaviour) (@KeepsBuffer Sample.styles)
      (start {} Sample.textView 20)
      ([.addToHistory, .addToHistory, .addToHistory, .setNotesCount 0] ++ [.addToHistory]) := by
  let _ : ParagraphStyles := Sample.styles
  let _ : UITextView := Sample.behaviour
  intro h
  have hl : (Run.exec bufferStep (start {} Sample.textView 20)
      [.addToHistory, .addToHistory, .addToHistory, .setNotesCount 0]).bind (fun s =>
        (s.bufferStep .addToHistory).map fun _ => (s.history.length, s.notesCount)) = some (3, 0) := by
    decide +kernel
  have ⟨s, hs, hl⟩ := Option.bind_eq_some_iff.mp hl
  have ⟨s', hs', hl⟩ := Option.map_eq_some_iff.mp hl
  simp only [Prod.mk.injEq] at hl
  have ⟨hl, hn⟩ := hl
  have hr := bufferStep_keepsBuffer_iff (by omega) hs' |>.mp (h.of_exec hs hs') rfl
  omega

end State
end RichText
