import Mathlib.Tactic.Linarith
import SwiftProjectKit.Camera.Control
import SwiftProjectKit.Primitives.Alternation

namespace Camera

def DelegateCall.take : DelegateCall → Option Bool
  | cameraControlBeginTakeVideo => true
  | cameraControlEndTakeVideo   => false
  | cameraControlDidClickBack   => none

namespace WMCameraControl

variable {s s' : WMCameraControl} {e : Event}

def takes (s : WMCameraControl) : List Bool :=
  s.delegateCalls.filterMap DelegateCall.take

structure Behaves (s : WMCameraControl) (e : Event) (s' : WMCameraControl) : Prop where
  isStar_iff    : s'.isStar ↔ s'.timer
  begins        : e = .didStarGesture → s.timer = false →
    s'.delegateCalls = s.delegateCalls ++ [.cameraControlBeginTakeVideo]
  ends          : e = .didStarGesture → s.timer →
    s'.delegateCalls = s.delegateCalls ++ [.cameraControlEndTakeVideo]
  alternates    : Alternates s'.takes
  recordTime_le : s'.recordTime ≤ s'.videoLength + 1 / 100

def HasTime (s : WMCameraControl) (e : Event) : Prop :=
  e = .timeRecord → s.recordTime + 1 / 100 ≤ s.videoLength

structure Sound (s : WMCameraControl) : Prop where
  alternates : Alternates s.takes
  last_take  : s.takes.getLast? = some true ↔ s.timer
  isStar     : s.timer → s.isStar
  visible    : s.timer → s.cameraButtonIsHidden = false
  retake     : s.retakeButtonIsHidden = false → s.cameraButtonIsHidden
  fresh      : s.cameraButtonIsHidden = false → s.timer = false → s.recordTime = 0
  time_le    : s.timer → s.recordTime ≤ s.videoLength
  total_le   : s.recordTime ≤ s.videoLength + 1 / 100

theorem takes_append {call : DelegateCall}
    (h : s'.delegateCalls = s.delegateCalls ++ [call]) : s'.takes = s.takes ++ call.take.toList := by
  rw [takes, h, List.filterMap_append]
  cases hc : call.take <;> simp [takes, hc]

theorem longPressEnd_of_timer (ht : s.timer) :
    s.longPressEnd = { s.callDelegate .cameraControlEndTakeVideo with
      timer                    := false
      cameraButtonIsHidden     := true
      strokeEnd                := 0
      anmitionTimeViewIsHidden := true } := by
  rw [longPressEnd, if_pos ht]

theorem one_lt_progress_iff : (s.recordTime + 1 / 100) / s.videoLength > 1 ↔
    (s.videoLength : Rat) < s.recordTime + 1 / 100 :=
  one_lt_div s.videoLength.property

inductive Effect (s : WMCameraControl) : Event → WMCameraControl → Prop
  | begin (hv : s.cameraButtonIsHidden = false) (hs : s.isStar = false) :
    Effect s .didStarGesture <| longPressBegin { s with isStar := true }
  | «end» (ht : s.timer) : Effect s .didStarGesture <| longPressEnd { s with isStar := false }
  | miss (hs : s.isStar) (ht : s.timer = false) : Effect s .didStarGesture { s with isStar := false }
  | tick (ht : s.timer) (hl : s.recordTime + 1 / 100 ≤ s.videoLength) : Effect s .timeRecord s.timeRecord
  | overrun (ht : s.timer) (hl : (s.videoLength : Rat) < s.recordTime + 1 / 100) :
    Effect s .timeRecord s.timeRecord
  | complete (hv : s.cameraButtonIsHidden) : Effect s .showCompleteAnimation s.showCompleteAnimation
  | retake (hr : s.retakeButtonIsHidden = false) : Effect s .sss s.sss

theorem timeRecord_of_le (hl : s.recordTime + 1 / 100 ≤ s.videoLength) :
    s.timeRecord = { s with
      recordTime := s.recordTime + 1 / 100
      strokeEnd  := (s.recordTime + 1 / 100) / s.videoLength
      progress   := (s.recordTime + 1 / 100) / s.videoLength
      timeLabel  := timeFormatFormSeconds <| s.recordTime + 1 / 100 } := by
  have hp := mt one_lt_progress_iff.mp <| not_lt.mpr hl
  simp only [timeRecord, setProgress, if_neg hp]

-- A tick that leads beyond the length ends the recording, but leaves the flag set.
theorem timeRecord_of_lt (ht : s.timer) (hl : (s.videoLength : Rat) < s.recordTime + 1 / 100) :
    s.timeRecord = { s.callDelegate .cameraControlEndTakeVideo with
      recordTime               := s.recordTime + 1 / 100
      timer                    := false
      cameraButtonIsHidden     := true
      anmitionTimeViewIsHidden := true
      strokeEnd                := 0
      progress                 := (s.recordTime + 1 / 100) / s.videoLength
      timeLabel                := timeFormatFormSeconds <| s.recordTime + 1 / 100 } := by
  have hp := one_lt_progress_iff.mpr hl
  simp only [timeRecord, setProgress, if_pos hp, longPressEnd, ht, if_true, callDelegate]

theorem step_effect (hs : s.step e = some s') : Effect s e s' := by
  cases e
  case didStarGesture =>
    simp only [step, Option.ite_none_left_eq_some, Bool.not_eq_true, Option.some.injEq] at hs
    have ⟨hv, hs⟩ := hs
    subst hs
    cases hi : s.isStar
    case false => simpa [didStarGesture, hi] using Effect.begin hv hi
    case true =>
      cases ht : s.timer
      case true  => simpa [didStarGesture, hi] using Effect.end ht
      case false => simpa [didStarGesture, hi, longPressEnd, ht] using Effect.miss hi ht
  case timeRecord =>
    simp only [step, Option.ite_none_right_eq_some, Option.some.injEq] at hs
    have ⟨ht, hs⟩ := hs
    rcases le_or_gt (s.recordTime + 1 / 100) s.videoLength with hl | hl
    · exact hs ▸ .tick ht hl
    · exact hs ▸ .overrun ht hl
  case showCompleteAnimation =>
    simp only [step, Option.ite_none_right_eq_some, Option.some.injEq] at hs
    exact hs.right ▸ .complete hs.left
  case sss =>
    simp only [step, Option.ite_none_left_eq_some, Bool.not_eq_true, Option.some.injEq] at hs
    exact hs.right ▸ .retake hs.left

theorem Sound.ended (h : s.Sound) (ht : s.timer)
    (hc : s'.delegateCalls = s.delegateCalls ++ [.cameraControlEndTakeVideo])
    (ht' : s'.timer = false) (hv : s'.cameraButtonIsHidden)
    (hr : s'.recordTime ≤ s'.videoLength + 1 / 100) : s'.Sound where
  alternates := takes_append hc ▸ h.alternates.end (h.last_take.mpr ht)
  last_take  := by simp [takes_append hc, DelegateCall.take, ht']
  isStar     := by simp [ht']
  visible    := by simp [ht']
  retake     := fun _ => hv
  fresh      := by simp [hv]
  time_le    := by simp [ht']
  total_le   := hr

theorem Effect.sound (he : Effect s e s') (h : s.Sound) : s'.Sound := by
  have hpos := s.videoLength.property
  cases he
  case begin hv hs =>
    have ht : s.timer = false := Bool.eq_false_iff.mpr fun ht => by simp [h.isStar ht] at hs
    have hr := h.fresh hv ht
    have hc : (longPressBegin { s with isStar := true }).takes = s.takes ++ [true] := by
      simp [takes, longPressBegin, callDelegate, DelegateCall.take]
    exact {
      alternates := hc ▸ h.alternates.begin (by simp [h.last_take, ht])
      last_take  := iff_of_true (hc ▸ List.getLast?_concat) rfl
      isStar     := fun _ => rfl
      visible    := fun _ => hv
      retake     := h.retake
      fresh      := nofun
      time_le    := fun _ => hr.trans_le hpos.le
      total_le   := h.total_le
    }
  case «end» ht =>
    rw [longPressEnd_of_timer (by exact ht)]
    exact h.ended ht rfl rfl rfl h.total_le
  case miss ht => exact { h with isStar := by simp [ht] }
  case tick ht hl =>
    rw [timeRecord_of_le hl]
    exact { h with
      fresh    := by simp [ht]
      time_le  := fun _ => hl
      total_le := by simp only; linarith
    }
  case overrun ht hl =>
    have hr := h.time_le ht
    rw [timeRecord_of_lt ht hl]
    refine h.ended ht rfl rfl rfl ?_
    simp only [callDelegate]
    linarith
  case complete hv => exact { h with retake := fun _ => hv }
  case retake hr =>
    have hv := h.retake hr
    have ht : s.timer = false := Bool.eq_false_iff.mpr fun ht => by simp [h.visible ht] at hv
    have hc : s.sss.takes = s.takes := (takes_append rfl).trans <| List.append_nil _
    exact {
      alternates := hc ▸ h.alternates
      last_take  := hc ▸ h.last_take
      isStar     := h.isStar
      visible    := fun _ => rfl
      retake     := nofun
      fresh      := fun _ _ => rfl
      time_le    := by simp [sss, callDelegate, ht]
      total_le   := by rw [sss]; simp only [callDelegate]; linarith
    }

theorem Effect.behaves_iff (he : Effect s e s') (h : s.Sound) (hs : s.isStar ↔ s.timer) :
    Behaves s e s' ↔ HasTime s e := by
  have h' := he.sound h
  cases he
  case begin hi =>
    have ht : s.timer = false := by simpa [hi] using hs
    refine iff_of_true ⟨⟨fun _ => rfl, fun _ => rfl⟩, fun _ _ => rfl, ?_, h'.alternates, h'.total_le⟩ nofun
    simp [ht]
  case «end» ht =>
    have hl := longPressEnd_of_timer (s := { s with isStar := false }) ht
    rw [hl] at h' ⊢
    refine iff_of_true ⟨?_, by simp [ht], fun _ _ => rfl, h'.alternates, h'.total_le⟩ nofun
    exact iff_of_false Bool.false_ne_true Bool.false_ne_true
  case miss hi ht => exact absurd (hs.mp hi) (by simp [ht])
  case tick ht hl =>
    have hi := hs.mpr ht
    refine iff_of_true ⟨?_, nofun, nofun, h'.alternates, h'.total_le⟩ fun _ => hl
    rw [timeRecord_of_le hl]
    exact hs
  case overrun ht hl =>
    refine iff_of_false (fun hb => ?_) fun hh => not_lt.mpr (hh rfl) hl
    have hi := hb.isStar_iff
    rw [timeRecord_of_lt ht hl] at hi
    exact absurd (hi.mp <| hs.mpr ht) Bool.false_ne_true
  case complete => exact iff_of_true ⟨hs, nofun, nofun, h'.alternates, h'.total_le⟩ nofun
  case retake   => exact iff_of_true ⟨hs, nofun, nofun, h'.alternates, h'.total_le⟩ nofun

theorem sound_init (videoLength : {length : Rat // 0 < length}) : Sound { videoLength } where
  alternates := .nil
  last_take  := ⟨nofun, nofun⟩
  isStar     := nofun
  visible    := nofun
  retake     := nofun
  fresh      := fun _ _ => rfl
  time_le    := nofun
  total_le   := by
    have hpos := videoLength.property
    simp only
    linarith

-- The control behaves throughout a run precisely if no recording is as long as a video can be.
theorem steps_behaves_iff (videoLength : {length : Rat // 0 < length}) (es : List Event) :
    Run.Steps step Behaves { videoLength } es ↔ Run.Meets step HasTime { videoLength } es := by
  refine Run.steps_iff_meets (fun s => s.Sound ∧ (s.isStar ↔ s.timer)) ?_ ?_
    ⟨sound_init videoLength, Iff.rfl⟩
  case refine_1 => exact fun h hs hb => ⟨step_effect hs |>.sound h.left, hb.isStar_iff⟩
  case refine_2 => exact fun h hs => step_effect hs |>.behaves_iff h.left h.right

-- After a recording of full length and a retake, a tap does not begin a recording.
theorem retake_not_behaves : ¬ Run.Steps step Behaves { videoLength := ⟨10, by decide⟩ }
    ((.didStarGesture :: .replicate 1001 .timeRecord ++ [.showCompleteAnimation, .sss])
      ++ [.didStarGesture]) := by
  intro h
  have hr : (exec { videoLength := ⟨10, by decide⟩ }
      (.didStarGesture :: .replicate 1001 .timeRecord ++ [.showCompleteAnimation, .sss])).map
      (fun s => (s.cameraButtonIsHidden, s.isStar, s.timer)) = some (false, true, false) := by
    decide +kernel
  have ⟨s, hs, hp⟩ := Option.map_eq_some_iff.mp hr
  simp only [Prod.mk.injEq] at hp
  have ⟨hv, hi, ht⟩ := hp
  have hb := h.of_exec hs (show s.step _ = some s.didStarGesture by simp [step, hv]) |>.begins rfl ht
  simp [didStarGesture, hi, longPressEnd, ht] at hb

end WMCameraControl
end Camera
