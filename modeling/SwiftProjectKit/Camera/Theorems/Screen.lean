import SwiftProjectKit.Camera.Theorems.Files
import SwiftProjectKit.Camera.Theorems.Recording
import SwiftProjectKit.Camera.Theorems.Session
import SwiftProjectKit.Camera.ViewController

namespace Camera

namespace WMCameraManger

variable {device : Device} {s s' : WMCameraManger}

def pending (s : WMCameraManger) : List Nat :=
  s.finishing ++ s.completing

theorem startRecordingVideo_books {date : Rat} {canCreateWriter : Bool}
    (h : s.step device (.startRecordingVideo date canCreateWriter) = some s') :
    s'.isRecording ∧ s'.session = some s'.currentCapture ∧ s'.captures ≠ [] ∧ s'.taking = s.taking ∧
      s'.pending = s.pending ∧ s'.completeCalls = s.completeCalls := by
  cases step_effect h
  all_goals simp [started, beginCapture, currentCapture, pending]

theorem startRecordingVideo_captures {date : Rat} {canCreateWriter : Bool}
    (h : s.step device (.startRecordingVideo date canCreateWriter) = some s') :
    s'.captures = s.captures ++ [{ type := .video, date }] := by
  cases step_effect h
  all_goals rfl

theorem IsFile.congr {capture : Nat} {path : String} (h : s.IsFile device capture path)
    (hc : s'.captures = s.captures) : s'.IsFile device capture path := by
  rwa [IsFile, hc]

theorem isFile_currentCapture {url : String} (hs : s.Sound device) (hu : s.currentUrl = some url) :
    s.IsFile device s.currentCapture url := by
  rw [IsFile, currentCapture, ← List.getLast?_eq_getElem?, ← hs.current, hu]

theorem endRecordingVideo_books (hr : s.isRecording) (h : s.step device .endRecordingVideo = some s') :
    s'.isRecording = false ∧ s'.captures = s.captures ∧ s'.taking = s.taking ∧
      s'.pending = s.finishing ++ s.session.toList ++ s.completing ∧ s'.completeCalls = s.completeCalls := by
  cases step_effect h
  case idle hn => simp [hr] at hn
  case «end»   => simp [pending]

theorem captureOutput_books {output : AVCaptureOutput} {sampleBuffer : SampleBuffer}
    (h : s.step device (.captureOutput output sampleBuffer) = some s') :
    s'.isRecording = s.isRecording ∧ s'.session = s.session ∧ s'.captures = s.captures ∧ s'.taking = s.taking ∧
      s'.pending = s.pending ∧ s'.completeCalls = s.completeCalls := by
  cases step_effect h
  all_goals simp [pending]

theorem finishWritingCompletion_books {capture : Nat} (hp : s.pending = [s.currentCapture])
    (h : s.step device (.finishWritingCompletion capture) = some s') :
    capture = s.currentCapture ∧ s'.isRecording = s.isRecording ∧ s'.session = s.session ∧ s'.captures = s.captures ∧
      s'.taking = s.taking ∧ s'.pending = s.pending ∧ s'.completeCalls = s.completeCalls := by
  cases step_effect h
  case finish hc =>
    rcases List.append_eq_singleton_iff.mp hp with ⟨hf, _⟩ | ⟨hf, hn⟩
    · simp [hf] at hc
    · simp [hf] at hc
      simp [finishWritingCompletion, pending, hf, hn, hc]

theorem complete_books {capture : Nat} (hp : s.pending = [s.currentCapture])
    (h : s.step device (.complete capture) = some s') : ∃ url, s.currentUrl = some url ∧
    s'.isRecording = s.isRecording ∧ s'.session = s.session ∧ s'.captures = s.captures ∧ s'.taking = s.taking ∧
      s'.pending = [] ∧ s'.completeCalls = s.completeCalls ++ [(s.currentCapture, url)] := by
  cases step_effect h
  case complete url hu hc =>
    rcases List.append_eq_singleton_iff.mp hp with ⟨hf, hn⟩ | ⟨_, hn⟩
    · simp [hn] at hc
      simp [pending, hf, hn, hc, hu]
    · simp [hn] at hc

-- What is done with the device concerns nothing but the device, and does not lose it.
structure Adjusts (s s' : WMCameraManger) : Prop where
  eq         : s' = { s with
    videoInput       := s'.videoInput
    isFocusing       := s'.isFocusing
    videoCurrentZoom := s'.videoCurrentZoom
    errors           := s'.errors }
  videoInput : s.videoInput.isSome → s'.videoInput.isSome

theorem Adjusts.trans {s'' : WMCameraManger} (h : s.Adjusts s') (h' : s'.Adjusts s'') : s.Adjusts s'' where
  eq         := by rw [h'.eq, h.eq]
  videoInput := fun hv => h'.videoInput <| h.videoInput hv

theorem setupCamera_adjusts {video audio : Option AVCaptureDeviceInput} : s.Adjusts (s.setupCamera video audio) := by
  unfold setupCamera
  split <;> exact ⟨rfl, by simp⟩

theorem focusAt_adjusts (h : s.focusAt = some s') : s.Adjusts s' := by
  rw [focusAt] at h
  split at h
  case isTrue => exact Option.some.inj h ▸ ⟨rfl, id⟩
  case isFalse =>
    have ⟨_, _, h⟩ := Option.map_eq_some_iff.mp h
    exact h ▸ ⟨rfl, id⟩

theorem repareForZoom_adjusts (h : s.repareForZoom = some s') : s.Adjusts s' := by
  have ⟨_, _, h⟩ := Option.map_eq_some_iff.mp h
  exact h ▸ ⟨rfl, id⟩

theorem zoom_adjusts {mulriple : Rat} {canLock : Bool} (h : s.zoom mulriple canLock = some s') : s.Adjusts s' := by
  have ⟨_, _, h⟩ := Option.map_eq_some_iff.mp h
  subst h
  cases canLock
  case false => exact ⟨rfl, id⟩
  case true  => exact ⟨rfl, fun _ => rfl⟩

theorem changeCamera_adjusts {back front : Option AVCaptureDeviceInput} {canAddInput : Bool}
    (h : s.changeCamera back front canAddInput = some s') : s.Adjusts s' := by
  rw [changeCamera] at h
  split at h
  case isTrue => exact Option.some.inj h ▸ ⟨rfl, id⟩
  case isFalse =>
    have ⟨_, _, h⟩ := Option.bind_eq_some_iff.mp h
    split at h
    case h_1 => exact Option.some.inj h ▸ ⟨rfl, id⟩
    case h_2 =>
      split at h
      case isTrue  => exact Option.some.inj h ▸ ⟨rfl, fun _ => rfl⟩
      case isFalse => exact Option.some.inj h ▸ ⟨rfl, id⟩

theorem Adjusts.sound (h : s.Adjusts s') (hs : s.Sound device) : s'.Sound device := by
  rw [h.eq]
  exact { hs with }

theorem Adjusts.books (h : s.Adjusts s') : s'.isRecording = s.isRecording ∧ s'.session = s.session ∧
    s'.captures = s.captures ∧ s'.taking = s.taking ∧ s'.pending = s.pending ∧ s'.completeCalls = s.completeCalls := by
  rw [h.eq]
  exact ⟨rfl, rfl, rfl, rfl, rfl, rfl⟩

theorem focusAt_isSome (h : s.videoInput.isSome) : s.focusAt.isSome := by
  rw [focusAt]
  split
  case isTrue  => rfl
  case isFalse => rwa [Option.isSome_map]

theorem repareForZoom_isSome (h : s.videoInput.isSome) : s.repareForZoom.isSome := by
  rwa [repareForZoom, Option.isSome_map]

theorem zoom_isSome {mulriple : Rat} {canLock : Bool} (h : s.videoInput.isSome) : (s.zoom mulriple canLock).isSome := by
  rwa [zoom, Option.isSome_map]

theorem changeCamera_isSome {back front : Option AVCaptureDeviceInput} {canAddInput : Bool} (h : s.videoInput.isSome) :
    (s.changeCamera back front canAddInput).isSome := by
  have ⟨_, h⟩ := Option.isSome_iff_exists.mp h
  rw [changeCamera, h]
  split
  case isTrue  => rfl
  case isFalse =>
    rw [Option.bind_eq_bind, Option.bind_some]
    split
    case h_1 => rfl
    case h_2 => split <;> rfl

structure HasWriter (s : WMCameraManger) : Prop where
  writer : s.assetWriter.isSome
  video  : s.assetWriterVideoInput.isSome
  audio  : s.assetWriterAudioInput.isSome

theorem endRecordingVideo_isSome_of_hasWriter (h : s.isRecording → s.HasWriter) :
    s.endRecordingVideo.isSome := by
  rw [endRecordingVideo]
  split
  case isTrue => rfl
  case isFalse hr =>
    obtain ⟨_, hw⟩ := Option.isSome_iff_exists.mp <| h (by simpa using hr) |>.writer
    simp [hw]

theorem captureOutput_isSome_of_hasWriter {output : AVCaptureOutput} {sampleBuffer : SampleBuffer}
    (h : s.isRecording → s.HasWriter) : (s.captureOutput output sampleBuffer).isSome := by
  unfold captureOutput
  split
  case isTrue => rfl
  case isFalse hr =>
    have ⟨hw, hv, ha⟩ := h (by simpa using hr)
    have ⟨_, hw⟩ := Option.isSome_iff_exists.mp hw
    have ⟨_, hv⟩ := Option.isSome_iff_exists.mp hv
    have ⟨_, ha⟩ := Option.isSome_iff_exists.mp ha
    cases output
    case videoDataOut => simp [hw, hv]
    case audioDataOut => simp [ha]

-- There is a writer only while it is needed.
def IsIdle (s : WMCameraManger) : Prop :=
  s.isRecording = false → s.finishing = [] → s.assetWriter = none

theorem Effect.isIdle {e : Event} (he : Effect device s e s') (hn : s.isRecording → s.session ≠ none) (h : s.IsIdle) :
    s'.IsIdle := by
  cases he
  case start       => exact nofun
  case noWriter    => exact nofun
  case «end» hr _  =>
    intro _ hf
    exact absurd (Option.toList_eq_nil_iff.mp <| List.append_eq_nil_iff.mp hf |>.right) (hn hr)
  case finish      => exact fun _ _ => rfl
  case video hw _  => exact fun hr hf => nomatch (h hr hf).symm.trans hw
  all_goals exact h

theorem startRecordingVideo_hasWriter_iff {date : Rat} {canCreateWriter : Bool} (hw : s.assetWriter = none)
    (h : s.step device (.startRecordingVideo date canCreateWriter) = some s') :
    (s'.isRecording → s'.HasWriter) ↔ canCreateWriter := by
  cases step_effect h
  case start    => exact iff_of_true (fun _ => ⟨rfl, rfl, rfl⟩) rfl
  case noWriter =>
    refine iff_of_false (fun h => ?_) Bool.false_ne_true
    have h : s.assetWriter.isSome := h rfl |>.writer
    simp [hw] at h

theorem captureOutput_hasWriter {output : AVCaptureOutput} {sampleBuffer : SampleBuffer}
    (h : s.isRecording → s.HasWriter) (hs : s.step device (.captureOutput output sampleBuffer) = some s') :
    s'.isRecording → s'.HasWriter := by
  cases step_effect hs
  case ignored => exact h
  case video   => exact fun hr => ⟨rfl, rfl, (h hr).audio⟩
  case audio   => exact fun hr => ⟨(h hr).writer, (h hr).video, rfl⟩

theorem Adjusts.hasWriter (h : s.Adjusts s') (hw : s.HasWriter) : s'.HasWriter := by
  rw [h.eq]
  exact { hw with }

theorem Adjusts.isIdle (h : s.Adjusts s') (hi : s.IsIdle) : s'.IsIdle := by
  rw [h.eq]
  exact hi

theorem Effect.videoInput {e : Event} (he : Effect device s e s') : s'.videoInput = s.videoInput := by
  cases he <;> rfl

end WMCameraManger

def WMCameraViewController.Event.adjusts : WMCameraViewController.Event → Bool
  | .viewWillAppear | .focus | .animationDidStop | .pinch _ _ _ | .changeCamera _ _ _ => true
  | _ => false

namespace WMCameraViewController

variable {device : Device} {s s' : WMCameraViewController} {e : Event}

inductive Effect (device : Device) (s : WMCameraViewController) : Event → WMCameraViewController → Prop
  | adjust {e : Event} {manager : WMCameraManger} (he : e.adjusts) (hm : s.manager.Adjusts manager) :
    Effect device s e { s with manager }
  | begin {date : Rat} {canCreateWriter : Bool} {adjusted manager : WMCameraManger}
    (hv : s.control.cameraButtonIsHidden = false) (hi : s.control.isStar = false) (ha : s.alert = none)
    (hz : s.manager.Adjusts adjusted)
    (hm : adjusted.step device (.startRecordingVideo date canCreateWriter) = some manager) :
    Effect device s (.didStarGesture date canCreateWriter) { s with
      control              := { s.control with isStar := true }.longPressBegin
      manager              := manager
      navBarIsHidden       := true
      progressViewIsHidden := false }
  | «end» {date : Rat} {canCreateWriter : Bool} {manager : WMCameraManger} (ht : s.control.timer)
    (ha : s.alert = none) (hm : s.manager.step device .endRecordingVideo = some manager) :
    Effect device s (.didStarGesture date canCreateWriter) { s with
      control := { s.control with isStar := false }.longPressEnd
      manager := manager }
  | miss {date : Rat} {canCreateWriter : Bool} (hi : s.control.isStar) (ht : s.control.timer = false)
    (ha : s.alert = none) :
    Effect device s (.didStarGesture date canCreateWriter) { s with control := { s.control with isStar := false } }
  | tick (ht : s.control.timer) (hl : s.control.recordTime + 1 / 100 ≤ s.control.videoLength) :
    Effect device s .timeRecord { s with control := s.control.timeRecord }
  | overrun {manager : WMCameraManger} (ht : s.control.timer)
    (hl : (s.control.videoLength : Rat) < s.control.recordTime + 1 / 100)
    (hm : s.manager.step device .endRecordingVideo = some manager) :
    Effect device s .timeRecord { s with control := s.control.timeRecord, manager := manager }
  | retake (hr : s.control.retakeButtonIsHidden = false) (ha : s.alert = none) :
    Effect device s .retakeButtonClick { s with alert := some .retake }
  | take {url : String} {type : WMCameraType} (hv : s.control.takeButtonIsHidden = false) (ha : s.alert = none)
    (hu : s.url = some url) (ht : s.type = some type) :
    Effect device s .takeButtonClick { s with completeBlockCalls := s.completeBlockCalls ++ [(url, type)] }
  | confirm (ha : s.alert.isSome) :
    Effect device s .confirmAlert <| { s with alert := none, control := s.control.sss }.cameraControlDidClickBack
  | cancel (ha : s.alert = some .retake) : Effect device s .cancelAlert { s with alert := none }
  | capture {output : AVCaptureOutput} {sampleBuffer : SampleBuffer} {manager : WMCameraManger}
    (hm : s.manager.step device (.captureOutput output sampleBuffer) = some manager) :
    Effect device s (.captureOutput output sampleBuffer) { s with manager }
  | finish {capture : Nat} {manager : WMCameraManger} (hf : capture ∈ s.manager.finishing)
    (hm : s.manager.step device (.finishWritingCompletion capture) = some manager) :
    Effect device s (.finishWritingCompletion capture) { s with manager }
  | complete {capture : Nat} {videoUrl : String} {manager : WMCameraManger}
    (hc : capture ∈ s.manager.completing) (hm : s.manager.step device (.complete capture) = some manager)
    (hu : s.manager.currentUrl = some videoUrl) :
    Effect device s (.complete capture) <| { s with manager }.endTakeVideoCompletion videoUrl

theorem update_eq {control : WMCameraControl} {date : Rat} {canCreateWriter : Bool}
    (h : control.delegateCalls = s.control.delegateCalls) :
    s.update device control date canCreateWriter = some { s with control } := by
  simp [update, h]

theorem update_append {control : WMCameraControl} {call : DelegateCall} {date : Rat} {canCreateWriter : Bool}
    (h : control.delegateCalls = s.control.delegateCalls ++ [call]) :
    s.update device control date canCreateWriter = { s with control }.perform device date canCreateWriter call := by
  simp [update, h]

theorem longPressBegin_delegateCalls (control : WMCameraControl) (isStar : Bool) :
    ({ control with isStar } : WMCameraControl).longPressBegin.delegateCalls =
      control.delegateCalls ++ [.cameraControlBeginTakeVideo] :=
  rfl

theorem longPressEnd_delegateCalls {control : WMCameraControl} (ht : control.timer) (isStar : Bool) :
    ({ control with isStar } : WMCameraControl).longPressEnd.delegateCalls =
      control.delegateCalls ++ [.cameraControlEndTakeVideo] := by
  rw [WMCameraControl.longPressEnd_of_timer (by exact ht)]
  rfl

theorem timeRecord_delegateCalls {control : WMCameraControl} (ht : control.timer)
    (hl : (control.videoLength : Rat) < control.recordTime + 1 / 100) :
    control.timeRecord.delegateCalls = control.delegateCalls ++ [.cameraControlEndTakeVideo] := by
  rw [WMCameraControl.timeRecord_of_lt ht hl]
  rfl

theorem sss_delegateCalls (control : WMCameraControl) :
    control.sss.delegateCalls = control.delegateCalls ++ [.cameraControlDidClickBack] :=
  rfl

theorem didStarGesture_effect {date : Rat} {canCreateWriter : Bool}
    (hv : s.control.cameraButtonIsHidden = false) (ha : s.alert = none)
    (hs : s.update device s.control.didStarGesture date canCreateWriter = some s') :
    Effect device s (.didStarGesture date canCreateWriter) s' := by
  have hc : s.control.step .didStarGesture = some s.control.didStarGesture := if_neg (by simp [hv])
  generalize s.control.didStarGesture = control at hc hs
  cases WMCameraControl.step_effect hc
  case begin hi =>
    rw [update_append <| longPressBegin_delegateCalls _ true] at hs
    have ⟨adjusted, hz, hs⟩ := Option.bind_eq_some_iff.mp hs
    have ⟨manager, hm, hs⟩ := Option.bind_eq_some_iff.mp hs
    exact Option.some.inj hs ▸ .begin hv hi ha (WMCameraManger.repareForZoom_adjusts hz) hm
  case «end» ht =>
    rw [update_append <| longPressEnd_delegateCalls ht false] at hs
    have ⟨manager, hm, hs⟩ := Option.bind_eq_some_iff.mp hs
    exact Option.some.inj hs ▸ .end ht ha hm
  case miss hi ht =>
    have hc : ({ s.control with isStar := false } : WMCameraControl).delegateCalls = s.control.delegateCalls := rfl
    rw [update_eq hc] at hs
    exact Option.some.inj hs ▸ .miss hi ht ha

theorem timeRecord_effect (ht : s.control.timer)
    (hs : s.update device s.control.timeRecord 0 false = some s') : Effect device s .timeRecord s' := by
  rcases le_or_gt (s.control.recordTime + 1 / 100) s.control.videoLength with hl | hl
  case inl =>
    rw [update_eq (by rw [WMCameraControl.timeRecord_of_le hl])] at hs
    exact Option.some.inj hs ▸ .tick ht hl
  case inr =>
    rw [update_append <| timeRecord_delegateCalls ht hl] at hs
    have ⟨manager, hm, hs⟩ := Option.bind_eq_some_iff.mp hs
    exact Option.some.inj hs ▸ .overrun ht hl hm

theorem step_effect (hs : s.step device e = some s') : Effect device s e s' := by
  have ⟨hd, hs⟩ := Option.ite_none_right_eq_some.mp hs
  cases e
  case viewWillAppear | focus =>
    have ⟨manager, hm, hs⟩ := Option.bind_eq_some_iff.mp hs
    exact Option.some.inj hs ▸ .adjust rfl (WMCameraManger.focusAt_adjusts hm)
  case animationDidStop   => exact Option.some.inj hs ▸ .adjust rfl ⟨rfl, id⟩
  case pinch began _ _ _  =>
    have ⟨adjusted, ha, hs⟩ := Option.bind_eq_some_iff.mp hs
    have ⟨manager, hm, hs⟩ := Option.bind_eq_some_iff.mp hs
    have ha : s.manager.Adjusts adjusted := by
      cases began
      case false => exact Option.some.inj ha ▸ ⟨rfl, id⟩
      case true  => exact WMCameraManger.repareForZoom_adjusts ha
    exact Option.some.inj hs ▸ .adjust rfl (ha.trans <| WMCameraManger.zoom_adjusts hm)
  case changeCamera       =>
    have ⟨manager, hm, hs⟩ := Option.bind_eq_some_iff.mp hs
    exact Option.some.inj hs ▸ .adjust rfl (WMCameraManger.changeCamera_adjusts hm)
  case didStarGesture     => exact didStarGesture_effect hd.left hd.right hs
  case timeRecord         => exact timeRecord_effect hd hs
  case retakeButtonClick  => exact Option.some.inj hs ▸ .retake hd.left hd.right
  case takeButtonClick    =>
    have ⟨url, hu, hs⟩ := Option.bind_eq_some_iff.mp hs
    have ⟨type, ht, hs⟩ := Option.bind_eq_some_iff.mp hs
    exact Option.some.inj hs ▸ .take hd.left hd.right hu ht
  case confirmAlert =>
    simp only [handle] at hs
    rw [update_append (s := { s with alert := none }) <| sss_delegateCalls _] at hs
    exact Option.some.inj hs ▸ .confirm hd
  case cancelAlert => exact Option.some.inj hs ▸ .cancel hd
  case captureOutput =>
    have ⟨manager, hm, hs⟩ := Option.bind_eq_some_iff.mp hs
    exact Option.some.inj hs ▸ .capture hm
  case finishWritingCompletion => exact Option.some.inj hs ▸ .finish hd (if_pos hd)
  case complete =>
    have ⟨manager, hm, hs⟩ := Option.bind_eq_some_iff.mp hs
    have ⟨videoUrl, hu, hs⟩ := Option.bind_eq_some_iff.mp hs
    exact Option.some.inj hs ▸ .complete hd ((if_pos hd).trans hm) hu

structure Sound (device : Device) (s : WMCameraViewController) : Prop where
  control   : s.control.Sound
  manager   : s.manager.Sound device
  taking    : s.manager.taking = []
  recording : s.manager.isRecording = s.control.timer
  session   : s.control.timer → s.manager.session = some s.manager.currentCapture ∧ s.manager.captures ≠ []
  pending   : s.manager.pending =
    if s.control.cameraButtonIsHidden ∧ s.control.retakeButtonIsHidden then [s.manager.currentCapture] else []
  take      : s.control.takeButtonIsHidden = s.control.retakeButtonIsHidden
  alert     : s.alert.isSome → s.control.retakeButtonIsHidden = false
  long      : s.control.retakeButtonIsHidden = false → s.alert ≠ some .tooShort → 2 ≤ s.control.recordTime
  type      : s.control.retakeButtonIsHidden = false → s.type = some .video
  url       : s.control.retakeButtonIsHidden = false →
    ∃ url, s.url = some url ∧ s.manager.completeCalls.getLast? = some (s.manager.currentCapture, url)
  player    : s.videoPlayerIsHidden = s.control.retakeButtonIsHidden
  navBar    : s.navBarIsHidden = (s.control.timer || s.control.cameraButtonIsHidden)
  progress  : s.progressViewIsHidden = !s.navBarIsHidden
  files     : ∀ call ∈ s.manager.completeCalls, s.manager.IsFile device call.fst call.snd
  handed    : ∀ call ∈ s.completeBlockCalls, call.snd = .video ∧
    ∃ capture, (capture, call.fst) ∈ s.manager.completeCalls

theorem Sound.pending_of_visible (h : s.Sound device) (hv : s.control.cameraButtonIsHidden = false) :
    s.manager.pending = [] := by
  rw [h.pending, if_neg (by simp [hv])]

theorem Sound.pending_of_retake (h : s.Sound device) (hr : s.control.retakeButtonIsHidden = false) :
    s.manager.pending = [] := by
  rw [h.pending, if_neg (by simp [hr])]

theorem Sound.retake_of_visible (h : s.Sound device) (hv : s.control.cameraButtonIsHidden = false) :
    s.control.retakeButtonIsHidden := by
  by_contra hr
  simp [h.control.retake (by simpa using hr)] at hv

theorem Sound.hidden_of_pending (h : s.Sound device) {capture : Nat} (hc : capture ∈ s.manager.pending) :
    s.control.cameraButtonIsHidden ∧ s.control.retakeButtonIsHidden ∧
      s.manager.pending = [s.manager.currentCapture] ∧ capture = s.manager.currentCapture := by
  by_cases hn : s.control.cameraButtonIsHidden ∧ s.control.retakeButtonIsHidden
  case neg => simp [h.pending, hn] at hc
  case pos =>
    have hp := h.pending.trans <| if_pos hn
    exact ⟨hn.left, hn.right, hp, List.mem_singleton.mp <| hp ▸ hc⟩

theorem Sound.idle_of_pending (h : s.Sound device) {capture : Nat} (hc : capture ∈ s.manager.pending) :
    s.manager.isRecording = false := by
  refine Bool.eq_false_iff.mpr fun hr => ?_
  nomatch h.control.visible (h.recording ▸ hr) ▸ h.hidden_of_pending hc |>.left

theorem Sound.begin (h : s.Sound device) {date : Rat} {canCreateWriter : Bool} {manager : WMCameraManger}
    (hv : s.control.cameraButtonIsHidden = false) (hi : s.control.isStar = false) (ha : s.alert = none)
    (hm : s.manager.step device (.startRecordingVideo date canCreateWriter) = some manager) : Sound device { s with
      control              := { s.control with isStar := true }.longPressBegin
      manager              := manager
      navBarIsHidden       := true
      progressViewIsHidden := false } := by
  have hr := h.retake_of_visible hv
  have hn : ¬s.control.retakeButtonIsHidden = false := by simp [hr]
  have ⟨hb₁, hb₂, hb₃, hb₄, hb₅, hb₆⟩ := WMCameraManger.startRecordingVideo_books hm
  exact {
    control   := WMCameraControl.Effect.begin hv hi |>.sound h.control
    manager   := WMCameraManger.step_effect hm |>.sound h.manager
    taking    := hb₄.trans h.taking
    recording := hb₁
    session   := fun _ => ⟨hb₂, hb₃⟩
    pending   := hb₅.trans <| (h.pending_of_visible hv).trans (if_neg fun hc => nomatch hv ▸ hc.left).symm
    take      := h.take
    alert     := by simp [ha]
    long      := fun hr' => absurd hr' hn
    type      := fun hr' => absurd hr' hn
    url       := fun hr' => absurd hr' hn
    player    := h.player
    navBar    := rfl
    progress  := rfl
    files     := fun call hc =>
      h.files call (hb₆ ▸ hc) |>.append <| WMCameraManger.startRecordingVideo_captures hm
    handed    := hb₆ ▸ h.handed
  }

theorem Sound.ended (h : s.Sound device) {control : WMCameraControl} {manager : WMCameraManger} (ht : s.control.timer)
    (hs : control.Sound) (ht' : control.timer = false) (hv : control.cameraButtonIsHidden)
    (hr : control.retakeButtonIsHidden = s.control.retakeButtonIsHidden)
    (hk : control.takeButtonIsHidden = s.control.takeButtonIsHidden)
    (hm : s.manager.step device .endRecordingVideo = some manager) : Sound device { s with control, manager } := by
  have hv₀ := h.control.visible ht
  have hr₀ := h.retake_of_visible hv₀
  have hn : ¬control.retakeButtonIsHidden = false := by simp [hr, hr₀]
  have ⟨hb₁, hb₂, hb₃, hb₄, hb₅⟩ := WMCameraManger.endRecordingVideo_books (h.recording.trans ht) hm
  have ⟨hf, hc⟩ := List.append_eq_nil_iff.mp <| h.pending_of_visible hv₀
  exact {
    control   := hs
    manager   := WMCameraManger.step_effect hm |>.sound h.manager
    taking    := hb₃.trans h.taking
    recording := hb₁.trans ht'.symm
    session   := fun ht => nomatch ht' ▸ ht
    pending   := by
      have hl : manager.currentCapture = s.manager.currentCapture := by simp [WMCameraManger.currentCapture, hb₂]
      rw [if_pos ⟨hv, hr.trans hr₀⟩, hb₄, hf, hc, (h.session ht).left]
      exact congrArg (fun capture => [capture]) hl.symm
    take      := hk.trans <| h.take.trans hr.symm
    alert     := fun ha => absurd (h.alert ha) (by simp [hr₀])
    long      := fun hr' => absurd hr' hn
    type      := fun hr' => absurd hr' hn
    url       := fun hr' => absurd hr' hn
    player    := h.player.trans hr.symm
    navBar    := by simp [h.navBar, ht, ht', hv]
    progress  := h.progress
    files     := fun call hc => h.files call (hb₅ ▸ hc) |>.congr hb₂
    handed    := hb₅ ▸ h.handed
  }

theorem Sound.kept (h : s.Sound device) {manager : WMCameraManger} (hs : manager.Sound device)
    (hb : manager.isRecording = s.manager.isRecording ∧ manager.session = s.manager.session ∧
      manager.captures = s.manager.captures ∧ manager.taking = s.manager.taking ∧
      manager.pending = s.manager.pending ∧ manager.completeCalls = s.manager.completeCalls) :
    Sound device { s with manager } := by
  have ⟨hb₁, hb₂, hb₃, hb₄, hb₅, hb₆⟩ := hb
  have hl : manager.currentCapture = s.manager.currentCapture :=
    congrArg (fun captures => List.length captures - 1) hb₃
  exact { h with
    manager   := hs
    taking    := hb₄.trans h.taking
    recording := hb₁.trans h.recording
    session   := fun ht => ⟨hb₂.trans <| hl ▸ (h.session ht).left, hb₃ ▸ (h.session ht).right⟩
    pending   := hb₅.trans <| hl ▸ h.pending
    url       := fun hr => hl ▸ hb₆ ▸ h.url hr
    files     := fun call hc => h.files call (hb₆ ▸ hc) |>.congr hb₃
    handed    := hb₆ ▸ h.handed
  }

theorem Sound.adjust (h : s.Sound device) {manager : WMCameraManger} (hm : s.manager.Adjusts manager) :
    Sound device { s with manager } :=
  h.kept (hm.sound h.manager) hm.books

theorem sound_viewDidLoad (videoLength : {length : Rat // 0 < length}) (video audio : Option AVCaptureDeviceInput) :
    Sound device (viewDidLoad videoLength video audio) :=
  have h : Sound device { control := { videoLength } } := {
    control   := WMCameraControl.sound_init videoLength
    manager   := WMCameraManger.sound_init
    taking    := rfl
    recording := rfl
    session   := nofun
    pending   := rfl
    take      := rfl
    alert     := nofun
    long      := nofun
    type      := nofun
    url       := nofun
    player    := rfl
    navBar    := rfl
    progress  := rfl
    files     := nofun
    handed    := nofun
  }
  h.adjust WMCameraManger.setupCamera_adjusts

theorem Effect.sound (he : Effect device s e s') (h : s.Sound device) : s'.Sound device := by
  cases he
  case adjust hm _ => exact h.adjust hm
  case begin hv hi ha hz hm => exact (h.adjust hz).begin hv hi ha hm
  case «end» ht ha hm =>
    have hs := WMCameraControl.Effect.end ht |>.sound h.control
    rw [WMCameraControl.longPressEnd_of_timer (by exact ht)] at hs ⊢
    exact h.ended ht hs rfl rfl rfl rfl hm
  case overrun ht hl hm =>
    have hs := WMCameraControl.Effect.overrun ht hl |>.sound h.control
    rw [WMCameraControl.timeRecord_of_lt ht hl] at hs ⊢
    exact h.ended ht hs rfl rfl rfl rfl hm
  case miss hi ht ha => exact { h with control := WMCameraControl.Effect.miss hi ht |>.sound h.control }
  case tick ht hl =>
    have hs := WMCameraControl.Effect.tick ht hl |>.sound h.control
    have hr := h.retake_of_visible <| h.control.visible ht
    rw [WMCameraControl.timeRecord_of_le hl] at hs ⊢
    exact { h with control := hs, long := fun hr' => nomatch hr ▸ hr' }
  case retake hr ha =>
    exact { h with alert := fun _ => hr, long := fun hr _ => h.long hr (by simp [ha]) }
  case take url type hv ha hu ht =>
    have hr := h.take ▸ hv
    obtain ⟨url', hu', hc⟩ := h.url hr
    cases hu ▸ hu'
    cases ht ▸ h.type hr
    refine { h with handed := List.forall_mem_append.mpr ⟨h.handed, List.forall_mem_singleton.mpr ⟨rfl, ?_⟩⟩ }
    exact ⟨_, List.mem_of_getLast? hc⟩
  case confirm ha =>
    have hr := h.alert ha
    have ht : s.control.timer = false := by
      by_contra ht
      simp [h.retake_of_visible <| h.control.visible <| by simpa using ht] at hr
    exact { h with
      control  := WMCameraControl.Effect.retake hr |>.sound h.control
      pending  := h.pending_of_retake hr
      take     := rfl
      alert    := Bool.noConfusion
      long     := Bool.noConfusion
      type     := Bool.noConfusion
      url      := Bool.noConfusion
      player   := rfl
      navBar   := by simp [WMCameraControl.sss, WMCameraControl.callDelegate, cameraControlDidClickBack, ht]
      progress := rfl
    }
  case cancel ha =>
    exact { h with alert := Bool.noConfusion, long := fun hr _ => h.long hr (by simp [ha]) }
  case capture hm =>
    exact h.kept (WMCameraManger.step_effect hm |>.sound h.manager) <| WMCameraManger.captureOutput_books hm
  case finish hf hm =>
    obtain ⟨_, _, hp, _⟩ := h.hidden_of_pending <| List.mem_append_left _ hf
    obtain ⟨_, hb⟩ := WMCameraManger.finishWritingCompletion_books hp hm
    exact h.kept (WMCameraManger.step_effect hm |>.sound h.manager) hb
  case complete capture videoUrl _ hc hm hu =>
    obtain ⟨hv, hr, hp, _⟩ := h.hidden_of_pending <| List.mem_append_right _ hc
    obtain ⟨url, hu', hb₁, hb₂, hb₃, hb₄, hb₅, hb₆⟩ := WMCameraManger.complete_books hp hm
    cases hu ▸ hu'
    have hl : WMCameraManger.currentCapture _ = s.manager.currentCapture :=
      congrArg (fun captures => List.length captures - 1) hb₃
    exact { h with
      control   := WMCameraControl.Effect.complete hv |>.sound h.control
      manager   := WMCameraManger.step_effect hm |>.sound h.manager
      taking    := hb₄.trans h.taking
      recording := hb₁.trans h.recording
      session   := fun ht => ⟨hb₂.trans <| hl ▸ (h.session ht).left, hb₃ ▸ (h.session ht).right⟩
      pending   := hb₅.trans (if_neg fun hn => Bool.noConfusion hn.right).symm
      take      := rfl
      alert     := fun _ => rfl
      long      := fun _ ha => not_lt.mp fun hl => ha <| if_pos hl
      type      := fun _ => rfl
      url       := fun _ => ⟨_, rfl, hl ▸ hb₆ ▸ List.getLast?_concat⟩
      player    := rfl
      files     := fun call hc => by
        refine WMCameraManger.IsFile.congr ?_ hb₃
        rcases List.mem_append.mp (hb₆ ▸ hc) with hc | hc
        · exact h.files call hc
        · exact List.mem_singleton.mp hc ▸ WMCameraManger.isFile_currentCapture h.manager hu'
      handed    := fun call hc =>
        (h.handed call hc).imp_right <| Exists.imp fun _ hc => hb₆ ▸ List.mem_append_left _ hc
    }

variable {videoLength : {length : Rat // 0 < length}} {video audio : Option AVCaptureDeviceInput} {es : List Event}

theorem exec_sound (h : exec device (viewDidLoad videoLength video audio) es = some s) : s.Sound device :=
  Run.invariant' (fun h hs => (step_effect hs).sound h) (sound_viewDidLoad videoLength video audio) h

-- There is a recording precisely while the timer of the control is running, and at most one that has not
-- been reported, during which no button is visible. What can be taken is the recording that was begun
-- last, is shown by the player, and is not too short. What is reported or handed over is the file that was
-- created for the recording.
theorem exec_screen (h : exec device (viewDidLoad videoLength video audio) es = some s) :
    s.manager.isRecording = s.control.timer ∧
    (s.manager.pending ≠ [] → s.manager.pending = [s.manager.currentCapture] ∧ s.manager.isRecording = false ∧
      s.control.cameraButtonIsHidden ∧ s.control.retakeButtonIsHidden ∧ s.control.takeButtonIsHidden) ∧
    (s.IsDue .takeButtonClick → s.videoPlayerIsHidden = false ∧ 2 ≤ s.control.recordTime ∧ s.type = some .video ∧
      ∃ url, s.url = some url ∧ s.manager.completeCalls.getLast? = some (s.manager.currentCapture, url)) ∧
    (∀ call ∈ s.manager.completeCalls, s.manager.IsFile device call.fst call.snd) ∧
    ∀ call ∈ s.completeBlockCalls, call.snd = .video ∧ ∃ capture, (capture, call.fst) ∈ s.manager.completeCalls := by
  have hs := exec_sound h
  refine ⟨hs.recording, fun hp => ?_, fun hd => ?_, hs.files, hs.handed⟩
  case refine_1 =>
    have ⟨capture, hc⟩ := List.exists_mem_of_ne_nil _ hp
    have ⟨hv, hr, hp, _⟩ := hs.hidden_of_pending hc
    exact ⟨hp, hs.idle_of_pending hc, hv, hr, hs.take.trans hr⟩
  case refine_2 =>
    have hr := hs.take ▸ hd.left
    exact ⟨hs.player.trans hr, hs.long hr (by simp [hd.right]), hs.type hr, hs.url hr⟩

def tapRun : List Event :=
  [.viewWillAppear, .didStarGesture 0 true, .captureOutput .videoDataOut ⟨0, true, true⟩, .timeRecord,
    .didStarGesture 1 true, .finishWritingCompletion 0, .complete 0]

def sampleInput : AVCaptureDeviceInput where
  position           := .back
  videoMaxZoomFactor := 4

theorem exec_screen_tapRun : ∃ s, exec .epoch (viewDidLoad ⟨15, by decide⟩ sampleInput sampleInput) tapRun = some s ∧
    s.alert = some .tooShort ∧ s.manager.completeCalls = [(0, "/Documents/Resource/19700101000000.MP4")] ∧
    s.manager.isRecording = s.control.timer ∧ s.manager.IsFile .epoch 0 "/Documents/Resource/19700101000000.MP4" := by
  have he : (exec .epoch (viewDidLoad ⟨15, by decide⟩ sampleInput sampleInput) tapRun).map
      (fun s => (s.alert, s.manager.completeCalls)) =
      some (some .tooShort, [(0, "/Documents/Resource/19700101000000.MP4")]) := by
    decide +kernel
  have ⟨s, hs, h⟩ := Option.map_eq_some_iff.mp he
  have ⟨ha, hc⟩ := Prod.mk.inj h
  have ⟨hr, _, _, hf, _⟩ := exec_screen hs
  exact ⟨s, hs, ha, hc, hr, hf _ (hc ▸ List.mem_singleton_self _)⟩

-- No field is read that holds nothing, whatever happens next.
def Reads (device : Device) (s : WMCameraViewController) : Prop :=
  ∀ e, s.IsDue e → (s.handle device e).isSome

def HasSpace (s : WMCameraViewController) : Event → Prop
  | .didStarGesture _ canCreateWriter => s.control.isStar = false → canCreateWriter
  | _                                 => True

theorem hasWriter_of_reads (h : s.Reads device) (hr : s.manager.isRecording) : s.manager.HasWriter := by
  have ⟨_, hv⟩ := Option.isSome_iff_exists.mp <| h (.captureOutput .videoDataOut ⟨0, true, true⟩) trivial
  have ⟨_, ha⟩ := Option.isSome_iff_exists.mp <| h (.captureOutput .audioDataOut ⟨0, true, true⟩) trivial
  simp only [handle, WMCameraManger.captureOutput, hr] at hv ha
  have ⟨_, hv, _⟩ := Option.bind_eq_some_iff.mp hv
  have ⟨_, ha, _⟩ := Option.bind_eq_some_iff.mp ha
  have ⟨_, hw, hv⟩ := Option.bind_eq_some_iff.mp hv
  have ⟨_, hv, _⟩ := Option.bind_eq_some_iff.mp hv
  have ⟨_, ha, _⟩ := Option.bind_eq_some_iff.mp ha
  exact ⟨Option.isSome_of_eq_some hw, Option.isSome_of_eq_some hv, Option.isSome_of_eq_some ha⟩

theorem perform_isSome (h : s.manager.isRecording → s.manager.HasWriter) (hv : s.manager.videoInput.isSome)
    {control : WMCameraControl} {date : Rat} {canCreateWriter : Bool} (call : DelegateCall) :
    ({ s with control }.perform device date canCreateWriter call).isSome := by
  cases call
  case cameraControlBeginTakeVideo =>
    have ⟨_, hz⟩ := Option.isSome_iff_exists.mp <| WMCameraManger.repareForZoom_isSome hv
    simpa [perform, cameraControlBeginTakeVideo, hz, Option.isSome_bind] using WMCameraManger.startRecordingVideo_isSome
  case cameraControlEndTakeVideo =>
    have he := WMCameraManger.endRecordingVideo_isSome_of_hasWriter h
    simpa [perform, cameraControlEndTakeVideo, Option.isSome_bind] using he
  case cameraControlDidClickBack => rfl

theorem update_isSome_of_append (h : s.manager.isRecording → s.manager.HasWriter)
    (hv : s.manager.videoInput.isSome) {control : WMCameraControl} {call : DelegateCall} {date : Rat}
    {canCreateWriter : Bool} (hc : control.delegateCalls = s.control.delegateCalls ++ [call]) :
    (s.update device control date canCreateWriter).isSome :=
  update_append hc ▸ perform_isSome h hv call

theorem update_isSome (h : s.manager.isRecording → s.manager.HasWriter) (hv : s.manager.videoInput.isSome)
    {e : WMCameraControl.Event} {control : WMCameraControl} {date : Rat} {canCreateWriter : Bool}
    (hc : s.control.step e = some control) :
    (s.update device control date canCreateWriter).isSome := by
  cases WMCameraControl.step_effect hc
  case begin    => exact update_isSome_of_append h hv <| longPressBegin_delegateCalls _ true
  case «end» ht => exact update_isSome_of_append h hv <| longPressEnd_delegateCalls ht false
  case miss     => exact Option.isSome_of_eq_some <| update_eq rfl
  case tick hl  => exact Option.isSome_of_eq_some <| update_eq <| by rw [WMCameraControl.timeRecord_of_le hl]
  case overrun ht hl => exact update_isSome_of_append h hv <| timeRecord_delegateCalls ht hl
  case complete => exact Option.isSome_of_eq_some <| update_eq rfl
  case retake   => exact update_isSome_of_append h hv <| sss_delegateCalls _

theorem Sound.reads_iff (hs : s.Sound device) (hv : s.manager.videoInput.isSome) :
    s.Reads device ↔ (s.manager.isRecording → s.manager.HasWriter) := by
  constructor
  case mp => exact hasWriter_of_reads
  case mpr =>
    intro h e hd
    cases e
    case viewWillAppear | focus =>
      simpa [handle, viewWillAppear, focus, Option.isSome_bind] using WMCameraManger.focusAt_isSome hv
    case animationDidStop => rfl
    case pinch began _ _ =>
      have ⟨_, hz⟩ := Option.isSome_iff_exists.mp <| WMCameraManger.repareForZoom_isSome hv
      have hv' := WMCameraManger.repareForZoom_adjusts hz |>.videoInput hv
      cases began
      case false => simpa [handle, pinch, Option.isSome_bind] using WMCameraManger.zoom_isSome hv
      case true  => simpa [handle, pinch, hz, Option.isSome_bind] using WMCameraManger.zoom_isSome hv'
    case changeCamera =>
      simpa [handle, cameraControlDidChangeCamera, Option.isSome_bind] using WMCameraManger.changeCamera_isSome hv
    case didStarGesture    => exact update_isSome (e := .didStarGesture) h hv <| if_neg (by simp [hd.left])
    case timeRecord        => exact update_isSome (e := .timeRecord) h hv <| if_pos hd
    case retakeButtonClick => rfl
    case takeButtonClick =>
      have hr := hs.take ▸ hd.left
      have ⟨_, hu, _⟩ := hs.url hr
      simp [handle, cameraControlDidComplete, hu, hs.type hr]
    case confirmAlert =>
      have hr := hs.alert hd
      exact update_isSome (s := { s with alert := none }) (e := .sss) h hv <| if_neg (by simp [hr])
    case cancelAlert   => rfl
    case captureOutput => simpa [handle, Option.isSome_bind] using WMCameraManger.captureOutput_isSome_of_hasWriter h
    case finishWritingCompletion => rfl
    case complete capture =>
      have hu := hs.manager.currentUrl_isSome <| hs.manager.completing _ hd
      have ⟨_, hu⟩ := Option.isSome_iff_exists.mp hu
      simp [handle, complete, WMCameraManger.complete, hu]

theorem Effect.isIdle (he : Effect device s e s') (hs : s.Sound device) (h : s.manager.IsIdle) : s'.manager.IsIdle := by
  have hn : s.manager.isRecording → s.manager.session ≠ none := fun hr =>
    Option.ne_none_iff_exists'.mpr ⟨_, hs.session (hs.recording ▸ hr) |>.left⟩
  cases he
  case adjust hm _      => exact hm.isIdle h
  case begin hz hm      =>
    have ⟨hr, hs, _⟩ := hz.books
    exact WMCameraManger.step_effect hm |>.isIdle (by rwa [hr, hs]) <| hz.isIdle h
  case «end» hm         => exact WMCameraManger.step_effect hm |>.isIdle hn h
  case overrun hm       => exact WMCameraManger.step_effect hm |>.isIdle hn h
  case capture hm       => exact WMCameraManger.step_effect hm |>.isIdle hn h
  case finish hm        => exact WMCameraManger.step_effect hm |>.isIdle hn h
  case complete hc hm _ => exact WMCameraManger.step_effect hm |>.isIdle hn h
  all_goals exact h

theorem Effect.videoInput (he : Effect device s e s') (h : s.manager.videoInput.isSome) :
    s'.manager.videoInput.isSome := by
  cases he
  case adjust hm _      => exact hm.videoInput h
  case begin hz hm      => exact WMCameraManger.step_effect hm |>.videoInput ▸ hz.videoInput h
  case «end» hm         => exact WMCameraManger.step_effect hm |>.videoInput ▸ h
  case overrun hm       => exact WMCameraManger.step_effect hm |>.videoInput ▸ h
  case capture hm       => exact WMCameraManger.step_effect hm |>.videoInput ▸ h
  case finish hm        => exact WMCameraManger.step_effect hm |>.videoInput ▸ h
  case complete hc hm _ => exact WMCameraManger.step_effect hm |>.videoInput ▸ h
  all_goals exact h

theorem Effect.reads_iff (he : Effect device s e s') (hs : s.Sound device) (hi : s.manager.IsIdle)
    (hv : s.manager.videoInput.isSome) (h : s.Reads device) : s'.Reads device ↔ s.HasSpace e := by
  have h := (hs.reads_iff hv).mp h
  rw [(he.sound hs).reads_iff (he.videoInput hv)]
  cases he
  case adjust hm hd =>
    have hc : s.HasSpace e := by cases e <;> trivial
    exact iff_of_true (fun hr => hm.hasWriter <| h <| hm.books.left ▸ hr) hc
  case begin hv hs' _ hz hm =>
    have ht : s.control.timer = false := Bool.eq_false_iff.mpr fun ht => by simp [hs.control.isStar ht] at hs'
    have ⟨hr, _, _, _, hp, _⟩ := hz.books
    have hf := List.append_eq_nil_iff.mp (hp.trans <| hs.pending_of_visible hv) |>.left
    have hw := hz.isIdle hi (hr.trans <| hs.recording.trans ht) hf
    exact (WMCameraManger.startRecordingVideo_hasWriter_iff hw hm).trans ⟨fun h _ => h, fun h => h hs'⟩
  case «end» ht _ hm =>
    have hr := WMCameraManger.endRecordingVideo_books (hs.recording.trans ht) hm |>.left
    refine iff_of_true (fun hr' => nomatch hr ▸ hr') fun hi => ?_
    exact nomatch hs.control.isStar ht ▸ hi
  case overrun ht _ hm =>
    have hr := WMCameraManger.endRecordingVideo_books (hs.recording.trans ht) hm |>.left
    exact iff_of_true (fun hr' => nomatch hr ▸ hr') trivial
  case miss hi' _ _      => exact iff_of_true h fun hi => nomatch hi' ▸ hi
  case capture hm        => exact iff_of_true (WMCameraManger.captureOutput_hasWriter h hm) trivial
  case finish hf hm      =>
    have ⟨_, _, hp, _⟩ := hs.hidden_of_pending <| List.mem_append_left _ hf
    have ⟨_, hb, _⟩ := WMCameraManger.finishWritingCompletion_books hp hm
    have hr := hb.trans <| hs.idle_of_pending <| List.mem_append_left _ hf
    exact iff_of_true (fun hr' => nomatch hr ▸ hr') trivial
  case complete hc hm hu =>
    have ⟨_, _, hp, _⟩ := hs.hidden_of_pending <| List.mem_append_right _ hc
    have ⟨_, _, hb, _⟩ := WMCameraManger.complete_books hp hm
    have hr := hb.trans <| hs.idle_of_pending <| List.mem_append_right _ hc
    exact iff_of_true (fun hr' => nomatch hr ▸ hr') trivial
  all_goals exact iff_of_true h trivial

-- No field is read that holds nothing, at any point of a run, precisely if the camera could be set up and a writer can
-- be created for each recording that begins.
theorem always_reads_iff (device : Device) (videoLength : {length : Rat // 0 < length})
    (video audio : Option AVCaptureDeviceInput) (es : List Event) :
    Run.Always (step device) (Reads device) (viewDidLoad videoLength video audio) es ↔
      (video.isSome ∧ audio.isSome) ∧ Run.Meets (step device) HasSpace (viewDidLoad videoLength video audio) es := by
  have hs : Sound device (viewDidLoad videoLength video audio) := sound_viewDidLoad videoLength video audio
  have hinv : ∀ {s e s'}, (Sound device s ∧ s.manager.IsIdle ∧ s.manager.videoInput.isSome) →
      step device s e = some s' → Sound device s' ∧ s'.manager.IsIdle ∧ s'.manager.videoInput.isSome :=
    fun ⟨hs, hi, hv⟩ h => ⟨step_effect h |>.sound hs, step_effect h |>.isIdle hs hi, step_effect h |>.videoInput hv⟩
  cases video <;> cases audio
  case some.some =>
    have hi : (∀ {s e s'}, (Sound device s ∧ s.manager.IsIdle ∧ s.manager.videoInput.isSome) → s.Reads device →
        step device s e = some s' → (s'.Reads device ↔ s.HasSpace e)) :=
      fun ⟨hs, hi, hv⟩ hr h => step_effect h |>.reads_iff hs hi hv hr
    rw [Run.always_iff_meets hinv hi ⟨hs, fun _ _ => rfl, rfl⟩ <| (hs.reads_iff rfl).mpr nofun]
    exact (and_iff_right ⟨rfl, rfl⟩).symm
  -- The screen stops as soon as it appears.
  all_goals refine iff_of_false (fun h => ?_) fun h => by simp at h
  all_goals exact absurd (h [] _ List.nil_prefix rfl .viewWillAppear trivial) Bool.false_ne_true

end WMCameraViewController
end Camera
