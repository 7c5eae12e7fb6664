import SwiftProjectKit.Camera.Theorems.Captures

namespace Camera
namespace WMCameraManger

variable {device : Device} {s s' : WMCameraManger} {e : Event}

structure HoldsSession (s : WMCameraManger) : Prop where
  writer : ∃ writer ∈ s.assetWriter, writer.capture ∈ s.session
  video  : ∃ input ∈ s.assetWriterVideoInput, input.capture ∈ s.session
  audio  : ∃ input ∈ s.assetWriterAudioInput, input.capture ∈ s.session

-- A completion is due if a capture waits for it. Everything else can happen at any time.
def IsDue (s : WMCameraManger) : Event → Prop
  | .pickImageCompletion capture _   => capture ∈ s.taking
  | .finishWritingCompletion capture => capture ∈ s.finishing
  | .complete capture                => capture ∈ s.completing
  | _                                => True

structure KeepsSession (device : Device) (e : Event) (s' : WMCameraManger) : Prop where
  holds  : s'.isRecording → s'.HoldsSession
  failed : ∀ date, e = .startRecordingVideo date false → s'.isRecording = false
  begun  : ∀ writer ∈ s'.finishWritingCalls, writer.status ≠ .unknown
  reads  : ∀ next, s'.IsDue next → (s'.step device next).isSome

-- A writer can be created for each recording, a recording is not ended before a buffer has been
-- delivered for its video, and its writer does not finish while another recording is going on.
def IsOrderly (s : WMCameraManger) : Event → Prop
  | .startRecordingVideo _ canCreateWriter => canCreateWriter
  | .endRecordingVideo => s.isRecording → ∀ writer ∈ s.assetWriter, writer.status ≠ .unknown
  | .finishWritingCompletion _ => s.isRecording = false
  | _ => True

theorem startRecordingVideo_isSome {date : Rat} {canCreateWriter : Bool} :
    (s.startRecordingVideo device date canCreateWriter).isSome := by
  cases canCreateWriter
  all_goals rfl

theorem endRecordingVideo_isSome (h : s.isRecording → s.HoldsSession) : s.endRecordingVideo.isSome := by
  rw [endRecordingVideo]
  split
  case isTrue => rfl
  case isFalse hr =>
    obtain ⟨_, hw, _⟩ := h (by simpa using hr) |>.writer
    simp [Option.mem_def.mp hw]

theorem captureOutput_isSome (h : s.isRecording → s.HoldsSession) {output : AVCaptureOutput}
    {sampleBuffer : SampleBuffer} : (s.captureOutput output sampleBuffer).isSome := by
  unfold captureOutput
  split
  case isTrue => rfl
  case isFalse hr =>
    have h := h (by simpa using hr)
    have ⟨_, hw, _⟩ := h.writer
    have ⟨_, hv, _⟩ := h.video
    have ⟨_, ha, _⟩ := h.audio
    cases output
    case videoDataOut => simp [Option.mem_def.mp hw, Option.mem_def.mp hv]
    case audioDataOut => simp [Option.mem_def.mp ha]

theorem Sound.step_isSome (hs : s.Sound device) (h : s.isRecording → s.HoldsSession) (hd : s.IsDue e) :
    (s.step device e).isSome := by
  cases e
  case pickImage => rfl
  case pickImageCompletion capture hasImage =>
    have hu := hs.currentUrl_isSome <| hs.taking _ hd
    rw [step, if_pos (by exact hd)]
    cases hasImage
    case false => rfl
    case true  => simpa [pickImageCompletion, Option.isSome_bind] using hu
  case startRecordingVideo => exact startRecordingVideo_isSome
  case endRecordingVideo   => exact endRecordingVideo_isSome h
  case captureOutput       => exact captureOutput_isSome h
  case finishWritingCompletion =>
    rw [step, if_pos (by exact hd)]
    rfl
  case complete =>
    have hu := hs.currentUrl_isSome <| hs.completing _ hd
    rw [step, if_pos (by exact hd)]
    simpa [complete, Option.isSome_bind] using hu

theorem KeepsSession.of_holds (hs : s'.Sound device) (hh : s'.isRecording → s'.HoldsSession)
    (hf : ∀ date, e = .startRecordingVideo date false → s'.isRecording = false)
    (hb : ∀ writer ∈ s'.finishWritingCalls, writer.status ≠ .unknown) : KeepsSession device e s' where
  holds  := hh
  failed := hf
  begun  := hb
  reads  := fun _ hd => hs.step_isSome hh hd

theorem HoldsSession.video_received (h : s.HoldsSession) {writer : AVAssetWriter}
    {input : AVAssetWriterInput} {sampleBuffer : SampleBuffer} (hw : s.assetWriter = some writer)
    (hi : s.assetWriterVideoInput = some input) : HoldsSession { s with
      assetWriter           := some (writer.received sampleBuffer)
      assetWriterVideoInput := some (input.appendIfReady sampleBuffer) } where
  writer := by
    have ⟨_, hw', hc⟩ := h.writer
    cases Option.some.inj <| hw.symm.trans hw'
    exact ⟨_, rfl, by rwa [AVAssetWriter.received_capture]⟩
  video := by
    have ⟨_, hi', hc⟩ := h.video
    cases Option.some.inj <| hi.symm.trans hi'
    exact ⟨_, rfl, by rwa [AVAssetWriterInput.appendIfReady_capture]⟩
  audio := h.audio

theorem HoldsSession.audio_received (h : s.HoldsSession) {input : AVAssetWriterInput}
    {sampleBuffer : SampleBuffer} (hi : s.assetWriterAudioInput = some input) :
    HoldsSession { s with assetWriterAudioInput := some (input.appendIfReady sampleBuffer) } where
  writer := h.writer
  video  := h.video
  audio  := by
    have ⟨_, hi', hc⟩ := h.audio
    cases Option.some.inj <| hi.symm.trans hi'
    exact ⟨_, rfl, by rwa [AVAssetWriterInput.appendIfReady_capture]⟩

theorem Effect.keepsSession_iff (he : Effect device s e s') (hs : s.Sound device)
    (hh : s.isRecording → s.HoldsSession)
    (hb : ∀ writer ∈ s.finishWritingCalls, writer.status ≠ .unknown) :
    KeepsSession device e s' ↔ s.IsOrderly e := by
  have hs' := he.sound hs
  cases he
  case pickImage => exact iff_of_true (.of_holds hs' (fun hr => { hh hr with }) nofun hb) trivial
  case noPhoto   => exact iff_of_true (.of_holds hs' (fun hr => { hh hr with }) nofun hb) trivial
  case photo     => exact iff_of_true (.of_holds hs' (fun hr => { hh hr with }) nofun hb) trivial
  case start =>
    refine iff_of_true (.of_holds hs' (fun _ => ⟨?_, ?_, ?_⟩) nofun hb) rfl
    all_goals exact ⟨_, rfl, started_session⟩
  case noWriter =>
    exact iff_of_false (fun h => Bool.false_ne_true (h.failed _ rfl).symm) Bool.false_ne_true
  case idle hr => exact iff_of_true (.of_holds hs' hh nofun hb) fun hr' => by simp [hr] at hr'
  case «end» writer hr hw =>
    constructor
    case mp =>
      intro h _ writer' hw'
      cases Option.some.inj <| hw.symm.trans hw'
      exact h.begun writer <| List.mem_append_right _ <| List.mem_singleton_self _
    case mpr =>
      intro h
      refine .of_holds hs' nofun nofun fun writer' hw' => ?_
      cases List.mem_append.mp hw'
      case inl hw' => exact hb writer' hw'
      case inr hw' => exact List.mem_singleton.mp hw' ▸ h hr writer hw
  case finish =>
    constructor
    case mp =>
      intro h
      refine Bool.eq_false_iff.mpr fun hr => ?_
      obtain ⟨_, hw, _⟩ := h.holds hr |>.writer
      cases hw
    case mpr => exact fun hr => .of_holds hs' (fun hr' => absurd (hr.symm.trans hr') nofun) nofun hb
  case complete => exact iff_of_true (.of_holds hs' (fun hr => { hh hr with }) nofun hb) trivial
  case ignored  => exact iff_of_true (.of_holds hs' hh nofun hb) trivial
  case video hw hi =>
    exact iff_of_true (.of_holds hs' (fun hr => hh hr |>.video_received hw hi) nofun hb) trivial
  case audio hi =>
    exact iff_of_true (.of_holds hs' (fun hr => hh hr |>.audio_received hi) nofun hb) trivial

theorem steps_keepsSession_iff (device : Device) (es : List Event) :
    Run.Steps (step device) (fun _ => KeepsSession device) {} es ↔
      Run.Meets (step device) IsOrderly {} es := by
  refine Run.steps_iff_meets (fun s => s.Sound device ∧ (s.isRecording → s.HoldsSession) ∧
    ∀ writer ∈ s.finishWritingCalls, writer.status ≠ .unknown) ?_ ?_ ⟨sound_init, nofun, nofun⟩
  case refine_1 => exact fun ⟨h, _⟩ hs hk => ⟨step_effect hs |>.sound h, hk.holds, hk.begun⟩
  case refine_2 => exact fun ⟨h, hh, hb⟩ hs => step_effect hs |>.keepsSession_iff h hh hb

-- A recording is on although no writer could be created for it, so the next buffer for its video is
-- given to a writer that is not there.
theorem startRecordingVideo_not_keepsSession :
    ¬ Run.Steps (step .epoch) (fun _ => KeepsSession .epoch) {} [.startRecordingVideo 0 false] :=
  fun h => Bool.false_ne_true (h.left.failed 0 rfl).symm

end WMCameraManger
end Camera
