import SwiftProjectKit.Camera.Manager

namespace Camera

variable {device : Device} {s s' : WMCameraManger} {e : WMCameraManger.Event}

def AVAssetWriter.received (writer : AVAssetWriter) (sampleBuffer : SampleBuffer) : AVAssetWriter :=
  if writer.status ≠ .writing then
    writer.startWriting sampleBuffer.canStartWriting |>.startSession sampleBuffer.presentationTimeStamp
  else
    writer

@[simp]
theorem AVAssetWriter.received_capture (writer : AVAssetWriter) (sampleBuffer : SampleBuffer) :
    (writer.received sampleBuffer).capture = writer.capture := by
  rw [received]
  split <;> rfl

@[simp]
theorem AVAssetWriterInput.appendIfReady_capture (input : AVAssetWriterInput)
    (sampleBuffer : SampleBuffer) : (input.appendIfReady sampleBuffer).capture = input.capture := by
  rw [appendIfReady]
  split <;> rfl

def Device.epoch : Device where
  documentDirectory := "/Documents"
  string date       := if date < 1 then "19700101000000" else "19700101000001"

namespace WMCameraManger

def started (device : Device) (s : WMCameraManger) (date : Rat) : WMCameraManger :=
  let s := s.beginCapture device { type := .video, date }
  { s with session := s.currentCapture, isRecording := true }

inductive Effect (device : Device) (s : WMCameraManger) : Event → WMCameraManger → Prop
  | pickImage {date : Rat} : Effect device s (.pickImage date) (s.pickImage device date)
  | noPhoto {capture : Nat} (hc : capture ∈ s.taking) :
    Effect device s (.pickImageCompletion capture false) { s with taking := s.taking.erase capture }
  | photo {capture : Nat} {url : String} (hc : capture ∈ s.taking) (hu : s.currentUrl = some url) :
    Effect device s (.pickImageCompletion capture true) { s with
      taking        := s.taking.erase capture
      writtenPhotos := s.writtenPhotos ++ [(capture, url)]
      completeCalls := s.completeCalls ++ [(capture, url)] }
  | start {date : Rat} {outputUrl : String} :
    Effect device s (.startRecordingVideo date true) { s.started device date with
      assetWriter           := some { capture := s.captures.length, outputUrl }
      assetWriterVideoInput := some { capture := s.captures.length }
      assetWriterAudioInput := some { capture := s.captures.length } }
  | noWriter {date : Rat} {errors : List String} :
    Effect device s (.startRecordingVideo date false) { s.started device date with errors }
  | idle (hr : s.isRecording = false) : Effect device s .endRecordingVideo s
  | «end» {writer : AVAssetWriter} (hr : s.isRecording) (hw : s.assetWriter = some writer) :
    Effect device s .endRecordingVideo { s with
      isRecording        := false
      finishWritingCalls := s.finishWritingCalls ++ [writer]
      finishing          := s.finishing ++ s.session.toList }
  | finish {capture : Nat} (hc : capture ∈ s.finishing) :
    Effect device s (.finishWritingCompletion capture) (s.finishWritingCompletion capture)
  | complete {capture : Nat} {url : String} (hc : capture ∈ s.completing) (hu : s.currentUrl = some url) :
    Effect device s (.complete capture) { s with
      completing    := s.completing.erase capture
      completeCalls := s.completeCalls ++ [(capture, url)] }
  | ignored {output : AVCaptureOutput} {sampleBuffer : SampleBuffer} (hr : s.isRecording = false) :
    Effect device s (.captureOutput output sampleBuffer) s
  | video {writer : AVAssetWriter} {input : AVAssetWriterInput} {sampleBuffer : SampleBuffer}
    (hw : s.assetWriter = some writer) (hi : s.assetWriterVideoInput = some input) :
    Effect device s (.captureOutput .videoDataOut sampleBuffer) { s with
      assetWriter           := some (writer.received sampleBuffer)
      assetWriterVideoInput := some (input.appendIfReady sampleBuffer) }
  | audio {input : AVAssetWriterInput} {sampleBuffer : SampleBuffer}
    (hi : s.assetWriterAudioInput = some input) :
    Effect device s (.captureOutput .audioDataOut sampleBuffer) { s with
      assetWriterAudioInput := some (input.appendIfReady sampleBuffer) }

theorem startRecordingVideo_effect {date : Rat} {canCreateWriter : Bool}
    (h : s.startRecordingVideo device date canCreateWriter = some s') :
    Effect device s (.startRecordingVideo date canCreateWriter) s' := by
  cases canCreateWriter
  case true =>
    simp [startRecordingVideo, initializeVideoWriter, beginCapture, currentCapture] at h
    subst h
    simpa [started, beginCapture, currentCapture] using Effect.start
  case false =>
    simp [startRecordingVideo, initializeVideoWriter, beginCapture, currentCapture] at h
    subst h
    simpa [started, beginCapture, currentCapture] using Effect.noWriter

theorem endRecordingVideo_effect (h : s.endRecordingVideo = some s') :
    Effect device s .endRecordingVideo s' := by
  cases hr : s.isRecording
  case false =>
    rw [endRecordingVideo, if_pos (by simp [hr])] at h
    exact Option.some.inj h ▸ .idle hr
  case true =>
    rw [endRecordingVideo, if_neg (by simp [hr])] at h
    have ⟨_, hw, h⟩ := Option.bind_eq_some_iff.mp h
    exact Option.some.inj h ▸ .end hr hw

theorem captureOutput_effect {output : AVCaptureOutput} {sampleBuffer : SampleBuffer}
    (h : s.captureOutput output sampleBuffer = some s') :
    Effect device s (.captureOutput output sampleBuffer) s' := by
  cases hr : s.isRecording
  case false =>
    unfold captureOutput at h
    rw [if_pos (by simp [hr])] at h
    exact Option.some.inj h ▸ .ignored hr
  case true =>
    unfold captureOutput at h
    rw [if_neg (by simp [hr])] at h
    cases output
    case videoDataOut =>
      have ⟨_, hw, h⟩ := Option.bind_eq_some_iff.mp h
      have ⟨_, hi, h⟩ := Option.bind_eq_some_iff.mp h
      exact Option.some.inj h ▸ .video hw hi
    case audioDataOut =>
      have ⟨_, hi, h⟩ := Option.bind_eq_some_iff.mp h
      exact Option.some.inj h ▸ .audio hi

theorem step_effect (h : step device s e = some s') : Effect device s e s' := by
  cases e
  case pickImage => exact Option.some.inj h ▸ .pickImage
  case pickImageCompletion hasImage =>
    have ⟨hc, h⟩ := Option.ite_none_right_eq_some.mp h
    cases hasImage
    case false => exact Option.some.inj h ▸ .noPhoto hc
    case true =>
      have ⟨_, hu, h⟩ := Option.bind_eq_some_iff.mp h
      exact Option.some.inj h ▸ .photo hc hu
  case startRecordingVideo => exact startRecordingVideo_effect h
  case endRecordingVideo   => exact endRecordingVideo_effect h
  case captureOutput       => exact captureOutput_effect h
  case finishWritingCompletion =>
    have ⟨hc, h⟩ := Option.ite_none_right_eq_some.mp h
    exact Option.some.inj h ▸ .finish hc
  case complete =>
    have ⟨hc, h⟩ := Option.ite_none_right_eq_some.mp h
    have ⟨_, hu, h⟩ := Option.bind_eq_some_iff.mp h
    exact Option.some.inj h ▸ .complete hc hu

-- What holds of the manager in any case: the current path is that of the capture that was begun last,
-- and all captures that are known by number have been begun.
structure Sound (device : Device) (s : WMCameraManger) : Prop where
  current    : s.currentUrl = s.captures.getLast?.map (·.url device)
  session    : ∀ capture ∈ s.session, capture < s.captures.length
  taking     : ∀ capture ∈ s.taking, capture < s.captures.length
  finishing  : ∀ capture ∈ s.finishing, capture < s.captures.length
  completing : ∀ capture ∈ s.completing, capture < s.captures.length

theorem beginCapture_sound (h : s.Sound device) (capture : Capture) :
    (s.beginCapture device capture).Sound device where
  current    := by simp [beginCapture]
  session    := fun c hc => h.session c hc |>.trans <| by simp [beginCapture]
  taking     := fun c hc => h.taking c hc |>.trans <| by simp [beginCapture]
  finishing  := fun c hc => h.finishing c hc |>.trans <| by simp [beginCapture]
  completing := fun c hc => h.completing c hc |>.trans <| by simp [beginCapture]

theorem started_session {date : Rat} : (s.started device date).session = some s.captures.length := by
  simp [started, currentCapture, beginCapture]

theorem started_sound (h : s.Sound device) (date : Rat) : (s.started device date).Sound device :=
  { beginCapture_sound h { type := .video, date } with
    session := by simp [started, currentCapture, beginCapture] }

theorem Sound.currentUrl_isSome (h : s.Sound device) {capture : Nat}
    (hc : capture < s.captures.length) : s.currentUrl.isSome := by
  have hn : s.captures ≠ [] := List.ne_nil_of_length_pos <| Nat.zero_lt_of_lt hc
  simp [h.current, hn]

theorem Effect.sound (he : Effect device s e s') (h : s.Sound device) : s'.Sound device := by
  cases he
  case pickImage date =>
    have h' := beginCapture_sound h { type := .photo, date }
    refine { h' with taking := fun c hc => ?_ }
    cases List.mem_append.mp hc
    case inl hc => exact h'.taking c hc
    case inr hc =>
      cases List.mem_singleton.mp hc
      simp [WMCameraManger.pickImage, currentCapture, beginCapture]
  case noPhoto => exact { h with taking := fun c hc => h.taking c <| List.mem_of_mem_erase hc }
  case photo   => exact { h with taking := fun c hc => h.taking c <| List.mem_of_mem_erase hc }
  case start date _    => exact { started_sound h date with }
  case noWriter date _ => exact { started_sound h date with }
  case idle => exact h
  case «end» =>
    refine { h with finishing := fun c hc => ?_ }
    cases List.mem_append.mp hc
    case inl hc => exact h.finishing c hc
    case inr hc => exact h.session c <| Option.mem_toList.mp hc
  case finish capture hc =>
    refine { h with
      finishing  := fun c hc => h.finishing c <| List.mem_of_mem_erase hc
      completing := fun c hc' => ?_
    }
    cases List.mem_append.mp hc'
    case inl hc' => exact h.completing c hc'
    case inr hc' => exact List.mem_singleton.mp hc' ▸ h.finishing capture hc
  case complete => exact { h with completing := fun c hc => h.completing c <| List.mem_of_mem_erase hc }
  case ignored  => exact h
  case video    => exact { h with }
  case audio    => exact { h with }

theorem sound_init : Sound device {} where
  current    := rfl
  session    := nofun
  taking     := nofun
  finishing  := nofun
  completing := nofun

end WMCameraManger
end Camera
