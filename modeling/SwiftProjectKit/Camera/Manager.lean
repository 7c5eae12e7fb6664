import Mathlib.Algebra.Order.Field.Rat
import SwiftProjectKit.Primitives.Run

namespace Camera

-- Where a device keeps its documents, and what its formatter makes of a date for the format
-- "yyyyMMddHHmmss".
structure Device where
  documentDirectory : String
  string            : Rat → String

def Device.wmGetDirectory (device : Device) : String :=
  device.documentDirectory ++ "/Resource/"

def Device.wmCreateFileUrl (device : Device) (date : Rat) (type : String) : String :=
  let fileName := device.string date ++ "." ++ type
  device.wmGetDirectory ++ fileName

inductive CaptureType
  | photo
  | video
deriving DecidableEq

def CaptureType.fileType : CaptureType → String
  | photo => "jpg"
  | video => "MP4"

structure Capture where
  type : CaptureType
  date : Rat
deriving DecidableEq

def Capture.url (capture : Capture) (device : Device) : String :=
  device.wmCreateFileUrl capture.date capture.type.fileType

inductive AVAssetWriterStatus
  | unknown
  | writing
  | failed
deriving DecidableEq

-- Writers and their inputs belong to the capture, by its number, for which they are created.
structure AVAssetWriter where
  capture          : Nat
  outputUrl        : String
  status           : AVAssetWriterStatus := .unknown
  sessionStartTime : Option Rat := none
deriving DecidableEq

structure AVAssetWriterInput where
  capture       : Nat
  sampleBuffers : List Rat := []
deriving DecidableEq

inductive AVCaptureDevicePosition
  | unspecified
  | back
  | front
deriving DecidableEq

structure AVCaptureDeviceInput where
  position           : AVCaptureDevicePosition
  videoZoomFactor    : Rat := 1
  videoMaxZoomFactor : Rat
deriving DecidableEq

inductive AVCaptureOutput
  | videoDataOut
  | audioDataOut
deriving DecidableEq

-- A buffer with its presentation time. Whether a writer can start when the buffer is delivered, and
-- whether the input is ready for the buffer, is up to the writer.
structure SampleBuffer where
  presentationTimeStamp    : Rat
  canStartWriting          : Bool := true
  isReadyForMoreMediaData  : Bool := true
deriving DecidableEq

-- The manager, with the captures that were begun, by number. The number of the recording that was
-- started last, the photos that are being taken, and the recordings that are being finished or about
-- to be reported, are told by `session`, `taking`, `finishing` and `completing`. All that is written
-- or reported is told along with the path that is used for it.
structure WMCameraManger where
  currentUrl            : Option String := none
  assetWriter           : Option AVAssetWriter := none
  assetWriterAudioInput : Option AVAssetWriterInput := none
  assetWriterVideoInput : Option AVAssetWriterInput := none
  videoInput            : Option AVCaptureDeviceInput := none
  isRecording           : Bool := false
  isFocusing            : Bool := false
  videoCurrentZoom      : Rat := 1
  errors                : List String := []
  captures              : List Capture := []
  session               : Option Nat := none
  taking                : List Nat := []
  finishing             : List Nat := []
  completing            : List Nat := []
  finishWritingCalls    : List AVAssetWriter := []
  writtenPhotos         : List (Nat × String) := []
  completeCalls         : List (Nat × String) := []
deriving DecidableEq

def AVAssetWriter.startWriting (writer : AVAssetWriter) (isPossible : Bool) : AVAssetWriter :=
  { writer with status := if isPossible then .writing else .failed }

def AVAssetWriter.startSession (writer : AVAssetWriter) (sourceTime : Rat) : AVAssetWriter :=
  { writer with sessionStartTime := sourceTime }

def AVAssetWriterInput.append (input : AVAssetWriterInput) (sampleBuffer : SampleBuffer) :
    AVAssetWriterInput :=
  { input with sampleBuffers := input.sampleBuffers ++ [sampleBuffer.presentationTimeStamp] }

def AVAssetWriterInput.appendIfReady (input : AVAssetWriterInput) (sampleBuffer : SampleBuffer) :
    AVAssetWriterInput :=
  if sampleBuffer.isReadyForMoreMediaData then input.append sampleBuffer else input

namespace WMCameraManger

variable (device : Device) (s : WMCameraManger)

def setupCamera (video audio : Option AVCaptureDeviceInput) : WMCameraManger :=
  match video, audio with
  | some video, some _ => { s with videoInput := some video }
  | _, _               => { s with errors := s.errors ++ ["初始化相机失败"] }

def focusAt : Option WMCameraManger :=
  if s.isFocusing then
    some s
  else
    s.videoInput.map fun _ => { s with isFocusing := true }

def animationDidStop : WMCameraManger :=
  { s with isFocusing := false }

def repareForZoom : Option WMCameraManger :=
  s.videoInput.map fun videoInput => { s with videoCurrentZoom := videoInput.videoZoomFactor }

def zoom (mulriple : Rat) (canLock : Bool) : Option WMCameraManger :=
  s.videoInput.map fun videoInput =>
    let videoMaxZoomFactor := min 5 videoInput.videoMaxZoomFactor
    let toZoomFactory := max 1 (s.videoCurrentZoom * mulriple)
    if canLock then
      { s with videoInput := some { videoInput with videoZoomFactor := min toZoomFactory videoMaxZoomFactor } }
    else
      s

-- Of the inputs that can be created for the two cameras, the other one takes the place of the current one.
def changeCamera (back front : Option AVCaptureDeviceInput) (canAddInput : Bool) : Option WMCameraManger := do
  if s.isRecording then
    some s
  else
    let videoInput ← s.videoInput
    match if videoInput.position = .unspecified ∨ videoInput.position = .front then back else front with
    | none       => some { s with errors := s.errors ++ ["切换摄像头失败"] }
    | some input => if canAddInput then some { s with videoInput := some input } else some s

def beginCapture (capture : Capture) : WMCameraManger :=
  { s with captures := s.captures ++ [capture], currentUrl := capture.url device }

def currentCapture : Nat :=
  s.captures.length - 1

def initializeVideoWriter (canCreateWriter : Bool) : Option WMCameraManger := do
  let outputUrl ← s.currentUrl
  if canCreateWriter then
    some { s with
      assetWriter           := some { capture := s.currentCapture, outputUrl }
      assetWriterVideoInput := some { capture := s.currentCapture }
      assetWriterAudioInput := some { capture := s.currentCapture } }
  else
    some { s with errors := s.errors ++ ["无法写入视频"] }

def pickImage (date : Rat) : WMCameraManger :=
  let s := s.beginCapture device { type := .photo, date }
  { s with taking := s.taking ++ [s.currentCapture] }

-- A photo has been taken, or could not be taken if there is no image. Both the file and the report
-- use the path that is the current one by then.
def pickImageCompletion (capture : Nat) (hasImage : Bool) : Option WMCameraManger := do
  let s := { s with taking := s.taking.erase capture }
  if hasImage then
    let currentUrl ← s.currentUrl
    some { s with
      writtenPhotos := s.writtenPhotos ++ [(capture, currentUrl)]
      completeCalls := s.completeCalls ++ [(capture, currentUrl)] }
  else
    some s

def startRecordingVideo (date : Rat) (canCreateWriter : Bool) : Option WMCameraManger := do
  let s := s.beginCapture device { type := .video, date }
  let s := { s with session := s.currentCapture }
  let s ← s.initializeVideoWriter canCreateWriter
  some { s with isRecording := true }

def endRecordingVideo : Option WMCameraManger := do
  if !s.isRecording then
    some s
  else
    let assetWriter ← s.assetWriter
    some { s with
      isRecording        := false
      finishWritingCalls := s.finishWritingCalls ++ [assetWriter]
      finishing          := s.finishing ++ s.session.toList }

-- A writer has finished. This clears the fields whichever writer they hold by then.
def finishWritingCompletion (capture : Nat) : WMCameraManger :=
  { s with
    assetWriter           := none
    assetWriterVideoInput := none
    assetWriterAudioInput := none
    finishing             := s.finishing.erase capture
    completing            := s.completing ++ [capture] }

def complete (capture : Nat) : Option WMCameraManger := do
  let currentUrl ← s.currentUrl
  some { s with
    completing    := s.completing.erase capture
    completeCalls := s.completeCalls ++ [(capture, currentUrl)] }

def captureOutput (output : AVCaptureOutput) (sampleBuffer : SampleBuffer) : Option WMCameraManger := do
  if !s.isRecording then
    some s
  else match output with
    | .videoDataOut =>
      let writer ← s.assetWriter
      let writer :=
        if writer.status ≠ .writing then
          writer.startWriting sampleBuffer.canStartWriting
            |>.startSession sampleBuffer.presentationTimeStamp
        else
          writer
      let input ← s.assetWriterVideoInput
      some { s with assetWriter := writer, assetWriterVideoInput := input.appendIfReady sampleBuffer }
    | .audioDataOut =>
      let input ← s.assetWriterAudioInput
      some { s with assetWriterAudioInput := input.appendIfReady sampleBuffer }

inductive Event
  | pickImage (date : Rat)
  | pickImageCompletion (capture : Nat) (hasImage : Bool)
  | startRecordingVideo (date : Rat) (canCreateWriter : Bool)
  | endRecordingVideo
  | captureOutput (output : AVCaptureOutput) (sampleBuffer : SampleBuffer)
  | finishWritingCompletion (capture : Nat)
  | complete (capture : Nat)
deriving DecidableEq

-- A completion happens once for each capture that waits for it. A step does not yield a state if a
-- field is read that holds nothing.
def step : Event → Option WMCameraManger
  | .pickImage date => s.pickImage device date
  | .pickImageCompletion capture hasImage =>
    if capture ∈ s.taking then s.pickImageCompletion capture hasImage else none
  | .startRecordingVideo date canCreateWriter => s.startRecordingVideo device date canCreateWriter
  | .endRecordingVideo => s.endRecordingVideo
  | .captureOutput output sampleBuffer => s.captureOutput output sampleBuffer
  | .finishWritingCompletion capture =>
    if capture ∈ s.finishing then some <| s.finishWritingCompletion capture else none
  | .complete capture => if capture ∈ s.completing then s.complete capture else none

end WMCameraManger
end Camera
