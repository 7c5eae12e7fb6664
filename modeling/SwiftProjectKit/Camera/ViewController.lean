import SwiftProjectKit.Camera.Control
import SwiftProjectKit.Camera.Manager

namespace Camera

inductive WMCameraType
  | video
  | image
  | imageAndVideo
deriving DecidableEq

inductive Alert
  | tooShort
  | retake
deriving DecidableEq

-- The camera screen, with the alert that is presented, and what is handed over by `completeBlock`.
structure WMCameraViewController where
  control               : WMCameraControl
  manager               : WMCameraManger := {}
  url                   : Option String := none
  type                  : Option WMCameraType := none
  alert                 : Option Alert := none
  videoPlayerIsHidden   : Bool := true
  navBarIsHidden        : Bool := false
  progressViewIsHidden  : Bool := true
  completeBlockCalls    : List (String × WMCameraType) := []

namespace WMCameraViewController

def viewDidLoad (videoLength : {length : Rat // 0 < length}) (video audio : Option AVCaptureDeviceInput) :
    WMCameraViewController where
  control := { videoLength }
  manager := WMCameraManger.setupCamera {} video audio

variable (device : Device) (s : WMCameraViewController)

def viewWillAppear : Option WMCameraViewController := do
  let manager ← s.manager.focusAt
  some { s with manager }

def focus : Option WMCameraViewController := do
  let manager ← s.manager.focusAt
  some { s with manager }

def pinch (began : Bool) (scale : Rat) (canLock : Bool) : Option WMCameraViewController := do
  let manager ← (if began then s.manager.repareForZoom else some s.manager)
  let manager ← manager.zoom scale canLock
  some { s with manager }

def cameraControlDidChangeCamera (back front : Option AVCaptureDeviceInput) (canAddInput : Bool) :
    Option WMCameraViewController := do
  let manager ← s.manager.changeCamera back front canAddInput
  some { s with manager }

def cameraControlBeginTakeVideo (date : Rat) (canCreateWriter : Bool) : Option WMCameraViewController := do
  let manager ← s.manager.repareForZoom
  let manager ← manager.startRecordingVideo device date canCreateWriter
  some { s with manager, navBarIsHidden := true, progressViewIsHidden := false }

def cameraControlEndTakeVideo : Option WMCameraViewController := do
  let manager ← s.manager.endRecordingVideo
  some { s with manager }

def cameraControlDidClickBack : WMCameraViewController :=
  { s with videoPlayerIsHidden := true, navBarIsHidden := false, progressViewIsHidden := true }

def cameraControlDidComplete : Option WMCameraViewController := do
  let url ← s.url
  let type ← s.type
  some { s with completeBlockCalls := s.completeBlockCalls ++ [(url, type)] }

def perform (date : Rat) (canCreateWriter : Bool) : DelegateCall → Option WMCameraViewController
  | .cameraControlBeginTakeVideo => s.cameraControlBeginTakeVideo device date canCreateWriter
  | .cameraControlEndTakeVideo   => s.cameraControlEndTakeVideo
  | .cameraControlDidClickBack   => s.cameraControlDidClickBack

def update (control : WMCameraControl) (date : Rat) (canCreateWriter : Bool) : Option WMCameraViewController :=
  control.delegateCalls.drop s.control.delegateCalls.length |>.foldlM (perform device · date canCreateWriter)
    { s with control }

-- What `cameraControlEndTakeVideo` passes to the manager, to be called with the path of the recording.
def endTakeVideoCompletion (videoUrl : String) : WMCameraViewController :=
  { s with
    type                := some .video
    url                 := videoUrl
    videoPlayerIsHidden := false
    control             := s.control.showCompleteAnimation
    alert               := if s.control.recordTime < 2 then some .tooShort else s.alert }

def complete (capture : Nat) : Option WMCameraViewController := do
  let manager ← s.manager.complete capture
  let videoUrl ← s.manager.currentUrl
  some <| { s with manager }.endTakeVideoCompletion videoUrl

inductive Event
  | viewWillAppear
  | focus
  | animationDidStop
  | pinch (began : Bool) (scale : Rat) (canLock : Bool)
  | changeCamera (back front : Option AVCaptureDeviceInput) (canAddInput : Bool)
  | didStarGesture (date : Rat) (canCreateWriter : Bool)
  | timeRecord
  | retakeButtonClick
  | takeButtonClick
  | confirmAlert
  | cancelAlert
  | captureOutput (output : AVCaptureOutput) (sampleBuffer : SampleBuffer)
  | finishWritingCompletion (capture : Nat)
  | complete (capture : Nat)
deriving DecidableEq

-- A button can be tapped while it is visible and no alert is presented, gestures are recognized while no alert is, the
-- timer ticks while it is running, and a completion happens once for each capture that waits for it.
def IsDue : Event → Prop
  | .viewWillAppear                  => True
  | .focus                           => s.alert = none
  | .animationDidStop                => s.manager.isFocusing
  | .pinch _ _ _                     => s.alert = none
  | .changeCamera _ _ _              => s.navBarIsHidden = false ∧ s.alert = none
  | .didStarGesture _ _              => s.control.cameraButtonIsHidden = false ∧ s.alert = none
  | .timeRecord                      => s.control.timer
  | .retakeButtonClick               => s.control.retakeButtonIsHidden = false ∧ s.alert = none
  | .takeButtonClick                 => s.control.takeButtonIsHidden = false ∧ s.alert = none
  | .confirmAlert                    => s.alert.isSome
  | .cancelAlert                     => s.alert = some .retake
  | .captureOutput _ _               => True
  | .finishWritingCompletion capture => capture ∈ s.manager.finishing
  | .complete capture                => capture ∈ s.manager.completing

instance (e : Event) : Decidable (s.IsDue e) := by
  cases e <;> unfold IsDue <;> infer_instance

def handle : Event → Option WMCameraViewController
  | .viewWillAppear    => s.viewWillAppear
  | .focus             => s.focus
  | .animationDidStop  => some { s with manager := s.manager.animationDidStop }
  | .pinch began scale canLock           => s.pinch began scale canLock
  | .changeCamera back front canAddInput => s.cameraControlDidChangeCamera back front canAddInput
  | .didStarGesture date canCreateWriter => s.update device s.control.didStarGesture date canCreateWriter
  | .timeRecord        => s.update device s.control.timeRecord 0 false
  | .retakeButtonClick => some { s with alert := some .retake }
  | .takeButtonClick   => s.cameraControlDidComplete
  | .confirmAlert      => { s with alert := none }.update device s.control.sss 0 false
  | .cancelAlert       => some { s with alert := none }
  | .captureOutput output sampleBuffer => do
    let manager ← s.manager.captureOutput output sampleBuffer
    some { s with manager }
  | .finishWritingCompletion capture => some { s with manager := s.manager.finishWritingCompletion capture }
  | .complete capture => s.complete capture

def step (e : Event) : Option WMCameraViewController :=
  if s.IsDue e then s.handle device e else none

abbrev exec : WMCameraViewController → List Event → Option WMCameraViewController :=
  Run.exec (step device)

end WMCameraViewController
end Camera
