import Mathlib.Algebra.Order.Field.Rat
import Mathlib.Data.Rat.Floor
import SwiftProjectKit.Primitives.Format
import SwiftProjectKit.Primitives.Run

namespace Camera

-- `%.0f` rounds to the nearest integer, and to the even one of two that are equally near.
def rounded (q : Rat) : Int :=
  if q - ⌊q⌋ < 1 / 2 ∨ q - ⌊q⌋ = 1 / 2 ∧ ⌊q⌋ % 2 = 0 then ⌊q⌋ else ⌊q⌋ + 1

def padded (n : Int) : String :=
  if n < 10 then s!"0{n}" else s!"{n}"

-- The hours are an `Int`, of which `%d` takes 32 bits.
def timeFormatFormSeconds (currentTime : Rat) : String :=
  if currentTime < 60 then
    s!"00:{rounded currentTime}"
  else
    let seconds := padded <| rounded <| currentTime - 60 * ⌊currentTime / 60⌋
    if currentTime < 3600 then
      s!"{⌊currentTime / 60⌋}:{seconds}"
    else
      s!"{Format.int32 ⌊currentTime / 3600⌋}:{padded <| ⌊currentTime / 60⌋ - ⌊currentTime / 3600⌋ * 60}:{seconds}"

inductive DelegateCall
  | cameraControlBeginTakeVideo
  | cameraControlEndTakeVideo
  | cameraControlDidClickBack
deriving DecidableEq

structure WMCameraControl where
  videoLength              : {length : Rat // 0 < length}
  recordTime               : Rat := 0
  isStar                   : Bool := false
  timer                    : Bool := false
  cameraButtonIsHidden     : Bool := false
  retakeButtonIsHidden     : Bool := true
  takeButtonIsHidden       : Bool := true
  anmitionTimeViewIsHidden : Bool := true
  strokeEnd                : Rat := 0
  progress                 : Rat := 0
  timeLabel                : String := "00:00"
  delegateCalls            : List DelegateCall := []

namespace WMCameraControl

def callDelegate (s : WMCameraControl) (call : DelegateCall) : WMCameraControl :=
  { s with delegateCalls := s.delegateCalls ++ [call] }

def longPressBegin (s : WMCameraControl) : WMCameraControl :=
  { s.callDelegate .cameraControlBeginTakeVideo with timer := true, anmitionTimeViewIsHidden := false }

def longPressEnd (s : WMCameraControl) : WMCameraControl :=
  if s.timer then
    { s.callDelegate .cameraControlEndTakeVideo with
      timer                    := false
      cameraButtonIsHidden     := true
      strokeEnd                := 0
      anmitionTimeViewIsHidden := true }
  else
    s

def didStarGesture (s : WMCameraControl) : WMCameraControl :=
  let s := { s with isStar := !s.isStar }
  if s.isStar then s.longPressBegin else s.longPressEnd

def setProgress (s : WMCameraControl) (p : Rat) : WMCameraControl :=
  if p > 1 then s.longPressEnd else { s with strokeEnd := p }

def timeRecord (s : WMCameraControl) : WMCameraControl :=
  let recordTime := s.recordTime + 1 / 100
  let progress := recordTime / s.videoLength
  { { s with recordTime }.setProgress progress with
    progress  := progress
    timeLabel := timeFormatFormSeconds recordTime }

def showCompleteAnimation (s : WMCameraControl) : WMCameraControl :=
  { s with retakeButtonIsHidden := false, takeButtonIsHidden := false }

def sss (s : WMCameraControl) : WMCameraControl :=
  { s.callDelegate .cameraControlDidClickBack with
    cameraButtonIsHidden     := false
    retakeButtonIsHidden     := true
    takeButtonIsHidden       := true
    anmitionTimeViewIsHidden := true
    progress                 := 0
    recordTime               := 0 }

inductive Event
  | didStarGesture
  | timeRecord
  | showCompleteAnimation
  | sss
deriving DecidableEq

-- A button can be tapped while it is visible, the timer ticks while it is running, and a recording has
-- been written some time after its end.
def step (s : WMCameraControl) : Event → Option WMCameraControl
  | .didStarGesture        => if s.cameraButtonIsHidden then none else some s.didStarGesture
  | .timeRecord            => if s.timer then some s.timeRecord else none
  | .showCompleteAnimation => if s.cameraButtonIsHidden then some s.showCompleteAnimation else none
  | .sss                   => if s.retakeButtonIsHidden then none else some s.sss

abbrev exec : WMCameraControl → List Event → Option WMCameraControl :=
  Run.exec step

end WMCameraControl
end Camera
