import Mathlib.Logic.Function.Basic
import SwiftProjectKit.Primitives.Run

namespace Camera

inductive AVMediaType
  | video
  | audio
deriving DecidableEq

def AVMediaType.other : AVMediaType → AVMediaType
  | video => audio
  | audio => video

-- A reader does not return to reading once it has stopped.
inductive AVAssetReaderStatus
  | reading
  | completed
  | failed
  | cancelled
deriving DecidableEq

-- What the block that provides an input with media data is about to do. It is `waiting` while the input
-- has not called it, and has `returned` once there was no more data.
inductive Block (α : Type*)
  | waiting
  | polling
  | copying
  | appending (sampleBuffer : α)
  | marking
  | completing
  | testing
  | finishing
  | returned
deriving DecidableEq

-- An export with a reader output, an input of the writer, and a queue for each type of media. The flags
-- `videoComplete` and `audioComplete` are `complete`.
structure WMVideoExporter (α : Type*) where
  status                  : AVAssetReaderStatus := .reading
  unread                  : AVMediaType → List α
  isReadyForMoreMediaData : AVMediaType → Bool := fun _ => false
  written                 : AVMediaType → List α := fun _ => []
  isFinished              : AVMediaType → Bool := fun _ => false
  complete                : AVMediaType → Bool := fun _ => false
  block                   : AVMediaType → Block α := fun _ => .waiting
  finishBlockCalls        : Nat := 0

namespace WMVideoExporter

variable {α : Type*} (s : WMVideoExporter α) (media : AVMediaType)

def goto (block : Block α) : WMVideoExporter α :=
  { s with block := Function.update s.block media block }

def copyNextSampleBuffer : Option α × WMVideoExporter α :=
  match s.status, s.unread media with
  | .reading, sampleBuffer :: rest =>
    ⟨sampleBuffer, { s with unread := Function.update s.unread media rest }⟩
  | _, _ => ⟨none, s⟩

def append (sampleBuffer : α) : WMVideoExporter α :=
  { s with written := Function.update s.written media (s.written media ++ [sampleBuffer]) }

def markAsFinished : WMVideoExporter α :=
  { s with isFinished := Function.update s.isFinished media true }

def setComplete : WMVideoExporter α :=
  { s with complete := Function.update s.complete media true }

def finishBlock : WMVideoExporter α :=
  { s with finishBlockCalls := s.finishBlockCalls + 1 }

def exportVideo (samples : AVMediaType → List α) : WMVideoExporter α where
  unread := samples

-- The next action of a block. The blocks for video and audio only differ in whose flag they set, and
-- whose flag they test.
def run : Option (WMVideoExporter α) :=
  match s.block media with
  | .waiting => none
  | .polling =>
    if s.isReadyForMoreMediaData media ∧ s.status = .reading then
      s.goto media .copying
    else
      s.goto media .waiting
  | .copying =>
    match s.copyNextSampleBuffer media with
    | ⟨none, s⟩              => s.goto media .marking
    | ⟨some sampleBuffer, s⟩ => s.goto media <| .appending sampleBuffer
  | .appending sampleBuffer => s.append media sampleBuffer |>.goto media .polling
  | .marking    => s.markAsFinished media |>.goto media .completing
  | .completing => s.setComplete media |>.goto media .testing
  | .testing    => if s.complete media.other then s.goto media .finishing else s.goto media .returned
  | .finishing  => s.finishBlock.goto media .returned
  | .returned   => none

inductive Event
  | status (status : AVAssetReaderStatus)
  | isReadyForMoreMediaData (media : AVMediaType) (isReady : Bool)
  | requestMediaData (media : AVMediaType)
  | run (media : AVMediaType)
deriving DecidableEq

-- A reader can stop at any time, and completes only when all sample buffers have been read. An input
-- calls its block when it is ready for data and not finished, unless the block is still running.
def step : Event → Option (WMVideoExporter α)
  | .status status =>
    if s.status = .reading ∧ (status = .completed → s.unread .video = [] ∧ s.unread .audio = []) then
      some { s with status }
    else
      none
  | .isReadyForMoreMediaData media isReady =>
    some { s with isReadyForMoreMediaData := Function.update s.isReadyForMoreMediaData media isReady }
  | .requestMediaData media =>
    match s.block media with
    | .waiting => if s.isReadyForMoreMediaData media ∧ !s.isFinished media then s.goto media .polling else none
    | _        => none
  | .run media => s.run media

abbrev exec : WMVideoExporter α → List Event → Option (WMVideoExporter α) :=
  Run.exec step

end WMVideoExporter
end Camera
