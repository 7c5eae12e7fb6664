import SwiftProjectKit.Picker.Step

namespace Picker

open Heap (Ref)

def Event.fetched (p : PHAsset → Bool) : Event → Event
  | .cellClick album               => .cellClick <| album.filter p
  | .photoLibraryDidChange changes => .photoLibraryDidChange <| changes.map (·.filter p)
  | e                              => e

-- The screen on which videos are recorded, or picked with an embedded picker. It is the delegate of
-- the picker.
structure SVideoRecordingVc where
  pickerVc          : State
  compleBtnIsHidden : Bool := true
  selectedModel     : List Ref := []
  visibleImages     : List UIImage := []

namespace SVideoRecordingVc

def pickerOptions (selectedModel : List Ref) : HEPickerOptions where
  singlePicture     := false
  singleVideo       := false
  mediaType         := .video
  defaultSelections := selectedModel
  maxCountOfVideo   := 1

def addChildView (objects : Heap HEPhotoAsset) (library : PHFetchResult) : SVideoRecordingVc where
  pickerVc := .viewDidLoad (pickerOptions []) objects library

def receive (s : SVideoRecordingVc) : DelegateCall → SVideoRecordingVc
  | .pickerIsSelectVideo isSelect                  => { s with compleBtnIsHidden := !isSelect }
  | .didFinishPicking selectedImages selectedModel =>
    { s with selectedModel, visibleImages := selectedImages }

-- The screen receives what its picker has called since it was the given one.
def receiveAll (s : SVideoRecordingVc) (pickerVc : State) : SVideoRecordingVc :=
  pickerVc.delegateCalls.drop s.pickerVc.delegateCalls.length |>.foldl receive { s with pickerVc }

def step (s : SVideoRecordingVc) (e : Event) : Option SVideoRecordingVc :=
  s.pickerVc.step (e.fetched s.pickerVc.pickerOptions.photosPredicate) |>.map s.receiveAll

end SVideoRecordingVc
end Picker
