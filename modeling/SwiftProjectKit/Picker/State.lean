import Mathlib.Data.Finset.Basic
import Mathlib.Tactic.Simps.Basic
import SwiftProjectKit.Picker.Asset

namespace Picker

open Heap (Ref)

-- An image that was loaded, tagged with the model it was requested for. Photos may fail to provide
-- an image, in which case an empty one takes its place.
structure UIImage where
  loadedFor : Ref
  content   : Option (List UInt8)
deriving DecidableEq

structure HESeletecedButton where
  isEnabled : Bool
  title     : String

inductive DelegateCall
  | pickerIsSelectVideo (isSelect : Bool)
  | didFinishPicking    (selectedImages : List UIImage) (selectedModel : List Ref)
deriving DecidableEq

-- An open browser. The page of `currentIndex` is settled if the check button was last updated for it.
structure Browser where
  models         : List Ref
  selectedModels : List Ref
  currentIndex   : Nat
  isSelected     : Bool := false
  isHidden       : Bool := false
  isSettled      : Bool := false

-- The picker, together with the objects it shares with the browser it has opened and with its caller.
-- The images that are being loaded are those of `requests`.
structure State where
  pickerOptions    : HEPickerOptions
  objects          : Heap HEPhotoAsset
  models           : List Ref := []
  selectedModels   : List Ref := []
  selectedImages   : List UIImage := []
  todoArray        : List Ref := []
  phAssets         : PHFetchResult
  willUpadateIndex : Finset Nat := ∅
  rightBtn         : HESeletecedButton
  alerts           : List String := []
  delegateCalls    : List DelegateCall := []
  requests         : List Ref := []
  browser          : Option Browser := none

namespace State

def asset (s : State) (r : Ref) : PHAsset :=
  (s.objects.get r).asset

def identifier (s : State) (r : Ref) : String :=
  (s.asset r).localIdentifier

def mediaType (s : State) (r : Ref) : PHAssetMediaType :=
  (s.asset r).mediaType

def isSelected (s : State) (r : Ref) : Bool :=
  (s.objects.get r).isSelected

def isEnable (s : State) (r : Ref) : Bool :=
  (s.objects.get r).isEnable

def selectedIdentifiers (s : State) : List String :=
  s.selectedModels.map s.identifier

def firstType (s : State) : Option PHAssetMediaType :=
  s.selectedModels.head?.map s.mediaType

def isImageOrVideo (s : State) : Bool :=
  s.pickerOptions.mediaType == .imageOrVideo

def optionMaxCount (s : State) : Int :=
  s.pickerOptions.maxCountOfImage + s.pickerOptions.maxCountOfVideo

@[simps]
def setIsSelected (s : State) (r : Ref) (isSelected : Bool) : State :=
  { s with objects := s.objects.modify r ({ · with isSelected }) }

@[simps]
def presentAlert (s : State) (title : String) : State :=
  { s with alerts := s.alerts ++ [title] }

@[simps]
def callDelegate (s : State) (call : DelegateCall) : State :=
  { s with delegateCalls := s.delegateCalls ++ [call] }

-- The alert that is presented instead of selecting another asset of the given type. It is determined
-- by the picker from its own selected models, and by the browser from those of the browser.
def limitAlert (s : State) (selectedModels : List Ref) (type : PHAssetMediaType) : Option String :=
  match s.pickerOptions.maxCount type with
  | none          => none
  | some maxCount =>
    if selectedModels.countP (s.mediaType · == type) < maxCount then
      none
    else
      String.ofList <| format (s.pickerOptions.waringTips type).toList maxCount

end State
end Picker
