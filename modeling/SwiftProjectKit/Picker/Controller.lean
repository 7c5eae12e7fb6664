import Mathlib.Data.List.Basic
import SwiftProjectKit.Picker.State

namespace Picker

open Heap (Ref)

def PHAssetMediaType.isOpposite : PHAssetMediaType → PHAssetMediaType → Bool
  | image, video => true
  | video, image => true
  | _, _         => false

namespace State

@[simps]
def updateNextBtnTitle (s : State) : State :=
  let count := s.selectedModels.length
  let title := s.pickerOptions.selectDoneButtonTitle
  { s with
    rightBtn.isEnabled := 0 < count
    rightBtn.title     := if 0 < count then s!"{title}({count})" else title }

def resetSelected (s : State) (item : HEPhotoAsset) : HEPhotoAsset :=
  { item with isSelected := item.asset.localIdentifier ∈ s.selectedIdentifiers }

def limitEnable (s : State) (item : HEPhotoAsset) : HEPhotoAsset × Finset Nat :=
  let isBelow : Bool := s.selectedModels.length < s.optionMaxCount
  if isBelow && !item.isEnable then
    ({ item with isEnable := true }, {item.index})
  else if !isBelow && item.isEnable then
    ({ item with isEnable := false }, {item.index})
  else
    (item, ∅)

def disableOpposite (s : State) (selectedIndex : Option Nat) (item : HEPhotoAsset) :
    HEPhotoAsset × Finset Nat :=
  if s.firstType.any (·.isOpposite item.asset.mediaType) then
    ({ item with isEnable := false }, if selectedIndex.any (item.index != ·) then {item.index} else ∅)
  else
    (item, ∅)

def updateEnable (s : State) (selectedIndex : Option Nat) (item : HEPhotoAsset) :
    HEPhotoAsset × Finset Nat :=
  if !item.isSelected && s.isImageOrVideo then
    let (item, indexes₁) := s.limitEnable item
    let (item, indexes₂) := s.disableOpposite selectedIndex item
    (item, indexes₁ ∪ indexes₂)
  else
    (item, ∅)

-- The body of the loop in `setCellState`, which yields the item and the indexes to be refreshed.
def cellState (s : State) (selectedIndex : Option Nat) (isUpdateSelecetd : Bool) (item : HEPhotoAsset) :
    HEPhotoAsset × Finset Nat :=
  let item := if isUpdateSelecetd then s.resetSelected item else item
  let (item, indexes) := s.updateEnable selectedIndex item
  if s.selectedModels.isEmpty && s.isImageOrVideo then
    ({ item with isEnable := true }, insert item.index indexes)
  else
    (item, indexes)

-- Each object occurs once in `models`, and the loop changes neither the identifiers nor the types by
-- which it is controlled. Hence the updates of the items do not depend on each other.
@[simps]
def setCellState (s : State) (selectedIndex : Option Nat) (isUpdateSelecetd : Bool) : State :=
  let update := s.cellState selectedIndex isUpdateSelecetd
  { s with
    objects          := s.objects.modifyAll (fun item => update item |>.fst) s.models
    willUpadateIndex := s.models.foldl (fun indexes r => indexes ∪ (update <| s.objects.get r).snd) ∅ }

def updateUI (s : State) : State :=
  s.updateNextBtnTitle.setCellState none true

def finishSelection (s : State) (selectedIndex : Nat) (model : Ref) (isSelected : Bool)
    (selectedModels : List Ref) : State :=
  { s with selectedModels }.setIsSelected model isSelected
    |>.updateNextBtnTitle
    |>.setCellState selectedIndex false

-- The check button of a cell is passed in the state to which it was toggled by the tap. It is reset
-- to the state of the model if an alert is presented. An index out of bounds stops the program.
def updateSelectedCell (s : State) (selectedIndex : Nat) (isSelected : Bool) : Option State :=
  s.models[selectedIndex]?.map fun model =>
    if isSelected then
      match s.limitAlert s.selectedModels (s.mediaType model) with
      | some title => s.presentAlert title
      | none       => s.finishSelection selectedIndex model true <| s.selectedModels ++ [model]
    else
      s.finishSelection selectedIndex model false <|
        s.selectedModels.filter (s.identifier · != s.identifier model)

def checkBtnnClickClosure (s : State) (index : Nat) : Option State :=
  s.models[index]?.bind fun model =>
    let isSelect := !s.isSelected model
    let s := s.callDelegate <| .pickerIsSelectVideo isSelect
    s.updateSelectedCell index isSelect

@[simps]
def fetchPhotoModels (s : State) (photos : PHFetchResult) : State :=
  let models := photos.assets.mapIdx s.pickerOptions.photoModel
  { s with
    objects := s.objects.allocAll models
    models  := s.objects.fresh models.length }

@[simps]
def configUI (s : State) : State :=
  { s with rightBtn := { isEnabled := false, title := s.pickerOptions.selectDoneButtonTitle } }

def getAllPhotos (s : State) (library : PHFetchResult) : State :=
  let phAssets := library.filter s.pickerOptions.photosPredicate
  let s := { s with phAssets }.fetchPhotoModels phAssets |>.configUI
  if 0 < s.selectedModels.length then s.updateUI else s

-- The state of the picker once it has loaded. The given objects are those that its caller holds from
-- earlier pickers, among them the default selections.
def viewDidLoad (options : HEPickerOptions) (objects : Heap HEPhotoAsset) (library : PHFetchResult) :
    State :=
  let s : State := {
    pickerOptions  := options.config
    objects        := objects
    selectedModels := options.config.defaultModels
    phAssets       := { assets := [], nodup := List.nodup_nil }
    rightBtn       := { isEnabled := false, title := "" }
  }
  s.getAllPhotos library

def cellClick (s : State) (album : PHFetchResult) : State :=
  s.fetchPhotoModels album |>.updateUI

def photoLibraryDidChange (s : State) : Option PHFetchResult → State
  | none                         => s
  | some fetchResultAfterChanges =>
    { s with phAssets := fetchResultAfterChanges }.fetchPhotoModels fetchResultAfterChanges

def getImages (s : State) : State :=
  match s.todoArray with
  | []         => s.callDelegate <| .didFinishPicking s.selectedImages s.selectedModels
  | first :: _ => { s with requests := s.requests ++ [first] }

def nextBtnClick (s : State) : State :=
  { s with todoArray := s.selectedModels }.getImages

-- The handler of one of the running requests. Removing from an empty array stops the program.
def imageHandler (s : State) (request : Nat) (content : Option (List UInt8)) : Option State :=
  s.requests[request]?.bind fun loadedFor =>
    match s.todoArray with
    | []             => none
    | _ :: todoArray =>
      let image : UIImage := { loadedFor, content }
      { s with
        requests       := s.requests.eraseIdx request
        todoArray      := todoArray
        selectedImages := s.selectedImages ++ [image] }.getImages

def resetSelection (s : State) (model : Ref) (isSelected : Bool) (selectedModels : List Ref) : State :=
  { s.setIsSelected model isSelected with selectedModels }.updateUI

def selectedCloser (s : State) (selectedIndex : Nat) : Option State :=
  s.models[selectedIndex]?.map fun model =>
    s.resetSelection model true <| s.selectedModels ++ [model]

-- In contrast to `updateSelectedCell`, models are compared by identity.
def unSelectedCloser (s : State) (selectedIndex : Nat) : Option State :=
  s.models[selectedIndex]?.map fun model =>
    s.resetSelection model false <| s.selectedModels.filter (· != model)

end State
end Picker
