import Mathlib.Data.List.Basic
import SwiftProjectKit.Primitives.Run

namespace Publish

structure TZImagePickerController where
  maxImagesCount    : Nat
  allowPickingImage : Bool := true
  allowPickingVideo : Bool
  allowTakeVideo    : Bool := false
  allowTakePicture  : Bool := false
  allowCrop         : Bool := false
deriving DecidableEq

-- The screen on which a moment is composed. While it presents a picker, nothing else can be tapped.
structure SPublicVC (UIImage PHAsset : Type*) where
  defultImage        : UIImage
  dataArray          : List UIImage := []
  isVideo            : Bool := false
  pathPHAssest       : Option PHAsset := none
  videoFistImage     : Option UIImage := none
  videoViewIsHidden  : Bool := false
  collotionVIsHidden : Bool := false
  presented          : Option TZImagePickerController := none

inductive Cell (UIImage : Type*)
  | addImageCell (addImageV : UIImage)
  | uploadImageCell (imageV : UIImage) (tag : Nat)

def Cell.hasClearBtn {UIImage : Type*} : Cell UIImage → Bool
  | addImageCell _      => false
  | uploadImageCell _ _ => true

inductive Event (UIImage PHAsset : Type*)
  | didSelectItemAt (row : Nat)
  | didFinishPickingPhotosHandle (photos : List UIImage)
  | didFinishPickingVideoHandle (image : Option UIImage) (asset : PHAsset)
  | cancel
  | playVideo
  | deleateAction
  | didClearBtnAction (tag : Nat)
deriving DecidableEq

namespace SPublicVC

variable {UIImage PHAsset : Type*}

def setupViews (s : SPublicVC UIImage PHAsset) : SPublicVC UIImage PHAsset :=
  { s with dataArray := s.dataArray ++ [s.defultImage], videoViewIsHidden := true }

def viewDidLoad (defultImage : UIImage) : SPublicVC UIImage PHAsset :=
  setupViews { defultImage }

def insertAtFront (dataArray : List UIImage) (s : UIImage) : List UIImage :=
  s :: dataArray

def didFinishPickingPhotosHandle (s : SPublicVC UIImage PHAsset) (photos : List UIImage) :
    SPublicVC UIImage PHAsset :=
  let dataArray := photos.foldl insertAtFront s.dataArray
  { s with
    isVideo            := false
    videoViewIsHidden  := true
    collotionVIsHidden := false
    dataArray          := if dataArray.length = 10 then dataArray.dropLast else dataArray }

def didFinishPickingVideoHandle (s : SPublicVC UIImage PHAsset) (image : Option UIImage)
    (asset : PHAsset) : SPublicVC UIImage PHAsset :=
  let s := { s with isVideo := true, videoViewIsHidden := false, collotionVIsHidden := true }
  match image with
  | some fistImage => { s with videoFistImage := some fistImage, pathPHAssest := some asset }
  | none           => s

-- Requests the video to be played. Unwrapping a missing asset stops the program.
def playVideo (s : SPublicVC UIImage PHAsset) : Option PHAsset :=
  s.pathPHAssest

def deleateAction (s : SPublicVC UIImage PHAsset) : SPublicVC UIImage PHAsset :=
  { s with
    pathPHAssest       := none
    isVideo            := false
    videoViewIsHidden  := true
    collotionVIsHidden := false }

variable [DecidableEq UIImage]

-- Here and below, an index out of bounds stops the program.
def cellForItemAt (s : SPublicVC UIImage PHAsset) (row : Nat) : Option (Cell UIImage) :=
  s.dataArray[row]?.map fun image =>
    if image = s.defultImage then .addImageCell image else .uploadImageCell image row

def didSelectItemAt (s : SPublicVC UIImage PHAsset) (row : Nat) : Option (SPublicVC UIImage PHAsset) :=
  if s.dataArray.length < 10 then
    s.dataArray[row]?.map fun image =>
      if image = s.defultImage then
        { s with
          presented := some {
            maxImagesCount    := 10 - s.dataArray.length
            allowPickingVideo := s.dataArray.length == 1 } }
      else
        s
  else
    s

def didClearBtnAction (s : SPublicVC UIImage PHAsset) (tag : Nat) :
    Option (SPublicVC UIImage PHAsset) :=
  let dataArray :=
    if s.dataArray.length = 9 ∧ s.defultImage ∉ s.dataArray then
      s.dataArray ++ [s.defultImage]
    else
      s.dataArray
  if tag < dataArray.length then some { s with dataArray := dataArray.eraseIdx tag } else none

-- The photos that the picker hands over are as many as it allows for.
def allowsPhotos (vc : TZImagePickerController) (photos : List UIImage) : Bool :=
  !photos.isEmpty && photos.length ≤ vc.maxImagesCount

def step (s : SPublicVC UIImage PHAsset) : Event UIImage PHAsset → Option (SPublicVC UIImage PHAsset)
  | .didSelectItemAt row =>
    if s.presented.isNone && !s.collotionVIsHidden then s.didSelectItemAt row else none
  | .didFinishPickingPhotosHandle photos =>
    s.presented.bind fun vc =>
      if allowsPhotos vc photos && photos.all (· != s.defultImage) then
        some { s.didFinishPickingPhotosHandle photos with presented := none }
      else
        none
  | .didFinishPickingVideoHandle image asset =>
    s.presented.bind fun vc =>
      if vc.allowPickingVideo then
        some { s.didFinishPickingVideoHandle image asset with presented := none }
      else
        none
  | .cancel => s.presented.map fun _ => { s with presented := none }
  | .playVideo =>
    if s.presented.isNone && !s.videoViewIsHidden then s.playVideo.map fun _ => s else none
  | .deleateAction =>
    if s.presented.isNone && !s.videoViewIsHidden then some s.deleateAction else none
  | .didClearBtnAction tag =>
    if s.presented.isNone && !s.collotionVIsHidden && (s.cellForItemAt tag).any Cell.hasClearBtn then
      s.didClearBtnAction tag
    else
      none

abbrev exec : SPublicVC UIImage PHAsset → List (Event UIImage PHAsset) →
    Option (SPublicVC UIImage PHAsset) :=
  Run.exec step

end SPublicVC
end Publish
