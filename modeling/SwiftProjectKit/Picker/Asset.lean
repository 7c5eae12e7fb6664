import SwiftProjectKit.Primitives.Heap

namespace Picker

open Heap (Ref)

inductive PHAssetMediaType
  | unknown
  | image
  | video
  | audio
deriving DecidableEq

structure PHAsset where
  localIdentifier : String
  mediaType       : PHAssetMediaType
deriving DecidableEq

-- The result of a fetch from the photo library. Each asset occurs in it once.
structure PHFetchResult where
  assets : List PHAsset
  nodup  : assets.map PHAsset.localIdentifier |>.Nodup

def PHFetchResult.filter (p : PHAsset → Bool) (photos : PHFetchResult) : PHFetchResult where
  assets := photos.assets.filter p
  nodup  := photos.nodup.sublist <| List.filter_sublist.map _

structure HEPhotoAsset where
  isSelected       : Bool := false
  isEnableSelected : Bool := true
  isEnable         : Bool := true
  asset            : PHAsset
  index            : Nat := 0

inductive HEMediaType
  | image
  | video
  | imageAndVideo
  | imageOrVideo
deriving DecidableEq

structure HEPickerOptions where
  mediaType             : HEMediaType := .imageAndVideo
  maxCountOfImage       : Int := 9
  maxCountOfVideo       : Int := 2
  singlePicture         : Bool := false
  singleVideo           : Bool := false
  defaultSelections     : Option (List Ref) := none
  selectDoneButtonTitle : String := "选择"
  maxPhotoWaringTips    : String := "最多只能选择%d个照片"
  maxVideoWaringTips    : String := "最多只能选择%d个视频"

namespace HEPickerOptions

def config (options : HEPickerOptions) : HEPickerOptions :=
  let options := match options.mediaType with
    | .imageAndVideo => { options with singlePicture := false, singleVideo := false }
    | .imageOrVideo  => { options with singlePicture := false }
    | .image         => { options with maxCountOfVideo := 0 }
    | .video         => { options with maxCountOfImage := 0 }
  let options := if options.singleVideo then { options with maxCountOfVideo := 0 } else options
  if options.singlePicture then { options with maxCountOfImage := 0 } else options

def defaultModels (options : HEPickerOptions) : List Ref :=
  options.defaultSelections.getD []

def photosPredicate (options : HEPickerOptions) (asset : PHAsset) : Bool :=
  match options.mediaType with
  | .image => asset.mediaType == .image
  | .video => asset.mediaType == .video
  | _      => true

def isSinglePicture (options : HEPickerOptions) (asset : PHAsset) : Bool :=
  asset.mediaType == .image && options.singlePicture

def isSingleVideo (options : HEPickerOptions) (asset : PHAsset) : Bool :=
  asset.mediaType == .video && options.singleVideo

def photoModel (options : HEPickerOptions) (index : Nat) (asset : PHAsset) : HEPhotoAsset where
  asset            := asset
  index            := index
  isEnableSelected := !(options.isSinglePicture asset || options.isSingleVideo asset)

def maxCount (options : HEPickerOptions) : PHAssetMediaType → Option Int
  | .image => options.maxCountOfImage
  | .video => options.maxCountOfVideo
  | _      => none

def waringTips (options : HEPickerOptions) : PHAssetMediaType → String
  | .image => options.maxPhotoWaringTips
  | _      => options.maxVideoWaringTips

@[simp]
theorem config_mediaType {options : HEPickerOptions} : options.config.mediaType = options.mediaType := by
  cases h : options.mediaType
  all_goals grind [config]

@[simp]
theorem config_defaultModels {options : HEPickerOptions} :
    options.config.defaultModels = options.defaultModels := by
  cases h : options.mediaType
  all_goals grind [config, defaultModels]

end HEPickerOptions

def format : List Char → Int → List Char
  | '%' :: 'd' :: cs, n => (toString n).toList ++ cs
  | c :: cs, n          => c :: format cs n
  | [], _               => []

end Picker
