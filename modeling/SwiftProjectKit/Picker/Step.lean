import SwiftProjectKit.Primitives.Run
import SwiftProjectKit.Picker.Browser

namespace Picker

-- What can happen to a picker that has loaded. Taps concern a cell, an item or an album that is shown,
-- changes of the library carry what the displayed result has changed to, if it has.
inductive Event
  | checkBtnClick (index : Nat)
  | cellClick (album : PHFetchResult)
  | photoLibraryDidChange (changes : Option PHFetchResult)
  | didSelectItem (row : Nat)
  | scroll (page : Nat)
  | scrollViewDidEndDecelerating
  | didSelectBottomItem (row : Nat)
  | selectedBtnClick
  | popBrowser
  | nextBtnClick
  | imageHandler (request : Nat) (content : Option (List UInt8))

namespace State

-- The browser covers the cells and the album button of the picker.
def step (s : State) : Event → Option State
  | .checkBtnClick index           => if s.browser.isNone then s.checkBtnnClickClosure index else none
  | .cellClick album               => if s.browser.isNone then s.cellClick album else none
  | .photoLibraryDidChange changes => s.photoLibraryDidChange changes
  | .didSelectItem row             => if s.browser.isNone then s.didSelectItem row else none
  | .scroll page                   => s.browser.bind (s.scroll · page)
  | .scrollViewDidEndDecelerating  => s.browser.bind s.scrollViewDidEndDecelerating
  | .didSelectBottomItem row       => s.browser.bind (s.didSelectBottomItem · row)
  | .selectedBtnClick              => s.browser.bind s.selectedBtnClick
  | .popBrowser                    => s.browser.map fun _ => { s with browser := none }
  | .nextBtnClick                  => s.nextBtnClick
  | .imageHandler request content  => s.imageHandler request content

abbrev exec : State → List Event → Option State :=
  Run.exec step

end State

namespace Sample

def asset (localIdentifier : String) (mediaType : PHAssetMediaType) : PHAsset :=
  { localIdentifier, mediaType }

def library : PHFetchResult where
  assets := [asset "A" .image, asset "B" .image, asset "C" .video]
  nodup  := by decide

def changedLibrary : PHFetchResult where
  assets := [asset "D" .image, asset "A" .image, asset "C" .video]
  nodup  := by decide

def objects : Heap HEPhotoAsset where
  get _ := { asset := asset "A" .image }
  next  := 1

def options : HEPickerOptions :=
  { defaultSelections := some [0] }

end Sample
end Picker
