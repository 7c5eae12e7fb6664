import SwiftProjectKit.Picker.Asset
import SwiftProjectKit.Primitives.Run

namespace Picker

structure Thumbnail where
  asset   : PHAsset
  content : Option (List UInt8)
deriving DecidableEq

-- The image of a cell that is reused for one model after another, with the images that its requests have
-- dispatched to the main queue.
structure CellImage where
  model                      : Option PHAsset := none
  representedAssetIdentifier : Option String := none
  image                      : Option Thumbnail := none
  mainQueue                  : List Thumbnail := []
deriving DecidableEq

namespace CellImage

variable (s : CellImage)

-- The cell is given a model. The handler is called before the request returns.
def setModel (asset : PHAsset) (content : Option (List UInt8)) : CellImage where
  model                      := asset
  representedAssetIdentifier := asset.localIdentifier
  image                      := none
  mainQueue                  := s.mainQueue ++ [{ asset, content }]

def setImage (thumbnail : Thumbnail) : CellImage :=
  { s with image := thumbnail.content.map fun _ => thumbnail }

-- What a handler dispatches. The model of the cell is the one that it has by then.
def handler (thumbnail : Thumbnail) : CellImage :=
  if s.representedAssetIdentifier = s.model.map PHAsset.localIdentifier then s.setImage thumbnail else s

inductive Event
  | setModel (asset : PHAsset) (content : Option (List UInt8))
  | runMainQueue
deriving DecidableEq

def step : Event → Option CellImage
  | .setModel asset content => s.setModel asset content
  | .runMainQueue           =>
    match s.mainQueue with
    | []                  => none
    | thumbnail :: others => { s with mainQueue := others }.handler thumbnail

abbrev exec : CellImage → List Event → Option CellImage :=
  Run.exec step

end CellImage
end Picker
