import SwiftProjectKit.Picker.Asset
import SwiftProjectKit.Primitives.Binary32
import SwiftProjectKit.Primitives.Format

namespace Picker

-- Halves are rounded away from zero. The result is not specified for numbers that are too large.
class Lroundf where
  lroundf    : Rat → Int
  lroundf_eq : ∀ x, |x| < 2 ^ 63 → lroundf x = Rounding.halfAway x

structure HEPhotoPickerCell where
  checkBtnIsHidden         : Bool := false
  checkBtnIsSelected       : Bool := false
  topViewIsHidden          : Bool := true
  durationBackViewIsHidden : Bool := true
  durationLab              : List Char := []

namespace HEPhotoPickerCell

variable [Lroundf]

def time (duration : Rat) : List Char :=
  let timeStamp := Lroundf.lroundf <| Binary32.toFloat duration
  let s := timeStamp.tmod 60
  let m := ((timeStamp - s).tdiv 60).tmod 60
  Format.precise 2 m ++ ':' :: Format.precise 2 s

def setModel (cell : HEPhotoPickerCell) (model : HEPhotoAsset) (duration : Rat) : HEPhotoPickerCell :=
  let cell := { cell with
    checkBtnIsHidden   := !model.isEnableSelected
    checkBtnIsSelected := model.isSelected
    topViewIsHidden    := model.isEnable }
  if model.asset.mediaType = .video then
    { cell with durationBackViewIsHidden := false, durationLab := time duration }
  else
    { cell with durationBackViewIsHidden := true }

end HEPhotoPickerCell
end Picker
