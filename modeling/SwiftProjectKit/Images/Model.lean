import Mathlib.Algebra.Order.Field.Rat

namespace Images

abbrev CGFloat := Float

abbrev Data := List UInt8

inductive Outcome
  | running
  | trapped
  | returned (data : Option Data)
deriving DecidableEq

-- The qualities that have been passed to the encoder are recorded in order.
structure Compression where
  tried   : List CGFloat
  outcome : Outcome
deriving DecidableEq

variable (jpegData : (compressionQuality : CGFloat) → Option Data)

-- The loop in `compress`, from a quality that the data has been encoded with.
def compressFrom (maxLength : Int) : (fuel : Nat) → (compression : CGFloat) → Data → List CGFloat → Compression
  | 0,        _,           _,    tried => ⟨tried, .running⟩
  | fuel + 1, compression, data, tried =>
    if (data.length / 1024 : Nat) > maxLength then
      let compression := compression - 0.2
      if compression == 0 then
        ⟨tried, .returned data⟩
      else match jpegData compression with
        | none              => ⟨tried ++ [compression], .returned none⟩
        | some compressData => compressFrom maxLength fuel compression compressData <| tried ++ [compression]
    else
      ⟨tried, .returned data⟩

-- Multiplications of integers trap when they overflow.
def compress (max : Int) (fuel : Nat) : Compression :=
  let compression := 1
  let maxLength := max * 1024
  if -2 ^ 63 ≤ maxLength ∧ maxLength < 2 ^ 63 then
    match jpegData compression with
    | none      => ⟨[compression], .returned none⟩
    | some data => compressFrom jpegData maxLength fuel compression data [compression]
  else
    ⟨[], .trapped⟩

structure CGSize where
  width  : Rat
  height : Rat
deriving DecidableEq

def caculateThumbnailImageSize (imageSize : CGSize) : CGSize :=
  let imageMaxLength := 120
  let imageMinLength := 50
  if imageSize.width = 0 ∨ imageSize.height = 0 then
    ⟨imageMaxLength, imageMinLength⟩
  else if imageSize.width < imageMinLength ∨ imageSize.height < imageMinLength then
    if imageSize.width < imageSize.height then
      let imageHeight := imageMinLength * imageSize.height / imageSize.width
      ⟨imageMinLength, if imageHeight > imageMaxLength then imageMaxLength else imageHeight⟩
    else
      let imageWidth := imageMinLength * imageSize.width / imageSize.height
      ⟨if imageWidth > imageMaxLength then imageMaxLength else imageWidth, imageMinLength⟩
  else if imageSize.width < imageMaxLength ∧ imageSize.height < imageMaxLength ∧
      imageSize.width ≥ imageMinLength ∧ imageSize.height ≥ imageMinLength then
    if imageSize.width > imageSize.height then
      ⟨imageMaxLength, imageMaxLength * imageSize.height / imageSize.width⟩
    else
      ⟨imageMaxLength * imageSize.width / imageSize.height, imageMaxLength⟩
  else if imageSize.width ≥ imageMaxLength ∨ imageSize.height ≥ imageMaxLength then
    if imageSize.width > imageSize.height then
      if imageSize.width / imageSize.height < imageMaxLength / imageMinLength then
        ⟨imageMaxLength, imageMaxLength * imageSize.height / imageSize.width⟩
      else
        let imageWidth := imageMinLength * imageSize.width / imageSize.height
        ⟨if imageWidth > imageMaxLength then imageMaxLength else imageWidth, imageMinLength⟩
    else
      if imageSize.height / imageSize.width < imageMaxLength / imageMinLength then
        ⟨imageMaxLength * imageSize.width / imageSize.height, imageMaxLength⟩
      else
        let imageHeight := imageMinLength * imageSize.height / imageSize.width
        ⟨imageMinLength, if imageHeight > imageMaxLength then imageMaxLength else imageHeight⟩
  else
    ⟨0, 0⟩

end Images
