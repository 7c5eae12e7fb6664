import Mathlib.Order.Interval.Set.Basic
import Mathlib.Data.Set.Prod
import Mathlib.Tactic.Linarith
import SwiftProjectKit.Camera.Editor

namespace Camera

variable {K : Type*} [Field K] [LinearOrder K] {naturalSize : CGSize K}

inductive Rotation
  | none
  | right
  | half
  | left

def Rotation.transform : Rotation → CGAffineTransform K
  | none  => ⟨1, 0, 0, 1, 0, 0⟩
  | right => ⟨0, 1, -1, 0, 0, 0⟩
  | half  => ⟨-1, 0, 0, -1, 0, 0⟩
  | left  => ⟨0, -1, 1, 0, 0, 0⟩

def Rotation.turns : Rotation → Bool
  | none  | half => false
  | right | left => true

def rectangle (size : CGSize K) : Set (K × K) :=
  Set.Icc 0 size.width ×ˢ Set.Icc 0 size.height

def Fills (naturalSize : CGSize K) (transform : CGAffineTransform K) : Prop :=
  let composition := rotatoTo naturalSize transform
  composition.layerTransform.apply '' rectangle naturalSize = rectangle composition.renderSize

def Rotation.size (rotation : Rotation) (size : CGSize K) : CGSize K :=
  if rotation.turns then ⟨size.height, size.width⟩ else size

theorem Icc_zero_inj {a b : K} (ha : 0 ≤ a) : Set.Icc 0 a = Set.Icc 0 b ↔ a = b := by
  constructor
  case mp =>
    intro h
    have hab : a ∈ Set.Icc 0 b := h ▸ ⟨ha, le_rfl⟩
    have hba : b ∈ Set.Icc 0 a := h ▸ ⟨hab.left.trans hab.right, le_rfl⟩
    exact le_antisymm hab.right hba.right
  case mpr => exact fun h => h ▸ rfl

theorem rectangle_inj {s s' : CGSize K} (hw : 0 ≤ s.width) (hh : 0 ≤ s.height) :
    rectangle s = rectangle s' ↔ s = s' := by
  have hn : (rectangle s).Nonempty := ⟨0, ⟨le_rfl, hw⟩, le_rfl, hh⟩
  rw [rectangle, rectangle, Set.prod_eq_prod_iff_of_nonempty hn, Icc_zero_inj hw, Icc_zero_inj hh]
  cases s
  cases s'
  exact CGSize.mk.injEq .. |>.symm.to_iff

variable [IsStrictOrderedRing K]

theorem transformSize_eq (rotation : Rotation) :
    transformSize naturalSize rotation.transform =
      if rotation.turns then
        ⟨min naturalSize.width naturalSize.height, max naturalSize.width naturalSize.height⟩
      else
        ⟨max naturalSize.width naturalSize.height, min naturalSize.width naturalSize.height⟩ := by
  cases rotation <;> norm_num [transformSize, Rotation.transform, Rotation.turns]

def Rotation.place (size : CGSize K) : Rotation → K × K → K × K
  | none,  p => p
  | right, p => ⟨size.height - p.2, p.1⟩
  | half,  p => ⟨size.width - p.1, size.height - p.2⟩
  | left,  p => ⟨p.2, size.width - p.1⟩

def Rotation.placed (size : CGSize K) : Rotation → K × K → K × K
  | none,  q => q
  | right, q => ⟨q.2, size.height - q.1⟩
  | half,  q => ⟨size.width - q.1, size.height - q.2⟩
  | left,  q => ⟨size.width - q.2, q.1⟩

theorem apply_translatedBy (rotation : Rotation) (p : K × K) :
    (translatedBy naturalSize rotation.transform).apply p = rotation.place naturalSize p := by
  cases rotation <;>
    norm_num [translatedBy, CGAffineTransform.translatedBy, CGAffineTransform.apply, Rotation.transform,
      Rotation.place, sub_eq_neg_add]

theorem image_rectangle (rotation : Rotation) :
    (translatedBy naturalSize rotation.transform).apply '' rectangle naturalSize =
      rectangle (rotation.size naturalSize) := by
  have hf : (translatedBy naturalSize rotation.transform).apply = rotation.place naturalSize :=
    funext <| apply_translatedBy rotation
  have hl : Function.LeftInverse (rotation.placed naturalSize) (rotation.place naturalSize) := by
    intro p
    cases rotation <;> simp [Rotation.place, Rotation.placed]
  have hr : Function.RightInverse (rotation.placed naturalSize) (rotation.place naturalSize) := by
    intro p
    cases rotation <;> simp [Rotation.place, Rotation.placed]
  rw [hf, Set.image_eq_preimage_of_inverse hl hr]
  ext q
  cases rotation <;>
    simp only [rectangle, Rotation.size, Rotation.turns, Rotation.placed, Set.mem_preimage, Set.mem_prod,
      Set.mem_Icc, sub_nonneg, sub_le_self_iff, Bool.false_eq_true, if_true, if_false]
  case right => tauto
  case half  => tauto
  case left  => tauto

theorem size_eq_transformSize_iff (rotation : Rotation) :
    rotation.size naturalSize = transformSize naturalSize rotation.transform ↔
      naturalSize.height ≤ naturalSize.width := by
  rw [transformSize_eq, Rotation.size]
  cases naturalSize
  split <;> simp

theorem fills_iff_size (rotation : Rotation) (hw : 0 ≤ naturalSize.width) (hh : 0 ≤ naturalSize.height) :
    Fills naturalSize rotation.transform ↔
      rotation.size naturalSize = transformSize naturalSize rotation.transform := by
  have hs : 0 ≤ (rotation.size naturalSize).width ∧ 0 ≤ (rotation.size naturalSize).height := by
    rw [Rotation.size]
    split
    case isTrue  => exact ⟨hh, hw⟩
    case isFalse => exact ⟨hw, hh⟩
  rw [← rectangle_inj hs.left hs.right, ← image_rectangle]
  rfl

-- The frame fits if the longer side, which is taken for the width before the rotation, is the width.
theorem fills_iff (rotation : Rotation) (hw : 0 < naturalSize.width) (hh : 0 < naturalSize.height) :
    Fills naturalSize rotation.transform ↔ naturalSize.height ≤ naturalSize.width := by
  rw [fills_iff_size rotation hw.le hh.le, size_eq_transformSize_iff]

theorem sample_fills : Fills (K := Rat) ⟨1920, 1080⟩ Rotation.right.transform :=
  fills_iff .right (by norm_num) (by norm_num) |>.mpr <| by norm_num

theorem not_fills : ¬Fills (K := Rat) ⟨1080, 1920⟩ Rotation.none.transform := by
  rw [fills_iff_size .none (by norm_num) (by norm_num), size_eq_transformSize_iff]
  norm_num

end Camera
