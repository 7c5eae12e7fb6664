import SwiftProjectKit.Picker.Step

namespace Picker
namespace State

open Heap (Ref)

variable {s : State} {r model : Ref} {i : Nat} {selectedIndex : Option Nat} {isUpdate v : Bool}
variable {item : HEPhotoAsset} {photos : PHFetchResult} {title : String} {call : DelegateCall}

theorem identifier_eq : s.identifier = fun r => (s.asset r).localIdentifier :=
  rfl

theorem mediaType_eq : s.mediaType = fun r => (s.asset r).mediaType :=
  rfl

theorem selectedIdentifiers_eq : s.selectedIdentifiers = s.selectedModels.map s.identifier :=
  rfl

@[simp]
theorem limitEnable_fst : (s.limitEnable item).fst =
    { item with isEnable := decide (s.selectedModels.length < s.optionMaxCount) } := by
  cases item with | mk => grind [limitEnable]

@[simp]
theorem disableOpposite_fst : (s.disableOpposite selectedIndex item).fst =
    { item with isEnable := item.isEnable && !s.firstType.any (·.isOpposite item.asset.mediaType) } := by
  simp only [disableOpposite]
  cases s.firstType.any (·.isOpposite item.asset.mediaType) <;> cases item <;> simp

theorem updateEnable_fst : (s.updateEnable selectedIndex item).fst =
    if !item.isSelected && s.isImageOrVideo then
      { item with
        isEnable := decide (s.selectedModels.length < s.optionMaxCount) &&
          !s.firstType.any (·.isOpposite item.asset.mediaType) }
    else
      item := by
  simp only [updateEnable, apply_ite Prod.fst, disableOpposite_fst, limitEnable_fst]

theorem cellState_fst : (s.cellState selectedIndex isUpdate item).fst =
    let item' := if isUpdate then s.resetSelected item else item
    if s.selectedModels.isEmpty && s.isImageOrVideo then
      { item' with isEnable := true }
    else
      (s.updateEnable selectedIndex item').fst := by
  simp only [cellState, apply_ite Prod.fst, updateEnable_fst]
  generalize (if isUpdate then s.resetSelected item else item) = item'
  split_ifs <;> rfl

@[simp]
theorem cellState_asset : (s.cellState selectedIndex isUpdate item).fst.asset = item.asset := by
  simp only [cellState_fst, updateEnable_fst]
  cases isUpdate <;> split_ifs <;> rfl

@[simp]
theorem cellState_index : (s.cellState selectedIndex isUpdate item).fst.index = item.index := by
  simp only [cellState_fst, updateEnable_fst]
  cases isUpdate <;> split_ifs <;> rfl

@[simp]
theorem cellState_isSelected :
    (s.cellState selectedIndex isUpdate item).fst.isSelected =
    if isUpdate then decide (item.asset.localIdentifier ∈ s.selectedIdentifiers) else item.isSelected := by
  simp only [cellState_fst, updateEnable_fst]
  cases isUpdate <;> split_ifs <;> rfl

-- An asset of the given type can be selected as far as the other selected assets are concerned.
def Enables (s : State) (type : PHAssetMediaType) : Prop :=
  s.selectedModels = [] ∨
  s.selectedModels.length < s.optionMaxCount ∧ ∀ first ∈ s.firstType, ¬first.isOpposite type

theorem updateEnable_isEnable (selectedIndex : Option Nat) (hm : s.isImageOrVideo) (hs : item.isSelected = false) :
    (s.updateEnable selectedIndex item).fst.isEnable =
    (decide (s.selectedModels.length < s.optionMaxCount) &&
      !s.firstType.any (·.isOpposite item.asset.mediaType)) := by
  rw [updateEnable_fst, if_pos <| by rw [hs, hm]; rfl]

theorem cellState_isEnable_iff (hm : s.isImageOrVideo)
    (hs : (s.cellState selectedIndex isUpdate item).fst.isSelected = false) :
    (s.cellState selectedIndex isUpdate item).fst.isEnable ↔ s.Enables item.asset.mediaType := by
  let item' := if isUpdate then s.resetSelected item else item
  have ha : item'.asset = item.asset := by grind [resetSelected]
  have hs : item'.isSelected = false := by grind [cellState_isSelected, resetSelected]
  have h := updateEnable_isEnable selectedIndex hm hs
  by_cases he : s.selectedModels = []
  case pos => simp [cellState, Enables, he, hm]
  case neg =>
    have he' : s.selectedModels.isEmpty = false := by simpa
    simp only [cellState, he', Bool.false_and, Bool.false_eq_true, if_false]
    cases hf : s.firstType <;> simp [item', h, ha, hf, Enables, he]

theorem cellState_fst_congr {s₁ s₂ : State} {selectedIndex₁ selectedIndex₂ : Option Nat}
    (hm : s₁.selectedModels = s₂.selectedModels) (ha : s₁.asset = s₂.asset)
    (ho : s₁.pickerOptions = s₂.pickerOptions) :
    (s₁.cellState selectedIndex₁ false item).fst = (s₂.cellState selectedIndex₂ false item).fst := by
  have hf : s₁.firstType = s₂.firstType := by
    simp only [firstType, mediaType_eq, hm, ha]
  have hi : s₁.isImageOrVideo = s₂.isImageOrVideo := by
    simp only [isImageOrVideo, ho]
  have hc : s₁.optionMaxCount = s₂.optionMaxCount := by
    simp only [optionMaxCount, ho]
  grind [cellState_fst, updateEnable_fst]

theorem cellState_fst_eq_reset {s₁ s₂ : State} {selectedIndex₁ selectedIndex₂ : Option Nat}
    (hm : s₁.selectedModels = s₂.selectedModels) (ha : s₁.asset = s₂.asset)
    (ho : s₁.pickerOptions = s₂.pickerOptions)
    (hs : (s₁.cellState selectedIndex₁ false item).fst.isSelected =
      (s₂.cellState selectedIndex₂ true item).fst.isSelected) :
    (s₁.cellState selectedIndex₁ false item).fst = (s₂.cellState selectedIndex₂ true item).fst := by
  simp only [cellState_isSelected, Bool.false_eq_true, if_false, if_true] at hs
  have hr : s₂.resetSelected item = item := by
    rw [resetSelected, ← hs]
  have h : s₂.cellState selectedIndex₂ true item = s₂.cellState selectedIndex₂ false item := by
    rw [cellState, if_pos rfl, hr]
    rfl
  rw [h]
  exact cellState_fst_congr hm ha ho

@[simp]
theorem setIsSelected_asset : (s.setIsSelected r v).asset = s.asset := by
  funext r'
  simp only [asset, setIsSelected_objects]
  exact Heap.modify_preserves (φ := HEPhotoAsset.asset) fun _ => rfl

@[simp]
theorem setIsSelected_identifier : (s.setIsSelected r v).identifier = s.identifier := by
  simp [identifier_eq]

@[simp]
theorem updateNextBtnTitle_asset : s.updateNextBtnTitle.asset = s.asset :=
  rfl

@[simp]
theorem setCellState_asset : (s.setCellState selectedIndex isUpdate).asset = s.asset := by
  funext r
  exact Heap.modifyAll_preserves (φ := HEPhotoAsset.asset) fun _ => cellState_asset

theorem setIsSelected_isSelected_of_ne (h : r ≠ model) :
    (s.setIsSelected model v).isSelected r = s.isSelected r := by
  simp [isSelected, Heap.modify_get_of_ne h]

theorem setCellState_get (hn : s.models.Nodup) (hr : r ∈ s.models) :
    (s.setCellState selectedIndex isUpdate).objects.get r =
    (s.cellState selectedIndex isUpdate <| s.objects.get r).fst :=
  Heap.modifyAll_get_of_mem hn hr

theorem setCellState_isSelected (hn : s.models.Nodup) (hr : r ∈ s.models) :
    (s.setCellState selectedIndex isUpdate).isSelected r =
    if isUpdate then decide (s.identifier r ∈ s.selectedIdentifiers) else s.isSelected r := by
  rw [isSelected, setCellState_get hn hr, cellState_isSelected]
  rfl

theorem setCellState_isEnable_iff (hn : s.models.Nodup) (hr : r ∈ s.models) (hm : s.isImageOrVideo)
    (hs : (s.setCellState selectedIndex isUpdate).isSelected r = false) :
    (s.setCellState selectedIndex isUpdate).isEnable r ↔ s.Enables (s.mediaType r) := by
  rw [isSelected, setCellState_get hn hr] at hs
  rw [isEnable, setCellState_get hn hr, cellState_isEnable_iff hm hs]
  rfl

end State
end Picker
