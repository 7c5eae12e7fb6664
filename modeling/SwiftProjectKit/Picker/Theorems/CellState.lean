import SwiftProjectKit.Picker.Theorems.Exclusive

namespace Picker

theorem PHAssetMediaType.IsVisual.not_isOpposite_iff {type type' : PHAssetMediaType} (h : type.IsVisual) :
    ¬type.isOpposite type' ↔ type = type' ∨ ¬type'.IsVisual := by
  cases h <;> cases type' <;> simp_all [isOpposite, IsVisual]

namespace State

open Heap (Ref)

variable {s : State} {item : HEPhotoAsset} {selectedIndex : Option Nat} {isUpdate : Bool} {r : Ref} {i j : Nat}

theorem limitEnable_changes (h : (s.limitEnable item).fst.isEnable ≠ item.isEnable) :
    item.index ∈ (s.limitEnable item).snd := by
  grind [limitEnable]

theorem disableOpposite_changes (h : (s.disableOpposite (some i) item).fst.isEnable ≠ item.isEnable) :
    item.index ∈ (s.disableOpposite (some i) item).snd ∨ item.index = i := by
  grind [disableOpposite]

theorem updateEnable_changes (h : (s.updateEnable (some i) item).fst.isEnable ≠ item.isEnable) :
    item.index ∈ (s.updateEnable (some i) item).snd ∨ item.index = i := by
  have hi : (s.limitEnable item).fst.index = item.index := by
    rw [limitEnable_fst]
  simp only [updateEnable] at h ⊢
  split at h
  case isFalse => contradiction
  case isTrue hu =>
    simp only [hu, if_true, Finset.mem_union]
    by_cases hl : (s.limitEnable item).fst.isEnable = item.isEnable
    case neg => exact .inl <| .inl <| limitEnable_changes hl
    case pos =>
      have hd := disableOpposite_changes <| hl ▸ h
      rw [hi] at hd
      exact hd.imp_left .inr

theorem cellState_changes (h : (s.cellState (some i) isUpdate item).fst.isEnable ≠ item.isEnable) :
    item.index ∈ (s.cellState (some i) isUpdate item).snd ∨ item.index = i := by
  let item' := if isUpdate then s.resetSelected item else item
  have hi : item'.index = item.index ∧ item'.isEnable = item.isEnable := by
    grind [resetSelected]
  have hu : (s.updateEnable (some i) item').fst.isEnable ≠ item'.isEnable →
      item'.index ∈ (s.updateEnable (some i) item').snd ∨ item'.index = i := updateEnable_changes
  grind [cellState, cellState_index, updateEnable_fst]

theorem cellState_isEnable_of_isSelected (hn : s.selectedModels ≠ [])
    (hs : (s.cellState selectedIndex isUpdate item).fst.isSelected) :
    (s.cellState selectedIndex isUpdate item).fst.isEnable = item.isEnable := by
  grind [cellState_fst, updateEnable_fst, resetSelected]

theorem cellState_cellState :
    (s.cellState selectedIndex isUpdate (s.cellState selectedIndex isUpdate item).fst).fst =
    (s.cellState selectedIndex isUpdate item).fst := by
  grind [cellState_fst, updateEnable_fst, resetSelected]

theorem setCellState_cellState :
    (s.setCellState selectedIndex isUpdate).cellState = s.cellState := by
  have hl : (s.setCellState selectedIndex isUpdate).limitEnable = s.limitEnable :=
    rfl
  have hf : (s.setCellState selectedIndex isUpdate).firstType = s.firstType := by
    simp [firstType, mediaType_eq]
  have hi : (s.setCellState selectedIndex isUpdate).selectedIdentifiers = s.selectedIdentifiers := by
    simp [selectedIdentifiers, identifier_eq]
  funext selectedIndex isUpdate item
  simp only [cellState, updateEnable, disableOpposite, resetSelected, hl, hf, hi]
  rfl

def Indexed (s : State) : Prop :=
  ∀ (i : Nat) r, s.models[i]? = some r → (s.objects.get r).index = i

theorem Indexed.nodup (h : s.Indexed) : s.models.Nodup := by
  rw [List.nodup_iff_getElem?_ne_getElem?]
  intro i j hi hj he
  have hr := List.getElem?_eq_getElem (hi.trans hj)
  have := h i _ hr
  have := h j _ (he ▸ hr)
  omega

theorem fetchPhotoModels_indexed {photos : PHFetchResult} : (s.fetchPhotoModels photos).Indexed := by
  intro i r h
  let items := photos.assets.mapIdx s.pickerOptions.photoModel
  have h : ((s.objects.fresh items.length).map (s.objects.allocAll items).get)[i]? =
      (s.objects.allocAll items).get r := by
    rw [List.getElem?_map]
    exact congrArg (Option.map _) h
  rw [Heap.allocAll_map_get, List.getElem?_mapIdx] at h
  have ⟨asset, _, h⟩ := Option.map_eq_some_iff.mp h
  exact congrArg HEPhotoAsset.index h.symm

theorem Indexed.setIsSelected {v : Bool} (h : s.Indexed) : (s.setIsSelected r v).Indexed := by
  intro i r' hr
  rw [← h i r' hr, setIsSelected_objects]
  exact Heap.modify_preserves (φ := HEPhotoAsset.index) fun _ => rfl

theorem mem_willUpadateIndex :
    i ∈ (s.setCellState selectedIndex isUpdate).willUpadateIndex ↔
    ∃ r ∈ s.models, i ∈ (s.cellState selectedIndex isUpdate <| s.objects.get r).snd := by
  have h (rs : List Ref) (indexes : Finset Nat) :
      i ∈ rs.foldl (fun indexes r =>
        indexes ∪ (s.cellState selectedIndex isUpdate <| s.objects.get r).snd) indexes ↔
      i ∈ indexes ∨ ∃ r ∈ rs, i ∈ (s.cellState selectedIndex isUpdate <| s.objects.get r).snd := by
    induction rs generalizing indexes
    case nil => simp
    case cons hi => simp [hi, or_assoc]
  simpa using h s.models ∅

structure ResetsCells (s s' : State) (selectedIndex : Option Nat) : Prop where
  unselected : ∀ r ∈ s.models, s'.isSelected r = false → (s'.isEnable r ↔
    s.selectedModels = [] ∨ s.selectedModels.length < s.optionMaxCount ∧ s.firstType = s.mediaType r)
  refreshed  : ∀ i, selectedIndex = some i → ∀ (j : Nat) r, s.models[j]? = some r →
    s'.isEnable r ≠ s.isEnable r → j ∈ s'.willUpadateIndex ∨ j = i
  selected   : s.selectedModels ≠ [] → ∀ r ∈ s.models, s'.isSelected r → s'.isEnable r = s.isEnable r

theorem setCellState_setCellState (hn : s.models.Nodup) :
    ((s.setCellState selectedIndex isUpdate).setCellState selectedIndex isUpdate).isEnable =
    (s.setCellState selectedIndex isUpdate).isEnable := by
  funext r
  by_cases hr : r ∈ s.models
  case pos =>
    rw [isEnable, setCellState_get (by exact hn) (by exact hr), setCellState_cellState,
      setCellState_get hn hr, cellState_cellState, isEnable, setCellState_get hn hr]
  case neg => exact congrArg HEPhotoAsset.isEnable <| Heap.modifyAll_get_of_not_mem hr

-- No cell depends on the type of its asset, or those that are not selected all hold images or videos. If the whole
-- source has been reset, the selected ones are told by their identifiers.
def EnablesByType (s : State) (isUpdate : Bool) : Prop :=
  s.selectedModels = [] ∨ s.optionMaxCount ≤ s.selectedModels.length ∨ ∀ r ∈ s.models,
    (if isUpdate then decide (s.identifier r ∈ s.selectedIdentifiers) else s.isSelected r) = false →
      (s.mediaType r).IsVisual

instance : Decidable (s.EnablesByType isUpdate) :=
  inferInstanceAs <| Decidable (_ ∨ _ ∨ _)

theorem Enables.iff_firstType (he : s.selectedModels ≠ []) (hv : ∀ r ∈ s.selectedModels, (s.mediaType r).IsVisual) :
    s.Enables (s.mediaType r) ↔ s.selectedModels.length < s.optionMaxCount ∧
      (s.firstType = s.mediaType r ∨ ¬(s.mediaType r).IsVisual) := by
  obtain ⟨first, hf⟩ := Option.isSome_iff_exists.mp <| List.isSome_head?.mpr he
  have hv := hv first <| List.mem_of_mem_head? hf
  simpa [Enables, he, firstType, hf] using fun _ => hv.not_isOpposite_iff

theorem enables_iff (hv : ∀ r ∈ s.selectedModels, (s.mediaType r).IsVisual) :
    (s.Enables (s.mediaType r) ↔
      s.selectedModels = [] ∨ s.selectedModels.length < s.optionMaxCount ∧ s.firstType = s.mediaType r) ↔
    s.selectedModels = [] ∨ s.optionMaxCount ≤ s.selectedModels.length ∨ (s.mediaType r).IsVisual := by
  by_cases he : s.selectedModels = []
  case pos => simp [Enables, he]
  case neg =>
    have hn : s.firstType = s.mediaType r → (s.mediaType r).IsVisual := by
      intro hf
      obtain ⟨first, hm, ht⟩ := Option.map_eq_some_iff.mp hf
      exact ht ▸ hv first (List.mem_of_mem_head? hm)
    rw [Enables.iff_firstType he hv, ← not_lt]
    by_cases hc : (s.selectedModels.length : Int) < s.optionMaxCount <;> simp [he, hc]
    exact ⟨fun h => by_contra fun hv => hv <| hn <| h hv, fun hv h => absurd hv h⟩

theorem setCellState_unselected_iff (hm : s.isImageOrVideo) (hn : s.models.Nodup)
    (hv : ∀ r ∈ s.selectedModels, (s.mediaType r).IsVisual) :
    (∀ r ∈ s.models, (s.setCellState selectedIndex isUpdate).isSelected r = false →
      ((s.setCellState selectedIndex isUpdate).isEnable r ↔
        s.selectedModels = [] ∨ s.selectedModels.length < s.optionMaxCount ∧ s.firstType = s.mediaType r)) ↔
    s.EnablesByType isUpdate := by
  have h r (hr : r ∈ s.models) (hs : (s.setCellState selectedIndex isUpdate).isSelected r = false) :=
    (iff_congr (setCellState_isEnable_iff hn hr hm hs) Iff.rfl).trans <| enables_iff (r := r) hv
  have hc : (∀ r ∈ s.models, (s.setCellState selectedIndex isUpdate).isSelected r = false →
      s.selectedModels = [] ∨ s.optionMaxCount ≤ s.selectedModels.length ∨ (s.mediaType r).IsVisual) ↔
      s.EnablesByType isUpdate := by
    have hs : ∀ r ∈ s.models, (s.setCellState selectedIndex isUpdate).isSelected r = _ :=
      fun r hr => setCellState_isSelected hn hr
    by_cases he : s.selectedModels = [] <;>
      by_cases hl : s.optionMaxCount ≤ s.selectedModels.length <;> simp +contextual [EnablesByType, he, hl, hs]
  exact (forall₂_congr fun r hr => forall_congr' fun hs => h r hr hs).trans hc

theorem setCellState_refreshed (hi : s.Indexed) (hj : s.models[j]? = some r)
    (hc : (s.setCellState (some i) isUpdate).isEnable r ≠ s.isEnable r) :
    j ∈ (s.setCellState (some i) isUpdate).willUpadateIndex ∨ j = i := by
  have hr := List.mem_of_getElem? hj
  rw [isEnable, setCellState_get hi.nodup hr] at hc
  have hc := cellState_changes hc
  rw [hi j r hj] at hc
  exact hc.imp_left fun h => mem_willUpadateIndex.mpr ⟨r, hr, h⟩

theorem setCellState_selected (hn : s.models.Nodup) (he : s.selectedModels ≠ []) (hr : r ∈ s.models)
    (hs : (s.setCellState selectedIndex isUpdate).isSelected r) :
    (s.setCellState selectedIndex isUpdate).isEnable r = s.isEnable r := by
  rw [isSelected, setCellState_get hn hr] at hs
  rw [isEnable, setCellState_get hn hr]
  exact cellState_isEnable_of_isSelected he hs

-- The cells of unselected assets are enabled by the selection and their types alone precisely if no sound is among
-- them while some but not all assets can be added. In any case all cells that change are refreshed, and there is
-- nothing left to be changed.
theorem setCellState_stable_iff (hm : s.isImageOrVideo) (hi : s.Indexed)
    (hv : ∀ r ∈ s.selectedModels, (s.mediaType r).IsVisual) :
    (ResetsCells s (s.setCellState selectedIndex isUpdate) selectedIndex ∧
      ((s.setCellState selectedIndex isUpdate).setCellState selectedIndex isUpdate).isEnable =
      (s.setCellState selectedIndex isUpdate).isEnable) ↔ s.EnablesByType isUpdate where
  mp h := setCellState_unselected_iff hm hi.nodup hv |>.mp h.left.unselected
  mpr h := by
    refine ⟨⟨(setCellState_unselected_iff hm hi.nodup hv).mpr h, ?refreshed, ?selected⟩,
      setCellState_setCellState hi.nodup⟩
    case refreshed =>
      rintro i rfl j r hj hc
      exact setCellState_refreshed hi hj hc
    case selected => exact fun he r hr hs => setCellState_selected hi.nodup he hr hs

end State

namespace Sample

def selection (album : PHFetchResult) : State :=
  let s := (State.viewDidLoad { mediaType := .imageOrVideo } objects library).fetchPhotoModels album
  { s.setIsSelected 4 true with selectedModels := [4] }

theorem selection_indexed {album : PHFetchResult} : (selection album).Indexed :=
  State.Indexed.setIsSelected (r := 4) (v := true) State.fetchPhotoModels_indexed

def sounds : PHFetchResult where
  assets := [asset "A" .image, asset "E" .audio, asset "C" .video]
  nodup  := by decide

end Sample

namespace State

theorem sample_stable :
    ResetsCells (Sample.selection Sample.library) ((Sample.selection Sample.library).setCellState (some 0) false)
      (some 0) ∧
      (((Sample.selection Sample.library).setCellState (some 0) false).setCellState (some 0) false).isEnable =
      ((Sample.selection Sample.library).setCellState (some 0) false).isEnable :=
  setCellState_stable_iff rfl Sample.selection_indexed (by decide) |>.mpr (by decide)

-- The cell of a sound remains enabled while an image is selected.
theorem sound_isEnable :
    let s := Sample.selection Sample.sounds
    let s' := s.setCellState (some 0) false
    s.isImageOrVideo ∧ s.Indexed ∧ (∀ r ∈ s.selectedModels, (s.mediaType r).IsVisual) ∧
    ¬∀ r ∈ s.models, s'.isSelected r = false → (s'.isEnable r ↔ s.selectedModels = [] ∨
      s.selectedModels.length < s.optionMaxCount ∧ s.firstType = s.mediaType r) :=
  ⟨rfl, Sample.selection_indexed, by decide, by decide⟩

end State
end Picker
