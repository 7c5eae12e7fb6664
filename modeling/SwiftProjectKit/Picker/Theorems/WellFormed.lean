import SwiftProjectKit.Picker.Theorems.Effect

namespace Picker
namespace State

open Heap (Ref)

variable {s s' : State} {b : Browser} {r model : Ref} {e : Event} {photos : PHFetchResult}

theorem photoLibraryDidChange_some :
    s.photoLibraryDidChange photos = { s with phAssets := photos }.fetchPhotoModels photos :=
  rfl

theorem fetchPhotoModels_map_asset (photos : PHFetchResult) :
    (s.fetchPhotoModels photos).models.map (s.fetchPhotoModels photos).asset = photos.assets := by
  let items := photos.assets.mapIdx s.pickerOptions.photoModel
  calc (s.objects.fresh items.length).map (fun r => ((s.objects.allocAll items).get r).asset)
    _ = ((s.objects.fresh items.length).map (s.objects.allocAll items).get).map HEPhotoAsset.asset :=
      List.map_map.symm
    _ = items.map HEPhotoAsset.asset := by
      rw [Heap.allocAll_map_get]
    _ = photos.assets := by
      apply List.ext_getElem?
      intro i
      cases h : photos.assets[i]? <;> simp [items, h, HEPickerOptions.photoModel]

theorem fetchPhotoModels_map_identifier (photos : PHFetchResult) :
    (s.fetchPhotoModels photos).models.map (s.fetchPhotoModels photos).identifier =
    photos.assets.map PHAsset.localIdentifier := by
  rw [identifier_eq, ← fetchPhotoModels_map_asset (s := s) photos, List.map_map]
  rfl

theorem fetchPhotoModels_get (h : r ∈ (s.fetchPhotoModels photos).models) :
    ∃ i asset, (s.fetchPhotoModels photos).objects.get r = s.pickerOptions.photoModel i asset := by
  let items := photos.assets.mapIdx s.pickerOptions.photoModel
  have h : (s.objects.allocAll items).get r ∈ (s.objects.fresh items.length).map _ :=
    List.mem_map_of_mem h
  rw [Heap.allocAll_map_get] at h
  have ⟨i, hi, h⟩ := List.mem_mapIdx.mp h
  exact ⟨i, _, h.symm⟩

theorem fetchPhotoModels_asset_of_lt (h : r < s.objects.next) :
    (s.fetchPhotoModels photos).asset r = s.asset r :=
  congrArg HEPhotoAsset.asset <| Heap.allocAll_get_of_lt h

theorem fetchPhotoModels_owns :
    (s.fetchPhotoModels photos).objects.Owns (s.fetchPhotoModels photos).models :=
  Heap.allocAll_owns_fresh

theorem next_le_fetchPhotoModels : s.objects.next ≤ (s.fetchPhotoModels photos).objects.next := by
  simp

@[simp]
theorem updateUI_asset : s.updateUI.asset = s.asset := by
  simp [updateUI]

@[simp]
theorem finishSelection_asset {i : Nat} {v : Bool} {selectedModels : List Ref} :
    (s.finishSelection i model v selectedModels).asset = s.asset := by
  simp only [finishSelection, setCellState_asset, updateNextBtnTitle_asset, setIsSelected_asset]
  rfl

@[simp]
theorem resetSelection_asset {v : Bool} {selectedModels : List Ref} :
    (s.resetSelection model v selectedModels).asset = s.asset := by
  simp only [resetSelection, updateUI_asset]
  exact setIsSelected_asset

structure Frame (s s' : State) : Prop where
  next_le       : s.objects.next ≤ s'.objects.next
  asset         : ∀ r < s.objects.next, s'.asset r = s.asset r
  pickerOptions : s'.pickerOptions = s.pickerOptions

namespace Frame

theorem of_asset_eq (ha : s'.asset = s.asset) (hn : s'.objects.next = s.objects.next)
    (ho : s'.pickerOptions = s.pickerOptions) : Frame s s' where
  next_le       := Nat.le_of_eq hn.symm
  asset         := fun _ _ => ha ▸ rfl
  pickerOptions := ho

theorem setBrowser {browser : Option Browser} (h : Frame s s') : Frame s { s' with browser } where
  next_le       := h.next_le
  asset         := h.asset
  pickerOptions := h.pickerOptions

theorem setPhAssets {phAssets : PHFetchResult} (h : Frame { s with phAssets } s') : Frame s s' where
  next_le       := h.next_le
  asset         := h.asset
  pickerOptions := h.pickerOptions

variable {rs : List Ref}

theorem owns (hf : Frame s s') (ho : s.objects.Owns rs) : s'.objects.Owns rs :=
  ho.mono hf.next_le

theorem map_asset (hf : Frame s s') (ho : s.objects.Owns rs) : rs.map s'.asset = rs.map s.asset :=
  List.map_congr_left fun r hr => hf.asset r <| ho r hr

theorem map_identifier (hf : Frame s s') (ho : s.objects.Owns rs) :
    rs.map s'.identifier = rs.map s.identifier :=
  List.map_congr_left fun r hr => congrArg PHAsset.localIdentifier <| hf.asset r <| ho r hr

end Frame

theorem frame_fetchPhotoModels : Frame s (s.fetchPhotoModels photos) where
  next_le       := next_le_fetchPhotoModels
  asset         := fun _ => fetchPhotoModels_asset_of_lt
  pickerOptions := rfl

theorem frame_updateUI : Frame s s.updateUI :=
  .of_asset_eq updateUI_asset (by simp [updateUI]) rfl

theorem Frame.trans {s₁ s₂ s₃ : State} (h₁ : Frame s₁ s₂) (h₂ : Frame s₂ s₃) : Frame s₁ s₃ where
  next_le       := h₁.next_le.trans h₂.next_le
  asset         := fun r hr => (h₂.asset r <| hr.trans_le h₁.next_le).trans <| h₁.asset r hr
  pickerOptions := h₂.pickerOptions.trans h₁.pickerOptions

theorem frame_setIsSelected {v : Bool} : Frame s (s.setIsSelected r v) :=
  .of_asset_eq setIsSelected_asset rfl rfl

theorem frame_resetSelection {v : Bool} {selectedModels : List Ref} :
    Frame s (s.resetSelection model v selectedModels) :=
  .of_asset_eq resetSelection_asset (by simp [resetSelection, updateUI]) rfl

theorem Effect.frame (h : Effect s e s') : Frame s s' := by
  cases h
  case quiet hq =>
    have ⟨_, _, _, _, _, h⟩ := hq.eq
    exact h ▸ .of_asset_eq rfl rfl rfl
  case select | deselect => exact .of_asset_eq finishSelection_asset (by simp [finishSelection]) rfl
  case check | uncheck   => exact frame_setIsSelected.trans frame_resetSelection |>.setBrowser
  case album             => exact frame_fetchPhotoModels.trans frame_updateUI
  case change photos     => exact frame_fetchPhotoModels (s := { s with phAssets := photos }) |>.setPhAssets
  case browse | settle | scroll | bottom | hide => exact .of_asset_eq rfl rfl rfl

-- The displayed models belong to different assets, and all models that the picker or the browser know
-- have been allocated.
structure WellFormed (s : State) : Prop where
  nodup         : s.models.map s.identifier |>.Nodup
  owns          : s.objects.Owns (s.models ++ s.selectedModels)
  browser_nodup : ∀ b ∈ s.browser, (b.models.map s.identifier).Nodup
  browser_owns  : ∀ b ∈ s.browser, s.objects.Owns (b.models ++ b.selectedModels)

namespace WellFormed

theorem models_nodup (h : s.WellFormed) : s.models.Nodup :=
  h.nodup.of_map

theorem owns_models (h : s.WellFormed) : s.objects.Owns s.models :=
  h.owns.subset <| List.subset_append_left ..

theorem owns_selectedModels (h : s.WellFormed) : s.objects.Owns s.selectedModels :=
  h.owns.subset <| List.subset_append_right ..

theorem browser_models (hw : s.WellFormed) (hb : s.browser = some b) :
    s.objects.Owns b.models :=
  hw.browser_owns b hb |>.subset <| List.subset_append_left ..

theorem browser_selectedModels (hw : s.WellFormed) (hb : s.browser = some b) :
    s.objects.Owns b.selectedModels :=
  hw.browser_owns b hb |>.subset <| List.subset_append_right ..

theorem identifier_inj (h : s.WellFormed) {r₁ r₂ : Ref} (h₁ : r₁ ∈ s.models) (h₂ : r₂ ∈ s.models)
    (he : s.identifier r₁ = s.identifier r₂) : r₁ = r₂ :=
  List.inj_on_of_nodup_map h.nodup h₁ h₂ he

theorem of_frame (h : s.WellFormed) (hf : Frame s s') (hm : s'.models = s.models)
    (hs : s'.selectedModels ⊆ s.models ++ s.selectedModels)
    (hb : ∀ b' ∈ s'.browser, (b'.models = s.models ∧ b'.selectedModels = s.selectedModels) ∨
      ∃ b ∈ s.browser, b'.models = b.models ∧ b'.selectedModels ⊆ b.models ++ b.selectedModels) :
    s'.WellFormed where
  nodup := by
    rw [hm, hf.map_identifier h.owns_models]
    exact h.nodup
  owns := by
    apply hf.owns
    apply h.owns.subset
    exact List.append_subset.mpr ⟨hm ▸ List.subset_append_left .., hs⟩
  browser_nodup := by
    intro b' hb'
    cases hb b' hb'
    case inl hb =>
      rw [hb.left, hf.map_identifier h.owns_models]
      exact h.nodup
    case inr hb =>
      have ⟨b, hb, hm, _⟩ := hb
      have ho := h.browser_owns b hb |>.subset <| List.subset_append_left ..
      rw [hm, hf.map_identifier ho]
      exact h.browser_nodup b hb
  browser_owns := by
    intro b' hb'
    apply hf.owns
    cases hb b' hb'
    case inl hb => rw [hb.left, hb.right]; exact h.owns
    case inr hb =>
      have ⟨b, hb, hm, hs⟩ := hb
      exact h.browser_owns b hb |>.subset <| List.append_subset.mpr ⟨hm ▸ List.subset_append_left .., hs⟩

theorem fetchPhotoModels (h : s.WellFormed) : (s.fetchPhotoModels photos).WellFormed where
  nodup := by
    rw [fetchPhotoModels_map_identifier]
    exact photos.nodup
  owns := fetchPhotoModels_owns.append <| frame_fetchPhotoModels.owns h.owns_selectedModels
  browser_nodup := by
    intro b hb
    have ho := h.browser_owns b hb |>.subset <| List.subset_append_left ..
    rw [frame_fetchPhotoModels.map_identifier ho]
    exact h.browser_nodup b hb
  browser_owns := fun b hb => frame_fetchPhotoModels.owns <| h.browser_owns b hb

theorem updateUI (h : s.WellFormed) : s.updateUI.WellFormed :=
  h.of_frame frame_updateUI rfl (List.subset_append_right ..)
    fun b hb => .inr ⟨b, hb, rfl, List.subset_append_right ..⟩

end WellFormed

theorem append_singleton_subset {rs rs' : List Ref} (h : rs ⊆ rs') (hr : r ∈ rs') : rs ++ [r] ⊆ rs' :=
  List.append_subset.mpr ⟨h, List.cons_subset.mpr ⟨hr, List.nil_subset _⟩⟩

theorem Effect.wellFormed (he : Effect s e s') (h : s.WellFormed) : s'.WellFormed := by
  have hf := he.frame
  have hsub : s.selectedModels ⊆ s.models ++ s.selectedModels := List.subset_append_right ..
  cases he
  case quiet hq =>
    have ⟨_, _, _, _, _, hq⟩ := hq.eq
    subst hq
    exact { h with }
  case select hb hm _ _ =>
    have hm := List.mem_append_left s.selectedModels <| List.mem_of_getElem? hm
    apply h.of_frame hf rfl
    case hs => exact append_singleton_subset hsub hm
    case hb => exact fun _ hb' => nomatch hb.symm.trans hb'
  case deselect hb hm _ =>
    apply h.of_frame hf rfl
    case hs => exact fun _ hr => hsub <| List.mem_of_mem_filter hr
    case hb => exact fun _ hb' => nomatch hb.symm.trans hb'
  case album  => exact h.fetchPhotoModels.updateUI
  case change => exact { h.fetchPhotoModels with }
  case browse b _ _ hb hm hs hc _ =>
    apply h.of_frame hf rfl hsub
    intro b' hb'
    cases hb'
    exact .inl ⟨hm, hs⟩
  case settle hb hc =>
    apply h.of_frame hf rfl hsub
    intro b' hb'
    cases hb'
    exact .inr ⟨_, hb, rfl, List.subset_append_right ..⟩
  case scroll hb hm hs _ | bottom hb hm hs _ =>
    apply h.of_frame hf rfl hsub
    intro b' hb'
    cases hb'
    exact .inr ⟨_, hb, hm, hs ▸ List.subset_append_right ..⟩
  case check b _ _ hc =>
    apply h.of_frame hf rfl
    case hs => exact append_singleton_subset hsub <| List.mem_append_left _ hc.mem_models
    case hb =>
      intro b' hb'
      cases hb'
      have hm := List.mem_append_left b.selectedModels hc.mem_browser
      exact .inr ⟨b, hc.isOpen, rfl, append_singleton_subset (List.subset_append_right ..) hm⟩
  case uncheck b _ _ hu =>
    apply h.of_frame hf rfl
    case hs => exact fun _ hr => hsub <| List.mem_of_mem_filter hr
    case hb =>
      intro b' hb'
      cases hb'
      exact .inr ⟨b, hu.isOpen, rfl, fun _ hr => List.mem_append_right _ <| List.mem_of_mem_filter hr⟩
  case hide =>
    apply h.of_frame hf rfl hsub
    exact fun _ hb' => nomatch hb'

theorem WellFormed.getAllPhotos {library : PHFetchResult} (h : s.WellFormed) :
    (s.getAllPhotos library).WellFormed := by
  let phAssets := library.filter s.pickerOptions.photosPredicate
  have h₁ : ({ s with phAssets }.fetchPhotoModels phAssets).WellFormed :=
    WellFormed.fetchPhotoModels { h with }
  have h : ({ s with phAssets }.fetchPhotoModels phAssets).configUI.WellFormed := { h₁ with }
  dsimp only [State.getAllPhotos]
  split
  case isTrue  => exact h.updateUI
  case isFalse => exact h

theorem frame_getAllPhotos {library : PHFetchResult} : Frame s (s.getAllPhotos library) := by
  let phAssets := library.filter s.pickerOptions.photosPredicate
  have h₁ : Frame { s with phAssets } ({ s with phAssets }.fetchPhotoModels phAssets) :=
    frame_fetchPhotoModels
  have h : Frame s ({ s with phAssets }.fetchPhotoModels phAssets).configUI := { h₁ with }
  dsimp only [State.getAllPhotos]
  split
  case isTrue  => exact h.trans frame_updateUI
  case isFalse => exact h

@[simp]
theorem getAllPhotos_selectedModels {library : PHFetchResult} :
    (s.getAllPhotos library).selectedModels = s.selectedModels := by
  dsimp only [State.getAllPhotos]
  split <;> rfl

@[simp]
theorem getAllPhotos_browser {library : PHFetchResult} : (s.getAllPhotos library).browser = s.browser := by
  dsimp only [State.getAllPhotos]
  split <;> rfl

section

variable {options : HEPickerOptions} {objects : Heap HEPhotoAsset} {library : PHFetchResult}

theorem viewDidLoad_wellFormed (h : objects.Owns options.defaultModels) :
    (viewDidLoad options objects library).WellFormed := by
  apply WellFormed.getAllPhotos
  exact {
    nodup         := List.nodup_nil
    owns          := by simpa using h
    browser_nodup := fun _ hb => nomatch hb
    browser_owns  := fun _ hb => nomatch hb
  }

theorem viewDidLoad_browser : (viewDidLoad options objects library).browser = none :=
  getAllPhotos_browser

theorem viewDidLoad_pickerOptions :
    (viewDidLoad options objects library).pickerOptions = options.config :=
  frame_getAllPhotos.pickerOptions

theorem viewDidLoad_selectedModels :
    (viewDidLoad options objects library).selectedModels = options.defaultModels :=
  getAllPhotos_selectedModels.trans HEPickerOptions.config_defaultModels

theorem viewDidLoad_map_asset (h : objects.Owns options.defaultModels) :
    options.defaultModels.map (viewDidLoad options objects library).asset =
    options.defaultModels.map (objects.get · |>.asset) :=
  frame_getAllPhotos.map_asset h

theorem exec_wellFormed {es : List Event} (ho : objects.Owns options.defaultModels)
    (h : exec (viewDidLoad options objects library) es = some s) : s.WellFormed :=
  Run.invariant' (fun hw hs => step_effect hs |>.wellFormed hw) (viewDidLoad_wellFormed ho) h

end

end State
end Picker
