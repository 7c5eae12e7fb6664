import SwiftProjectKit.Picker.Theorems.WellFormed

namespace Picker
namespace State

open Heap (Ref)

variable {s s' : State} {b : Browser} {r model : Ref} {e : Event} {photos : PHFetchResult}
variable {i : Nat} {v : Bool} {selectedModels : List Ref}

def FlagsCoherent (s : State) : Prop :=
  ∀ r ∈ s.models, s.isSelected r ↔ s.identifier r ∈ s.selectedIdentifiers

def Coherent (s : State) : Prop :=
  s.FlagsCoherent ∧ s.selectedIdentifiers.Nodup

instance : DecidablePred Coherent :=
  fun s => inferInstanceAs <| Decidable ((∀ r ∈ s.models, _ ↔ _) ∧ _)

-- A change of the library delivers no asset that is selected, and what is checked in the browser is not
-- yet selected.
def KeepsCoherence (s : State) : Event → Prop
  | .photoLibraryDidChange changes =>
    ∀ photos ∈ changes, ∀ asset ∈ photos.assets, asset.localIdentifier ∉ s.selectedIdentifiers
  | .selectedBtnClick =>
    ∀ b current model, Checks s b current model → s.identifier model ∉ s.selectedIdentifiers
  | _ => True

theorem identifier_of_asset_eq (ha : s'.asset = s.asset) : s'.identifier = s.identifier := by
  rw [identifier_eq, identifier_eq, ha]

theorem selectedIdentifiers_of_asset_eq (ha : s'.asset = s.asset) :
    s'.selectedIdentifiers = s'.selectedModels.map s.identifier := by
  rw [selectedIdentifiers_eq, identifier_of_asset_eq ha]

theorem Frame.selectedIdentifiers (hf : Frame s s') (hs : s'.selectedModels = s.selectedModels)
    (ho : s.objects.Owns s.selectedModels) : s'.selectedIdentifiers = s.selectedIdentifiers := by
  rw [selectedIdentifiers_eq, hs, hf.map_identifier ho]
  rfl

theorem updateUI_isSelected (hn : s.models.Nodup) (hr : r ∈ s.models) :
    s.updateUI.isSelected r = decide (s.identifier r ∈ s.selectedIdentifiers) :=
  setCellState_isSelected (s := s.updateNextBtnTitle) hn hr

theorem finishSelection_isSelected (hn : s.models.Nodup) (hr : r ∈ s.models) :
    (s.finishSelection i model v selectedModels).isSelected r =
    if r = model then v else s.isSelected r := by
  rw [finishSelection, setCellState_isSelected (by exact hn) (by exact hr)]
  by_cases h : r = model
  case pos => simp [h, isSelected]
  case neg =>
    simp only [h, if_false, Bool.false_eq_true]
    exact setIsSelected_isSelected_of_ne (s := { s with selectedModels }) h

theorem updateUI_flagsCoherent (hn : s.models.Nodup) : s.updateUI.FlagsCoherent := by
  intro r hr
  rw [updateUI_isSelected hn hr, selectedIdentifiers_of_asset_eq updateUI_asset,
    identifier_of_asset_eq updateUI_asset, decide_eq_true_iff]
  rfl

theorem fetchPhotoModels_isSelected (hr : r ∈ (s.fetchPhotoModels photos).models) :
    (s.fetchPhotoModels photos).isSelected r = false := by
  have ⟨_, _, h⟩ := fetchPhotoModels_get hr
  rw [isSelected, h]
  rfl

theorem finishSelection_selectedIdentifiers :
    (s.finishSelection i model v selectedModels).selectedIdentifiers = selectedModels.map s.identifier :=
  selectedIdentifiers_of_asset_eq finishSelection_asset

theorem finishSelection_flagsCoherent_iff (hn : s.models.Nodup) :
    (s.finishSelection i model v selectedModels).FlagsCoherent ↔
    ∀ r ∈ s.models, (if r = model then v else s.isSelected r) ↔
      s.identifier r ∈ selectedModels.map s.identifier := by
  apply forall₂_congr
  intro r hr
  rw [finishSelection_isSelected hn hr, finishSelection_selectedIdentifiers,
    identifier_of_asset_eq finishSelection_asset]

theorem resetSelection_flagsCoherent (hn : s.models.Nodup) :
    (s.resetSelection model v selectedModels).FlagsCoherent :=
  updateUI_flagsCoherent hn

theorem resetSelection_selectedIdentifiers :
    (s.resetSelection model v selectedModels).selectedIdentifiers = selectedModels.map s.identifier :=
  selectedIdentifiers_of_asset_eq resetSelection_asset

theorem mem_filter_identifier_iff {id id' : String} :
    id ∈ (s.selectedModels.filter (s.identifier · != id')).map s.identifier ↔
    id ∈ s.selectedIdentifiers ∧ id ≠ id' := by
  simp only [selectedIdentifiers, List.mem_map, List.mem_filter, bne_iff_ne]
  constructor
  case mp  => exact fun ⟨r, ⟨hr, hne⟩, he⟩ => ⟨⟨r, hr, he⟩, he ▸ hne⟩
  case mpr => exact fun ⟨⟨r, hr, he⟩, hne⟩ => ⟨r, ⟨hr, he ▸ hne⟩, he⟩

def FlagsCoherentExcept (s : State) (model : Ref) : Prop :=
  ∀ r ∈ s.models, r ≠ model → (s.isSelected r ↔ s.identifier r ∈ s.selectedIdentifiers)

theorem FlagsCoherent.except (hc : s.FlagsCoherent) : s.FlagsCoherentExcept model :=
  fun r hr _ => hc r hr

section

variable (hw : s.WellFormed) (hm : model ∈ s.models)
include hw hm

theorem finishSelection_flagsCoherent_iff_except {v : Bool} {selectedModels : List Ref}
    (hv : v ↔ s.identifier model ∈ selectedModels.map s.identifier)
    (hi : ∀ id, id ≠ s.identifier model → (id ∈ selectedModels.map s.identifier ↔
      id ∈ s.selectedIdentifiers)) :
    (s.finishSelection i model v selectedModels).FlagsCoherent ↔ s.FlagsCoherentExcept model := by
  rw [finishSelection_flagsCoherent_iff hw.models_nodup]
  apply forall₂_congr
  intro r hr
  by_cases h : r = model
  case pos => simpa [h] using hv
  case neg =>
    have hne : s.identifier r ≠ s.identifier model := mt (hw.identifier_inj hr hm) h
    rw [if_neg h, hi _ hne]
    exact ⟨fun hc _ => hc, fun hc => hc h⟩

theorem select_flagsCoherent_iff :
    (s.finishSelection i model true (s.selectedModels ++ [model])).FlagsCoherent ↔
    s.FlagsCoherentExcept model := by
  apply finishSelection_flagsCoherent_iff_except hw hm
  case hv => simp
  case hi =>
    intro id hne
    simp [hne, selectedIdentifiers_eq]

theorem deselect_flagsCoherent_iff :
    (s.finishSelection i model false
      (s.selectedModels.filter (s.identifier · != s.identifier model))).FlagsCoherent ↔
    s.FlagsCoherentExcept model := by
  apply finishSelection_flagsCoherent_iff_except hw hm
  case hv => simp
  case hi =>
    intro id hne
    simp [mem_filter_identifier_iff, hne]

theorem select_coherent (hc : s.Coherent) (hs : s.isSelected model = false) :
    (s.finishSelection i model true (s.selectedModels ++ [model])).Coherent := by
  have hi : s.identifier model ∉ s.selectedIdentifiers :=
    mt (hc.left model hm).mpr <| ne_true_of_eq_false hs
  constructor
  case left  => exact select_flagsCoherent_iff hw hm |>.mpr hc.left.except
  case right =>
    rw [finishSelection_selectedIdentifiers, List.map_append]
    exact hc.right.append (List.nodup_singleton _) (by simpa using hi)

theorem deselect_coherent (hc : s.Coherent) :
    (s.finishSelection i model false
      (s.selectedModels.filter (s.identifier · != s.identifier model))).Coherent := by
  constructor
  case left  => exact deselect_flagsCoherent_iff hw hm |>.mpr hc.left.except
  case right =>
    rw [finishSelection_selectedIdentifiers]
    exact hc.right.sublist <| List.filter_sublist.map _

end

theorem cellClick_coherent (hc : s.Coherent) (hw : s.WellFormed) : (s.cellClick photos).Coherent := by
  have hf : Frame s (s.cellClick photos) := frame_fetchPhotoModels.trans frame_updateUI
  constructor
  case left  => exact updateUI_flagsCoherent hw.fetchPhotoModels.models_nodup
  case right => exact hf.selectedIdentifiers rfl hw.owns_selectedModels ▸ hc.right

theorem fetchPhotoModels_coherent_iff (photos : PHFetchResult) (hc : s.Coherent) (hw : s.WellFormed) :
    (s.fetchPhotoModels photos).Coherent ↔
    ∀ asset ∈ photos.assets, asset.localIdentifier ∉ s.selectedIdentifiers := by
  have hf : Frame s (s.fetchPhotoModels photos) := frame_fetchPhotoModels
  have hi := hf.selectedIdentifiers rfl hw.owns_selectedModels
  have hm : (s.fetchPhotoModels photos).FlagsCoherent ↔
      ∀ id ∈ (s.fetchPhotoModels photos).models.map (s.fetchPhotoModels photos).identifier,
        id ∉ s.selectedIdentifiers := by
    rw [List.forall_mem_map]
    apply forall₂_congr
    intro r hr
    simp [fetchPhotoModels_isSelected hr, hi]
  rw [Coherent, hm, hi, fetchPhotoModels_map_identifier, List.forall_mem_map]
  exact and_iff_left hc.right

theorem Quiet.keepsCoherence (hq : Quiet s e s') : s.KeepsCoherence e := by
  cases hq
  case limitBrowser h     => exact fun _ _ _ hc => absurd hc h
  case unchanged          => exact fun _ h => nomatch h
  case limitCell          => trivial
  case next               => trivial
  case image              => trivial

-- The flags agree with the list after each check in the browser, but an asset can be added twice.
theorem check_coherent_iff {current : Ref} (hc : s.Coherent) (hw : s.WellFormed)
    (hk : Checks s b current model) :
    ((s.setIsSelected current true).resetSelection model true (s.selectedModels ++ [model])).Coherent ↔
    s.KeepsCoherence .selectedBtnClick := by
  have hk' : s.KeepsCoherence .selectedBtnClick ↔ s.identifier model ∉ s.selectedIdentifiers := by
    constructor
    case mp  => exact fun h => h _ _ _ hk
    case mpr => exact fun h _ _ _ hk' => (hk.toToggles.unique hk'.toToggles).right.right ▸ h
  have hf : ((s.setIsSelected current true).resetSelection model true
      (s.selectedModels ++ [model])).FlagsCoherent :=
    resetSelection_flagsCoherent hw.models_nodup
  rw [hk', Coherent, and_iff_right hf, resetSelection_selectedIdentifiers, setIsSelected_identifier,
    List.map_append, List.map_singleton, ← selectedIdentifiers_eq, List.nodup_append_comm]
  exact List.nodup_cons.trans <| and_iff_left hc.right

theorem uncheck_coherent {current : Ref} (hc : s.Coherent) (hw : s.WellFormed) :
    ((s.setIsSelected current false).resetSelection model false
      (s.selectedModels.filter (· != model))).Coherent := by
  constructor
  case left  => exact resetSelection_flagsCoherent hw.models_nodup
  case right =>
    rw [resetSelection_selectedIdentifiers, setIsSelected_identifier]
    exact hc.right.sublist <| List.filter_sublist.map _

theorem coherent_setBrowser {browser : Option Browser} :
    ({ s with browser } : State).Coherent ↔ s.Coherent :=
  Iff.rfl

theorem keepsCoherence_uncheck {current : Ref} (hu : Unchecks s b current model) :
    s.KeepsCoherence .selectedBtnClick := by
  intro b' _ _ hc
  cases hu.isOpen.symm.trans hc.isOpen
  exact nomatch hu.isSelected.symm.trans hc.isSelected

theorem Effect.coherent_iff (he : Effect s e s') (hc : s.Coherent) (hw : s.WellFormed) :
    s'.Coherent ↔ s.KeepsCoherence e := by
  cases he
  case quiet hq =>
    refine iff_of_true ?_ hq.keepsCoherence
    have ⟨_, _, _, _, _, hq⟩ := hq.eq
    exact hq ▸ hc
  case select hm hs _ =>
    have hm := List.mem_of_getElem? hm
    exact iff_of_true (select_coherent (s := s.callDelegate _) { hw with } hm hc hs) trivial
  case deselect hm hs =>
    have hm := List.mem_of_getElem? hm
    exact iff_of_true (deselect_coherent (s := s.callDelegate _) { hw with } hm hc) trivial
  case album => exact iff_of_true (cellClick_coherent hc hw) trivial
  case change photos =>
    have h := fetchPhotoModels_coherent_iff (s := { s with phAssets := photos }) photos hc { hw with }
    refine h.trans ⟨fun h photos' hp => ?_, fun h => h photos rfl⟩
    cases hp
    exact h
  case check hk   => exact coherent_setBrowser.trans <| check_coherent_iff hc hw hk
  case uncheck hu => exact iff_of_true (coherent_setBrowser.mpr <| uncheck_coherent hc hw) (keepsCoherence_uncheck hu)
  case browse | settle | scroll | bottom | hide => exact iff_of_true hc trivial

theorem getAllPhotos_coherent {library : PHFetchResult} (hn : s.selectedIdentifiers.Nodup)
    (ho : s.objects.Owns s.selectedModels) : (s.getAllPhotos library).Coherent := by
  let phAssets := library.filter s.pickerOptions.photosPredicate
  let s₁ := { s with phAssets }.fetchPhotoModels phAssets
  have hm : s₁.models.Nodup := Heap.fresh_nodup
  have hf : Frame s s₁ := frame_fetchPhotoModels.setPhAssets
  have hi : s₁.selectedIdentifiers = s.selectedIdentifiers := hf.selectedIdentifiers rfl ho
  have hn : s₁.selectedIdentifiers.Nodup := hi ▸ hn
  dsimp only [getAllPhotos]
  split
  case isTrue =>
    have hu : s₁.configUI.updateUI.selectedIdentifiers = s₁.selectedIdentifiers :=
      selectedIdentifiers_of_asset_eq updateUI_asset
    exact ⟨updateUI_flagsCoherent hm, hu ▸ hn⟩
  case isFalse h =>
    have he : s₁.selectedIdentifiers = [] := by
      simpa [hi, selectedIdentifiers_eq] using h
    refine ⟨fun r hr => iff_of_false ?_ ?_, hn⟩
    · have hs : s₁.isSelected r = false := fetchPhotoModels_isSelected hr
      exact ne_true_of_eq_false hs
    · exact he.symm ▸ List.not_mem_nil

-- The flags and the list agree throughout a run, precisely when no change of the library delivers a
-- selected asset and no selected asset is checked in the browser.
theorem always_coherent_iff (options : HEPickerOptions) (objects : Heap HEPhotoAsset)
    (library : PHFetchResult) (es : List Event) (ho : objects.Owns options.defaultModels)
    (hn : options.defaultModels.map (objects.get · |>.asset.localIdentifier) |>.Nodup) :
    Run.Always step Coherent (viewDidLoad options objects library) es ↔
    Run.Meets step KeepsCoherence (viewDidLoad options objects library) es := by
  apply Run.always_iff_meets
  case hinv  => exact fun hw hs => step_effect hs |>.wellFormed hw
  case hstep => exact fun hw hc hs => step_effect hs |>.coherent_iff hc hw
  case hi₀   => exact viewDidLoad_wellFormed ho
  case hp₀   =>
    apply getAllPhotos_coherent
    case hn => simpa [selectedIdentifiers_eq, identifier_eq, asset] using hn
    case ho => simpa using ho

theorem photoLibraryDidChange_not_coherent :
    ¬Run.Always step Coherent (viewDidLoad {} Sample.objects Sample.library)
      [.checkBtnClick 0, .photoLibraryDidChange (some Sample.library)] := by
  intro h
  have h := h _ _ List.prefix_rfl rfl
  revert h
  decide

theorem sample_coherent :
    Run.Always step Coherent (viewDidLoad Sample.options Sample.objects Sample.library)
      [.checkBtnClick 1, .cellClick Sample.library, .checkBtnClick 0] :=
  always_coherent_iff _ _ _ _ (by decide) (by decide) |>.mpr ⟨trivial, trivial, trivial, trivial⟩

end State
end Picker
