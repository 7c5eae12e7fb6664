import SwiftProjectKit.Picker.Theorems.Paths

namespace Picker
namespace State

open Heap (Ref)

variable {s s' : State} {b : Browser} {r model current : Ref} {e : Event} {i : Nat}

-- The pages of the browser show the first models of the picker, and both have selected the same assets.
def Coupled (s : State) : Prop :=
  ∀ b ∈ s.browser, b.models.map s.asset <+: s.models.map s.asset ∧
    b.selectedModels.map s.asset = s.selectedModels.map s.asset

-- A change of the library keeps the pages of an open browser in place, and what is unchecked in the
-- browser has been selected as the object that the picker displays.
def KeepsCoupling (s : State) : Event → Prop
  | .photoLibraryDidChange changes =>
    ∀ photos ∈ changes, ∀ b ∈ s.browser, b.models.map s.asset <+: photos.assets
  | .selectedBtnClick =>
    ∀ b current model, Unchecks s b current model → s.SelectedByIdentity model
  | _ => True

theorem coupled_of_browser_none (h : s.browser = none) : s.Coupled :=
  fun _ hb => nomatch h.symm.trans hb

theorem Coupled.asset_eq (hc : s.Coupled) (hw : s.WellFormed) (ht : Toggles s b current model) :
    s.asset model = s.asset current := by
  have ⟨i, hi, hm⟩ := ht.isHanded
  have hn := hw.browser_nodup b ht.isOpen
  cases (firstIndex_of_page hn ht.isCurrent).symm.trans hi
  have h := map_isPrefix_map_iff.mp (hc b ht.isOpen).left
  have ⟨r, hr, h⟩ := h _ _ ht.isCurrent
  cases hm.symm.trans hr
  exact h

theorem Coupled.of_frame (hc : s.Coupled) (hw : s.WellFormed) (hf : Frame s s')
    (hm : s'.models = s.models) (hs : s'.selectedModels = s.selectedModels)
    (hb : ∀ b' ∈ s'.browser, ∃ b ∈ s.browser, b'.models = b.models ∧ b'.selectedModels = b.selectedModels) :
    s'.Coupled := by
  intro b' hb'
  have ⟨b, hb, hbm, hbs⟩ := hb b' hb'
  rw [hm, hs, hbm, hbs, hf.map_asset hw.owns_models, hf.map_asset hw.owns_selectedModels,
    hf.map_asset <| hw.browser_models hb, hf.map_asset <| hw.browser_selectedModels hb]
  exact hc b hb

theorem map_asset_filter {rs : List Ref} {id : String} :
    (rs.filter (s.identifier · != id)).map s.asset =
    (rs.map s.asset).filter (·.localIdentifier != id) := by
  rw [List.filter_map]
  rfl

theorem Coupled.check_selectedModels (hc : s.Coupled) (hw : s.WellFormed)
    (ht : Toggles s b current model) :
    (b.selectedModels ++ [current]).map s.asset = (s.selectedModels ++ [model]).map s.asset := by
  rw [List.map_append, List.map_append, (hc b ht.isOpen).right, List.map_singleton, List.map_singleton,
    hc.asset_eq hw ht]

theorem Coupled.uncheck_selectedModels (hc : s.Coupled) (hw : s.WellFormed)
    (ht : Toggles s b current model) (hi : s.SelectedByIdentity model) :
    (b.selectedModels.filter (s.identifier · != s.identifier current)).map s.asset =
    (s.selectedModels.filter (· != model)).map s.asset := by
  have h : s.identifier current = s.identifier model :=
    congrArg PHAsset.localIdentifier (hc.asset_eq hw ht).symm
  rw [← filter_identifier_eq_iff.mpr hi, map_asset_filter, map_asset_filter, (hc b ht.isOpen).right, h]

theorem asset_setBrowser {browser : Option Browser} : ({ s with browser } : State).asset = s.asset :=
  rfl

theorem toggle_asset {v : Bool} {selectedModels : List Ref} {browser : Option Browser} :
    ({ (s.setIsSelected current v).resetSelection model v selectedModels with browser } : State).asset =
    s.asset :=
  asset_setBrowser.trans <| resetSelection_asset.trans setIsSelected_asset

theorem Coupled.toggle {v : Bool} {selectedModels : List Ref} {b' : Browser} (hc : s.Coupled)
    (ht : Toggles s b current model) (hm : b'.models = b.models)
    (hs : b'.selectedModels.map s.asset = selectedModels.map s.asset) :
    Coupled { (s.setIsSelected current v).resetSelection model v selectedModels with
      browser := some b' } := by
  intro _ hb
  cases hb
  rw [toggle_asset, hm]
  exact ⟨(hc b ht.isOpen).left, hs⟩

theorem Effect.coupled (he : Effect s e s') (hc : s.Coupled) (hw : s.WellFormed)
    (hk : s.KeepsCoupling e) : s'.Coupled := by
  have hf := he.frame
  cases he
  case quiet hq =>
    have ⟨_, _, _, _, _, h⟩ := hq.eq
    exact h ▸ hc
  case select hb _ _ _ | deselect hb _ _ | album hb => exact coupled_of_browser_none hb
  case hide => exact coupled_of_browser_none rfl
  case change photos =>
    intro b hb
    have hm := fetchPhotoModels_map_asset (s := { s with phAssets := photos }) photos
    rw [hf.map_asset <| hw.browser_models hb, hf.map_asset <| hw.browser_selectedModels hb,
      photoLibraryDidChange_some, hm]
    exact ⟨hk photos rfl b hb, (hc b hb).right.trans <| hf.map_asset hw.owns_selectedModels |>.symm⟩
  case browse hm hs _ _ =>
    intro _ hb
    cases hb
    exact ⟨hm ▸ List.prefix_rfl, congrArg _ hs⟩
  case settle hb _ =>
    refine hc.of_frame hw hf rfl rfl fun _ hb' => ⟨_, hb, ?_⟩
    cases hb'
    exact ⟨rfl, rfl⟩
  case scroll hb hm hs _ | bottom hb hm hs _ =>
    refine hc.of_frame hw hf rfl rfl fun _ hb' => ⟨_, hb, ?_⟩
    cases hb'
    exact ⟨hm, hs⟩
  case check ht =>
    exact hc.toggle ht.toToggles rfl (hc.check_selectedModels hw ht.toToggles)
  case uncheck ht =>
    exact hc.toggle ht.toToggles rfl (hc.uncheck_selectedModels hw ht.toToggles (hk _ _ _ ht))

end State
end Picker
