import SwiftProjectKit.Picker.Theorems.Coupling

namespace Picker

namespace HEPickerOptions

def Admits (options : HEPickerOptions) (assets : List PHAsset) : Prop :=
  ∀ type, ∀ maxCount ∈ options.maxCount type, assets.countP (·.mediaType == type) ≤ maxCount

variable {options : HEPickerOptions} {assets assets' : List PHAsset} {asset : PHAsset}

theorem Admits.sublist (h : options.Admits assets) (hs : assets'.Sublist assets) :
    options.Admits assets' := by
  intro type maxCount hm
  have h := h type maxCount hm
  have hc := hs.countP_le (p := (·.mediaType == type))
  omega

theorem Admits.concat (h : options.Admits assets)
    (ha : ∀ maxCount ∈ options.maxCount asset.mediaType,
      assets.countP (·.mediaType == asset.mediaType) < maxCount) :
    options.Admits (assets ++ [asset]) := by
  intro type maxCount hm
  rw [List.countP_append, List.countP_singleton]
  by_cases ht : asset.mediaType = type
  case pos =>
    have ha := ha maxCount (ht ▸ hm)
    subst ht
    simp only [beq_self_eq_true, if_true]
    omega
  case neg => simpa [ht] using h type maxCount hm

end HEPickerOptions

namespace State

open Heap (Ref)

variable {s s' : State} {b : Browser} {r model current : Ref} {e : Event} {rs : List Ref}
variable {type : PHAssetMediaType}

def WithinLimits (s : State) : Prop :=
  s.pickerOptions.Admits <| s.selectedModels.map s.asset

theorem limitAlert_eq_none_iff :
    s.limitAlert rs type = none ↔
    ∀ maxCount ∈ s.pickerOptions.maxCount type,
      (rs.map s.asset).countP (·.mediaType == type) < maxCount := by
  have hc : (rs.map s.asset).countP (·.mediaType == type) = rs.countP (s.mediaType · == type) :=
    List.countP_map
  rw [hc]
  cases hm : s.pickerOptions.maxCount type
  case none => simp [limitAlert, hm]
  case some maxCount =>
    simp only [limitAlert, hm]
    split
    case isTrue h  => simpa using h
    case isFalse h => simpa using h

theorem withinLimits_sublist (hl : s.WithinLimits) (hf : Frame s s')
    (ha : (s'.selectedModels.map s'.asset).Sublist <| s.selectedModels.map s.asset) : s'.WithinLimits := by
  rw [WithinLimits, hf.pickerOptions]
  exact hl.sublist ha

theorem withinLimits_concat (hl : s.WithinLimits) (hf : Frame s s')
    (ha : s'.selectedModels.map s'.asset = s.selectedModels.map s.asset ++ [s.asset model])
    (hr : rs.map s.asset = s.selectedModels.map s.asset)
    (hn : s.limitAlert rs (s.mediaType model) = none) : s'.WithinLimits := by
  rw [WithinLimits, hf.pickerOptions, ha]
  apply hl.concat
  rw [← hr]
  exact limitAlert_eq_none_iff.mp hn

theorem Effect.withinLimits (he : Effect s e s') (hl : s.WithinLimits) (hc : s.Coupled)
    (hw : s.WellFormed) : s'.WithinLimits := by
  have hf := he.frame
  have hs : s.selectedModels.map s'.asset = s.selectedModels.map s.asset :=
    hf.map_asset hw.owns_selectedModels
  cases he
  case quiet hq =>
    have ⟨_, _, _, _, _, h⟩ := hq.eq
    exact h ▸ hl
  case select hm _ hn =>
    apply withinLimits_concat hl hf _ rfl hn
    rw [finishSelection_asset]
    exact List.map_append
  case deselect =>
    apply withinLimits_sublist hl hf
    rw [finishSelection_asset]
    exact List.filter_sublist.map _
  case album | change | browse | settle | scroll | bottom | hide =>
    apply withinLimits_sublist hl hf
    exact hs ▸ List.Sublist.refl _
  case check b current model ht =>
    have ha := hc.asset_eq hw ht.toToggles
    have hn := ht.isAllowed
    apply withinLimits_concat hl hf _ (hc b ht.isOpen).right hn
    rw [toggle_asset, ← ha]
    exact List.map_append
  case uncheck =>
    apply withinLimits_sublist hl hf
    rw [toggle_asset]
    exact List.filter_sublist.map _

-- The picker and an open browser check the same limits throughout a run whose changes of the library keep
-- the pages of the browser in place, and in which photos are unchecked in the browser as the objects
-- that have been selected.
theorem always_withinLimits (options : HEPickerOptions) (objects : Heap HEPhotoAsset)
    (library : PHFetchResult) (es : List Event) (ho : objects.Owns options.defaultModels)
    (hl : options.config.Admits <| options.defaultModels.map (objects.get · |>.asset))
    (hk : Run.Meets step KeepsCoupling (viewDidLoad options objects library) es) :
    Run.Always step WithinLimits (viewDidLoad options objects library) es := by
  refine Run.always_of_invariant (fun s => s.WellFormed ∧ s.Coupled ∧ s.WithinLimits) ?_ ?_ ?_ hk
  case refine_1 =>
    intro s e s' ⟨hw, hc, hl⟩ hk hs
    have he := step_effect hs
    exact ⟨he.wellFormed hw, he.coupled hc hw hk, he.withinLimits hl hc hw⟩
  case refine_2 => exact fun h => h.right.right
  case refine_3 =>
    refine ⟨viewDidLoad_wellFormed ho, coupled_of_browser_none viewDidLoad_browser, ?_⟩
    rwa [WithinLimits, viewDidLoad_pickerOptions, viewDidLoad_selectedModels, viewDidLoad_map_asset ho]

-- The browser forgets a photo that is selected by default once it is unchecked, while the picker does
-- not, so the browser allows for another one.
theorem uncheck_not_withinLimits :
    ¬Run.Always step WithinLimits
      (viewDidLoad { Sample.options with maxCountOfImage := 1 } Sample.objects Sample.library)
      [.didSelectItem 0, .selectedBtnClick, .scroll 1, .scrollViewDidEndDecelerating, .selectedBtnClick] := by
  intro h
  have h := h _ _ List.prefix_rfl rfl .image 1 rfl
  revert h
  decide

theorem sample_withinLimits :
    Run.Always step WithinLimits
      (viewDidLoad { Sample.options with maxCountOfImage := 1 } Sample.objects Sample.library)
      [.checkBtnClick 0, .checkBtnClick 1, .cellClick Sample.library, .didSelectItem 0] := by
  apply always_withinLimits
  case ho => decide
  case hl =>
    intro type _ hm
    cases type <;> cases hm <;> decide
  case hk => exact ⟨trivial, trivial, trivial, trivial, trivial⟩

end State
end Picker
