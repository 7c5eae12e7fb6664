import SwiftProjectKit.Picker.Theorems.Coherence
import SwiftProjectKit.Picker.Theorems.Index

namespace Picker
namespace State

open Heap (Ref)

variable {s s' s₁ s₂ : State} {b : Browser} {r model current : Ref} {i : Nat} {v : Bool}
variable {call : DelegateCall} {browser : Option Browser} {selectedModels₁ selectedModels₂ : List Ref}

-- Two states between which a user of the picker cannot distinguish.
structure SameSelection (s₁ s₂ : State) : Prop where
  models      : s₁.models = s₂.models
  identifiers : s₁.selectedIdentifiers = s₂.selectedIdentifiers
  isSelected  : ∀ r ∈ s₁.models, s₁.isSelected r = s₂.isSelected r
  isEnable    : ∀ r ∈ s₁.models, s₁.isEnable r = s₂.isEnable r

theorem setIsSelected_idem : (s.setIsSelected r v).setIsSelected r v = s.setIsSelected r v := by
  simp [setIsSelected, Heap.modify]

theorem setCellState_same {selectedIndex₁ selectedIndex₂ : Option Nat} (hn : s₁.models.Nodup)
    (ho : s₁.objects = s₂.objects) (hm : s₁.models = s₂.models)
    (hs : s₁.selectedModels = s₂.selectedModels) (hp : s₁.pickerOptions = s₂.pickerOptions)
    (hc : (s₁.setCellState selectedIndex₁ false).FlagsCoherent) :
    SameSelection (s₁.setCellState selectedIndex₁ false) (s₂.setCellState selectedIndex₂ true) := by
  have ha : s₁.asset = s₂.asset := by funext r; rw [asset, asset, ho]
  have hi : s₁.identifier = s₂.identifier := identifier_of_asset_eq ha
  have hsi : s₁.selectedIdentifiers = s₂.selectedIdentifiers := by
    rw [selectedIdentifiers_eq, selectedIdentifiers_eq, hs, hi]
  have hget : ∀ r ∈ s₁.models, (s₁.setCellState selectedIndex₁ false).objects.get r =
      (s₂.setCellState selectedIndex₂ true).objects.get r := by
    intro r hr
    have hc := hc r hr
    rw [selectedIdentifiers_of_asset_eq setCellState_asset,
      identifier_of_asset_eq setCellState_asset, isSelected] at hc
    rw [setCellState_get hn hr] at hc ⊢
    rw [setCellState_get (hm ▸ hn) (hm ▸ hr), ← ho]
    apply cellState_fst_eq_reset hs ha hp
    rw [Bool.eq_iff_iff, hc, cellState_isSelected, if_pos rfl, decide_eq_true_iff, ← hsi]
    rfl
  constructor
  case models => exact hm
  case identifiers =>
    rw [selectedIdentifiers_of_asset_eq setCellState_asset,
      selectedIdentifiers_of_asset_eq setCellState_asset]
    exact hsi
  case isSelected => exact fun r hr => congrArg HEPhotoAsset.isSelected <| hget r hr
  case isEnable   => exact fun r hr => congrArg HEPhotoAsset.isEnable <| hget r hr

theorem SameSelection.flagsCoherent (h : SameSelection s₁ s₂) (hi : s₁.identifier = s₂.identifier)
    (hc : s₂.FlagsCoherent) : s₁.FlagsCoherent := by
  intro r hr
  rw [h.isSelected r hr, h.identifiers, hi]
  exact hc r <| h.models ▸ hr

theorem sameSelection_iff (hw : s.WellFormed)
    (hl : selectedModels₁.map s.identifier = selectedModels₂.map s.identifier →
      selectedModels₁ = selectedModels₂) :
    SameSelection ((s.callDelegate call).finishSelection i model v selectedModels₁)
      (({ s with browser }.setIsSelected model v).resetSelection model v selectedModels₂) ↔
    selectedModels₁ = selectedModels₂ ∧
      ((s.callDelegate call).finishSelection i model v selectedModels₁).FlagsCoherent := by
  let cell := (s.callDelegate call).finishSelection i model v selectedModels₁
  let item := ({ s with browser }.setIsSelected model v).resetSelection model v selectedModels₂
  have hc : cell.asset = s.asset := finishSelection_asset
  have hb : item.asset = s.asset := resetSelection_asset.trans setIsSelected_asset
  constructor
  case mp =>
    intro h
    have hs := h.identifiers
    rw [selectedIdentifiers_of_asset_eq hc, selectedIdentifiers_of_asset_eq hb] at hs
    have hi := identifier_of_asset_eq <| hc.trans hb.symm
    exact ⟨hl hs, h.flagsCoherent hi <| resetSelection_flagsCoherent hw.models_nodup⟩
  case mpr =>
    intro ⟨hs, hf⟩
    subst hs
    have ho : (s.setIsSelected model v).objects = _ := congrArg State.objects setIsSelected_idem.symm
    exact setCellState_same hw.models_nodup ho rfl rfl rfl hf

theorem filter_identifier_sublist (model : Ref) (rs : List Ref) :
    (rs.filter (s.identifier · != s.identifier model)).Sublist <| rs.filter (· != model) := by
  apply List.monotone_filter_right
  intro r
  by_cases h : r = model <;> simp [h]

def SelectedByIdentity (s : State) (model : Ref) : Prop :=
  ∀ r ∈ s.selectedModels, s.identifier r = s.identifier model → r = model

theorem filter_identifier_eq_iff :
    s.selectedModels.filter (s.identifier · != s.identifier model) = s.selectedModels.filter (· != model) ↔
    s.SelectedByIdentity model := by
  constructor
  case mp =>
    intro h r hr he
    by_contra hne
    have hr : r ∈ s.selectedModels.filter (· != model) := List.mem_filter.mpr ⟨hr, by simpa using hne⟩
    rw [← h] at hr
    simp [he] at hr
  case mpr =>
    intro h
    apply List.filter_congr
    intro r hr
    have hr : s.identifier r = s.identifier model ↔ r = model := ⟨h r hr, congrArg _⟩
    simp [bne, Bool.beq_eq_decide_eq, hr]

theorem cell_path (h : s.step (.checkBtnClick i) = some s₁) (ha : s₁.alerts = s.alerts) :
    ∃ model, s.models[i]? = some model ∧
      s₁ = (s.callDelegate <| .pickerIsSelectVideo !s.isSelected model).finishSelection i model
        (!s.isSelected model)
        (if s.isSelected model then
          s.selectedModels.filter (s.identifier · != s.identifier model)
        else
          s.selectedModels ++ [model]) := by
  have he := step_effect h
  cases he
  case quiet hq =>
    cases hq
    simp at ha
  case select hs _ hm => exact ⟨_, hm, by simp [hs]⟩
  case deselect hs hm => exact ⟨_, hm, by simp [hs]⟩

theorem opened_toggles {b' : Browser} {current' : Ref}
    (ht : Toggles { s with browser := some <| s.settled b current } b' current' model)
    (hw : WellFormed { s with browser := some <| s.settled b current }) (hm : b.models = s.models)
    (hc : b.models[b.currentIndex]? = some current) :
    s.models[b.currentIndex]? = some model ∧ current' = model ∧ b'.isSelected = s.isSelected model := by
  cases ht.isOpen
  cases hc.symm.trans ht.isCurrent
  cases ht.current_eq hw hm
  exact ⟨hm ▸ hc, rfl, rfl⟩

theorem browser_path (hw : s.WellFormed) (h : exec s [.didSelectItem i, .selectedBtnClick] = some s₂)
    (ha : s₂.alerts = s.alerts) :
    ∃ model, s.models[i]? = some model ∧ ∃ browser browser',
      s₂ = { ({ s with browser }.setIsSelected model (!s.isSelected model)).resetSelection model
        (!s.isSelected model)
        (if s.isSelected model then
          s.selectedModels.filter (· != model)
        else
          s.selectedModels ++ [model]) with browser := browser' } := by
  have ⟨s', h₁, h₂⟩ := Run.exec_cons_eq_some.mp h
  rw [Run.exec_singleton] at h₂
  have he₁ := step_effect h₁
  have hw' := he₁.wellFormed hw
  have he₂ := step_effect h₂
  cases he₁
  case quiet hq => cases hq
  case browse b current hb hm hs hc hi =>
    subst hi
    cases he₂
    case quiet hq =>
      cases hq
      simp at ha
    case check hk =>
      have ⟨hi, hc', hs⟩ := opened_toggles hk.toToggles hw' hm hc
      subst hc'
      have hs := hs ▸ hk.isSelected
      refine ⟨_, hi, ?_⟩
      rw [hs]
      exact ⟨_, _, rfl⟩
    case uncheck hu =>
      have ⟨hi, hc', hs⟩ := opened_toggles hu.toToggles hw' hm hc
      subst hc'
      have hs := hs ▸ hu.isSelected
      refine ⟨_, hi, ?_⟩
      rw [hs]
      exact ⟨_, _, rfl⟩

theorem sameSelection_setBrowser : SameSelection s₁ { s₂ with browser } ↔ SameSelection s₁ s₂ where
  mp  := fun h => ⟨h.models, h.identifiers, h.isSelected, h.isEnable⟩
  mpr := fun h => ⟨h.models, h.identifiers, h.isSelected, h.isEnable⟩

-- The flags of the other cells are coherent, and if the photo is unchecked, it has been selected as the
-- object that is displayed.
def PathsAgree (s : State) (model : Ref) : Prop :=
  s.FlagsCoherentExcept model ∧ (s.isSelected model → s.SelectedByIdentity model)

instance : Decidable (PathsAgree s model) :=
  inferInstanceAs <| Decidable
    ((∀ r ∈ s.models, r ≠ model → (_ ↔ _)) ∧ (_ → ∀ r ∈ s.selectedModels, _ → r = model))

theorem sameSelection_select_iff (hw : s.WellFormed) (hm : model ∈ s.models)
    (hs : s.isSelected model = false) :
    SameSelection
      ((s.callDelegate call).finishSelection i model true (s.selectedModels ++ [model]))
      (({ s with browser }.setIsSelected model true).resetSelection model true
        (s.selectedModels ++ [model])) ↔
    s.PathsAgree model := by
  have hf := select_flagsCoherent_iff (s := s.callDelegate call) (i := i) { hw with } hm
  rw [sameSelection_iff hw fun _ => rfl, and_iff_right rfl]
  refine hf.trans <| Iff.symm <| and_iff_left fun h => ?_
  exact nomatch hs.symm.trans h

theorem sameSelection_deselect_iff (hw : s.WellFormed) (hm : model ∈ s.models)
    (hs : s.isSelected model = true) :
    SameSelection
      ((s.callDelegate call).finishSelection i model false
        (s.selectedModels.filter (s.identifier · != s.identifier model)))
      (({ s with browser }.setIsSelected model false).resetSelection model false
        (s.selectedModels.filter (· != model))) ↔
    s.PathsAgree model := by
  have hf := deselect_flagsCoherent_iff (s := s.callDelegate call) (i := i) { hw with } hm
  have hl := filter_identifier_sublist (s := s) model s.selectedModels
  rw [sameSelection_iff hw fun h => hl.eq_of_length <| by simpa using congrArg List.length h,
    filter_identifier_eq_iff, and_comm]
  exact and_congr hf (true_imp_iff.symm.trans <| by rw [hs]; simp)

theorem sameSelection_paths_iff (options : HEPickerOptions) (objects : Heap HEPhotoAsset)
    (library : PHFetchResult) (es : List Event) (ho : objects.Owns options.defaultModels)
    (h : exec (viewDidLoad options objects library) es = some s) (hm : s.models[i]? = some model)
    (h₁ : s.step (.checkBtnClick i) = some s₁) (ha₁ : s₁.alerts = s.alerts)
    (h₂ : exec s [.didSelectItem i, .selectedBtnClick] = some s₂) (ha₂ : s₂.alerts = s.alerts) :
    SameSelection s₁ s₂ ↔ s.PathsAgree model := by
  have hw := exec_wellFormed ho h
  have ⟨model₁, hm₁, h₁⟩ := cell_path h₁ ha₁
  have ⟨model₂, hm₂, _, _, h₂⟩ := browser_path hw h₂ ha₂
  cases hm.symm.trans hm₁
  cases hm.symm.trans hm₂
  have hm := List.mem_of_getElem? hm
  rw [h₁, h₂, sameSelection_setBrowser]
  cases hs : s.isSelected model
  case false => exact sameSelection_select_iff hw hm hs
  case true  => exact sameSelection_deselect_iff hw hm hs

-- A photo that is selected by default cannot be unchecked in the browser.
theorem uncheck_not_sameSelection :
    let s := viewDidLoad Sample.options Sample.objects Sample.library
    ¬∀ s₁ s₂, s.step (.checkBtnClick 0) = some s₁ → s₁.alerts = s.alerts →
      exec s [.didSelectItem 0, .selectedBtnClick] = some s₂ → s₂.alerts = s.alerts →
      SameSelection s₁ s₂ := by
  intro s h
  have h := h _ _ rfl rfl rfl rfl |>.identifiers
  revert h
  decide

theorem check_sameSelection :
    let s := viewDidLoad Sample.options Sample.objects Sample.library
    SameSelection (s.step (.checkBtnClick 1) |>.get <| by decide)
      (exec s [.didSelectItem 1, .selectedBtnClick] |>.get <| by decide) := by
  intro s
  have h := sameSelection_paths_iff Sample.options Sample.objects Sample.library [] (by decide)
    rfl (i := 1) (by decide : _ = some 2)
    (Option.some_get (by decide)).symm (by decide) (Option.some_get (by decide)).symm (by decide)
  exact h.mpr (by decide)

end State
end Picker
