import SwiftProjectKit.Picker.Theorems.Frame

namespace Picker
namespace State

open Heap (Ref)

-- A tap on the check button of the browser concerns the model of its current page and the model at
-- the index that is handed to the picker.
structure Toggles (s : State) (b : Browser) (current model : Ref) : Prop where
  isOpen    : s.browser = some b
  isCurrent : b.models[b.currentIndex]? = some current
  isHanded  : ∃ i, s.firstIndex b current = some i ∧ s.models[i]? = some model

structure Checks (s : State) (b : Browser) (current model : Ref) : Prop
    extends Toggles s b current model where
  isSelected : b.isSelected = false
  isAllowed  : s.limitAlert b.selectedModels (s.mediaType current) = none

structure Unchecks (s : State) (b : Browser) (current model : Ref) : Prop
    extends Toggles s b current model where
  isSelected : b.isSelected = true

inductive Quiet (s : State) : Event → State → Prop
  | limitCell {i v title} :
    Quiet s (.checkBtnClick i) ((s.callDelegate <| .pickerIsSelectVideo v).presentAlert title)
  | limitBrowser {title} (hc : ∀ {b current model}, ¬Checks s b current model) :
    Quiet s .selectedBtnClick (s.presentAlert title)
  | unchanged : Quiet s (.photoLibraryDidChange none) s
  | next : Quiet s .nextBtnClick s.nextBtnClick
  | image {k content s'} (hs : s.imageHandler k content = some s') :
    Quiet s (.imageHandler k content) s'

inductive Effect (s : State) : Event → State → Prop
  | quiet {e s'} (hq : Quiet s e s') : Effect s e s'
  | select {i model} (hb : s.browser = none) (hm : s.models[i]? = some model)
    (hs : s.isSelected model = false)
    (hl : s.limitAlert s.selectedModels (s.mediaType model) = none) :
    Effect s (.checkBtnClick i) <|
      (s.callDelegate <| .pickerIsSelectVideo true).finishSelection i model true
        (s.selectedModels ++ [model])
  | deselect {i model} (hb : s.browser = none) (hm : s.models[i]? = some model)
    (hs : s.isSelected model = true) :
    Effect s (.checkBtnClick i) <|
      (s.callDelegate <| .pickerIsSelectVideo false).finishSelection i model false
        (s.selectedModels.filter (s.identifier · != s.identifier model))
  | album {album} (hb : s.browser = none) : Effect s (.cellClick album) (s.cellClick album)
  | change {photos} :
    Effect s (.photoLibraryDidChange <| some photos) (s.photoLibraryDidChange photos)
  | browse {b row current} (hb : s.browser = none) (hm : b.models = s.models)
    (hs : b.selectedModels = s.selectedModels) (hc : b.models[row]? = some current)
    (hi : b.currentIndex = row) :
    Effect s (.didSelectItem row) { s with browser := some <| s.settled b current }
  | settle {b current} (hb : s.browser = some b) (hc : b.models[b.currentIndex]? = some current) :
    Effect s .scrollViewDidEndDecelerating { s with browser := some <| s.settled b current }
  | scroll {b b' page} (hb : s.browser = some b) (hm : b'.models = b.models)
    (hs : b'.selectedModels = b.selectedModels) (hu : b' = b ∨ b'.isSettled = false) :
    Effect s (.scroll page) { s with browser := some b' }
  | bottom {b b' row} (hb : s.browser = some b) (hm : b'.models = b.models)
    (hs : b'.selectedModels = b.selectedModels) (hu : b' = b ∨ b'.isSettled = false) :
    Effect s (.didSelectBottomItem row) { s with browser := some b' }
  | check {b current model} (hc : Checks s b current model) :
    Effect s .selectedBtnClick
      { (s.setIsSelected current true).resetSelection model true (s.selectedModels ++ [model]) with
        browser := some { b with
          isSelected     := true
          selectedModels := b.selectedModels ++ [current] } }
  | uncheck {b current model} (hu : Unchecks s b current model) :
    Effect s .selectedBtnClick
      { (s.setIsSelected current false).resetSelection model false
          (s.selectedModels.filter (· != model)) with
        browser := some { b with
          isSelected     := false
          selectedModels := b.selectedModels.filter (s.identifier · != s.identifier current) } }
  | hide {b} (hb : s.browser = some b) : Effect s .popBrowser { s with browser := none }

variable {s s' : State} {b : Browser} {r model current : Ref} {e : Event} {i : Nat}

theorem Toggles.unique {b' : Browser} {current' model' : Ref} (h : Toggles s b current model)
    (h' : Toggles s b' current' model') : b = b' ∧ current = current' ∧ model = model' := by
  have ⟨i, hi, hm⟩ := h.isHanded
  have ⟨i', hi', hm'⟩ := h'.isHanded
  cases h.isOpen.symm.trans h'.isOpen
  cases h.isCurrent.symm.trans h'.isCurrent
  cases hi.symm.trans hi'
  cases hm.symm.trans hm'
  exact ⟨rfl, rfl, rfl⟩

theorem Toggles.mem_models (h : Toggles s b current model) : model ∈ s.models :=
  have ⟨_, _, hm⟩ := h.isHanded
  List.mem_of_getElem? hm

theorem Toggles.mem_browser (h : Toggles s b current model) : current ∈ b.models :=
  List.mem_of_getElem? h.isCurrent

theorem getImages_eq (s : State) :
    ∃ delegateCalls requests, s.getImages = { s with delegateCalls, requests } := by
  unfold getImages
  split
  case h_1 => exact ⟨_, s.requests, rfl⟩
  case h_2 => exact ⟨s.delegateCalls, _, rfl⟩

theorem Quiet.eq (h : Quiet s e s') :
    ∃ alerts delegateCalls requests todoArray selectedImages,
    s' = { s with alerts, delegateCalls, requests, todoArray, selectedImages } := by
  cases h
  case next =>
    have ⟨_, _, h⟩ := getImages_eq { s with todoArray := s.selectedModels }
    exact ⟨_, _, _, _, _, h⟩
  case image h =>
    have ⟨_, _, h⟩ := Option.bind_eq_some_iff.mp h
    split at h
    case h_1 => contradiction
    case h_2 =>
      cases h
      exact getImages_eq _ |>.elim fun _ ⟨_, h⟩ => ⟨_, _, _, _, _, h⟩
  all_goals exact ⟨_, _, _, _, _, rfl⟩

theorem effect_of_checkBtnnClickClosure (hb : s.browser = none)
    (h : s.checkBtnnClickClosure i = some s') : Effect s (.checkBtnClick i) s' := by
  have ⟨model, hm, h⟩ := Option.bind_eq_some_iff.mp h
  have ⟨model', hm', h⟩ := Option.map_eq_some_iff.mp h
  cases hm.symm.trans hm'
  cases hs : s.isSelected model
  case true =>
    simp only [hs, Bool.not_true, Bool.false_eq_true, if_false] at h
    subst h
    exact .deselect hb hm hs
  case false =>
    simp only [hs, Bool.not_false, if_true] at h
    split at h
    case h_1 => subst h; exact .quiet .limitCell
    case h_2 hl => subst h; exact .select hb hm hs hl

theorem firstIndex_of_mem (h : current ∈ b.models) : ∃ i, s.firstIndex b current = some i := by
  have h : (b.models.findIdx? (s.identifier · = s.identifier current)).isSome := by
    simp only [List.findIdx?_isSome, List.any_eq_true, decide_eq_true_eq]
    exact ⟨current, h, rfl⟩
  exact Option.isSome_iff_exists.mp h

theorem foldl_selectPage (selectedModel : Ref) (pages : List (Ref × Nat)) :
    let b' := pages.foldl (s.selectPage selectedModel) b
    b'.models = b.models ∧ b'.selectedModels = b.selectedModels ∧ (b' = b ∨ b'.isSettled = false) := by
  induction pages generalizing b
  case nil => exact ⟨rfl, rfl, .inl rfl⟩
  case cons page pages hi =>
    simp only [List.foldl_cons, selectPage]
    split
    case isTrue =>
      have ⟨hm, hs, hu⟩ := hi (b := { b with currentIndex := page.snd, isSelected := true, isSettled := false })
      exact ⟨hm, hs, .inr <| hu.elim (congrArg Browser.isSettled) id⟩
    case isFalse => exact hi

theorem effect_of_didSelectBottomItem {row : Nat} (hb : s.browser = some b)
    (h : s.didSelectBottomItem b row = some s') : Effect s (.didSelectBottomItem row) s' := by
  have ⟨selectedModel, _, h⟩ := Option.map_eq_some_iff.mp h
  have ⟨hm, hs, hu⟩ := foldl_selectPage (s := s) (b := b) selectedModel b.models.zipIdx
  cases h
  exact .bottom hb hm hs hu

theorem effect_of_toggle (hb : s.browser = some b) (hc : b.models[b.currentIndex]? = some current)
    (hl : b.isSelected = false → s.limitAlert b.selectedModels (s.mediaType current) = none)
    (h : s.toggle b current = some s') : Effect s .selectedBtnClick s' := by
  have ⟨i, hi⟩ := firstIndex_of_mem (s := s) <| List.mem_of_getElem? hc
  have hi' {v} : (s.setIsSelected current v).firstIndex b current = some i := by
    simpa [firstIndex] using hi
  cases hs : b.isSelected
  all_goals
    simp only [toggle, hs, hi', Bool.not_true, Bool.not_false, if_true] at h
    have ⟨_, h, h'⟩ := Option.map_eq_some_iff.mp h
    have ⟨model, hm, h⟩ := Option.map_eq_some_iff.mp h
    cases h
    cases h'
  all_goals have ht : Toggles s b current model := ⟨hb, hc, i, hi, hm⟩
  case false => exact .check { ht with isSelected := hs, isAllowed := hl hs }
  case true  => simpa [identifier_eq] using .uncheck { ht with isSelected := hs }

theorem effect_of_selectedBtnClick (hb : s.browser = some b) (h : s.selectedBtnClick b = some s') :
    Effect s .selectedBtnClick s' := by
  have ⟨current, hc, h⟩ := Option.bind_eq_some_iff.mp h
  cases hs : b.isSelected
  case true =>
    simp only [hs, if_true] at h
    exact effect_of_toggle hb hc (by simp [hs]) h
  case false =>
    simp only [hs, Bool.false_eq_true, if_false] at h
    split at h
    case h_1 hl =>
      cases h
      refine .quiet <| .limitBrowser fun {b' current' _} hc' => ?_
      cases hb.symm.trans hc'.isOpen
      cases hc.symm.trans hc'.isCurrent
      exact nomatch hl.symm.trans hc'.isAllowed
    case h_2 hl => exact effect_of_toggle hb hc (fun _ => hl) h

theorem step_effect (h : s.step e = some s') : Effect s e s' := by
  cases e
  case checkBtnClick =>
    have ⟨hb, h⟩ := Option.ite_none_right_eq_some.mp h
    exact effect_of_checkBtnnClickClosure (Option.isNone_iff_eq_none.mp hb) h
  case cellClick =>
    have ⟨hb, h⟩ := Option.ite_none_right_eq_some.mp h
    cases h
    exact .album <| Option.isNone_iff_eq_none.mp hb
  case photoLibraryDidChange changes =>
    cases h
    cases changes
    case none => exact .quiet .unchanged
    case some => exact .change
  case didSelectItem =>
    have ⟨hb, h⟩ := Option.ite_none_right_eq_some.mp h
    have ⟨_, h⟩ := Option.ite_none_right_eq_some.mp h
    have ⟨_, hc, h⟩ := Option.map_eq_some_iff.mp h
    cases h
    exact .browse (Option.isNone_iff_eq_none.mp hb) rfl rfl hc rfl
  case scroll =>
    have ⟨b, hb, h⟩ := Option.bind_eq_some_iff.mp h
    have ⟨_, h⟩ := Option.ite_none_right_eq_some.mp h
    cases h
    exact .scroll hb rfl rfl (.inr rfl)
  case scrollViewDidEndDecelerating =>
    have ⟨b, hb, h⟩ := Option.bind_eq_some_iff.mp h
    have ⟨_, hc, h⟩ := Option.map_eq_some_iff.mp h
    cases h
    exact .settle hb hc
  case didSelectBottomItem =>
    have ⟨b, hb, h⟩ := Option.bind_eq_some_iff.mp h
    exact effect_of_didSelectBottomItem hb h
  case selectedBtnClick =>
    have ⟨b, hb, h⟩ := Option.bind_eq_some_iff.mp h
    exact effect_of_selectedBtnClick hb h
  case popBrowser =>
    have ⟨b, hb, h⟩ := Option.map_eq_some_iff.mp h
    cases h
    exact .hide hb
  case nextBtnClick => cases h; exact .quiet .next
  case imageHandler => exact .quiet <| .image h

end State
end Picker
