import SwiftProjectKit.Picker.VideoRecording
import SwiftProjectKit.Picker.Theorems.Coherence

namespace Picker

open Heap (Ref)

def DelegateCall.IsQuiet : DelegateCall → Prop
  | pickerIsSelectVideo _ => False
  | didFinishPicking ..   => True

namespace State

variable {s s' : State} {e : Event} {i : Nat} {v : Bool} {model current : Ref} {b : Browser}

def CallsQuietly (s s' : State) : Prop :=
  ∃ calls, s'.delegateCalls = s.delegateCalls ++ calls ∧ ∀ call ∈ calls, call.IsQuiet

theorem callsQuietly_of_eq (h : s'.delegateCalls = s.delegateCalls) : CallsQuietly s s' :=
  ⟨[], by simpa using h, nofun⟩

theorem getImages_callsQuietly : CallsQuietly s s.getImages := by
  rw [getImages]
  split
  case h_1 => exact ⟨[_], rfl, by simp [DelegateCall.IsQuiet]⟩
  case h_2 => exact callsQuietly_of_eq rfl

theorem imageHandler_callsQuietly {request : Nat} {content : Option (List UInt8)}
    (h : s.imageHandler request content = some s') : CallsQuietly s s' := by
  have ⟨_, _, h⟩ := Option.bind_eq_some_iff.mp h
  split at h
  case h_1 => contradiction
  case h_2 =>
    cases h
    exact getImages_callsQuietly (s := { s with requests := _, todoArray := _, selectedImages := _ })

theorem Effect.callsQuietly (he : Effect s e s') (hc : ∀ index, e ≠ .checkBtnClick index) :
    CallsQuietly s s' := by
  cases he
  case quiet hq =>
    cases hq
    case limitCell    => exact absurd rfl <| hc _
    case limitBrowser => exact callsQuietly_of_eq rfl
    case unchanged    => exact callsQuietly_of_eq rfl
    case next         => exact getImages_callsQuietly (s := { s with todoArray := _ })
    case image h      => exact imageHandler_callsQuietly h
  case select | deselect => exact absurd rfl <| hc _
  case album | change | browse | settle | scroll | bottom | check | uncheck | hide =>
    exact callsQuietly_of_eq rfl

-- What a tap on the check button of a cell does. The delegate is told what the cell shows even if the
-- limit does not allow for the selection.
theorem checkBtnnClickClosure_calls (h : s.checkBtnnClickClosure i = some s') :
    ∃ model, s.models[i]? = some model ∧
      s'.delegateCalls = s.delegateCalls ++ [.pickerIsSelectVideo (!s.isSelected model)] ∧
      s'.selectedModels =
        if s.isSelected model then
          s.selectedModels.filter (s.identifier · != s.identifier model)
        else if s.limitAlert s.selectedModels (s.mediaType model) = none then
          s.selectedModels ++ [model]
        else
          s.selectedModels := by
  have ⟨model, hm, h⟩ := Option.bind_eq_some_iff.mp h
  have ⟨model', hm', h⟩ := Option.map_eq_some_iff.mp h
  cases hm.symm.trans hm'
  refine ⟨model, hm, ?_⟩
  cases hs : s.isSelected model
  case true =>
    simp only [hs, Bool.not_true, Bool.false_eq_true, if_false] at h
    subst h
    exact ⟨rfl, rfl⟩
  case false =>
    have hl {call} : (s.callDelegate call).limitAlert (s.callDelegate call).selectedModels
        ((s.callDelegate call).mediaType model) = s.limitAlert s.selectedModels (s.mediaType model) := rfl
    simp only [hs, Bool.not_false, if_true, hl] at h
    cases hl : s.limitAlert s.selectedModels (s.mediaType model)
    all_goals
      simp only [hl] at h
      subst h
      exact ⟨rfl, rfl⟩

theorem Effect.selectedModels (he : Effect s e s') (hc : ∀ index, e ≠ .checkBtnClick index)
    (hs : e ≠ .selectedBtnClick) : s'.selectedModels = s.selectedModels := by
  cases he
  case quiet hq =>
    have ⟨_, _, _, _, _, hq⟩ := hq.eq
    exact hq ▸ rfl
  case select | deselect => exact absurd rfl <| hc _
  case check | uncheck   => exact absurd rfl hs
  all_goals rfl

theorem toggle_alerts (ht : s.toggle b current = some s') : s'.alerts = s.alerts := by
  have ⟨s₁, h, hs⟩ := Option.map_eq_some_iff.mp ht
  have ha : s₁.alerts = s.alerts := by
    clear ht
    split at h
    case h_2 => exact Option.some.inj h ▸ rfl
    case h_1 =>
      split at h
      all_goals
        have ⟨_, _, h⟩ := Option.map_eq_some_iff.mp h
        exact h ▸ rfl
  exact hs ▸ ha

theorem Unchecks.alerts (hu : Unchecks s b current model) (h : s.step .selectedBtnClick = some s') :
    s'.alerts = s.alerts := by
  have ⟨_, hb, h⟩ := Option.bind_eq_some_iff.mp h
  cases hb.symm.trans hu.isOpen
  have ⟨_, _, h⟩ := Option.bind_eq_some_iff.mp h
  rw [if_pos hu.isSelected] at h
  exact toggle_alerts h

structure ShowsVideos (s : State) : Prop where
  wellFormed : s.WellFormed
  isVideo    : ∀ r ∈ s.models, s.mediaType r = .video
  options    : s.pickerOptions.mediaType = .video ∧ s.pickerOptions.maxCountOfVideo = 1

theorem ShowsVideos.limitAlert_ne_none (h : s.ShowsVideos) (hm : model ∈ s.models)
    (hl : s.limitAlert s.selectedModels (s.mediaType model) ≠ none) : s.selectedModels ≠ [] := by
  intro hn
  simp [limitAlert, h.isVideo model hm, HEPickerOptions.maxCount, h.options, hn] at hl

theorem fetchPhotoModels_isVideo {photos : PHFetchResult}
    (h : ∀ asset ∈ photos.assets, asset.mediaType = .video) :
    ∀ r ∈ (s.fetchPhotoModels photos).models, (s.fetchPhotoModels photos).mediaType r = .video := by
  intro r hr
  have hr := List.mem_map_of_mem (f := (s.fetchPhotoModels photos).asset) hr
  rw [fetchPhotoModels_map_asset] at hr
  rw [mediaType_eq]
  exact h _ hr

theorem Frame.isVideo (hf : Frame s s') (hm : s'.models = s.models) (h : s.ShowsVideos) :
    ∀ r ∈ s'.models, s'.mediaType r = .video := by
  intro r hr
  rw [hm] at hr
  have ha := hf.asset r <| h.wellFormed.owns_models r hr
  exact (congrArg PHAsset.mediaType ha).trans <| h.isVideo r hr

theorem Effect.models (he : Effect s e s') (ha : ∀ album, e ≠ .cellClick album)
    (hc : ∀ changes, e ≠ .photoLibraryDidChange changes) : s'.models = s.models := by
  cases he
  case quiet hq =>
    have ⟨_, _, _, _, _, hq⟩ := hq.eq
    exact hq ▸ rfl
  case album  => exact absurd rfl <| ha _
  case change => exact absurd rfl <| hc _
  all_goals rfl

theorem filter_isVideo {options : HEPickerOptions} (hm : options.mediaType = .video)
    (photos : PHFetchResult) :
    ∀ asset ∈ (photos.filter options.photosPredicate).assets, asset.mediaType = .video := by
  intro asset ha
  have ha := List.mem_filter.mp ha |>.right
  simpa [HEPickerOptions.photosPredicate, hm] using ha

theorem Effect.showsVideos (he : Effect s (e.fetched s.pickerOptions.photosPredicate) s')
    (h : s.ShowsVideos) : s'.ShowsVideos := by
  have hf := he.frame
  refine ⟨he.wellFormed h.wellFormed, ?_, hf.pickerOptions ▸ h.options⟩
  have hv := filter_isVideo h.options.left
  cases e
  case cellClick album =>
    cases he
    case quiet hq => cases hq
    case album =>
      have hi := fetchPhotoModels_isVideo (s := s) <| hv album
      rw [mediaType_eq] at hi ⊢
      rw [cellClick, updateUI_asset]
      exact hi
  case photoLibraryDidChange changes =>
    cases changes
    case none =>
      cases he
      case quiet hq =>
        cases hq
        exact h.isVideo
    case some =>
      cases he
      case quiet hq => cases hq
      case change   => exact fetchPhotoModels_isVideo (s := { s with phAssets := _ }) <| hv _
  all_goals exact hf.isVideo (he.models nofun nofun) h

end State

namespace SVideoRecordingVc

open State

variable {s s' : SVideoRecordingVc} {e : Event} {p : State}

def IsNextShown (s : SVideoRecordingVc) : Prop :=
  s.compleBtnIsHidden = false ↔ s.pickerVc.selectedModels ≠ []

-- A cell that is unchecked shows the only video that is selected, and no check in the browser selects
-- a video while none is selected, or deselects all that are selected.
def KeepsNextButton (s : SVideoRecordingVc) : Event → Prop
  | .checkBtnClick index =>
    ∀ model ∈ s.pickerVc.models[index]?, s.pickerVc.isSelected model →
      ∀ r ∈ s.pickerVc.selectedModels, s.pickerVc.identifier r = s.pickerVc.identifier model
  | .selectedBtnClick =>
    ∀ b current model,
      (Checks s.pickerVc b current model → s.pickerVc.selectedModels ≠ []) ∧
      (Unchecks s.pickerVc b current model → (∀ r ∈ s.pickerVc.selectedModels, r = model) →
        s.pickerVc.selectedModels = [])
  | _ => True

theorem foldl_receive_pickerVc (calls : List DelegateCall) :
    (calls.foldl receive s).pickerVc = s.pickerVc := by
  induction calls generalizing s
  case nil => rfl
  case cons call calls hi =>
    rw [List.foldl_cons, hi]
    cases call <;> rfl

theorem foldl_receive_compleBtnIsHidden {calls : List DelegateCall}
    (h : ∀ call ∈ calls, call.IsQuiet) :
    (calls.foldl receive s).compleBtnIsHidden = s.compleBtnIsHidden := by
  induction calls generalizing s
  case nil => rfl
  case cons call calls hi =>
    have ⟨hc, h⟩ := List.forall_mem_cons.mp h
    rw [List.foldl_cons, hi h]
    cases call
    case pickerIsSelectVideo => cases hc
    case didFinishPicking    => rfl

theorem receiveAll_pickerVc : (s.receiveAll p).pickerVc = p :=
  foldl_receive_pickerVc _

theorem receiveAll_of_callsQuietly (h : CallsQuietly s.pickerVc p) :
    (s.receiveAll p).compleBtnIsHidden = s.compleBtnIsHidden := by
  have ⟨calls, hc, hq⟩ := h
  rw [receiveAll, hc, List.drop_left]
  exact foldl_receive_compleBtnIsHidden hq

theorem receiveAll_of_pickerIsSelectVideo {isSelect : Bool}
    (h : p.delegateCalls = s.pickerVc.delegateCalls ++ [.pickerIsSelectVideo isSelect]) :
    (s.receiveAll p).compleBtnIsHidden = !isSelect := by
  rw [receiveAll, h, List.drop_left]
  rfl

theorem isNextShown_iff_of_callsQuietly (h : s.IsNextShown) (hc : CallsQuietly s.pickerVc p) :
    (s.receiveAll p).IsNextShown ↔ (p.selectedModels = [] ↔ s.pickerVc.selectedModels = []) := by
  rw [IsNextShown, receiveAll_of_callsQuietly hc, receiveAll_pickerVc, h.eq]
  exact not_iff_not.trans Iff.comm

theorem checkBtnClick_isNextShown_iff {index : Nat} (hv : s.pickerVc.ShowsVideos)
    (hp : s.pickerVc.step (.checkBtnClick index) = some p) :
    (s.receiveAll p).IsNextShown ↔ s.KeepsNextButton (.checkBtnClick index) := by
  have ⟨_, hp⟩ := Option.ite_none_right_eq_some.mp hp
  have ⟨model, hm, hc, hs⟩ := checkBtnnClickClosure_calls hp
  have hk : s.KeepsNextButton (.checkBtnClick index) ↔ (s.pickerVc.isSelected model →
      ∀ r ∈ s.pickerVc.selectedModels, s.pickerVc.identifier r = s.pickerVc.identifier model) := by
    simp only [KeepsNextButton, hm, Option.mem_def, Option.some.injEq, forall_eq']
  rw [hk, IsNextShown, receiveAll_of_pickerIsSelectVideo hc, receiveAll_pickerVc, hs]
  cases hi : s.pickerVc.isSelected model
  case true => simp
  case false =>
    split
    case isTrue h => cases h
    case isFalse =>
      split
      case isTrue  => simp
      case isFalse hl => simpa using hv.limitAlert_ne_none (List.mem_of_getElem? hm) hl

theorem selectedBtnClick_isNextShown_iff (h : s.IsNextShown)
    (hp : s.pickerVc.step .selectedBtnClick = some p) :
    (s.receiveAll p).IsNextShown ↔ s.KeepsNextButton .selectedBtnClick := by
  have he := step_effect hp
  rw [isNextShown_iff_of_callsQuietly h (he.callsQuietly nofun)]
  cases he
  case quiet hq =>
    cases hq
    case limitBrowser hc =>
      refine iff_of_true Iff.rfl fun _ _ _ => ⟨fun hc' => absurd hc' hc, fun hu => ?_⟩
      exact absurd (hu.alerts hp) <| by simp
  case check b current model hc =>
    constructor
    case mp =>
      intro hi b' _ _
      refine ⟨fun _ => mt hi.mpr <| by simp [resetSelection, updateUI], fun hu => ?_⟩
      cases hc.isOpen.symm.trans hu.isOpen
      exact Bool.false_ne_true (hc.isSelected.symm.trans hu.isSelected) |>.elim
    case mpr =>
      intro hk
      refine iff_of_false ?_ <| (hk b current model).left hc
      simp [resetSelection, updateUI]
  case uncheck b current model hu =>
    have hf : ((s.pickerVc.setIsSelected current false).resetSelection model false
        (s.pickerVc.selectedModels.filter (· != model))).selectedModels = [] ↔
        ∀ r ∈ s.pickerVc.selectedModels, r = model := by
      simp [resetSelection, updateUI]
    refine (iff_congr hf Iff.rfl).trans ?_
    constructor
    case mp =>
      intro hi b' current' model'
      refine ⟨fun hc => ?_, fun hu' ha => ?_⟩
      · cases hu.isOpen.symm.trans hc.isOpen
        exact Bool.false_ne_true (hc.isSelected.symm.trans hu.isSelected) |>.elim
      · cases (hu.toToggles.unique hu'.toToggles).right.right
        exact hi.mp ha
    case mpr =>
      intro hk
      exact ⟨(hk b current model).right hu, fun hn => by simp [hn]⟩

theorem step_isNextShown_iff (hv : s.pickerVc.ShowsVideos) (h : s.IsNextShown) (hs : s.step e = some s') :
    s'.IsNextShown ↔ s.KeepsNextButton e := by
  have ⟨p, hp, hs⟩ := Option.map_eq_some_iff.mp hs
  subst hs
  cases e
  case checkBtnClick    => exact checkBtnClick_isNextShown_iff hv hp
  case selectedBtnClick => exact selectedBtnClick_isNextShown_iff h hp
  all_goals
    have he := step_effect hp
    rw [isNextShown_iff_of_callsQuietly h (he.callsQuietly nofun), he.selectedModels nofun nofun]
    exact iff_of_true Iff.rfl trivial

theorem getAllPhotos_isVideo {s : State} {library : PHFetchResult} (hm : s.pickerOptions.mediaType = .video)
    (hs : s.selectedModels = []) :
    ∀ r ∈ (s.getAllPhotos library).models, (s.getAllPhotos library).mediaType r = .video := by
  rw [getAllPhotos, if_neg (by simp [hs])]
  exact fetchPhotoModels_isVideo (s := { s with phAssets := _ }) <| filter_isVideo hm _

theorem addChildView_showsVideos (objects : Heap HEPhotoAsset) (library : PHFetchResult) :
    (addChildView objects library).pickerVc.ShowsVideos where
  wellFormed :=
    have ho : objects.Owns (pickerOptions []).defaultModels := nofun
    viewDidLoad_wellFormed ho
  isVideo := getAllPhotos_isVideo rfl rfl
  options := by
    rw [addChildView, viewDidLoad_pickerOptions]
    exact ⟨rfl, rfl⟩

theorem always_isNextShown_iff (objects : Heap HEPhotoAsset) (library : PHFetchResult) (es : List Event) :
    Run.Always step IsNextShown (addChildView objects library) es ↔
      Run.Meets step KeepsNextButton (addChildView objects library) es := by
  refine Run.always_iff_meets (fun hv hs => ?_) step_isNextShown_iff
    (addChildView_showsVideos objects library) ?_
  case refine_1 =>
    have ⟨p, hp, hs⟩ := Option.map_eq_some_iff.mp hs
    subst hs
    rw [receiveAll_pickerVc]
    exact step_effect hp |>.showsVideos hv
  case refine_2 =>
    rw [IsNextShown, addChildView, viewDidLoad_selectedModels]
    simp [pickerOptions, HEPickerOptions.defaultModels]

theorem check_not_isNextShown : ¬ Run.Always step IsNextShown
    (addChildView Sample.objects Sample.library) [.didSelectItem 0, .selectedBtnClick] := by
  intro h
  have h := h _ _ List.prefix_rfl rfl
  rw [IsNextShown] at h
  revert h
  decide

end SVideoRecordingVc
end Picker
