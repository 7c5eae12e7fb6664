import SwiftProjectKit.Picker.Theorems.Coupling

namespace Picker

def PHAssetMediaType.IsVisual (type : PHAssetMediaType) : Prop :=
  type = image ∨ type = video

instance {type : PHAssetMediaType} : Decidable type.IsVisual :=
  inferInstanceAs <| Decidable (_ ∨ _)

theorem PHAssetMediaType.IsVisual.eq_of_not_isOpposite {type type' : PHAssetMediaType}
    (h : type.IsVisual) (h' : type'.IsVisual) (hn : ¬type.isOpposite type') : type = type' := by
  cases h <;> cases h' <;> simp_all [isOpposite]

namespace State

open Heap (Ref)

variable {s s' : State} {b : Browser} {r model current : Ref} {e : Event} {i : Nat}
variable {photos : PHFetchResult}

def OneType (s : State) (rs : List Ref) : Prop :=
  (∀ r ∈ rs, (s.mediaType r).IsVisual) ∧ ∀ r ∈ rs, ∀ r' ∈ rs, s.mediaType r = s.mediaType r'

def Fits (s : State) (type : PHAssetMediaType) : Prop :=
  ∀ r ∈ s.selectedModels, s.mediaType r = type

-- The cells that offer an asset for selection only do so for assets that fit.
structure Exclusive (s : State) : Prop where
  mode    : s.isImageOrVideo
  oneType : s.OneType s.selectedModels
  cells   : ∀ r ∈ s.models, s.isSelected r = false → s.isEnable r → (s.mediaType r).IsVisual →
    s.Fits (s.mediaType r)

def PageFits (s : State) : Prop :=
  ∀ b ∈ s.browser, b.isSettled → b.isHidden = false →
    ∀ current, b.models[b.currentIndex]? = some current → s.Fits (s.mediaType current)

-- Only cells that are enabled and the check button of a settled page that is not hidden are tapped.
def IsShown (s : State) : Event → Prop
  | .checkBtnClick i  => ∀ model ∈ s.models[i]?, s.isEnable model
  | .selectedBtnClick => ∀ b ∈ s.browser, b.isSettled ∧ b.isHidden = false
  | _ => True

def KeepsTypes (s : State) : Event → Prop
  | .checkBtnClick i =>
    ∀ model, s.models[i]? = some model → s.isSelected model = false → (s.mediaType model).IsVisual
  | .selectedBtnClick =>
    ∀ b current model, Checks s b current model → (s.mediaType current).IsVisual
  | .photoLibraryDidChange changes =>
    ∀ photos ∈ changes, ∀ asset ∈ photos.assets, asset.mediaType.IsVisual → s.Fits asset.mediaType
  | _ => True

namespace OneType

variable {rs : List Ref}

theorem filter {p : Ref → Bool} (h : s.OneType rs) : s.OneType (rs.filter p) :=
  have hm {r} (hr : r ∈ rs.filter p) : r ∈ rs := List.mem_of_mem_filter hr
  ⟨fun r hr => h.left r (hm hr), fun r hr r' hr' => h.right r (hm hr) r' (hm hr')⟩

theorem concat (hv : (s.mediaType model).IsVisual)
    (hf : ∀ r ∈ rs, s.mediaType r = s.mediaType model) : s.OneType (rs ++ [model]) := by
  have hf' : ∀ r ∈ rs ++ [model], s.mediaType r = s.mediaType model := by
    intro r hr
    cases List.mem_append.mp hr
    case inl hr => exact hf r hr
    case inr hr => rw [List.mem_singleton.mp hr]
  exact ⟨fun r hr => hf' r hr ▸ hv, fun r hr r' hr' => (hf' r hr).trans (hf' r' hr').symm⟩

theorem of_frame (h : s.OneType rs) (hf : Frame s s') (ho : s.objects.Owns rs) : s'.OneType rs := by
  have ht : ∀ r ∈ rs, s'.mediaType r = s.mediaType r :=
    fun r hr => congrArg PHAsset.mediaType <| hf.asset r <| ho r hr
  constructor
  case left  => exact fun r hr => ht r hr ▸ h.left r hr
  case right => exact fun r hr r' hr' => ht r hr ▸ ht r' hr' ▸ h.right r hr r' hr'

theorem of_asset_eq (h : s.OneType rs) (ha : s'.asset = s.asset) : s'.OneType rs := by
  have ht : s'.mediaType = s.mediaType := by rw [mediaType_eq, mediaType_eq, ha]
  exact ⟨ht ▸ h.left, ht ▸ h.right⟩

theorem fits_of_enables {type : PHAssetMediaType} (h : s.OneType s.selectedModels)
    (he : s.Enables type) (hv : type.IsVisual) : s.Fits type := by
  intro r hr
  cases hs : s.selectedModels
  case nil => simp [hs] at hr
  case cons first rest =>
    have hm : first ∈ s.selectedModels := by simp [hs]
    have hf : s.firstType = some (s.mediaType first) := by simp [firstType, hs]
    have ho : ¬(s.mediaType first).isOpposite type := by
      cases he
      case inl he => simp [hs] at he
      case inr he => exact he.right _ hf
    exact (h.right r hr first hm).trans <| (h.left first hm).eq_of_not_isOpposite hv ho

end OneType

theorem setCellState_exclusive {selectedIndex : Option Nat} {isUpdate : Bool} (hn : s.models.Nodup)
    (hm : s.isImageOrVideo) (ho : s.OneType s.selectedModels) :
    (s.setCellState selectedIndex isUpdate).Exclusive := by
  have ht : (s.setCellState selectedIndex isUpdate).mediaType = s.mediaType := by
    rw [mediaType_eq, mediaType_eq, setCellState_asset]
  constructor
  case mode    => exact hm
  case oneType => exact ho.of_asset_eq setCellState_asset
  case cells =>
    intro r hr hs he hv
    rw [ht] at hv
    have hf := ho.fits_of_enables (setCellState_isEnable_iff hn hr hm hs |>.mp he) hv
    rw [Fits, ht]
    exact hf

theorem finishSelection_exclusive {selectedModels : List Ref} {v : Bool} (hn : s.models.Nodup)
    (hm : s.isImageOrVideo) (ho : s.OneType selectedModels) :
    (s.finishSelection i model v selectedModels).Exclusive := by
  refine setCellState_exclusive (by exact hn) hm (OneType.of_asset_eq (s := s) ho ?_)
  exact setIsSelected_asset (s := { s with selectedModels })

theorem resetSelection_exclusive {selectedModels : List Ref} {v : Bool} (hn : s.models.Nodup)
    (hm : s.isImageOrVideo) (ho : s.OneType selectedModels) :
    (s.resetSelection model v selectedModels).Exclusive :=
  setCellState_exclusive (by exact hn) hm (ho.of_asset_eq setIsSelected_asset)

theorem Exclusive.setBrowser {browser : Option Browser} (h : s.Exclusive) :
    Exclusive { s with browser } :=
  { h with }

theorem fetchPhotoModels_exclusive (h : s.Exclusive) (hw : s.WellFormed)
    (hp : ∀ asset ∈ photos.assets, asset.mediaType.IsVisual → s.Fits asset.mediaType) :
    (s.fetchPhotoModels photos).Exclusive := by
  constructor
  case mode    => exact h.mode
  case oneType => exact h.oneType.of_frame frame_fetchPhotoModels hw.owns_selectedModels
  case cells =>
    intro r hr _ _ hv r' hr'
    have hm : (s.fetchPhotoModels photos).asset r ∈ photos.assets :=
      fetchPhotoModels_map_asset photos ▸ List.mem_map_of_mem hr
    have hf : Frame s (s.fetchPhotoModels photos) := frame_fetchPhotoModels
    rw [mediaType, hf.asset r' <| hw.owns_selectedModels r' hr']
    exact hp _ hm hv r' hr'

theorem Effect.exclusive (he : Effect s e s') (h : s.Exclusive) (hp : s.PageFits) (hc : s.Coupled)
    (hw : s.WellFormed) (hs : s.IsShown e) (hk : s.KeepsTypes e) : s'.Exclusive := by
  cases he
  case quiet hq =>
    have ⟨_, _, _, _, _, hq⟩ := hq.eq
    subst hq
    exact { h with }
  case select hm hf _ =>
    have hv := hk _ hm hf
    have hr := List.mem_of_getElem? hm
    have ho := OneType.concat hv <| h.cells _ hr hf (hs _ hm) hv
    exact finishSelection_exclusive (s := s.callDelegate _) hw.models_nodup h.mode ho
  case deselect =>
    exact finishSelection_exclusive (s := s.callDelegate _) hw.models_nodup h.mode h.oneType.filter
  case album album _ =>
    have hf : Frame s (s.fetchPhotoModels album) := frame_fetchPhotoModels
    have ho := h.oneType.of_frame hf hw.owns_selectedModels
    exact setCellState_exclusive (by exact hw.fetchPhotoModels.models_nodup) h.mode ho
  case change photos =>
    exact fetchPhotoModels_exclusive (s := { s with phAssets := photos }) { h with } { hw with }
      (hk photos rfl)
  case check b current model ht =>
    have hb := hs b ht.isOpen
    have hf := hp b ht.isOpen hb.left hb.right current ht.isCurrent
    have ha : s.mediaType model = s.mediaType current :=
      congrArg PHAsset.mediaType <| hc.asset_eq hw ht.toToggles
    have ho := OneType.concat (ha ▸ hk _ _ _ ht) (ha ▸ hf)
    apply Exclusive.setBrowser
    exact resetSelection_exclusive hw.models_nodup h.mode <| ho.of_asset_eq setIsSelected_asset
  case uncheck =>
    apply Exclusive.setBrowser
    exact resetSelection_exclusive hw.models_nodup h.mode <|
      OneType.of_asset_eq h.oneType.filter setIsSelected_asset
  case browse | settle | scroll | bottom | hide => exact h.setBrowser

theorem settled_fits (hm : s.isImageOrVideo) (ho : s.OneType s.selectedModels)
    (hs : b.selectedModels.map s.asset = s.selectedModels.map s.asset)
    (hh : (s.settled b current).isHidden = false) : s.Fits (s.mediaType current) := by
  intro r hr
  have ht : b.selectedModels.map s.mediaType = s.selectedModels.map s.mediaType := by
    have h := congrArg (List.map PHAsset.mediaType) hs
    rwa [List.map_map, List.map_map] at h
  cases hb : b.selectedModels
  case nil => simp [hb, List.ne_nil_of_mem hr] at hs
  case cons first rest =>
    have hf : s.mediaType current = s.mediaType first := by
      simpa [settled, checkFlag, hm, hb] using hh
    have ⟨r', hr', hr''⟩ := List.mem_map.mp <| ht ▸ List.mem_map_of_mem (hb ▸ List.mem_cons_self)
    rw [hf, ← hr'']
    exact ho.right r hr r' hr'

theorem PageFits.of_frame {b' : Browser} (hp : s.PageFits) (hf : Frame s s') (hw : s.WellFormed)
    (hb : s.browser = some b) (hb' : s'.browser = some b') (hm : b'.models = b.models)
    (hi : b'.currentIndex = b.currentIndex) (hu : b'.isSettled = b.isSettled)
    (hh : b'.isHidden = b.isHidden)
    (hs : ∀ r ∈ s'.selectedModels, r ∈ s.selectedModels ∨
      ∃ current, b.models[b.currentIndex]? = some current ∧ s'.asset r = s'.asset current) :
    s'.PageFits := by
  intro _ hb'' hu' hh' current hc r hr
  cases hb'.symm.trans hb''
  rw [hm, hi] at hc
  cases hs r hr
  case inl hr =>
    have h := hp b hb (hu ▸ hu') (hh ▸ hh') current hc r hr
    have ho := hw.browser_models hb current <| List.mem_of_getElem? hc
    rw [mediaType, mediaType, hf.asset r <| hw.owns_selectedModels r hr, hf.asset current ho]
    exact h
  case inr hr =>
    have ⟨_, hc', hr⟩ := hr
    cases hc.symm.trans hc'
    exact congrArg PHAsset.mediaType hr

theorem pageFits_settled (h : s.Exclusive)
    (hs : b.selectedModels.map s.asset = s.selectedModels.map s.asset)
    (hc : b.models[b.currentIndex]? = some current) :
    PageFits { s with browser := some <| s.settled b current } := by
  intro _ hb _ hh _ hc'
  cases hb
  cases hc.symm.trans hc'
  exact settled_fits h.mode h.oneType hs hh

theorem Effect.pageFits (he : Effect s e s') (h : s.Exclusive) (hp : s.PageFits) (hc : s.Coupled)
    (hw : s.WellFormed) : s'.PageFits := by
  have hf := he.frame
  cases he
  case quiet hq =>
    have ⟨_, _, _, _, _, hq⟩ := hq.eq
    subst hq
    exact hp
  case select hb _ _ _ | deselect hb _ _ | album hb => exact fun _ hb' => nomatch hb.symm.trans hb'
  case hide => exact fun _ hb' => nomatch hb'
  case change photos =>
    cases hb : s.browser
    case none => exact fun _ hb' => nomatch hb.symm.trans hb'
    case some => exact hp.of_frame hf hw hb hb rfl rfl rfl rfl fun _ => .inl
  case browse hs hc' hi => exact pageFits_settled h (congrArg _ hs) (hi ▸ hc')
  case settle b _ hb hc' => exact pageFits_settled h (hc b hb).right hc'
  case scroll hb hm hs hu | bottom hb hm hs hu =>
    cases hu
    case inl hu =>
      subst hu
      exact hp.of_frame hf hw hb rfl rfl rfl rfl rfl fun _ => .inl
    case inr hu =>
      intro _ hb' hu'
      cases hb'
      exact nomatch hu.symm.trans hu'
  case check ht =>
    refine hp.of_frame hf hw ht.isOpen rfl rfl rfl rfl rfl fun r hr => ?_
    cases List.mem_append.mp hr
    case inl hr => exact .inl hr
    case inr hr =>
      cases List.mem_singleton.mp hr
      refine .inr ⟨_, ht.isCurrent, ?_⟩
      rw [toggle_asset]
      exact hc.asset_eq hw ht.toToggles
  case uncheck ht =>
    exact hp.of_frame hf hw ht.isOpen rfl rfl rfl rfl rfl fun _ hr => .inl <| List.mem_of_mem_filter hr

theorem getAllPhotos_exclusive {library : PHFetchResult} (hm : s.isImageOrVideo)
    (ho : s.OneType s.selectedModels) (hs : s.objects.Owns s.selectedModels) :
    (s.getAllPhotos library).Exclusive := by
  let phAssets := library.filter s.pickerOptions.photosPredicate
  let s₁ := { s with phAssets }.fetchPhotoModels phAssets |>.configUI
  have hf : Frame { s with phAssets } ({ s with phAssets }.fetchPhotoModels phAssets) :=
    frame_fetchPhotoModels
  have hf : Frame s s₁ := { hf with }
  have ho : s₁.OneType s₁.selectedModels := ho.of_frame hf hs
  dsimp only [getAllPhotos]
  split
  case isTrue => exact setCellState_exclusive (by exact Heap.fresh_nodup) hm ho
  case isFalse h =>
    have he : s.selectedModels = [] := by simpa using h
    constructor
    case mode    => exact hm
    case oneType => exact ho
    case cells   => exact fun _ _ _ _ _ r hr => nomatch he ▸ hr

def KeepsExclusive (s : State) (e : Event) : Prop :=
  s.KeepsCoupling e ∧ s.KeepsTypes e

def Uniform (s : State) : Prop :=
  ∀ r ∈ s.selectedModels, ∀ r' ∈ s.selectedModels, s.mediaType r = s.mediaType r'

-- With a selection of images or videos, the selected assets remain of one type as long as the user only taps
-- what is shown as enabled and the condition above is met.
theorem always_uniform (options : HEPickerOptions) (objects : Heap HEPhotoAsset)
    (library : PHFetchResult) (es : List Event) (type : PHAssetMediaType)
    (hm : options.mediaType = .imageOrVideo) (ho : objects.Owns options.defaultModels)
    (hv : type.IsVisual) (hd : ∀ r ∈ options.defaultModels, (objects.get r).asset.mediaType = type)
    (hs : Run.Meets step IsShown (viewDidLoad options objects library) es)
    (hk : Run.Meets step KeepsExclusive (viewDidLoad options objects library) es) :
    Run.Always step Uniform (viewDidLoad options objects library) es := by
  refine Run.always_of_invariant
    (fun s => s.WellFormed ∧ s.Coupled ∧ s.Exclusive ∧ s.PageFits) ?_ ?_ ?_ (hs.and hk)
  case refine_1 =>
    intro s e s' ⟨hw, hc, he, hp⟩ ⟨hs, hk⟩ h
    have h := step_effect h
    exact ⟨h.wellFormed hw, h.coupled hc hw hk.left, h.exclusive he hp hc hw hs hk.right,
      h.pageFits he hp hc hw⟩
  case refine_2 => exact fun h => h.right.right.left.oneType.right
  case refine_3 =>
    have hd : ∀ r ∈ options.config.defaultModels, (objects.get r).asset.mediaType = type := by simpa using hd
    refine ⟨viewDidLoad_wellFormed ho, coupled_of_browser_none viewDidLoad_browser,
      getAllPhotos_exclusive ?_ ⟨?_, ?_⟩ (by simpa using ho),
      fun _ hb => nomatch viewDidLoad_browser.symm.trans hb⟩
    · simp [isImageOrVideo, hm]
    · exact fun r hr => Eq.substr (p := PHAssetMediaType.IsVisual) (hd r hr) hv
    · exact fun r hr r' hr' => (hd r hr).trans (hd r' hr').symm

theorem photoLibraryDidChange_not_uniform :
    let s := viewDidLoad { mediaType := .imageOrVideo } Sample.objects Sample.library
    let es : List Event :=
      [.checkBtnClick 0, .photoLibraryDidChange (some Sample.library), .checkBtnClick 2]
    ¬(Run.Meets step IsShown s es → Run.Always step Uniform s es) := by
  intro s es h
  have hs : Run.Meets step IsShown s es := by
    refine ⟨fun _ h => ?_, trivial, fun _ h => ?_, trivial⟩
    all_goals
      cases h
      rfl
  have h := h hs _ _ List.prefix_rfl rfl 1 (by decide) 6 (by decide)
  revert h
  decide

theorem sample_uniform :
    Run.Always step Uniform
      (viewDidLoad { Sample.options with mediaType := .imageOrVideo } Sample.objects Sample.library)
      [.checkBtnClick 1, .cellClick Sample.library, .didSelectItem 0] := by
  apply always_uniform _ _ _ _ .image
  case hm => rfl
  case ho => decide
  case hv => decide
  case hd => decide
  case hs =>
    refine ⟨fun _ h => ?_, trivial, trivial, trivial⟩
    cases h
    rfl
  case hk =>
    refine ⟨⟨trivial, fun _ h _ => ?_⟩, ⟨trivial, trivial⟩, ⟨trivial, trivial⟩, trivial⟩
    cases h
    decide

end State
end Picker
