import SwiftProjectKit.Publish.Theorems.Grid

namespace Publish

def Event.lacksCover {UIImage PHAsset : Type*} : Event UIImage PHAsset → Bool
  | didFinishPickingVideoHandle none _ => true
  | _                                  => false

theorem Event.isSome_iff_lacksCover {UIImage PHAsset : Type*} {image : Option UIImage} {asset : PHAsset} :
    image.isSome ↔ (didFinishPickingVideoHandle image asset).lacksCover = false := by
  cases image
  case none => exact ⟨nofun, nofun⟩
  case some => exact ⟨fun _ => rfl, fun _ => rfl⟩

structure Tracked (UIImage PHAsset : Type*) where
  screen    : SPublicVC UIImage PHAsset
  lastVideo : Option PHAsset := none

namespace Tracked

variable {UIImage PHAsset : Type*} [DecidableEq UIImage]

def step (t : Tracked UIImage PHAsset) (e : Event UIImage PHAsset) :
    Option (Tracked UIImage PHAsset) :=
  t.screen.step e |>.map fun screen =>
    match e with
    | .didFinishPickingVideoHandle _ asset => { screen, lastVideo := some asset }
    | _                                    => { screen, lastVideo := t.lastVideo }

end Tracked

namespace SPublicVC

variable {UIImage PHAsset : Type*} [DecidableEq UIImage]
variable {s s' : SPublicVC UIImage PHAsset} {e : Event UIImage PHAsset}

-- The screen shows either a video or the grid.
structure Exclusive (s : SPublicVC UIImage PHAsset) (lastVideo : Option PHAsset) : Prop where
  isVideo_iff : s.isVideo ↔ s.videoViewIsHidden = false ∧ s.collotionVIsHidden
  isPhoto_iff : s.isVideo = false ↔ s.videoViewIsHidden ∧ s.collotionVIsHidden = false
  reals       : s.isVideo → s.reals = []
  asset       : s.isVideo → s.pathPHAssest = lastVideo ∧ s.pathPHAssest.isSome
  no_asset    : s.isVideo = false → s.pathPHAssest = none

structure VideoInvariant (s : SPublicVC UIImage PHAsset) : Prop where
  grid  : s.GridInvariant
  shown : s.presented.isSome → s.collotionVIsHidden = false

theorem Effect.video_invariant (he : Effect s e s') (h : s.VideoInvariant) : s'.VideoInvariant where
  grid  := he.grid h.grid |>.left
  shown := by
    cases he
    case idle | play => exact h.shown
    case present hh _ => exact fun _ => hh
    case photos | video | cancel => exact nofun
    case deleate hp | clear hp _ _ => simp [deleateAction, hp]

variable {last : Option PHAsset} {vc : TZImagePickerController}

theorem VideoInvariant.isVideo (h : s.VideoInvariant) (hx : s.Exclusive last)
    (hv : s.presented = some vc) : s.isVideo = false := by
  have hh := h.shown <| hv ▸ rfl
  by_contra hs
  have hs := hx.isVideo_iff.mp <| by simpa using hs
  exact absurd (hh.symm.trans hs.right) Bool.false_ne_true

theorem video_exclusive_iff {image : Option UIImage} {asset : PHAsset} (h : s.VideoInvariant)
    (hx : s.Exclusive last) (hv : s.presented = some vc) (ha : vc.allowPickingVideo) :
    Exclusive { s.didFinishPickingVideoHandle image asset with presented := none } (some asset) ↔
      image.isSome := by
  have hp := hx.no_asset <| h.isVideo hx hv
  have hr := h.grid.offers vc hv |>.allowPickingVideo ha
  cases image
  case none =>
    refine ⟨fun h => ?_, nofun⟩
    have hs : s.pathPHAssest.isSome := h.asset rfl |>.right
    simp [hp] at hs
  case some =>
    exact ⟨fun _ => rfl, fun _ => ⟨⟨fun _ => ⟨rfl, rfl⟩, fun _ => rfl⟩, ⟨nofun, nofun⟩, fun _ => hr,
      fun _ => ⟨rfl, rfl⟩, nofun⟩⟩

theorem Effect.exclusive (he : Effect s e s') (h : s.VideoInvariant) (hx : s.Exclusive last)
    (hn : ∀ image asset, e ≠ .didFinishPickingVideoHandle image asset) : s'.Exclusive last := by
  cases he
  case idle | play => exact hx
  case present | cancel => exact ⟨hx.isVideo_iff, hx.isPhoto_iff, hx.reals, hx.asset, hx.no_asset⟩
  case photos hv _ _ =>
    have hs := h.isVideo hx hv
    exact ⟨⟨nofun, nofun⟩, ⟨fun _ => ⟨rfl, rfl⟩, fun _ => rfl⟩, nofun, nofun, fun _ => hx.no_asset hs⟩
  case video image asset _ _ => exact absurd rfl <| hn image asset
  case deleate =>
    exact ⟨⟨nofun, nofun⟩, ⟨fun _ => ⟨rfl, rfl⟩, fun _ => rfl⟩, nofun, nofun, fun _ => rfl⟩
  case clear hr =>
    refine ⟨hx.isVideo_iff, hx.isPhoto_iff, fun hv => ?_, hx.asset, hx.no_asset⟩
    rw [hx.reals hv] at hr
    contradiction

theorem viewDidLoad_videoInvariant {defultImage : UIImage} :
    (viewDidLoad defultImage : SPublicVC UIImage PHAsset).VideoInvariant where
  grid  := viewDidLoad_grid
  shown := nofun

theorem viewDidLoad_exclusive {defultImage : UIImage} :
    (viewDidLoad defultImage : SPublicVC UIImage PHAsset).Exclusive none where
  isVideo_iff := ⟨nofun, nofun⟩
  isPhoto_iff := ⟨fun _ => ⟨rfl, rfl⟩, fun _ => rfl⟩
  reals       := nofun
  asset       := nofun
  no_asset    := fun _ => rfl

end SPublicVC

namespace Tracked

open SPublicVC

variable {UIImage PHAsset : Type*} [DecidableEq UIImage] {t t' : Tracked UIImage PHAsset}
variable {e : Event UIImage PHAsset}

theorem step_videoInvariant (h : t.screen.VideoInvariant) (hs : t.step e = some t') :
    t'.screen.VideoInvariant := by
  have ⟨screen, hs, ht⟩ := Option.map_eq_some_iff.mp hs
  have h' := step_effect h.grid.isGrid hs |>.video_invariant h
  subst ht
  split <;> exact h'

theorem step_exclusive_iff (h : t.screen.VideoInvariant) (hx : t.screen.Exclusive t.lastVideo)
    (hs : t.step e = some t') : t'.screen.Exclusive t'.lastVideo ↔ e.lacksCover = false := by
  have ⟨screen, hs, ht⟩ := Option.map_eq_some_iff.mp hs
  have he := step_effect h.grid.isGrid hs
  subst ht
  cases e
  case didFinishPickingVideoHandle image asset =>
    cases he
    case video hv ha => exact (video_exclusive_iff h hx hv ha).trans Event.isSome_iff_lacksCover
  all_goals exact iff_of_true (he.exclusive h hx nofun) rfl

theorem always_exclusive_iff (defultImage : UIImage) (es : List (Event UIImage PHAsset)) :
    Run.Always step (fun t => t.screen.Exclusive t.lastVideo) ⟨viewDidLoad defultImage, none⟩ es ↔
      Run.Meets step (fun _ e => e.lacksCover = false) ⟨viewDidLoad defultImage, none⟩ es :=
  Run.always_iff_meets step_videoInvariant step_exclusive_iff
    viewDidLoad_videoInvariant viewDidLoad_exclusive

-- A video without an image for its cover is shown, but there is nothing to be played.
theorem video_not_exclusive :
    ∃ t : Tracked String String, Run.exec step ⟨viewDidLoad "scan_photo.png", none⟩
        [.didSelectItemAt 0, .didFinishPickingVideoHandle none "video"] = some t ∧
      t.screen.videoViewIsHidden = false ∧ t.screen.playVideo = none ∧
      ¬t.screen.Exclusive t.lastVideo := by
  refine ⟨_, rfl, rfl, rfl, fun h => ?_⟩
  exact absurd (h.asset rfl).right Bool.false_ne_true

end Tracked
end Publish
