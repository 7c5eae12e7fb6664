import SwiftProjectKit.Publish.Model

namespace Publish

section

variable {UIImage : Type*} {defultImage : UIImage} {reals : List UIImage}

-- What the grid shows for the photos that were picked. The placeholder gives way to the ninth photo.
def grid (defultImage : UIImage) (reals : List UIImage) : List UIImage :=
  reals ++ if reals.length < 9 then [defultImage] else []

theorem grid_eq_of_lt (h : reals.length < 9) : grid defultImage reals = reals ++ [defultImage] := by
  rw [grid, if_pos h]

theorem grid_eq_of_eq (h : reals.length = 9) : grid defultImage reals = reals := by
  rw [grid, if_neg (by omega), List.append_nil]

theorem length_grid (hl : reals.length < 9) : (grid defultImage reals).length = reals.length + 1 := by
  rw [grid_eq_of_lt hl, List.length_append, List.length_singleton]

theorem filter_grid [DecidableEq UIImage] (h : defultImage ∉ reals) :
    (grid defultImage reals).filter (· != defultImage) = reals := by
  have hr : reals.filter (· != defultImage) = reals :=
    List.filter_eq_self.mpr fun _ hm => bne_iff_ne.mpr <| ne_of_mem_of_not_mem hm h
  rw [grid, List.filter_append, hr]
  split <;> simp

end

namespace SPublicVC

variable {UIImage PHAsset : Type*}

theorem foldl_insertAtFront (photos dataArray : List UIImage) :
    photos.foldl insertAtFront dataArray = photos.reverse ++ dataArray := by
  induction photos generalizing dataArray
  case nil => rfl
  case cons photo photos hi => simp [hi, insertAtFront]

variable [DecidableEq UIImage]

def reals (s : SPublicVC UIImage PHAsset) : List UIImage :=
  s.dataArray.filter (· != s.defultImage)

variable {s s' : SPublicVC UIImage PHAsset} {e : Event UIImage PHAsset}
variable {photos rs : List UIImage} {defultImage : UIImage} {vc : TZImagePickerController}

structure IsGrid (s : SPublicVC UIImage PHAsset) : Prop where
  eq_grid   : s.dataArray = grid s.defultImage s.reals
  length_le : s.reals.length ≤ 9

structure EditsGrid (s : SPublicVC UIImage PHAsset) (e : Event UIImage PHAsset)
    (s' : SPublicVC UIImage PHAsset) : Prop where
  isGrid : s'.IsGrid
  pick   : ∀ photos, e = .didFinishPickingPhotosHandle photos → s'.reals = photos.reverse ++ s.reals
  clear  : ∀ tag, e = .didClearBtnAction tag → ∃ photo, s.dataArray[tag]? = some photo ∧
    s.reals[tag]? = some photo ∧ s'.reals = s.reals.eraseIdx tag
  other  : (∀ photos, e ≠ .didFinishPickingPhotosHandle photos) →
    (∀ tag, e ≠ .didClearBtnAction tag) → s'.reals = s.reals

structure Offers (s : SPublicVC UIImage PHAsset) (vc : TZImagePickerController) : Prop where
  maxImagesCount    : vc.maxImagesCount = 9 - s.reals.length
  allowPickingVideo : vc.allowPickingVideo → s.reals = []
  length_lt         : s.reals.length < 9

theorem not_mem_reals : s.defultImage ∉ s.reals := by
  simp [reals]

theorem isGrid_of_eq (h : s.dataArray = grid s.defultImage rs) (hn : s.defultImage ∉ rs)
    (hl : rs.length ≤ 9) : s.IsGrid ∧ s.reals = rs := by
  have hr : s.reals = rs := by rw [reals, h, filter_grid hn]
  exact ⟨⟨hr.symm ▸ h, hr.symm ▸ hl⟩, hr⟩

theorem didFinishPickingPhotosHandle_dataArray (h : s.IsGrid) (hl : s.reals.length < 9)
    (hp : photos.length ≤ 9 - s.reals.length) :
    (s.didFinishPickingPhotosHandle photos).dataArray =
      grid s.defultImage (photos.reverse ++ s.reals) := by
  have hg := h.eq_grid
  rw [grid_eq_of_lt hl] at hg
  have hlen' : (photos.reverse ++ s.reals).length = photos.length + s.reals.length := by simp
  have hlen : (photos.reverse ++ s.reals ++ [s.defultImage]).length =
      photos.length + s.reals.length + 1 := by rw [List.length_append, hlen', List.length_singleton]
  simp only [didFinishPickingPhotosHandle, foldl_insertAtFront, hg, ← List.append_assoc]
  by_cases hc : photos.length + s.reals.length = 9
  case pos =>
    rw [if_pos (by rw [hlen]; omega), List.dropLast_concat, grid_eq_of_eq (by rw [hlen']; exact hc)]
  case neg =>
    rw [if_neg (by rw [hlen]; omega), grid_eq_of_lt (by rw [hlen']; omega)]

theorem cellForItemAt_any {tag : Nat} (h : s.IsGrid)
    (hc : (s.cellForItemAt tag).any Cell.hasClearBtn) :
    ∃ photo, s.dataArray[tag]? = some photo ∧ s.reals[tag]? = some photo := by
  cases hd : s.dataArray[tag]?
  case none => simp [cellForItemAt, hd] at hc
  case some photo =>
    have hp : photo ≠ s.defultImage := fun hp => by simp [cellForItemAt, hd, hp, Cell.hasClearBtn] at hc
    refine ⟨photo, rfl, ?_⟩
    rw [h.eq_grid, grid, List.getElem?_append] at hd
    split at hd
    case isTrue => exact hd
    case isFalse =>
      have hm := List.mem_of_getElem? hd
      split at hm
      case isTrue  => exact absurd (List.mem_singleton.mp hm) hp
      case isFalse => contradiction

theorem cellForItemAt_any_iff {tag : Nat} (h : s.IsGrid) :
    (s.cellForItemAt tag).any Cell.hasClearBtn ↔ tag < s.reals.length where
  mp hc := by
    have ⟨_, _, hr⟩ := cellForItemAt_any h hc
    exact (List.getElem?_eq_some_iff.mp hr).choose
  mpr ht := by
    have hd : s.dataArray[tag]? = some s.reals[tag] := by
      rw [h.eq_grid, grid, List.getElem?_append_left ht, List.getElem?_eq_getElem ht]
    have hp : s.reals[tag] ≠ s.defultImage := ne_of_mem_of_not_mem (List.getElem_mem ht) not_mem_reals
    simp [cellForItemAt, hd, hp, Cell.hasClearBtn]

theorem didClearBtnAction_eq {tag : Nat} (h : s.IsGrid) (ht : tag < s.reals.length) :
    s.didClearBtnAction tag = some { s with dataArray := grid s.defultImage <| s.reals.eraseIdx tag } := by
  have hl := h.length_le
  have he : (s.reals.eraseIdx tag).length < 9 := by
    rw [List.length_eraseIdx_of_lt ht]
    omega
  -- The placeholder is put back in front of which the photo is then removed.
  have hd : (if s.dataArray.length = 9 ∧ s.defultImage ∉ s.dataArray then
      s.dataArray ++ [s.defultImage] else s.dataArray) = s.reals ++ [s.defultImage] := by
    by_cases hn : s.reals.length = 9
    case pos =>
      have hg : s.dataArray = s.reals := h.eq_grid.trans <| grid_eq_of_eq hn
      rw [hg, if_pos ⟨hn, not_mem_reals⟩]
    case neg =>
      have hg := h.eq_grid.trans <| grid_eq_of_lt <| by omega
      rw [hg, if_neg (by simp)]
  simp only [didClearBtnAction, hd]
  rw [if_pos (by rw [List.length_append]; omega), List.eraseIdx_append_of_lt_length ht, ← grid_eq_of_lt he]

theorem didSelectItemAt_cases {row : Nat} (h : s.IsGrid) (hs : s.didSelectItemAt row = some s') :
    s' = s ∨ ∃ vc, s' = { s with presented := some vc } ∧ s.Offers vc := by
  rw [didSelectItemAt] at hs
  split at hs
  case isFalse => exact .inl (Option.some.inj hs).symm
  case isTrue hl =>
    have ⟨image, hi, hs⟩ := Option.map_eq_some_iff.mp hs
    split at hs
    case isFalse => exact .inl hs.symm
    case isTrue hd =>
      have hr : s.reals.length < 9 := by
        by_contra hr
        have hn : s.reals.length = 9 := Nat.le_antisymm h.length_le <| Nat.le_of_not_lt hr
        rw [h.eq_grid, grid_eq_of_eq hn] at hi
        exact not_mem_reals <| hd ▸ List.mem_of_getElem? hi
      have hg := congrArg List.length <| h.eq_grid.trans <| grid_eq_of_lt hr
      rw [List.length_append, List.length_singleton] at hg
      refine .inr ⟨_, hs.symm, by simp only; omega, fun ha => ?_, hr⟩
      have ha := beq_iff_eq.mp ha
      exact List.eq_nil_of_length_eq_zero <| by omega

inductive Effect (s : SPublicVC UIImage PHAsset) :
    Event UIImage PHAsset → SPublicVC UIImage PHAsset → Prop
  | idle {row : Nat} : Effect s (.didSelectItemAt row) s
  | present {row : Nat} {vc : TZImagePickerController} (hh : s.collotionVIsHidden = false)
      (ho : s.Offers vc) :
    Effect s (.didSelectItemAt row) { s with presented := some vc }
  | photos {vc : TZImagePickerController} {photos : List UIImage} (hv : s.presented = some vc)
      (hl : photos.length ≤ vc.maxImagesCount) (hn : s.defultImage ∉ photos) :
    Effect s (.didFinishPickingPhotosHandle photos)
      { s.didFinishPickingPhotosHandle photos with presented := none }
  | video {vc : TZImagePickerController} {image : Option UIImage} {asset : PHAsset}
      (hv : s.presented = some vc) (ha : vc.allowPickingVideo) :
    Effect s (.didFinishPickingVideoHandle image asset)
      { s.didFinishPickingVideoHandle image asset with presented := none }
  | cancel : Effect s .cancel { s with presented := none }
  | play : Effect s .playVideo s
  | deleate (hp : s.presented = none) : Effect s .deleateAction s.deleateAction
  | clear {tag : Nat} {photo : UIImage} (hp : s.presented = none)
      (hd : s.dataArray[tag]? = some photo) (hr : s.reals[tag]? = some photo) :
    Effect s (.didClearBtnAction tag)
      { s with dataArray := grid s.defultImage <| s.reals.eraseIdx tag }

theorem step_effect (h : s.IsGrid) (hs : s.step e = some s') : Effect s e s' := by
  cases e
  case didSelectItemAt =>
    simp only [step, Option.ite_none_right_eq_some, Bool.and_eq_true, Bool.not_eq_true'] at hs
    cases didSelectItemAt_cases h hs.right
    case inl he => exact he ▸ .idle
    case inr he =>
      have ⟨_, he, ho⟩ := he
      exact he ▸ .present hs.left.right ho
  case didFinishPickingPhotosHandle =>
    simp only [step, Option.bind_eq_some_iff, Option.ite_none_right_eq_some, allowsPhotos,
      Bool.and_eq_true, decide_eq_true_eq, List.all_eq_true, bne_iff_ne, Option.some.injEq] at hs
    have ⟨_, hv, ⟨⟨_, hl⟩, hn⟩, he⟩ := hs
    exact he ▸ .photos hv hl fun hm => hn _ hm rfl
  case didFinishPickingVideoHandle =>
    simp only [step, Option.bind_eq_some_iff, Option.ite_none_right_eq_some, Option.some.injEq] at hs
    have ⟨_, hv, ha, he⟩ := hs
    exact he ▸ .video hv ha
  case cancel =>
    have ⟨_, _, he⟩ := Option.map_eq_some_iff.mp hs
    exact he ▸ .cancel
  case playVideo =>
    simp only [step, Option.ite_none_right_eq_some, Option.map_eq_some_iff] at hs
    have ⟨_, _, _, he⟩ := hs
    exact he ▸ .play
  case deleateAction =>
    simp only [step, Option.ite_none_right_eq_some, Bool.and_eq_true, Option.some.injEq,
      Option.isNone_iff_eq_none] at hs
    have ⟨hp, he⟩ := hs
    exact he ▸ .deleate hp.left
  case didClearBtnAction =>
    simp only [step, Option.ite_none_right_eq_some, Bool.and_eq_true, Option.isNone_iff_eq_none] at hs
    have ⟨⟨⟨hp, _⟩, hc⟩, hs⟩ := hs
    have ⟨_, hd, hr⟩ := cellForItemAt_any h hc
    cases (didClearBtnAction_eq h <| (cellForItemAt_any_iff h).mp hc).symm.trans hs
    exact .clear hp hd hr

structure GridInvariant (s : SPublicVC UIImage PHAsset) : Prop where
  isGrid : s.IsGrid
  offers : ∀ vc ∈ s.presented, s.Offers vc

theorem Effect.grid (he : Effect s e s') (h : s.GridInvariant) :
    s'.GridInvariant ∧ EditsGrid s e s' := by
  have hg := h.isGrid
  cases he
  case idle | play => exact ⟨h, hg, nofun, nofun, fun _ _ => rfl⟩
  case present ho =>
    refine ⟨⟨⟨hg.eq_grid, hg.length_le⟩, fun vc hv => ?_⟩, ⟨hg.eq_grid, hg.length_le⟩, nofun, nofun,
      fun _ _ => rfl⟩
    cases Option.some.inj hv
    exact ⟨ho.maxImagesCount, ho.allowPickingVideo, ho.length_lt⟩
  case photos vc photos hv hl hn =>
    have ho := h.offers vc hv
    have hl := ho.maxImagesCount ▸ hl
    have hlt := ho.length_lt
    have hd := didFinishPickingPhotosHandle_dataArray hg hlt hl
    have ⟨hg', hr⟩ := isGrid_of_eq
      (s := { s.didFinishPickingPhotosHandle photos with presented := none }) hd
      (by simpa [didFinishPickingPhotosHandle, hn] using not_mem_reals)
      (by rw [List.length_append, List.length_reverse]; omega)
    refine ⟨⟨hg', nofun⟩, hg', fun _ he => ?_, nofun, fun he => absurd rfl <| he photos⟩
    cases he
    exact hr
  case video image _ _ _ =>
    cases image <;> exact ⟨⟨⟨hg.eq_grid, hg.length_le⟩, nofun⟩, ⟨hg.eq_grid, hg.length_le⟩, nofun, nofun,
      fun _ _ => rfl⟩
  case cancel =>
    exact ⟨⟨⟨hg.eq_grid, hg.length_le⟩, nofun⟩, ⟨hg.eq_grid, hg.length_le⟩, nofun, nofun, fun _ _ => rfl⟩
  case deleate hp =>
    exact ⟨⟨⟨hg.eq_grid, hg.length_le⟩, fun _ hv => nomatch hp.symm.trans hv⟩, ⟨hg.eq_grid, hg.length_le⟩,
      nofun, nofun, fun _ _ => rfl⟩
  case clear tag photo hp hd hr =>
    have hsub := List.eraseIdx_sublist s.reals tag
    have ⟨hg', hr'⟩ := isGrid_of_eq
      (s := { s with dataArray := Publish.grid s.defultImage <| s.reals.eraseIdx tag }) rfl
      (fun hm => not_mem_reals <| hsub.subset hm) (hsub.length_le.trans hg.length_le)
    refine ⟨⟨hg', fun _ hv => nomatch hp.symm.trans hv⟩, hg', nofun, fun _ he => ?_, fun _ he =>
      absurd rfl <| he tag⟩
    cases he
    exact ⟨photo, hd, hr, hr'⟩

theorem viewDidLoad_grid : (viewDidLoad defultImage : SPublicVC UIImage PHAsset).GridInvariant where
  isGrid := isGrid_of_eq (rfl : _ = grid _ []) List.not_mem_nil (Nat.zero_le _) |>.left
  offers := nofun

theorem steps_of_viewDidLoad {es : List (Event UIImage PHAsset)} :
    Run.Steps step EditsGrid (viewDidLoad defultImage) es := by
  have hm : Run.Meets step (fun _ _ => True) (viewDidLoad defultImage : SPublicVC UIImage PHAsset) es :=
    Run.meets_of_forall fun _ _ _ => trivial
  refine Run.steps_of_invariant GridInvariant (fun hi _ hs => ?_) viewDidLoad_grid hm
  exact step_effect hi.isGrid hs |>.grid hi

end SPublicVC
end Publish
