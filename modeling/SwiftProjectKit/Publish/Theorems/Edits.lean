import SwiftProjectKit.Publish.Theorems.Grid

namespace Publish

inductive Edit (UIImage : Type*)
  | pick (row : Nat) (photos : List UIImage)
  | clear (tag : Nat)
deriving DecidableEq

namespace Edit

variable {UIImage : Type*}

def events {PHAsset : Type*} : Edit UIImage → List (Event UIImage PHAsset)
  | pick row photos => [.didSelectItemAt row, .didFinishPickingPhotosHandle photos]
  | clear tag       => [.didClearBtnAction tag]

variable [DecidableEq UIImage]

-- The photos after the change. There are none if the cell that is tapped is not the placeholder, if the picker has no
-- room for the photos, or if there is no photo to be cleared.
def apply (defultImage : UIImage) (reals : List UIImage) : Edit UIImage → Option (List UIImage)
  | pick row photos =>
    if (grid defultImage reals)[row]? = some defultImage ∧ photos ≠ [] ∧
        photos.length ≤ 10 - (grid defultImage reals).length ∧ defultImage ∉ photos then
      some <| photos.reverse ++ reals
    else
      none
  | clear tag => if tag < reals.length then some <| reals.eraseIdx tag else none

end Edit

structure Fits {UIImage : Type*} (defultImage : UIImage) (reals : List UIImage) : Prop where
  notMem    : defultImage ∉ reals
  length_le : reals.length ≤ 9

namespace Fits

variable {UIImage : Type*} {defultImage : UIImage} {reals : List UIImage} {row : Nat}

theorem length_grid_lt (h : Fits defultImage reals) : (grid defultImage reals).length < 10 := by
  have hl := h.length_le
  rw [grid]
  split <;> simp <;> omega

theorem length_lt (h : Fits defultImage reals) (hr : (grid defultImage reals)[row]? = some defultImage) :
    reals.length < 9 := by
  by_contra hl
  rw [grid_eq_of_eq <| Nat.le_antisymm h.length_le <| Nat.le_of_not_lt hl] at hr
  exact h.notMem <| List.mem_of_getElem? hr

theorem apply [DecidableEq UIImage] {reals' : List UIImage} {edit : Edit UIImage} (h : Fits defultImage reals)
    (ha : edit.apply defultImage reals = some reals') : Fits defultImage reals' := by
  cases edit
  case pick row photos =>
    simp only [Edit.apply, Option.ite_none_right_eq_some, Option.some.injEq] at ha
    have ⟨⟨hr, _, hp, hn⟩, ha⟩ := ha
    have hl := h.length_lt hr
    rw [length_grid hl] at hp
    subst ha
    exact ⟨by simp [hn, h.notMem], by rw [List.length_append, List.length_reverse]; omega⟩
  case clear tag =>
    simp only [Edit.apply, Option.ite_none_right_eq_some, Option.some.injEq] at ha
    have hs := List.eraseIdx_sublist reals tag
    exact ha.right ▸ ⟨fun hm => h.notMem <| hs.subset hm, hs.length_le.trans h.length_le⟩

end Fits

namespace SPublicVC

variable {UIImage PHAsset : Type*} [DecidableEq UIImage] {defultImage : UIImage} {reals photos : List UIImage}

def showing (defultImage : UIImage) (reals : List UIImage) : SPublicVC UIImage PHAsset :=
  { viewDidLoad defultImage with dataArray := grid defultImage reals }

theorem showing_isGrid (h : Fits defultImage reals) :
    (showing defultImage reals : SPublicVC UIImage PHAsset).IsGrid ∧
      (showing defultImage reals : SPublicVC UIImage PHAsset).reals = reals :=
  isGrid_of_eq rfl h.notMem h.length_le

theorem didFinishPickingPhotosHandle_showing (h : Fits defultImage reals) (hl : reals.length < 9)
    (hp : photos.length ≤ 9 - reals.length) :
    (showing defultImage reals : SPublicVC UIImage PHAsset).didFinishPickingPhotosHandle photos =
      showing defultImage (photos.reverse ++ reals) := by
  have ⟨hg, hr⟩ : (showing defultImage reals : SPublicVC UIImage PHAsset).IsGrid ∧ _ := showing_isGrid h
  have hd := didFinishPickingPhotosHandle_dataArray hg (hr.symm ▸ hl) (hr.symm ▸ hp)
  rw [hr] at hd
  exact congrArg ({ viewDidLoad defultImage with dataArray := · }) hd

theorem exec_pick {row : Nat} (h : Fits defultImage reals) :
    (showing defultImage reals : SPublicVC UIImage PHAsset).exec (Edit.pick row photos).events =
      ((Edit.pick row photos).apply defultImage reals).map (showing defultImage) := by
  let s : SPublicVC UIImage PHAsset := showing defultImage reals
  have hs : s.step (.didSelectItemAt row) = s.didSelectItemAt row := rfl
  have hd : s.didSelectItemAt row = (grid defultImage reals)[row]?.map fun image => if image = defultImage then
      { s with
        presented := some {
          maxImagesCount    := 10 - (grid defultImage reals).length
          allowPickingVideo := (grid defultImage reals).length == 1 } }
    else
      s := if_pos h.length_grid_lt
  rw [Edit.events, exec, Run.exec, hs, hd, Edit.apply]
  cases hr : (grid defultImage reals)[row]?
  case none => simp
  case some image =>
    by_cases hi : image = defultImage
    -- No picker is presented for a photo, so none are handed over.
    case neg => simp [hi, Run.exec, step, s, showing, viewDidLoad, setupViews]
    case pos =>
      subst hi
      have hl := h.length_lt hr
      have hg : (grid image reals).length = reals.length + 1 := length_grid hl
      simp only [Option.map_some, if_pos, Option.bind_some, Run.exec_singleton, step, allowsPhotos, Bool.and_eq_true,
        Bool.not_eq_true', List.isEmpty_eq_false_iff, decide_eq_true_eq, List.all_eq_true, bne_iff_ne, true_and]
      by_cases hc : photos ≠ [] ∧ photos.length ≤ 10 - (grid image reals).length ∧ image ∉ photos
      case neg =>
        rw [if_neg hc, if_neg fun hc' => hc ⟨hc'.left.left, hc'.left.right, fun hm => hc'.right _ hm rfl⟩]
        rfl
      case pos =>
        rw [if_pos hc, if_pos ⟨⟨hc.left, hc.right.left⟩, fun _ hm => ne_of_mem_of_not_mem hm hc.right.right⟩]
        have hp : s.didFinishPickingPhotosHandle photos = _ := didFinishPickingPhotosHandle_showing h hl (by omega)
        exact congrArg (fun s => some { s with presented := none }) hp

theorem exec_clear {tag : Nat} (h : Fits defultImage reals) :
    (showing defultImage reals : SPublicVC UIImage PHAsset).exec (Edit.clear tag).events =
      ((Edit.clear tag).apply defultImage reals).map (showing defultImage) := by
  let s : SPublicVC UIImage PHAsset := showing defultImage reals
  have ⟨hg, hr⟩ : s.IsGrid ∧ s.reals = reals := showing_isGrid h
  have hs : s.step (.didClearBtnAction tag) =
      if (s.cellForItemAt tag).any Cell.hasClearBtn then s.didClearBtnAction tag else none := rfl
  rw [Edit.events, exec, Run.exec_singleton, hs, Edit.apply]
  by_cases ht : tag < reals.length
  case neg => rw [if_neg ht, if_neg <| (cellForItemAt_any_iff hg).not.mpr <| hr.symm ▸ ht]; rfl
  case pos =>
    have ht' : tag < s.reals.length := hr.symm ▸ ht
    rw [if_pos ht, if_pos <| (cellForItemAt_any_iff hg).mpr ht', didClearBtnAction_eq hg ht', hr]
    rfl

theorem exec_edits {edits : List (Edit UIImage)} (h : Fits defultImage reals) :
    (showing defultImage reals : SPublicVC UIImage PHAsset).exec (edits.flatMap Edit.events) =
      (Run.exec (Edit.apply defultImage) reals edits).map (showing defultImage) := by
  induction edits generalizing reals
  case nil => rfl
  case cons edit edits hi =>
    have he : (showing defultImage reals : SPublicVC UIImage PHAsset).exec edit.events =
        (edit.apply defultImage reals).map (showing defultImage) := by
      cases edit
      case pick  => exact exec_pick h
      case clear => exact exec_clear h
    rw [List.flatMap_cons, exec, Run.exec_append, Run.exec, ← exec, he]
    cases ha : edit.apply defultImage reals
    case none => rfl
    case some => exact hi <| h.apply ha

-- The grid shows the photos in their places throughout, a pick adds its photos, and a clear removes the one that is
-- tapped. All changes for which there is room can be made, one after the other.
theorem steps_editsGrid (defultImage : UIImage) (es : List (Event UIImage PHAsset)) (edits : List (Edit UIImage)) :
    (viewDidLoad defultImage : SPublicVC UIImage PHAsset).IsGrid ∧
      Run.Steps step EditsGrid (viewDidLoad defultImage) es ∧
      (viewDidLoad defultImage : SPublicVC UIImage PHAsset).exec (edits.flatMap Edit.events) =
        (Run.exec (Edit.apply defultImage) [] edits).map fun reals =>
          { viewDidLoad defultImage with dataArray := grid defultImage reals } :=
  ⟨viewDidLoad_grid.isGrid, steps_of_viewDidLoad, exec_edits ⟨List.not_mem_nil, Nat.zero_le 9⟩⟩

theorem steps_editsGrid_sample :
    (exec (viewDidLoad "scan_photo.png" : SPublicVC String String) <| List.flatMap Edit.events
      [.pick 0 ["a", "b"], .pick 2 ["c", "d", "e", "f", "g", "h", "i"], .clear 8, .pick 8 ["j"]]).map dataArray =
        some ["j", "i", "h", "g", "f", "e", "d", "c", "b"] := by
  rw [(steps_editsGrid "scan_photo.png" [] _).right.right]
  decide

end SPublicVC
end Publish
