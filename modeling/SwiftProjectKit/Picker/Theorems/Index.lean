import SwiftProjectKit.Picker.Theorems.WellFormed

namespace Picker

theorem map_isPrefix_map_iff {α β γ : Type*} {f : α → γ} {g : β → γ} {xs : List α} {ys : List β} :
    xs.map f <+: ys.map g ↔ ∀ (i : Nat) x, xs[i]? = some x → ∃ y, ys[i]? = some y ∧ g y = f x := by
  rw [List.prefix_iff_getElem?]
  constructor
  case mp =>
    intro h i x hx
    have ⟨hi, hx⟩ := List.getElem?_eq_some_iff.mp hx
    have h := h i (by simpa using hi)
    simpa only [List.getElem_map, hx, List.getElem?_map, Option.map_eq_some_iff] using h
  case mpr =>
    intro h i hi
    have hi : i < xs.length := by simpa using hi
    simpa using h i xs[i] (List.getElem?_eq_getElem hi)

namespace State

open Heap (Ref)

variable {s s' : State} {b : Browser} {r model current : Ref} {e : Event} {i page : Nat}

theorem firstIndex_eq_some (h : s.firstIndex b current = some i) :
    ∃ r, b.models[i]? = some r ∧ s.identifier r = s.identifier current := by
  have ⟨hi, hp, _⟩ := List.findIdx?_eq_some_iff_getElem.mp h
  exact ⟨_, List.getElem?_eq_getElem hi, beq_iff_eq.mp hp⟩

theorem firstIndex_of_page (hn : b.models.map s.identifier |>.Nodup)
    (hp : b.models[page]? = some current) : s.firstIndex b current = some page := by
  have ⟨i, hi⟩ := firstIndex_of_mem (s := s) <| List.mem_of_getElem? hp
  have ⟨r, hr, he⟩ := firstIndex_eq_some hi
  have hlt : i < (b.models.map s.identifier).length := by
    have ⟨h, _⟩ := List.getElem?_eq_some_iff.mp hr
    simpa using h
  have h : i = page := List.getElem?_inj hlt hn |>.mp (by simp [hr, hp, he])
  exact h ▸ hi

theorem Toggles.current_eq (ht : Toggles s b current model) (hw : s.WellFormed) (hm : b.models = s.models) :
    current = model := by
  have ⟨i, hi, hr⟩ := ht.isHanded
  have ⟨r, hr', he⟩ := firstIndex_eq_some hi
  cases hr.symm.trans (hm ▸ hr')
  exact hw.identifier_inj (hm ▸ ht.mem_browser) ht.mem_models he.symm

-- Whichever page of the browser is toggled, the index that is handed to the picker is that of a model of
-- the same photo.
def IndexSafe (s : State) : Prop :=
  ∀ b ∈ s.browser, ∀ (page : Nat) current (i : Nat), b.models[page]? = some current → s.firstIndex b current = some i →
    ∃ model, s.models[i]? = some model ∧ s.identifier model = s.identifier current

def KeepsIndex (s : State) : Event → Prop
  | .photoLibraryDidChange changes =>
    ∀ photos ∈ changes, ∀ b ∈ s.browser,
      b.models.map s.identifier <+: photos.assets.map PHAsset.localIdentifier
  | _ => True

theorem indexSafe_iff (hw : s.WellFormed) :
    s.IndexSafe ↔ ∀ b ∈ s.browser, b.models.map s.identifier <+: s.models.map s.identifier := by
  apply forall₂_congr
  intro b hb
  rw [map_isPrefix_map_iff]
  have hn := hw.browser_nodup b hb
  constructor
  case mp  => exact fun h page current hp => h page current page hp <| firstIndex_of_page hn hp
  case mpr =>
    intro h page current i hp hi
    cases (firstIndex_of_page hn hp).symm.trans hi
    exact h page current hp

theorem prefix_of_frame (hf : Frame s s') (hw : s.WellFormed)
    (hi : ∀ b ∈ s.browser, b.models.map s.identifier <+: s.models.map s.identifier)
    (hm : s'.models = s.models)
    (hb : ∀ b' ∈ s'.browser, b'.models = s.models ∨ ∃ b ∈ s.browser, b'.models = b.models) :
    ∀ b' ∈ s'.browser, b'.models.map s'.identifier <+: s'.models.map s'.identifier := by
  intro b' hb'
  rw [hm, hf.map_identifier hw.owns_models]
  cases hb b' hb'
  case inl hb => rw [hb, hf.map_identifier hw.owns_models]
  case inr hb =>
    have ⟨b, hb, hm⟩ := hb
    rw [hm, hf.map_identifier <| hw.browser_models hb]
    exact hi b hb

theorem Effect.indexSafe_iff (he : Effect s e s') (hi : s.IndexSafe) (hw : s.WellFormed) :
    s'.IndexSafe ↔ s.KeepsIndex e := by
  have hf := he.frame
  have hi := State.indexSafe_iff hw |>.mp hi
  rw [State.indexSafe_iff <| he.wellFormed hw]
  cases he
  case quiet hq =>
    have ⟨_, _, _, _, _, h⟩ := hq.eq
    refine iff_of_true (h ▸ hi) ?_
    cases hq
    case unchanged => exact fun _ h => nomatch h
    all_goals trivial
  case select hb _ _ _ | deselect hb _ _ | album hb =>
    exact iff_of_true (fun _ hb' => nomatch hb.symm.trans hb') trivial
  case hide => exact iff_of_true (fun _ hb' => nomatch hb') trivial
  case change photos =>
    have hm := fetchPhotoModels_map_identifier (s := { s with phAssets := photos }) photos
    constructor
    case mp =>
      intro h _ hp b hb
      cases hp
      have h := h b hb
      rwa [hf.map_identifier <| hw.browser_models hb, photoLibraryDidChange_some, hm] at h
    case mpr =>
      intro h b hb
      rw [hf.map_identifier <| hw.browser_models hb, photoLibraryDidChange_some, hm]
      exact h photos rfl b hb
  case browse hm _ _ _ =>
    refine iff_of_true (prefix_of_frame hf hw hi rfl fun _ hb => ?_) trivial
    cases hb
    exact .inl hm
  case settle hb _ =>
    refine iff_of_true (prefix_of_frame hf hw hi rfl fun _ hb' => ?_) trivial
    cases hb'
    exact .inr ⟨_, hb, rfl⟩
  case scroll hb hm _ _ | bottom hb hm _ _ =>
    refine iff_of_true (prefix_of_frame hf hw hi rfl fun _ hb' => ?_) trivial
    cases hb'
    exact .inr ⟨_, hb, hm⟩
  case check ht | uncheck ht =>
    refine iff_of_true (prefix_of_frame hf hw hi rfl fun _ hb' => ?_) trivial
    cases hb'
    exact .inr ⟨_, ht.isOpen, rfl⟩

theorem always_indexSafe_iff (options : HEPickerOptions) (objects : Heap HEPhotoAsset)
    (library : PHFetchResult) (es : List Event) (ho : objects.Owns options.defaultModels) :
    Run.Always step IndexSafe (viewDidLoad options objects library) es ↔
    Run.Meets step KeepsIndex (viewDidLoad options objects library) es := by
  apply Run.always_iff_meets
  case hinv  => exact fun hw hs => step_effect hs |>.wellFormed hw
  case hstep => exact fun hw hi hs => step_effect hs |>.indexSafe_iff hi hw
  case hi₀   => exact viewDidLoad_wellFormed ho
  case hp₀   => exact fun _ hb => nomatch viewDidLoad_browser.symm.trans hb

-- A photo that is inserted before the one that is shown is selected in its place.
theorem photoLibraryDidChange_not_indexSafe :
    ¬Run.Always step IndexSafe (viewDidLoad {} Sample.objects Sample.library)
      [.didSelectItem 0, .photoLibraryDidChange (some Sample.changedLibrary)] := by
  intro h
  have ⟨_, hm, h⟩ := h _ _ List.prefix_rfl rfl _ rfl 0 1 0 rfl (by decide)
  cases hm
  revert h
  decide

theorem sample_indexSafe :
    Run.Always step IndexSafe (viewDidLoad Sample.options Sample.objects Sample.library)
      [.checkBtnClick 1, .didSelectItem 0, .selectedBtnClick] :=
  always_indexSafe_iff _ _ _ _ (by decide) |>.mpr ⟨trivial, trivial, trivial, trivial⟩

end State
end Picker
