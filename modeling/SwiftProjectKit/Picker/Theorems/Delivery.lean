import SwiftProjectKit.Picker.Theorems.Effect

namespace Picker
namespace State

open Heap (Ref)

variable {s s' : State} {e : Event} {r : Ref} {k : Nat} {content : Option (List UInt8)}

-- The delegate has only been passed images that were loaded for the models they are passed with.
def HasDelivered (s : State) : Prop :=
  ∀ selectedImages selectedModel, .didFinishPicking selectedImages selectedModel ∈ s.delegateCalls →
    selectedImages.map UIImage.loadedFor = selectedModel

def Delivers (s : State) : Prop :=
  s.HasDelivered ∧ (s.requests ≠ [] → s.todoArray ≠ [])

def ChangesSelection (s : State) : Event → Prop
  | .checkBtnClick i =>
    ∃ model ∈ s.models[i]?,
      s.isSelected model = true ∨ s.limitAlert s.selectedModels (s.mediaType model) = none
  | .selectedBtnClick => ∃ b current model, Checks s b current model ∨ Unchecks s b current model
  | _ => False

-- The done button is tapped before any image has been loaded, and while images are being loaded neither
-- the done button is tapped again nor the selection changed.
def KeepsDelivery (s : State) (e : Event) : Prop :=
  match e with
  | .nextBtnClick => s.requests = [] ∧ s.selectedImages = []
  | _             => s.ChangesSelection e → s.requests = []

-- At most one request is running, namely the one for the first of the remaining models.
structure Loads (s : State) : Prop where
  delivered : s.HasDelivered
  request   : s.requests = [] ∨
    ∃ r rest, s.requests = [r] ∧ s.todoArray = r :: rest ∧
      s.selectedImages.map UIImage.loadedFor ++ s.todoArray = s.selectedModels

namespace Loads

theorem delivers (h : s.Loads) : s.Delivers := by
  refine ⟨h.delivered, fun hr => ?_⟩
  cases h.request
  case inl h => contradiction
  case inr h =>
    have ⟨_, _, _, ht, _⟩ := h
    simp [ht]

theorem getImages (hd : s.HasDelivered) (hr : s.requests = [])
    (hs : s.selectedImages.map UIImage.loadedFor ++ s.todoArray = s.selectedModels) :
    s.getImages.Loads := by
  cases ht : s.todoArray
  case nil =>
    simp only [State.getImages, ht]
    constructor
    case delivered =>
      intro images models hm
      cases List.mem_append.mp hm
      case inl hm => exact hd images models hm
      case inr hm =>
        cases List.mem_singleton.mp hm
        simpa [ht] using hs
    case request => exact .inl hr
  case cons r rest =>
    simp only [State.getImages, ht]
    constructor
    case delivered => exact hd
    case request   => exact .inr ⟨r, rest, by simp [hr], rfl, ht ▸ hs⟩

theorem nextBtnClick (h : s.Loads) (hr : s.requests = []) (hi : s.selectedImages = []) :
    s.nextBtnClick.Loads := by
  apply getImages (s := { s with todoArray := s.selectedModels }) h.delivered hr
  simp [hi]

theorem imageHandler (h : s.Loads) (hs : s.imageHandler k content = some s') : s'.Loads := by
  have ⟨loadedFor, hk, hs⟩ := Option.bind_eq_some_iff.mp hs
  cases h.request
  case inl hr => simp [hr] at hk
  case inr hr =>
    have ⟨r, rest, hr, ht, hm⟩ := hr
    have hk : k = 0 ∧ r = loadedFor := by
      cases k <;> simp_all
    simp only [ht, hr, hk, Option.some.injEq] at hs
    rw [← hs]
    apply getImages
    case hd => exact h.delivered
    case hr => rfl
    case hs => simpa [hk, ht] using hm

theorem of_quiet (h : s.Loads) (hr : s'.requests = s.requests) (ht : s'.todoArray = s.todoArray)
    (hi : s'.selectedImages = s.selectedImages)
    (hd : ∀ images models, .didFinishPicking images models ∈ s'.delegateCalls →
      .didFinishPicking images models ∈ s.delegateCalls)
    (hs : s.requests = [] ∨ s'.selectedModels = s.selectedModels) : s'.Loads := by
  constructor
  case delivered => exact fun images models hm => h.delivered images models <| hd images models hm
  case request =>
    rw [hr, ht, hi]
    cases hs
    case inl hs => exact .inl hs
    case inr hs => rw [hs]; exact h.request

end Loads

theorem Effect.loads (he : Effect s e s') (h : s.Loads) (hk : s.KeepsDelivery e) : s'.Loads := by
  have append_isSelect {isSelect : Bool} {images models} :
      .didFinishPicking images models ∈ s.delegateCalls ++ [.pickerIsSelectVideo isSelect] →
      .didFinishPicking images models ∈ s.delegateCalls := by simp
  cases he
  case quiet hq =>
    cases hq
    case limitCell    => exact h.of_quiet rfl rfl rfl (fun _ _ => append_isSelect) (.inr rfl)
    case limitBrowser => exact h.of_quiet rfl rfl rfl (fun _ _ => id) (.inr rfl)
    case unchanged    => exact h
    case next         => exact h.nextBtnClick hk.left hk.right
    case image hs     => exact h.imageHandler hs
  case select hm _ hl =>
    have hr := hk ⟨_, hm, .inr hl⟩
    exact h.of_quiet rfl rfl rfl (fun _ _ => append_isSelect) (.inl hr)
  case deselect hm hs =>
    have hr := hk ⟨_, hm, .inl hs⟩
    exact h.of_quiet rfl rfl rfl (fun _ _ => append_isSelect) (.inl hr)
  case check hc   => exact h.of_quiet rfl rfl rfl (fun _ _ => id) (.inl <| hk ⟨_, _, _, .inl hc⟩)
  case uncheck hu => exact h.of_quiet rfl rfl rfl (fun _ _ => id) (.inl <| hk ⟨_, _, _, .inr hu⟩)
  case album | change | browse | settle | scroll | bottom | hide =>
    exact h.of_quiet rfl rfl rfl (fun _ _ => id) (.inr rfl)

theorem always_delivers (options : HEPickerOptions) (objects : Heap HEPhotoAsset)
    (library : PHFetchResult) (es : List Event)
    (hk : Run.Meets step KeepsDelivery (viewDidLoad options objects library) es) :
    Run.Always step Delivers (viewDidLoad options objects library) es := by
  refine Run.always_of_invariant Loads ?_ Loads.delivers ?_ hk
  case refine_1 => exact fun h hk hs => step_effect hs |>.loads h hk
  case refine_2 =>
    have h : (viewDidLoad options objects library).delegateCalls = [] ∧
        (viewDidLoad options objects library).requests = [] := by
      dsimp only [viewDidLoad, getAllPhotos]
      split <;> exact ⟨rfl, rfl⟩
    constructor
    case delivered => exact fun _ _ hm => nomatch h.left ▸ hm
    case request   => exact .inl h.right

-- The images of a first selection are passed again when the done button is tapped a second time.
theorem nextBtnClick_not_delivers :
    ¬Run.Always step Delivers (viewDidLoad {} Sample.objects Sample.library)
      [.checkBtnClick 0, .nextBtnClick, .imageHandler 0 none, .nextBtnClick, .imageHandler 0 none] := by
  intro h
  have h := h _ _ List.prefix_rfl rfl |>.left [⟨1, none⟩, ⟨1, none⟩] [1] (by decide)
  revert h
  decide

theorem sample_delivers :
    Run.Always step Delivers (viewDidLoad Sample.options Sample.objects Sample.library)
      [.checkBtnClick 1, .nextBtnClick, .imageHandler 0 none, .imageHandler 0 none, .checkBtnClick 0] :=
  always_delivers _ _ _ _ ⟨fun _ => rfl, ⟨rfl, rfl⟩, nofun, nofun, fun _ => rfl, trivial⟩

end State
end Picker
