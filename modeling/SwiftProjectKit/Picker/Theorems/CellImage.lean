import SwiftProjectKit.Picker.CellImage

namespace Picker
namespace CellImage

variable {s s' : CellImage} {e : Event} {es : List Event}

def Event.request : Event → Option Thumbnail
  | .setModel asset content => some { asset, content }
  | .runMainQueue           => none

def lastImage (es : List Event) : Option Thumbnail :=
  (es.filterMap Event.request).getLast?.bind fun thumbnail => thumbnail.content.map fun _ => thumbnail

def IsOwn (s : CellImage) : Prop :=
  ∀ thumbnail ∈ s.image, s.model.map PHAsset.localIdentifier = some thumbnail.asset.localIdentifier

def IsTimely (s : CellImage) : Event → Prop
  | .setModel _ _  => True
  | .runMainQueue  => ∀ thumbnail ∈ s.mainQueue.head?, thumbnail.content.isSome →
    s.model.map PHAsset.localIdentifier = some thumbnail.asset.localIdentifier

structure Sound (es : List Event) (s : CellImage) : Prop where
  represented : s.representedAssetIdentifier = s.model.map PHAsset.localIdentifier
  model       : (es.filterMap Event.request).getLast?.map Thumbnail.asset = s.model
  queue       : s.mainQueue <:+ es.filterMap Event.request
  shown       : s.mainQueue = [] → s.image = lastImage es

theorem sound_init : Sound [] {} where
  represented := rfl
  model       := rfl
  queue       := List.nil_suffix
  shown       := fun _ => rfl

theorem step_runMainQueue (hr : s.representedAssetIdentifier = s.model.map PHAsset.localIdentifier) :
    s.step .runMainQueue = s.mainQueue.head?.map fun thumbnail =>
      { s with mainQueue := s.mainQueue.tail }.setImage thumbnail := by
  cases hq : s.mainQueue
  case nil  => simp [step, hq]
  case cons => simp [step, hq, handler, hr]

theorem step_sound (h : s.Sound es) (hs : s.step e = some s') : s'.Sound (es ++ [e]) := by
  cases e
  case setModel asset content =>
    cases Option.some.inj hs
    have hq : (es ++ [Event.setModel asset content]).filterMap Event.request =
      es.filterMap Event.request ++ [⟨asset, content⟩] := by simp [Event.request]
    exact {
      represented := rfl
      model       := by simp [hq, setModel]
      queue       := hq ▸ (List.suffix_append_inj_of_length_eq rfl |>.mpr ⟨h.queue, rfl⟩)
      shown       := fun hn => by simp [setModel] at hn
    }
  case runMainQueue =>
    have hq : (es ++ [Event.runMainQueue]).filterMap Event.request = es.filterMap Event.request := by
      simp [Event.request]
    rw [step_runMainQueue h.represented] at hs
    have ⟨thumbnail, ht, hs⟩ := Option.map_eq_some_iff.mp hs
    have ⟨others, ht⟩ := List.head?_eq_some_iff.mp ht
    cases hs
    refine ⟨h.represented, hq ▸ h.model, hq ▸ (List.tail_suffix _).trans h.queue, fun hn => ?_⟩
    have hn : others = [] := by simpa [ht, setImage] using hn
    have ⟨pre, hp⟩ := h.queue
    rw [lastImage, hq, ← hp, ht, hn, List.getLast?_concat]
    rfl

theorem exec_sound (h : exec {} es = some s) : s.Sound es :=
  Run.invariant_of_events step_sound sound_init h

theorem Sound.isOwn (h : s.Sound es) (hq : s.mainQueue = []) : s.IsOwn := by
  intro thumbnail ht
  rw [h.shown hq, lastImage] at ht
  have ⟨last, hl, ht⟩ := Option.bind_eq_some_iff.mp ht
  have ⟨_, _, ht⟩ := Option.map_eq_some_iff.mp ht
  rw [← h.model, hl, ht]
  rfl

theorem exec_drains (hr : s.representedAssetIdentifier = s.model.map PHAsset.localIdentifier) :
    ∃ s', exec s (List.replicate s.mainQueue.length .runMainQueue) = some s' ∧ s'.mainQueue = [] := by
  generalize hn : s.mainQueue.length = n
  induction n generalizing s
  case zero => exact ⟨s, rfl, List.length_eq_zero_iff.mp hn⟩
  case succ n hi =>
    have ⟨thumbnail, others, hq⟩ := List.exists_cons_of_length_eq_add_one hn
    have hs : s.step .runMainQueue = some ({ s with mainQueue := others }.setImage thumbnail) := by
      simp [step_runMainQueue hr, hq]
    have ⟨s', h, hq'⟩ := hi (s := { s with mainQueue := others }.setImage thumbnail) hr <| by
      simpa [hq, setImage] using hn
    exact ⟨s', Run.exec_cons_eq_some.mpr ⟨_, hs, h⟩, hq'⟩

theorem step_isOwn_iff (hr : s.representedAssetIdentifier = s.model.map PHAsset.localIdentifier)
    (hs : s.step e = some s') : s'.IsOwn ↔ s.IsTimely e := by
  cases e
  case setModel => exact Option.some.inj hs ▸ iff_of_true nofun trivial
  case runMainQueue =>
    rw [step_runMainQueue hr] at hs
    have ⟨thumbnail, hq, hs⟩ := Option.map_eq_some_iff.mp hs
    cases hs
    cases hc : thumbnail.content <;> simp [IsOwn, IsTimely, setImage, hq, hc]

-- The comparison of identifiers never fails. A cell comes to show the image of its own model once the main queue
-- is empty, which it can become, but until then it shows the images that were requested for its earlier models.
theorem exec_image (h : exec {} es = some s) :
    s.representedAssetIdentifier = s.model.map PHAsset.localIdentifier ∧
    (∃ s', exec s (List.replicate s.mainQueue.length .runMainQueue) = some s' ∧ s'.mainQueue = []) ∧
    (s.mainQueue = [] → s.image = lastImage es ∧ s.IsOwn) ∧
    (Run.Always step IsOwn {} es ↔ Run.Meets step IsTimely {} es) := by
  have hs := exec_sound h
  refine ⟨hs.represented, exec_drains hs.represented, fun hq => ⟨hs.shown hq, hs.isOwn hq⟩, ?_⟩
  refine Run.always_iff_meets (fun {s e s'} => ?_) (fun hi _ => step_isOwn_iff hi) rfl nofun
  intro hr hs
  cases e
  case setModel     => exact Option.some.inj hs ▸ rfl
  case runMainQueue =>
    rw [step_runMainQueue hr] at hs
    have ⟨_, _, hs⟩ := Option.map_eq_some_iff.mp hs
    exact hs ▸ hr

def reuseRun : List Event :=
  [.setModel ⟨"A", .image⟩ (some []), .setModel ⟨"B", .image⟩ (some []), .runMainQueue]

theorem exec_image_reused : ∃ s, exec {} reuseRun = some s ∧ s.image = some ⟨⟨"A", .image⟩, some []⟩ ∧
    ¬Run.Always step IsOwn {} reuseRun := by
  have h : exec {} reuseRun = some _ := rfl
  have ⟨_, _, _, hi⟩ := exec_image h
  refine ⟨_, h, rfl, mt hi.mp fun hm => ?_⟩
  simp [reuseRun, Run.Meets, step, setModel, handler, IsTimely] at hm

end CellImage
end Picker
