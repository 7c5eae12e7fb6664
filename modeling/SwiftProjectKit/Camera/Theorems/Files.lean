import Mathlib.Data.List.Nodup
import SwiftProjectKit.Camera.Theorems.Captures

namespace Camera

variable {device : Device}

theorem Capture.url_eq_iff {c₁ c₂ : Capture} : c₁.url device = c₂.url device ↔
    c₁.type = c₂.type ∧ device.string c₁.date = device.string c₂.date := by
  simp only [url, Device.wmCreateFileUrl, String.append_right_inj]
  constructor
  case mp =>
    intro h
    have ht : c₁.type = c₂.type := by
      have hl := congrArg (·.toList.getLast?) h
      cases h₁ : c₁.type <;> cases h₂ : c₂.type
      all_goals simp [h₁, h₂, CaptureType.fileType] at hl ⊢
    rw [ht, String.append_left_inj, String.append_left_inj] at h
    exact ⟨ht, h⟩
  case mpr =>
    intro ⟨ht, hd⟩
    rw [ht, hd]

namespace WMCameraManger

variable {s s' : WMCameraManger} {e : Event}

def IsFile (device : Device) (s : WMCameraManger) (capture : Nat) (path : String) : Prop :=
  s.captures[capture]?.map (·.url device) = some path

structure KeepsFiles (device : Device) (s : WMCameraManger) : Prop where
  urls     : (s.captures.map (·.url device)).Nodup
  written  : ∀ call ∈ s.writtenPhotos, s.IsFile device call.fst call.snd
  reported : ∀ call ∈ s.completeCalls, s.IsFile device call.fst call.snd

def IsDistinct (device : Device) (s : WMCameraManger) (capture : Capture) : Prop :=
  ∀ c ∈ s.captures, c.type = capture.type → device.string c.date ≠ device.string capture.date

def IsAlone (device : Device) (s : WMCameraManger) : Event → Prop
  | .pickImage date                       => s.IsDistinct device { type := .photo, date }
  | .startRecordingVideo date _           => s.IsDistinct device { type := .video, date }
  | .pickImageCompletion capture hasImage => hasImage → capture + 1 = s.captures.length
  | .complete capture                     => capture + 1 = s.captures.length
  | _                                     => True

theorem isDistinct_iff {capture : Capture} :
    s.IsDistinct device capture ↔ capture.url device ∉ s.captures.map (·.url device) := by
  simp only [IsDistinct, List.mem_map, Capture.url_eq_iff, not_exists, not_and]

theorem IsFile.append {capture : Nat} {path : String} (h : s.IsFile device capture path)
    {captures : List Capture} (hc : s'.captures = s.captures ++ captures) :
    s'.IsFile device capture path := by
  have ⟨c, hs, hp⟩ := Option.map_eq_some_iff.mp h
  have hl := List.getElem?_eq_some_iff.mp hs |>.choose
  rw [IsFile, hc, List.getElem?_append_left hl]
  exact h

theorem isFile_currentUrl_iff (hs : s.Sound device)
    (hn : (s.captures.map (·.url device)).Nodup) {capture : Nat} {path : String}
    (hc : capture < s.captures.length) (hu : s.currentUrl = some path) :
    s.IsFile device capture path ↔ capture + 1 = s.captures.length := by
  have hl : (s.captures.map (·.url device))[s.captures.length - 1]? = some path := by
    rw [← hu, hs.current, List.getElem?_map, List.getLast?_eq_getElem?]
  rw [IsFile, ← List.getElem?_map, ← hl]
  have hc' : capture < (s.captures.map (·.url device)).length := by rwa [List.length_map]
  constructor
  case mp =>
    intro he
    have := List.getElem?_inj hc' hn |>.mp he
    omega
  case mpr =>
    intro he
    rw [← he, Nat.add_sub_cancel]

theorem keepsFiles_append_iff (h : s.KeepsFiles device) {capture : Capture}
    (hc : s'.captures = s.captures ++ [capture]) (hw : s'.writtenPhotos = s.writtenPhotos)
    (hr : s'.completeCalls = s.completeCalls) :
    s'.KeepsFiles device ↔ s.IsDistinct device capture := by
  rw [isDistinct_iff]
  constructor
  case mp =>
    intro h'
    have hn := h'.urls
    rw [hc, List.map_append, List.map_singleton, ← List.concat_eq_append, List.nodup_concat] at hn
    exact hn.left
  case mpr =>
    intro hd
    exact {
      urls := by
        rw [hc, List.map_append, List.map_singleton, ← List.concat_eq_append, List.nodup_concat]
        exact ⟨hd, h.urls⟩
      written  := fun call hm => (h.written call (hw ▸ hm)).append hc
      reported := fun call hm => (h.reported call (hr ▸ hm)).append hc
    }

theorem Effect.keepsFiles_iff (he : Effect device s e s') (hs : s.Sound device)
    (h : s.KeepsFiles device) : s'.KeepsFiles device ↔ s.IsAlone device e := by
  cases he
  case pickImage  => exact keepsFiles_append_iff h rfl rfl rfl
  case start      => exact keepsFiles_append_iff h rfl rfl rfl
  case noWriter   => exact keepsFiles_append_iff h rfl rfl rfl
  case noPhoto    => exact iff_of_true { h with } nofun
  case photo capture url hc hu =>
    have hf := isFile_currentUrl_iff hs h.urls (hs.taking capture hc) hu
    simp only [IsAlone, forall_const, ← hf]
    constructor
    case mp  => exact fun h' => h'.reported (capture, url) (by simp)
    case mpr =>
      intro hf
      exact { h with
        written  := List.forall_mem_append.mpr ⟨h.written, List.forall_mem_singleton.mpr hf⟩
        reported := List.forall_mem_append.mpr ⟨h.reported, List.forall_mem_singleton.mpr hf⟩
      }
  case complete capture url hc hu =>
    have hf := isFile_currentUrl_iff hs h.urls (hs.completing capture hc) hu
    simp only [IsAlone, ← hf]
    constructor
    case mp  => exact fun h' => h'.reported (capture, url) (by simp)
    case mpr => exact fun hf => { h with
      reported := List.forall_mem_append.mpr ⟨h.reported, List.forall_mem_singleton.mpr hf⟩ }
  case idle    => exact iff_of_true h trivial
  case «end»   => exact iff_of_true { h with } trivial
  case finish  => exact iff_of_true { h with } trivial
  case ignored => exact iff_of_true h trivial
  case video   => exact iff_of_true { h with } trivial
  case audio   => exact iff_of_true { h with } trivial

theorem always_keepsFiles_iff (device : Device) (es : List Event) :
    Run.Always (step device) (KeepsFiles device) {} es ↔
      Run.Meets (step device) (IsAlone device) {} es :=
  Run.always_iff_meets (fun h hs => step_effect hs |>.sound h)
    (fun h hk hs => step_effect hs |>.keepsFiles_iff h hk) sound_init ⟨.nil, nofun, nofun⟩

-- A photo is written to the path of a recording that is started before the photo has been taken.
theorem pickImage_not_keepsFiles : ¬ Run.Always (step .epoch) (KeepsFiles .epoch) {}
    [.pickImage 0, .startRecordingVideo 1 true, .pickImageCompletion 0 true] := by
  intro h
  have hk := h _ _ List.prefix_rfl rfl
  have hf := hk.written (0, "/Documents/Resource/19700101000001.MP4") (by decide +kernel)
  rw [IsFile] at hf
  exact absurd hf (by decide +kernel)

end WMCameraManger
end Camera
