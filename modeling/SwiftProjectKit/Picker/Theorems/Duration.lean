import SwiftProjectKit.Dates.Duration
import SwiftProjectKit.Picker.Cell
import SwiftProjectKit.Primitives.Clock

namespace Picker

open Dates (videoShowStr)

variable {label label' : List Char} {count d d' : Nat}

def Reads (count : Nat) (label : List Char) (d : Nat) : Prop :=
  ∃ fields, Clock.parse label = some fields ∧ fields.length = count ∧ Clock.seconds fields = d

theorem Reads.unique (h : Reads count label d) (h' : Reads count label d') : d = d' := by
  have ⟨_, hf, _, hd⟩ := h
  have ⟨_, hf', _, hd'⟩ := h'
  cases hf.symm.trans hf'
  exact hd.symm.trans hd'

@[reducible]
def Lroundf.halfAway : Lroundf where
  lroundf        := Rounding.halfAway
  lroundf_eq _ _ := rfl

section

variable {m s : Int}

theorem precise_of_nonneg (h₀ : 0 ≤ m) (h : m < 60) : Format.precise 2 m = (Digits.padded 2 m.toNat).chars := by
  lift m to Nat using h₀
  rw [Format.precise_natCast <| by omega, Int.toNat_natCast, Digits.padded]

theorem minus_mem_precise (h₀ : m < 0) (h : -60 < m) : '-' ∈ Format.precise 2 m := by
  rw [Format.precise, Format.int32_eq_self_iff.mpr <| by omega, if_pos h₀]
  exact List.mem_cons_self

theorem text_of_nonneg (hm₀ : 0 ≤ m) (hm : m < 60) (hs₀ : 0 ≤ s) (hs : s < 60) :
    Format.precise 2 m ++ ':' :: Format.precise 2 s = Clock.text [.padded 2 m.toNat, .padded 2 s.toNat] := by
  rw [precise_of_nonneg hm₀ hm, precise_of_nonneg hs₀ hs, Clock.text_cons_cons, Clock.text_singleton]

theorem lt_of_reads (hm₀ : -60 < m) (hm : m < 60) (hs₀ : -60 < s) (hs : s < 60)
    (h : Reads count (Format.precise 2 m ++ ':' :: Format.precise 2 s) d) : d < 3600 := by
  have ⟨_, hf, _, hd⟩ := h
  have hn := Clock.minus_notMem hf
  rw [List.mem_append, List.mem_cons, not_or, not_or] at hn
  have hm' : 0 ≤ m := Int.not_lt.mp fun h => hn.left <| minus_mem_precise h hm₀
  have hs' : 0 ≤ s := Int.not_lt.mp fun h => hn.right.right <| minus_mem_precise h hs₀
  rw [text_of_nonneg hm' hm hs' hs, Clock.parse_text <| List.cons_ne_nil _ _] at hf
  cases Option.some.inj hf
  simp only [Clock.seconds_pair, Digits.natValue_padded] at hd
  omega

end

namespace HEPhotoPickerCell

variable [Lroundf] {cell : HEPhotoPickerCell} {model : HEPhotoAsset}

theorem setModel_durationLab {duration : Rat} (h : model.asset.mediaType = .video) :
    (cell.setModel model duration).durationLab = time duration := by
  rw [setModel, if_pos h]

theorem lt_of_reads_time (h : Reads count (time d) d) : d < 3600 :=
  lt_of_reads (Int.lt_tmod_of_pos _ <| by decide) (Int.tmod_lt_of_pos _ <| by decide)
    (Int.lt_tmod_of_pos _ <| by decide) (Int.tmod_lt_of_pos _ <| by decide) h

theorem reads_time (h : d < 3600) : Reads 2 (time d) d := by
  have hd : |(d : Rat)| < 2 ^ 63 := by
    have h : (d : Rat) < 3600 := by exact_mod_cast h
    rw [Nat.abs_cast]
    linarith
  have hr : Lroundf.lroundf (Binary32.toFloat d) = d := by
    rw [Binary32.toFloat_natCast <| by omega, Lroundf.lroundf_eq _ hd, ← Int.cast_natCast, Rounding.halfAway_intCast]
  have hs : (d : Int).tmod 60 = (d % 60 : Nat) := Int.tmod_eq_emod_of_nonneg <| Int.natCast_nonneg d
  have hm : ((d - (d % 60 : Nat) : Int).tdiv 60).tmod 60 = (d / 60 : Nat) := by
    rw [Int.tdiv_eq_ediv_of_nonneg <| by omega, Int.tmod_eq_emod_of_nonneg <| by omega]
    omega
  rw [time, hr, hs, hm, text_of_nonneg (by omega) (by omega) (by omega) (by omega)]
  refine ⟨_, Clock.parse_text <| List.cons_ne_nil _ _, rfl, ?_⟩
  simp only [Clock.seconds_pair, Digits.natValue_padded]
  omega

end HEPhotoPickerCell

theorem floor_div_sixty : ⌊(d / 60 : Rat)⌋ = (d / 60 : Nat) := by
  have h := Rat.floor_natCast_div_natCast d 60
  rwa [Nat.cast_ofNat] at h

theorem truncatingRemainder_natCast : Dates.truncatingRemainder d 60 = (d % 60 : Nat) := by
  have h₀ : (0 : Rat) ≤ d / 60 := by positivity
  have hd : (d : Rat) = 60 * (d / 60 : Nat) + (d % 60 : Nat) := by exact_mod_cast (Nat.div_add_mod d 60).symm
  rw [Dates.truncatingRemainder, if_pos h₀, floor_div_sixty, Int.cast_natCast]
  linarith

-- Labels with hours have room for all durations whose hours fit in 32 bits.
theorem videoShowStr_natCast (h : d < 3600 * 2 ^ 31) : videoShowStr (.ofRat d) =
    some (Clock.text [.padded 2 (d / 3600), .padded 2 (d / 60 % 60), .padded 2 (d % 60)]) := by
  have hd : (d : Rat) < 3600 * 2 ^ 31 := by exact_mod_cast h
  have h₀ : (0 : Rat) ≤ d := Nat.cast_nonneg d
  have hm : (Binary64.ofRat (d / 60)).toInt64 = some ((d / 60 : Nat) : Int) := by
    rw [Binary64.toInt64_ofRat (by positivity) (by linarith), floor_div_sixty]
  have hs : (Binary64.ofRat (Dates.truncatingRemainder d 60)).toInt64 = some ((d % 60 : Nat) : Int) := by
    have hl : ((d % 60 : Nat) : Rat) < 60 := by exact_mod_cast Nat.mod_lt d (by decide)
    rw [truncatingRemainder_natCast, Binary64.toInt64_ofRat (Nat.cast_nonneg _) (by linarith), Int.floor_natCast]
  have hn : Binary64.ofRat d ≠ .nan := by rw [Binary64.ofRat]; exact Binary64.noConfusion
  rw [videoShowStr, if_neg hn, Binary64.value_ofRat]
  simp only [Option.bind_eq_bind, Option.bind_some, hm, hs]
  split
  case isTrue hl =>
    have hh : ((d / 60 : Nat) : Int).tdiv 60 = (d / 3600 : Nat) := by
      rw [Int.tdiv_eq_ediv_of_nonneg <| by omega]
      omega
    have hr : ((d / 60 : Nat) - (d / 3600 : Nat) * 60 : Int) = (d / 60 % 60 : Nat) := by omega
    rw [hh, hr, Format.zeroPadded_natCast <| by omega, Format.zeroPadded_natCast <| by omega,
      Format.zeroPadded_natCast <| by omega]
    simp [Digits.padded]
  case isFalse hl =>
    have hh : d / 3600 = 0 := by omega
    have hr : d / 60 % 60 = d / 60 := by omega
    have hz : "00:".toList = (Digits.padded 2 0).chars ++ [':'] := by decide
    rw [hh, hr, hz, Format.zeroPadded_natCast <| by omega, Format.zeroPadded_natCast <| by omega]
    simp [Digits.padded]

theorem reads_videoShowStr (h : d < 3600 * 2 ^ 31) :
    ∃ label, videoShowStr (.ofRat d) = some label ∧ Reads 3 label d := by
  refine ⟨_, videoShowStr_natCast h, _, Clock.parse_text <| List.cons_ne_nil _ _, rfl, ?_⟩
  simp only [Clock.seconds_triple, Digits.natValue_padded]
  omega

section

variable [Lroundf]

structure Faithful (d d' : Nat) : Prop where
  cell       : ∀ x ∈ [d, d'], ∀ (cell : HEPhotoPickerCell) (model : HEPhotoAsset), model.asset.mediaType = .video →
    Reads 2 (cell.setModel model x).durationLab x
  string     : ∀ x ∈ [d, d'], ∃ label, videoShowStr (.ofRat x) = some label ∧ Reads 3 label x
  cells_ne   : d ≠ d' → ∀ (cell cell' : HEPhotoPickerCell) (model model' : HEPhotoAsset),
    model.asset.mediaType = .video → model'.asset.mediaType = .video →
    (cell.setModel model d).durationLab ≠ (cell'.setModel model' d').durationLab
  strings_ne : d ≠ d' → videoShowStr (.ofRat d) ≠ videoShowStr (.ofRat d')

def video : HEPhotoAsset where
  asset := ⟨"video", .video⟩

theorem Faithful.lt {x : Nat} (h : Faithful d d') (hx : x ∈ [d, d']) : x < 3600 :=
  HEPhotoPickerCell.lt_of_reads_time <| h.cell x hx {} video rfl

theorem faithful_of_lt (h : d < 3600) (h' : d' < 3600) : Faithful d d' := by
  have hlt : ∀ x ∈ [d, d'], x < 3600 := by simpa using ⟨h, h'⟩
  have hc {cell : HEPhotoPickerCell} {model : HEPhotoAsset} {x : Nat} (hx : x < 3600)
      (hm : model.asset.mediaType = .video) : Reads 2 (cell.setModel model x).durationLab x :=
    HEPhotoPickerCell.setModel_durationLab hm ▸ HEPhotoPickerCell.reads_time hx
  have hs {x : Nat} (hx : x < 3600) := reads_videoShowStr (d := x) <| by omega
  exact {
    cell       := fun x hx _ _ hm => hc (hlt x hx) hm
    string     := fun x hx => hs <| hlt x hx
    cells_ne   := fun hn _ _ _ _ hm hm' he => hn <| (hc h hm).unique <| he ▸ hc h' hm'
    strings_ne := fun hn he => by
      have ⟨_, hl, hr⟩ := hs h
      have ⟨_, hl', hr'⟩ := hs h'
      cases hl.symm.trans <| he.trans hl'
      exact hn <| hr.unique hr'
  }

theorem durationLabels_faithful_iff : Faithful d d' ↔ d < 3600 ∧ d' < 3600 :=
  ⟨fun h => ⟨h.lt <| by simp, h.lt <| by simp⟩, fun h => faithful_of_lt h.left h.right⟩

end

-- Videos of an hour and of no time have the same label in a cell.
theorem durationLabels_not_faithful : @HEPhotoPickerCell.time .halfAway 3600 = "00:00".toList ∧
    @HEPhotoPickerCell.time .halfAway 0 = "00:00".toList ∧ ¬@Faithful .halfAway 3600 0 := by
  refine ⟨by decide +kernel, by decide +kernel, fun h => ?_⟩
  exact absurd (@Faithful.lt _ _ .halfAway 3600 h <| by simp) <| by decide

end Picker
