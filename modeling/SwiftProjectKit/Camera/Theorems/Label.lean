import SwiftProjectKit.Camera.Control
import SwiftProjectKit.Primitives.Clock
import SwiftProjectKit.Primitives.Rounding

namespace Camera

open Rounding (halfEven)

variable {t t' : Rat}

theorem rounded_eq : rounded t = halfEven t := by
  rw [rounded, halfEven, Int.self_sub_floor]
  split_ifs <;> grind

def remainder (t : Rat) : Rat :=
  t - 60 * ⌊t / 60⌋

theorem remainder_nonneg : 0 ≤ remainder t := by
  have h := Int.floor_le (t / 60)
  rw [remainder]
  linarith

theorem remainder_lt : remainder t < 60 := by
  have h := Int.lt_floor_add_one (t / 60)
  rw [remainder]
  linarith

theorem remainder_eq_self (h₀ : 0 ≤ t) (h : t < 60) : remainder t = t := by
  have hf : ⌊t / 60⌋ = 0 := Int.floor_eq_iff.mpr ⟨by push_cast; linarith, by push_cast; linarith⟩
  rw [remainder, hf, Int.cast_zero, mul_zero, sub_zero]

-- The minutes are even, so that they do not matter for the rounding.
theorem halfEven_remainder : halfEven t = 60 * ⌊t / 60⌋ + halfEven (remainder t) := by
  have h := Rounding.halfEven_add_two_mul (remainder t) (30 * ⌊t / 60⌋)
  have ht : remainder t + 2 * (30 * ⌊t / 60⌋ : Int) = t := by
    rw [remainder]
    push_cast
    ring
  rw [ht] at h
  omega

theorem floor_hours : ⌊t / 3600⌋ = ⌊t / 60⌋ / 60 := by
  have h := @Int.floor_div_cast_of_nonneg Rat _ _ _ _ 60 (by decide) (t / 60)
  rwa [Int.cast_ofNat, div_div, show (60 * 60 : Rat) = 3600 by norm_num] at h

theorem toList_toString {n : Int} (h : 0 ≤ n) : (toString n).toList = (Digits.padded 0 n.toNat).chars := by
  lift n to Nat using h
  have hs : toString (n : Int) = n.repr := rfl
  simp [Digits.padded, Numeral.padded, hs, Nat.toList_repr]

theorem toList_padded {n : Int} (h : 0 ≤ n) : (toString (padded n)).toList = (Digits.padded 2 n.toNat).chars := by
  lift n to Nat using h
  have hi (s : String) : toString s = s := rfl
  have hs : toString (n : Int) = n.repr := rfl
  have hl : (Nat.toDigits 10 n).length ≤ 1 ↔ n < 10 ^ 1 := Nat.length_toDigits_le_iff (by decide) (by decide)
  have hp : 0 < (Nat.toDigits 10 n).length := List.length_pos_iff.mpr Nat.toDigits_ne_nil
  rw [hi, padded]
  split
  case isTrue hn =>
    have hr : 2 - (Nat.toDigits 10 n).length = 1 := by omega
    have hz : (toString "0").toList = ['0'] := rfl
    simp [Digits.padded, Numeral.padded, hs, hz, Nat.toList_repr, hr]
  case isFalse hn =>
    have hr : 2 - (Nat.toDigits 10 n).length = 0 := by omega
    simp [Digits.padded, Numeral.padded, hs, Nat.toList_repr, hr]

def labelFields (t : Rat) : List Digits :=
  let second := halfEven (remainder t) |>.toNat
  if t < 60 then
    [.padded 2 0, .padded 0 second]
  else if t < 3600 then
    [.padded 0 ⌊t / 60⌋.toNat, .padded 2 second]
  else
    [.padded 0 (Format.int32 ⌊t / 3600⌋).toNat, .padded 2 (⌊t / 60⌋ % 60).toNat, .padded 2 second]

theorem labelFields_ne_nil : labelFields t ≠ [] := by
  simp only [labelFields]
  split_ifs <;> exact List.cons_ne_nil _ _

theorem second_nonneg : 0 ≤ halfEven (remainder t) :=
  Rounding.halfEven_nonneg remainder_nonneg

theorem second_le : halfEven (remainder t) ≤ 60 := by
  have h := Rounding.halfEven_mono <| remainder_lt (t := t) |>.le
  have h' := Rounding.halfEven_intCast (K := Rat) 60
  rw [Int.cast_ofNat] at h'
  omega

theorem toList_label (h₀ : 0 ≤ t) (hh : 0 ≤ Format.int32 ⌊t / 3600⌋) :
    (timeFormatFormSeconds t).toList = Clock.text (labelFields t) := by
  have hm : 0 ≤ ⌊t / 60⌋ := Int.floor_nonneg.mpr <| by linarith
  have hr : padded (rounded (t - 60 * ⌊t / 60⌋)) = padded (halfEven <| remainder t) := by
    rw [rounded_eq, remainder]
  have hd : ⌊t / 60⌋ - ⌊t / 3600⌋ * 60 = ⌊t / 60⌋ % 60 := by
    rw [floor_hours]
    omega
  have hn : 0 ≤ ⌊t / 60⌋ % 60 := Int.emod_nonneg _ <| by decide
  have hc : (toString ":").toList = [':'] := rfl
  rw [timeFormatFormSeconds, labelFields, hr, hd]
  split_ifs
  case pos h =>
    have hs : rounded t = halfEven (remainder t) := by rw [rounded_eq, remainder_eq_self h₀ h]
    have hz : (toString "00:").toList = (Digits.padded 2 0).chars ++ [':'] := by decide
    simp only [String.toList_append, hs, hz, toList_toString second_nonneg, Clock.text_cons_cons, Clock.text_singleton,
      List.append_assoc, List.singleton_append]
  case pos =>
    simp only [String.toList_append, hc, toList_toString hm, toList_padded second_nonneg, Clock.text_cons_cons,
      Clock.text_singleton, List.append_assoc, List.singleton_append]
  case neg =>
    simp only [String.toList_append, hc, toList_toString hh, toList_padded second_nonneg, toList_padded hn,
      Clock.text_cons_cons, Clock.text_singleton, List.append_assoc, List.cons_append, List.nil_append]

theorem minus_mem_toString {n : Int} (h : n < 0) : '-' ∈ (toString n).toList := by
  match n with
  | .negSucc m =>
    have hs : toString (Int.negSucc m) = "-" ++ (m + 1).repr := rfl
    rw [hs, String.toList_append]
    exact List.mem_append_left _ <| by decide

theorem parse_label_of_neg (ht : 3600 ≤ t) (hh : Format.int32 ⌊t / 3600⌋ < 0) :
    Clock.parse (timeFormatFormSeconds t).toList = none := by
  have h₁ : ¬t < 60 := by linarith
  have h₂ : ¬t < 3600 := by linarith
  refine Option.eq_none_iff_forall_ne_some.mpr fun fields h => Clock.minus_notMem h ?_
  rw [timeFormatFormSeconds, if_neg h₁, if_neg h₂]
  simp only [String.toList_append, List.mem_append, minus_mem_toString hh, true_or]

theorem int32_hours_iff (h₀ : 0 ≤ t) : Format.int32 ⌊t / 3600⌋ = ⌊t / 3600⌋ ↔ t < 3600 * 2 ^ 31 := by
  have hn : 0 ≤ ⌊t / 3600⌋ := Int.floor_nonneg.mpr <| by linarith
  have hl : ⌊t / 3600⌋ < 2 ^ 31 ↔ t < 3600 * 2 ^ 31 := by
    rw [Int.floor_lt, div_lt_iff₀ (by norm_num), mul_comm]
    norm_num
  rw [Format.int32_eq_self_iff, ← hl]
  exact and_iff_right <| by omega

theorem seconds_labelFields (h₀ : 0 ≤ t) (hh : 0 ≤ Format.int32 ⌊t / 3600⌋) :
    (Clock.seconds (labelFields t) : Int) = halfEven t + 3600 * (Format.int32 ⌊t / 3600⌋ - ⌊t / 3600⌋) := by
  have hs := @second_nonneg t
  have hm : 0 ≤ ⌊t / 60⌋ := Int.floor_nonneg.mpr <| by linarith
  have hr := @halfEven_remainder t
  have h32 (h : t < 3600) : Format.int32 ⌊t / 3600⌋ = ⌊t / 3600⌋ := int32_hours_iff h₀ |>.mpr <| by linarith
  rw [labelFields]
  split_ifs
  case pos h =>
    have hf : ⌊t / 60⌋ = 0 := Int.floor_eq_iff.mpr ⟨by push_cast; linarith, by push_cast; linarith⟩
    have h32 := h32 <| by linarith
    simp only [Clock.seconds_pair, Digits.natValue_padded]
    omega
  case pos h =>
    have h32 := h32 h
    simp only [Clock.seconds_pair, Digits.natValue_padded]
    omega
  case neg h =>
    simp only [Clock.seconds_triple, Digits.natValue_padded]
    have hd : ⌊t / 3600⌋ = ⌊t / 60⌋ / 60 := floor_hours
    omega

structure WellFormed (fields : List Digits) : Prop where
  length  : fields.length = 2 ∨ fields.length = 3
  padded  : ∀ field ∈ fields.tail, field.chars.length = 2
  seconds : ∀ field ∈ fields.getLast?, natValue field.chars < 60

theorem wellFormed_pair {d d' : Digits} : WellFormed [d, d'] ↔ d'.chars.length = 2 ∧ natValue d'.chars < 60 := by
  constructor
  case mp  => exact fun h => ⟨h.padded _ <| by simp, h.seconds _ rfl⟩
  case mpr => exact fun h => ⟨.inl rfl, by simpa using h.left, by simpa using h.right⟩

theorem wellFormed_triple {d d' d'' : Digits} : WellFormed [d, d', d''] ↔
    d'.chars.length = 2 ∧ d''.chars.length = 2 ∧ natValue d''.chars < 60 := by
  constructor
  case mp  => exact fun h => ⟨h.padded _ <| by simp, h.padded _ <| by simp, h.seconds _ rfl⟩
  case mpr => exact fun h => ⟨.inr rfl, by simpa using ⟨h.left, h.right.left⟩, by simpa using h.right.right⟩

theorem wellFormed_iff (h₀ : 0 ≤ t) : WellFormed (labelFields t) ↔ 19 / 2 ≤ t ∧ remainder t < 119 / 2 := by
  have h₁ := @second_nonneg t
  have h₂ := @second_le t
  have hl : halfEven (remainder t) < 60 ↔ remainder t < 119 / 2 := by
    rw [Rounding.halfEven_lt_iff (by decide)]
    norm_num
  have hp : (Digits.padded 2 (halfEven <| remainder t).toNat).chars.length = 2 :=
    Digits.length_padded (by decide) <| by omega
  rw [← hl, labelFields]
  split_ifs
  case pos h =>
    have hg : 10 ≤ halfEven (remainder t) ↔ 19 / 2 ≤ t := by
      rw [← not_lt, Rounding.halfEven_lt_iff (by decide), remainder_eq_self h₀ h, ← not_lt]
      norm_num
    rw [wellFormed_pair, Digits.length_padded_zero_eq_two, Digits.natValue_padded, ← hg]
    omega
  case pos h _ =>
    have h : 19 / 2 ≤ t := by linarith
    rw [wellFormed_pair, Digits.natValue_padded]
    exact and_congr (iff_of_true hp h) <| by omega
  case neg h _ =>
    have h : 19 / 2 ≤ t := by linarith
    have hm : (Digits.padded 2 (⌊t / 60⌋ % 60).toNat).chars.length = 2 :=
      Digits.length_padded (by decide) <| by omega
    rw [wellFormed_triple, Digits.natValue_padded, and_iff_right hm]
    exact and_congr (iff_of_true hp h) <| by omega

def Denotes (label : String) (n : Int) : Prop :=
  ∃ fields, Clock.parse label.toList = some fields ∧ Clock.seconds fields = n

-- A label tells a time to the second, and none that is earlier than what has been shown before.
structure Faithful (t : Rat) : Prop where
  wellFormed : ∃ fields, Clock.parse (timeFormatFormSeconds t).toList = some fields ∧ WellFormed fields
  denotes    : Denotes (timeFormatFormSeconds t) (halfEven t)
  earlier    : ∀ t', 0 ≤ t' → t' ≤ t → ∃ n ≤ halfEven t, Denotes (timeFormatFormSeconds t') n

theorem int32_hours_nonneg (h₀ : 0 ≤ t) (h : t < 3600 * 2 ^ 31) : 0 ≤ Format.int32 ⌊t / 3600⌋ := by
  rw [int32_hours_iff h₀ |>.mpr h]
  exact Int.floor_nonneg.mpr <| by linarith

theorem parse_label (h₀ : 0 ≤ t) (hh : 0 ≤ Format.int32 ⌊t / 3600⌋) :
    Clock.parse (timeFormatFormSeconds t).toList = some (labelFields t) := by
  rw [toList_label h₀ hh, Clock.parse_text labelFields_ne_nil]

theorem denotes_halfEven (h₀ : 0 ≤ t) (h : t < 3600 * 2 ^ 31) :
    Denotes (timeFormatFormSeconds t) (halfEven t) := by
  have hh := int32_hours_nonneg h₀ h
  refine ⟨_, parse_label h₀ hh, ?_⟩
  rw [seconds_labelFields h₀ hh, int32_hours_iff h₀ |>.mpr h, sub_self, mul_zero, add_zero]

theorem Faithful.hours_nonneg (h : Faithful t) (h₀ : 0 ≤ t) : 0 ≤ Format.int32 ⌊t / 3600⌋ := by
  have ⟨_, hf, _⟩ := h.wellFormed
  by_contra hh
  have ht : 3600 ≤ t := by
    by_contra ht
    exact hh <| int32_hours_nonneg h₀ <| by linarith
  rw [parse_label_of_neg ht <| not_le.mp hh] at hf
  contradiction

theorem Faithful.wellFormed_labelFields (h : Faithful t) (h₀ : 0 ≤ t) : WellFormed (labelFields t) := by
  have ⟨_, hf, hw⟩ := h.wellFormed
  cases hf.symm.trans <| parse_label h₀ <| h.hours_nonneg h₀
  exact hw

theorem Faithful.lt (h : Faithful t) (h₀ : 0 ≤ t) : t < 3600 * 2 ^ 31 := by
  have hh := h.hours_nonneg h₀
  have ⟨_, hf, hn⟩ := h.denotes
  cases hf.symm.trans <| parse_label h₀ hh
  rw [seconds_labelFields h₀ hh] at hn
  exact int32_hours_iff h₀ |>.mp <| by omega

theorem timeFormatFormSeconds_faithful_iff (h₀ : 0 ≤ t) :
    Faithful t ↔ 19 / 2 ≤ t ∧ remainder t < 119 / 2 ∧ t < 3600 * 2 ^ 31 := by
  rw [← and_assoc, ← wellFormed_iff h₀]
  constructor
  case mp  => exact fun h => ⟨h.wellFormed_labelFields h₀, h.lt h₀⟩
  case mpr =>
    intro ⟨hw, h⟩
    exact {
      wellFormed := ⟨_, parse_label h₀ <| int32_hours_nonneg h₀ h, hw⟩
      denotes    := denotes_halfEven h₀ h
      earlier    := fun t' h₀' ht' =>
        ⟨_, Rounding.halfEven_mono ht', denotes_halfEven h₀' <| ht'.trans_lt h⟩
    }

theorem timeFormatFormSeconds_sample : Faithful (3725 + 1 / 2) :=
  timeFormatFormSeconds_faithful_iff (by norm_num) |>.mpr <| by decide +kernel

-- Seconds have one digit in the first ten of a recording, and are rounded up to sixty just before each minute.
theorem timeFormatFormSeconds_not_faithful : timeFormatFormSeconds 5 = "00:5" ∧ ¬Faithful 5 ∧
    timeFormatFormSeconds (597 / 10) = "00:60" ∧ ¬Faithful (597 / 10) := by
  have h₀ : (0 : Rat) ≤ 597 / 10 := by norm_num
  refine ⟨by decide +kernel, fun h => ?_, by decide +kernel, fun h => ?_⟩
  case refine_1 =>
    have hw := wellFormed_iff (by norm_num) |>.mp <| h.wellFormed_labelFields <| by norm_num
    exact absurd hw <| by decide +kernel
  case refine_2 =>
    have hw := wellFormed_iff h₀ |>.mp <| h.wellFormed_labelFields h₀
    exact absurd hw <| by decide +kernel

namespace WMCameraControl

variable {s : WMCameraControl} {m n : Nat}

theorem timeRecord_recordTime : s.timeRecord.recordTime = s.recordTime + 1 / 100 := by
  rw [timeRecord, setProgress]
  split
  case isTrue =>
    rw [longPressEnd]
    split <;> rfl
  case isFalse => rfl

theorem iterate_recordTime : (timeRecord^[n] s).recordTime = s.recordTime + n / 100 := by
  induction n
  case zero => simp
  case succ n hi =>
    rw [Function.iterate_succ_apply', timeRecord_recordTime, hi]
    push_cast
    ring

theorem iterate_timeLabel :
    (timeRecord^[n + 1] s).timeLabel = timeFormatFormSeconds (s.recordTime + (n + 1) / 100) := by
  have h := @iterate_recordTime s (n + 1)
  rw [Function.iterate_succ_apply'] at h ⊢
  rw [timeRecord_recordTime] at h
  push_cast at h
  rw [timeRecord, h]

theorem timeLabel_mono (h₀ : 0 ≤ s.recordTime) (h : m ≤ n) (hn : s.recordTime + (n + 1) / 100 < 3600 * 2 ^ 31) :
    ∃ i j, i ≤ j ∧ Denotes (timeRecord^[m + 1] s).timeLabel i ∧ Denotes (timeRecord^[n + 1] s).timeLabel j := by
  have hm : (m : Rat) ≤ n := Nat.cast_le.mpr h
  have hm₀ : (0 : Rat) ≤ m := Nat.cast_nonneg m
  rw [iterate_timeLabel, iterate_timeLabel]
  refine ⟨_, _, Rounding.halfEven_mono ?_, denotes_halfEven ?_ ?_, denotes_halfEven ?_ hn⟩ <;> linarith

end WMCameraControl
end Camera
