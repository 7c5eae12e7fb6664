import Mathlib.Data.Nat.Find
import SwiftProjectKit.Images.Model

namespace Images

variable {jpegData : CGFloat → Option Data} {max maxLength : Int} {fuel k : Nat} {data : Data}

def quality : Nat → CGFloat
  | 0     => 1
  | k + 1 => quality k - 0.2

def qualities (k : Nat) : List CGFloat :=
  (List.range k).map quality

structure Sound (jpegData : CGFloat → Option Data) (max : Int) (tried : List CGFloat) (result : Option Data) :
    Prop where
  length_le : tried.length ≤ 6
  inRange   : ∀ q ∈ tried, 0 < q ∧ q ≤ 1
  small     : ∀ data, result = some data → (data.length / 1024 : Nat) ≤ max * 1024 ∨
    ∃ q ∈ tried, (∀ q' ∈ tried, q ≤ q') ∧ jpegData q = some data

def Compresses (jpegData : CGFloat → Option Data) (max : Int) : Prop :=
  ∃ fuel tried result, compress jpegData max fuel = ⟨tried, .returned result⟩ ∧ Sound jpegData max tried result

-- The loop does not go on with a quality that the encoder fails for or yields little data for.
def Ends (maxLength : Int) (result : Option Data) : Prop :=
  ∀ data, result = some data → (data.length / 1024 : Nat) ≤ maxLength

theorem quality_inRange : ∀ k < 6, 0 < quality k ∧ quality k ≤ 1 := by
  decide +kernel

theorem quality_ne_zero : ∀ k < 7, (quality k == 0) = false := by
  decide +kernel

-- The rounding errors add up, so that the sixth quality is not zero, and the next one is negative.
theorem quality_six_not_pos : ¬0 < quality 6 := by
  decide +kernel

def compressAt (jpegData : CGFloat → Option Data) (maxLength : Int) (fuel k : Nat) : Compression :=
  match jpegData (quality k) with
  | none      => ⟨qualities (k + 1), .returned none⟩
  | some data => compressFrom jpegData maxLength fuel (quality k) data <| qualities (k + 1)

theorem compress_eq (h₁ : -2 ^ 63 ≤ max * 1024) (h₂ : max * 1024 < 2 ^ 63) :
    compress jpegData max fuel = compressAt jpegData (max * 1024) fuel 0 :=
  if_pos ⟨h₁, h₂⟩

theorem qualities_succ : qualities (k + 1) = qualities k ++ [quality k] := by
  rw [qualities, List.range_succ, List.map_append]
  rfl

theorem compressAt_of_ends (h : Ends maxLength (jpegData <| quality k)) :
    compressAt jpegData maxLength (fuel + 1) k = ⟨qualities (k + 1), .returned <| jpegData <| quality k⟩ := by
  rw [compressAt]
  cases hd : jpegData (quality k)
  case none      => rfl
  case some data => exact if_neg <| Int.not_lt.mpr <| h data hd

theorem exists_of_not_ends {result : Option Data} (h : ¬Ends maxLength result) :
    ∃ data, result = some data ∧ maxLength < (data.length / 1024 : Nat) := by
  simp only [Ends, not_forall, Int.not_le] at h
  have ⟨data, hd, hl⟩ := h
  exact ⟨data, hd, hl⟩

theorem compressAt_succ (hk : k < 6) (h : ¬Ends maxLength (jpegData <| quality k)) :
    compressAt jpegData maxLength (fuel + 1) k = compressAt jpegData maxLength fuel (k + 1) := by
  have ⟨data, hd, hl⟩ := exists_of_not_ends h
  have hq : quality k - 0.2 = quality (k + 1) := rfl
  have hz := quality_ne_zero (k + 1) <| Nat.succ_lt_succ hk
  rw [compressAt, compressAt, hd, qualities_succ (k := k + 1)]
  cases hc : jpegData (quality (k + 1)) <;>
    simp only [compressFrom, if_pos hl, hq, hz, hc, Bool.false_eq_true, if_false]

theorem compressAt_of_forall (hk : k ≤ 6) (h : ∀ j < k, ¬Ends maxLength (jpegData <| quality j)) :
    compressAt jpegData maxLength (fuel + k) 0 = compressAt jpegData maxLength fuel k := by
  induction k generalizing fuel
  case zero => rfl
  case succ k hi =>
    have hi := @hi (fuel + 1) (Nat.le_of_succ_le hk) fun j hj => h j <| Nat.lt_succ_of_lt hj
    rw [← compressAt_succ hk <| h k k.lt_succ_self, ← hi, Nat.add_right_comm, Nat.add_assoc]

theorem compressFrom_tried {compression : CGFloat} {tried : List CGFloat} :
    tried <+: (compressFrom jpegData maxLength fuel compression data tried).tried := by
  induction fuel generalizing compression data tried
  case zero => exact List.prefix_rfl
  case succ fuel hi =>
    rw [compressFrom]
    dsimp only
    split
    case isTrue =>
      split
      case isTrue  => exact List.prefix_rfl
      case isFalse =>
        split
        case h_1 => exact List.prefix_append ..
        case h_2 => exact List.prefix_append .. |>.trans hi
    case isFalse => exact List.prefix_rfl

theorem mem_qualities : quality k ∈ qualities (k + 1) :=
  List.mem_map_of_mem <| List.mem_range.mpr k.lt_succ_self

theorem quality_mem_tried (h : ∀ k < 6, ¬Ends maxLength (jpegData <| quality k)) {tried : List CGFloat}
    {result : Option Data} (hc : compressAt jpegData maxLength fuel 0 = ⟨tried, .returned result⟩) :
    quality 6 ∈ tried := by
  cases Nat.lt_or_ge fuel 6
  case inl hf =>
    have ⟨data, hd, _⟩ := exists_of_not_ends <| h fuel hf
    rw [← Nat.zero_add fuel, compressAt_of_forall hf.le fun j hj => h j <| hj.trans hf, compressAt, hd] at hc
    cases hc
  case inr hf =>
    have ⟨n, hn⟩ := Nat.exists_eq_add_of_le' hf
    rw [hn, compressAt_of_forall le_rfl h, compressAt] at hc
    cases hd : jpegData (quality 6) <;> rw [hd] at hc
    case none      => cases hc; exact mem_qualities
    case some data =>
      have ht : tried = (compressFrom jpegData maxLength n (quality 6) data <| qualities 7).tried :=
        congrArg Compression.tried hc.symm
      exact ht ▸ compressFrom_tried.mem mem_qualities

theorem not_compresses_of_forall (h : ∀ k < 6, ¬Ends (max * 1024) (jpegData <| quality k)) :
    ¬Compresses jpegData max := by
  intro ⟨fuel, tried, result, hc, hs⟩
  by_cases hb : -2 ^ 63 ≤ max * 1024 ∧ max * 1024 < 2 ^ 63
  case pos =>
    rw [compress_eq hb.left hb.right] at hc
    exact quality_six_not_pos <| hs.inRange _ (quality_mem_tried h hc) |>.left
  case neg =>
    rw [compress, if_neg hb] at hc
    cases hc

theorem compresses_of_ends (h₁ : -2 ^ 63 ≤ max * 1024) (h₂ : max * 1024 < 2 ^ 63)
    (hk : k < 6) (h : Ends (max * 1024) (jpegData <| quality k))
    (hn : ∀ j < k, ¬Ends (max * 1024) (jpegData <| quality j)) : Compresses jpegData max := by
  refine ⟨1 + k, qualities (k + 1), jpegData (quality k), ?_, ?_, ?_, ?_⟩
  case refine_1 =>
    rw [compress_eq h₁ h₂, compressAt_of_forall hk.le hn]
    exact compressAt_of_ends h
  case refine_2 =>
    rw [qualities, List.length_map, List.length_range]
    exact hk
  case refine_3 =>
    intro q hq
    have ⟨j, hj, hq⟩ := List.mem_map.mp hq
    exact hq ▸ quality_inRange j <| (List.mem_range.mp hj).trans_le hk
  case refine_4 => exact fun data hd => .inl <| h data hd

theorem compresses_iff (hm : 0 ≤ max) : Compresses jpegData max ↔
    max * 1024 < 2 ^ 63 ∧ ∃ k < 6, Ends (max * 1024) (jpegData <| quality k) := by
  classical
  constructor
  case mp =>
    intro hc
    constructor
    case left =>
      have ⟨fuel, tried, result, hc, _⟩ := hc
      refine Int.not_le.mp fun hb => ?_
      rw [compress, if_neg <| by omega] at hc
      cases hc
    case right => exact of_not_not fun h => not_compresses_of_forall (fun k hk he => h ⟨k, hk, he⟩) hc
  case mpr =>
    intro ⟨hu, h⟩
    have ⟨hk, he⟩ := Nat.find_spec h
    exact compresses_of_ends (by omega) hu hk he fun j hj hn => Nat.find_min h hj ⟨hj.trans hk, hn⟩

theorem sample_compresses : Compresses (fun q => some <| .replicate (if q < 0.7 then 100 else 2048) 0) 0 := by
  have hq : quality 2 < 0.7 := by decide +kernel
  refine compresses_iff (by decide) |>.mpr ⟨by decide, 2, by decide, fun data hd => ?_⟩
  rw [← Option.some.inj hd, List.length_replicate, if_pos hq]
  decide

-- An image that cannot be made smaller is encoded with a negative quality.
theorem not_compresses : ¬Compresses (fun _ => some <| .replicate 1024 0) 0 :=
  not_compresses_of_forall fun _ _ h => absurd (h _ rfl) <| by rw [List.length_replicate]; decide

end Images
