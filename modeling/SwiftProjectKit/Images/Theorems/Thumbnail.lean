import Mathlib.Algebra.Order.Field.Basic
import Mathlib.Tactic.FieldSimp
import Mathlib.Tactic.Linarith
import SwiftProjectKit.Images.Model

namespace Images

variable {w h a b : Rat}

-- The shorter and the longer side that belong to a shorter side and one that is not shorter. The size is scaled
-- so that one of them is at its bound, and both are if the ratio is too large.
def sides (a b : Rat) : Rat × Rat :=
  if 12 / 5 * a < b then
    (50, 120)
  else if a < 50 then
    (50, 50 * b / a)
  else
    (120 * a / b, 120)

theorem scaled_eq (ha : 0 < a) :
    (if 50 * b / a > 120 then 120 else 50 * b / a) = if 12 / 5 * a < b then 120 else 50 * b / a := by
  have h : 50 * b / a > 120 ↔ 12 / 5 * a < b := by
    rw [gt_iff_lt, lt_div_iff₀ ha]
    constructor <;> intro <;> linarith
  simp only [h]

theorem ratio_lt_iff (ha : 0 < a) : b / a < 120 / 50 ↔ b < 12 / 5 * a := by
  rw [div_lt_iff₀ ha]
  constructor <;> intro <;> linarith

theorem scaled_limit (ha : 0 < a) (hb : b = 12 / 5 * a) : 50 * b / a = 120 ∧ 120 * a / b = 50 := by
  subst hb
  constructor <;> field_simp <;> norm_num

theorem caculateThumbnailImageSize_of_lt (hw : 0 < w) (hl : w < h) :
    caculateThumbnailImageSize ⟨w, h⟩ = ⟨(sides w h).1, (sides w h).2⟩ := by
  rw [caculateThumbnailImageSize, if_neg <| not_or.mpr ⟨hw.ne', (hw.trans hl).ne'⟩]
  simp only [if_pos hl, if_neg hl.not_gt, scaled_eq hw, ratio_lt_iff hw, sides]
  by_cases h₅₀ : w < 50
  case pos =>
    rw [if_pos <| .inl h₅₀]
    split_ifs <;> rfl
  case neg =>
    rw [if_neg <| not_or.mpr ⟨h₅₀, by linarith⟩, if_neg h₅₀]
    by_cases h₁₂₀ : h < 120
    case pos =>
      rw [if_pos ⟨by linarith, h₁₂₀, by linarith, by linarith⟩, if_neg <| by linarith]
    case neg =>
      rw [if_neg fun h => h₁₂₀ h.right.left, if_pos <| .inr <| not_lt.mp h₁₂₀]
      rcases lt_trichotomy h (12 / 5 * w) with hr | hr | hr
      case inl     => simp [hr, hr.not_gt]
      case inr.inl => simp [hr.not_lt, hr.not_gt, scaled_limit hw hr]
      case inr.inr => simp [hr, hr.not_gt]

theorem caculateThumbnailImageSize_swap (hw : 0 < w) (hl : w < h) :
    caculateThumbnailImageSize ⟨h, w⟩ =
      ⟨(caculateThumbnailImageSize ⟨w, h⟩).height, (caculateThumbnailImageSize ⟨w, h⟩).width⟩ := by
  have h₀ : ¬(h = 0 ∨ w = 0) := not_or.mpr ⟨(hw.trans hl).ne', hw.ne'⟩
  have h₅₀ : (w < 50 ∨ h < 50) ↔ (h < 50 ∨ w < 50) := or_comm
  have h₁₂₀ : (w < 120 ∧ h < 120 ∧ w ≥ 50 ∧ h ≥ 50) ↔ (h < 120 ∧ w < 120 ∧ h ≥ 50 ∧ w ≥ 50) := by tauto
  have hs : (w ≥ 120 ∨ h ≥ 120) ↔ (h ≥ 120 ∨ w ≥ 120) := or_comm
  simp only [caculateThumbnailImageSize, if_pos hl, if_neg hl.not_gt, gt_iff_lt, if_neg h₀, if_neg <| mt Or.symm h₀,
    h₅₀, h₁₂₀, hs]
  split_ifs <;> rfl

theorem caculateThumbnailImageSize_self (ha : 0 < a) :
    caculateThumbnailImageSize ⟨a, a⟩ = ⟨(sides a a).2, (sides a a).1⟩ := by
  have hr : a < 12 / 5 * a := by linarith
  rw [caculateThumbnailImageSize, if_neg <| not_or.mpr ⟨ha.ne', ha.ne'⟩]
  simp only [if_neg (lt_irrefl a), gt_iff_lt, ratio_lt_iff ha, sides, hr.not_gt, hr, mul_div_cancel_right₀ _ ha.ne']
  by_cases h₅₀ : a < 50
  case pos => norm_num [h₅₀]
  case neg =>
    by_cases h₁₂₀ : a < 120
    case pos => simp [h₅₀, h₁₂₀, not_lt.mp h₅₀]
    case neg => simp [h₅₀, h₁₂₀, not_lt.mp h₁₂₀]

theorem sides_bounds (ha : 0 < a) (hb : a ≤ b) : 50 ≤ (sides a b).1 ∧ (sides a b).1 ≤ (sides a b).2 ∧
    (sides a b).2 ≤ 120 := by
  have hb₀ : 0 < b := ha.trans_le hb
  rw [sides]
  split_ifs
  case pos => norm_num
  case pos hr h₅₀ =>
    have hl : 50 ≤ 50 * b / a := (le_div_iff₀ ha).mpr <| by linarith
    have hu : 50 * b / a ≤ 120 := (div_le_iff₀ ha).mpr <| by linarith
    exact ⟨le_rfl, hl, hu⟩
  case neg hr h₅₀ =>
    have hl : 50 ≤ 120 * a / b := (le_div_iff₀ hb₀).mpr <| by linarith
    have hu : 120 * a / b ≤ 120 := (div_le_iff₀ hb₀).mpr <| by linarith
    exact ⟨hl, hu, le_rfl⟩

theorem sides_ratio (ha : 0 < a) (hb : a ≤ b) : (sides a b).2 / (sides a b).1 = min (b / a) (12 / 5) := by
  have hb₀ : 0 < b := ha.trans_le hb
  have hr : 12 / 5 < b / a ↔ 12 / 5 * a < b := lt_div_iff₀ ha
  rw [sides]
  split_ifs
  case pos h =>
    rw [min_eq_right (hr.mpr h).le]
    norm_num
  case pos h _ =>
    rw [min_eq_left <| not_lt.mp <| hr.not.mpr h]
    field_simp
  case neg h _ =>
    rw [min_eq_left <| not_lt.mp <| hr.not.mpr h]
    field_simp

theorem sides_lt (ha : 0 < a) (hb : a < b) : (sides a b).1 < (sides a b).2 := by
  have hs : 0 < (sides a b).1 := lt_of_lt_of_le (by norm_num) (sides_bounds ha hb.le).left
  rw [← one_lt_div hs, sides_ratio ha hb.le, lt_min_iff]
  exact ⟨(one_lt_div ha).mpr hb, by norm_num⟩

theorem sides_self (ha : 0 < a) : (sides a a).1 = (sides a a).2 := by
  have hr : a < 12 / 5 * a := by linarith
  simp only [sides, hr.not_gt, mul_div_cancel_right₀ _ ha.ne', if_false]
  split <;> rfl

structure Fits (image thumbnail : CGSize) : Prop where
  width  : 50 ≤ thumbnail.width ∧ thumbnail.width ≤ 120
  height : 50 ≤ thumbnail.height ∧ thumbnail.height ≤ 120
  tall   : image.width < image.height → thumbnail.width < thumbnail.height
  wide   : image.height < image.width → thumbnail.height < thumbnail.width
  ratio  : max thumbnail.width thumbnail.height / min thumbnail.width thumbnail.height =
    min (max image.width image.height / min image.width image.height) (12 / 5)

theorem fits_of_le (hw : 0 < w) (hl : w ≤ h) : Fits ⟨w, h⟩ ⟨(sides w h).1, (sides w h).2⟩ := by
  have ⟨h₁, h₂, h₃⟩ := sides_bounds hw hl
  exact {
    width  := ⟨h₁, h₂.trans h₃⟩
    height := ⟨h₁.trans h₂, h₃⟩
    tall   := sides_lt hw
    wide   := fun h => absurd hl h.not_ge
    ratio  := by rw [max_eq_right h₂, min_eq_left h₂, sides_ratio hw hl, max_eq_right hl, min_eq_left hl]
  }

theorem Fits.swap {image thumbnail : CGSize} (f : Fits image thumbnail) :
    Fits ⟨image.height, image.width⟩ ⟨thumbnail.height, thumbnail.width⟩ where
  width  := f.height
  height := f.width
  tall   := f.wide
  wide   := f.tall
  ratio  := by rw [max_comm, min_comm, f.ratio, max_comm, min_comm image.height]

theorem caculateThumbnailImageSize_fits (hw : 0 < w) (hh : 0 < h) :
    Fits ⟨w, h⟩ (caculateThumbnailImageSize ⟨w, h⟩) ∧
    caculateThumbnailImageSize ⟨h, w⟩ =
      ⟨(caculateThumbnailImageSize ⟨w, h⟩).height, (caculateThumbnailImageSize ⟨w, h⟩).width⟩ := by
  rcases lt_trichotomy w h with hl | hl | hl
  case inl =>
    rw [caculateThumbnailImageSize_swap hw hl, caculateThumbnailImageSize_of_lt hw hl]
    exact ⟨fits_of_le hw hl.le, rfl⟩
  case inr.inl =>
    subst hl
    rw [caculateThumbnailImageSize_self hw]
    exact ⟨(fits_of_le hw le_rfl).swap, by rw [sides_self hw]⟩
  case inr.inr =>
    rw [caculateThumbnailImageSize_swap hh hl, caculateThumbnailImageSize_of_lt hh hl]
    exact ⟨(fits_of_le hh hl.le).swap, rfl⟩

example : caculateThumbnailImageSize ⟨20, 40⟩ = ⟨50, 100⟩ := by decide +kernel

theorem sample_fits :
    Fits ⟨300, 100⟩ (caculateThumbnailImageSize ⟨300, 100⟩) ∧
    caculateThumbnailImageSize ⟨100, 300⟩ =
      ⟨(caculateThumbnailImageSize ⟨300, 100⟩).height, (caculateThumbnailImageSize ⟨300, 100⟩).width⟩ :=
  caculateThumbnailImageSize_fits (by norm_num) (by norm_num)

end Images
