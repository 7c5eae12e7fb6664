import Mathlib.Algebra.Order.Floor.Ring
import Mathlib.Algebra.Order.Round
import Mathlib.Tactic.Linarith
import Mathlib.Tactic.FieldSimp

-- Rounding to integers, and to multiples of a power of a tenth.
namespace Rounding

variable {K : Type*} [Field K] [LinearOrder K] [IsStrictOrderedRing K] [FloorRing K]

-- To the nearest integer. Of two that are equally near, the even one is taken.
def halfEven (x : K) : Int :=
  if Int.fract x < 1 / 2 then
    ⌊x⌋
  else if 1 / 2 < Int.fract x then
    ⌊x⌋ + 1
  else if ⌊x⌋ % 2 = 0 then
    ⌊x⌋
  else
    ⌊x⌋ + 1

-- To the nearest integer. Of two that are equally near, the one further from zero is taken.
def halfAway (x : K) : Int :=
  if 0 ≤ x then ⌊x + 1 / 2⌋ else ⌈x - 1 / 2⌉

variable {x : K} {n : Int}

theorem abs_sub_halfEven_le : |x - halfEven x| ≤ 1 / 2 := by
  have h := Int.floor_add_fract x
  have h₀ := Int.fract_nonneg x
  have h₁ := Int.fract_lt_one x
  rw [halfEven, abs_le]
  split_ifs <;> push_cast <;> constructor <;> linarith

theorem abs_sub_halfAway_le : |x - halfAway x| ≤ 1 / 2 := by
  have h₁ := Int.floor_le (x + 1 / 2)
  have h₂ := Int.lt_floor_add_one (x + 1 / 2)
  have h₃ := Int.le_ceil (x - 1 / 2)
  have h₄ := Int.ceil_lt_add_one (x - 1 / 2)
  rw [halfAway, abs_le]
  split_ifs <;> constructor <;> linarith

omit [IsStrictOrderedRing K] in
theorem halfEven_nonneg (h : 0 ≤ x) : 0 ≤ halfEven x := by
  have h := Int.floor_nonneg.mpr h
  rw [halfEven]
  split_ifs <;> omega

theorem halfEven_intCast (n : Int) : halfEven (n : K) = n := by
  rw [halfEven, Int.fract_intCast, if_pos (by norm_num), Int.floor_intCast]

theorem halfAway_eq_zero_iff : halfAway x = 0 ↔ |x| < 1 / 2 := by
  rw [halfAway, abs_lt]
  split
  case isTrue hx =>
    rw [Int.floor_eq_zero_iff, Set.mem_Ico]
    constructor
    case mp  => exact fun ⟨_, h⟩ => ⟨by linarith, by linarith⟩
    case mpr => exact fun ⟨_, h⟩ => ⟨by linarith, by linarith⟩
  case isFalse hx =>
    rw [Int.ceil_eq_zero_iff, Set.mem_Ioc]
    constructor
    case mp  => exact fun ⟨h, _⟩ => ⟨by linarith, by linarith⟩
    case mpr => exact fun ⟨h, _⟩ => ⟨by linarith, by linarith⟩

theorem near_or_half (x : K) : (∃ n : Int, |x - n| < 1 / 2) ∨ (∃ n : Int, x = n + 1 / 2) := by
  have h  := Int.floor_add_fract x
  have h₀ := Int.fract_nonneg x
  have h₁ := Int.fract_lt_one x
  cases lt_trichotomy (Int.fract x) (1 / 2)
  case inl hf => exact .inl ⟨⌊x⌋, abs_lt.mpr ⟨by linarith, by linarith⟩⟩
  case inr hf =>
    cases hf
    case inl hf => exact .inr ⟨⌊x⌋, by linarith⟩
    case inr hf => exact .inl ⟨⌊x⌋ + 1, abs_lt.mpr <| by push_cast; constructor <;> linarith⟩

theorem eq_of_near {m : Int} (hn : |x - n| < 1 / 2) (hm : |x - m| ≤ 1 / 2) : m = n := by
  have ⟨hn, hn'⟩ := abs_lt.mp hn
  have ⟨hm, hm'⟩ := abs_le.mp hm
  have h₁ : (m : K) < (n + 1 : Int) := by push_cast; linarith
  have h₂ : (n : K) < (m + 1 : Int) := by push_cast; linarith
  have h₁ := Int.cast_lt.mp h₁
  have h₂ := Int.cast_lt.mp h₂
  omega

theorem halfEven_half : halfEven (n + 1 / 2 : K) = if n % 2 = 0 then n else n + 1 := by
  have hn : ⌊(n + 1 / 2 : K)⌋ = n := Int.floor_eq_iff.mpr ⟨by linarith, by linarith⟩
  have hf : Int.fract (n + 1 / 2 : K) = 1 / 2 := by rw [Int.fract, hn, add_sub_cancel_left]
  rw [halfEven, hn, hf, if_neg (lt_irrefl _), if_neg (lt_irrefl _)]

omit [IsStrictOrderedRing K] in
theorem floor_le_halfEven : ⌊x⌋ ≤ halfEven x := by
  rw [halfEven]
  split_ifs <;> omega

omit [IsStrictOrderedRing K] in
theorem halfEven_le_floor_add_one : halfEven x ≤ ⌊x⌋ + 1 := by
  rw [halfEven]
  split_ifs <;> omega

theorem halfEven_mono {y : K} (h : x ≤ y) : halfEven x ≤ halfEven y := by
  cases (Int.floor_le_floor h).lt_or_eq
  case inl hf =>
    have h₁ : halfEven x ≤ ⌊x⌋ + 1 := halfEven_le_floor_add_one
    have h₂ : ⌊y⌋ ≤ halfEven y := floor_le_halfEven
    omega
  case inr hf =>
    have hr : Int.fract x ≤ Int.fract y := by
      rw [Int.fract, Int.fract, hf]
      linarith
    rw [halfEven, halfEven, hf]
    split_ifs <;> first | omega | linarith

theorem halfEven_add_two_mul (x : K) (n : Int) : halfEven (x + 2 * n) = halfEven x + 2 * n := by
  have hc : x + 2 * n = x + (2 * n : Int) := by push_cast; rfl
  have hm : (⌊x⌋ + 2 * n) % 2 = ⌊x⌋ % 2 := Int.add_mul_emod_self_left ..
  rw [halfEven, hc, Int.fract_add_intCast, Int.floor_add_intCast, hm, halfEven]
  split_ifs <;> omega

theorem halfEven_lt_iff (hn : n % 2 = 0) : halfEven x < n ↔ x < n - 1 / 2 := by
  constructor
  case mp =>
    intro h
    by_contra hx
    have hh := @halfEven_half K _ _ _ _ (n - 1)
    rw [if_neg (by omega), Int.sub_add_cancel] at hh
    have hm := halfEven_mono <| not_lt.mp hx
    have hc : (n - 1 / 2 : K) = (n - 1 : Int) + 1 / 2 := by push_cast; linarith
    rw [hc, hh] at hm
    omega
  case mpr =>
    intro h
    by_contra hx
    have hx : (n : K) ≤ halfEven x := Int.cast_le.mpr <| Int.not_lt.mp hx
    have ⟨_, _⟩ := abs_le.mp <| abs_sub_halfEven_le (K := K) (x := x)
    linarith

theorem halfAway_half : halfAway (n + 1 / 2 : K) = if 0 ≤ n then n + 1 else n := by
  have hn : (0 : K) ≤ n + 1 / 2 ↔ 0 ≤ n := by
    constructor
    case mp =>
      intro h
      have h : ((-1 : Int) : K) < n := by push_cast; linarith
      have h := Int.cast_lt.mp h
      omega
    case mpr =>
      intro h
      have h : (0 : K) ≤ n := Int.cast_nonneg_iff.mpr h
      linarith
  have h₁ : (n + 1 / 2 + 1 / 2 : K) = (n + 1 : Int) := by push_cast; linarith
  have h₂ : (n + 1 / 2 - 1 / 2 : K) = n := by linarith
  simp only [halfAway, hn, h₁, h₂, Int.floor_intCast, Int.ceil_intCast]

theorem abs_half : |(n + 1 / 2 : K)| = (if 0 ≤ n then n else -n - 1 : Int) + 1 / 2 := by
  split
  case isTrue hn =>
    have hn : (0 : K) ≤ n := Int.cast_nonneg_iff.mpr hn
    rw [abs_of_nonneg <| by linarith]
  case isFalse hn =>
    have hn : (n : K) ≤ (-1 : Int) := Int.cast_le.mpr <| by omega
    push_cast at *
    rw [abs_of_neg <| by linarith]
    linarith

theorem halfAway_intCast (n : Int) : halfAway (n : K) = n :=
  eq_of_near (by simp) abs_sub_halfAway_le

theorem halfEven_eq_halfAway_iff : halfEven x = halfAway x ↔ ¬∃ k : Int, |x| = 2 * k + 1 / 2 := by
  cases near_or_half x
  case inl h =>
    have ⟨n, hn⟩ := h
    have h₁ := eq_of_near hn abs_sub_halfEven_le
    have h₂ := eq_of_near hn abs_sub_halfAway_le
    refine iff_of_true (h₁.trans h₂.symm) fun ⟨k, hk⟩ => ?_
    -- An integer and a half is too far away from every integer.
    have ⟨m, hm⟩ : ∃ m : Int, x = m + 1 / 2 := by
      cases abs_choice x
      case inl hx => exact ⟨2 * k, by push_cast; linarith⟩
      case inr hx => exact ⟨-2 * k - 1, by push_cast; linarith⟩
    have h : m = n := eq_of_near hn <| by rw [hm, add_sub_cancel_left, abs_of_pos (by norm_num)]
    rw [hm, h, add_sub_cancel_left, abs_of_pos (by norm_num)] at hn
    exact absurd hn <| lt_irrefl _
  case inr h =>
    have ⟨n, hn⟩ := h
    have hk : ∀ k : Int, |x| = 2 * k + 1 / 2 ↔ (if 0 ≤ n then n else -n - 1) = 2 * k := by
      intro k
      rw [hn, abs_half, add_left_inj, ← Int.cast_two, ← Int.cast_mul, Int.cast_inj]
    have hp : (∃ k : Int, (if 0 ≤ n then n else -n - 1) = 2 * k) ↔ (if 0 ≤ n then n else -n - 1) % 2 = 0 :=
      ⟨fun ⟨k, hk⟩ => by omega, fun h => ⟨(if 0 ≤ n then n else -n - 1) / 2, by omega⟩⟩
    simp only [hk, hp]
    rw [hn, halfEven_half, halfAway_half]
    split_ifs <;> omega

theorem abs_sub_tdiv_lt {k n : Int} (hk : 0 < k) (h : |x * k - n| < 1) : |x - n.tdiv k| < 1 := by
  have hd : k * n.tdiv k + n.tmod k = n := Int.mul_tdiv_add_tmod n k
  have hd : (k * n.tdiv k + n.tmod k : K) = n := by exact_mod_cast hd
  have h₁ : (n.tmod k + 1 : K) ≤ k := by exact_mod_cast Int.tmod_lt_of_pos n hk
  have h₂ : (-k + 1 : K) ≤ n.tmod k := by exact_mod_cast Int.lt_tmod_of_pos n hk
  have hk : (0 : K) < k := Int.cast_pos.mpr hk
  have ⟨h₃, h₄⟩ := abs_lt.mp h
  rw [abs_lt]
  constructor
  case left  => exact lt_of_mul_lt_mul_right (by linarith) hk.le
  case right => exact lt_of_mul_lt_mul_right (by linarith) hk.le

def toScale (r : K → Int) (scale : Nat) (x : K) : K :=
  r (x * 10 ^ scale) / 10 ^ scale

variable {scale : Nat}

theorem scale_pos : (0 : K) < 10 ^ scale :=
  pow_pos (by norm_num) _

theorem toScale_eq_iff {r : K → Int} {m : Int} : toScale r scale x = m / 10 ^ scale ↔ r (x * 10 ^ scale) = m := by
  rw [toScale, div_left_inj' scale_pos.ne', Int.cast_inj]

theorem toScale_nonneg {r : K → Int} (hr : ∀ {x}, 0 ≤ x → 0 ≤ r x) (h : 0 ≤ x) : 0 ≤ toScale r scale x :=
  div_nonneg (Int.cast_nonneg_iff.mpr <| hr <| mul_nonneg h scale_pos.le) scale_pos.le

theorem abs_sub_toScale_le {r : K → Int} {ε : K} (hr : ∀ {x}, |x - r x| ≤ ε) :
    |x - toScale r scale x| ≤ ε / 10 ^ scale := by
  have h : x - toScale r scale x = (x * 10 ^ scale - r (x * 10 ^ scale)) / 10 ^ scale := by
    rw [sub_div, mul_div_cancel_right₀ x scale_pos.ne', toScale]
  rw [h, abs_div, abs_of_pos (scale_pos (K := K))]
  exact div_le_div_of_nonneg_right hr scale_pos.le

theorem abs_mul_scale_lt_iff {a : K} : |x * 10 ^ scale| < a ↔ |x| < a / 10 ^ scale := by
  rw [abs_mul, abs_of_pos (scale_pos (K := K)), lt_div_iff₀ scale_pos]

theorem toScale_halfAway_eq_zero_iff : toScale halfAway scale x = 0 ↔ |x| < 1 / 2 / 10 ^ scale := by
  rw [toScale, div_eq_zero_iff, Int.cast_eq_zero, halfAway_eq_zero_iff, abs_mul_scale_lt_iff]
  exact or_iff_left scale_pos.ne'

theorem toScale_halfEven_eq_zero (h : |x| < 1 / 2 / 10 ^ scale) : toScale halfEven scale x = 0 := by
  have h := abs_mul_scale_lt_iff.mpr h
  have h : halfEven (x * 10 ^ scale) = 0 := eq_of_near (by simpa using h) abs_sub_halfEven_le
  rw [toScale, h, Int.cast_zero, zero_div]

theorem toScale_floor_le : toScale Int.floor scale x ≤ x :=
  div_le_iff₀ scale_pos |>.mpr <| Int.floor_le _

theorem le_toScale_ceil : x ≤ toScale Int.ceil scale x :=
  le_div_iff₀ scale_pos |>.mpr <| Int.le_ceil _

theorem toScale_ceil_sub_floor_le : toScale Int.ceil scale x - toScale Int.floor scale x ≤ 1 / 10 ^ scale := by
  have h : (⌈x * 10 ^ scale⌉ : K) ≤ (⌊x * 10 ^ scale⌋ + 1 : Int) := Int.cast_le.mpr <| Int.ceil_le_floor_add_one _
  push_cast at h
  rw [toScale, toScale, ← sub_div]
  exact div_le_div_of_nonneg_right (by linarith) scale_pos.le

theorem toScale_of_multiple {r : K → Int} (hr : ∀ m : Int, r m = m) {m : Int} :
    toScale r scale (m / 10 ^ scale) = m / 10 ^ scale := by
  rw [toScale_eq_iff, div_mul_cancel₀ _ scale_pos.ne', hr]

theorem toScale_ceil_eq_floor_iff :
    toScale Int.ceil scale x = toScale Int.floor scale x ↔ ∃ m : Int, x = m / 10 ^ scale := by
  constructor
  case mp =>
    intro h
    exact ⟨_, le_antisymm (le_toScale_ceil.trans_eq h) toScale_floor_le⟩
  case mpr =>
    intro ⟨m, hm⟩
    rw [hm, toScale_of_multiple Int.ceil_intCast, toScale_of_multiple Int.floor_intCast]

-- Multiples of a power of a tenth between which a number lies, where no other multiple is nearer to it on its side.
structure Brackets (scale : Nat) (x down up : K) : Prop where
  down_le       : down ≤ x
  le_up         : x ≤ up
  down_multiple : ∃ m : Int, down = m / 10 ^ scale
  up_multiple   : ∃ m : Int, up = m / 10 ^ scale
  sub_le        : up - down ≤ 1 / 10 ^ scale
  eq_iff        : up = down ↔ ∃ m : Int, x = m / 10 ^ scale
  eq_of_eq      : up = down → up = x ∧ down = x

theorem brackets_floor_ceil : Brackets scale x (toScale Int.floor scale x) (toScale Int.ceil scale x) where
  down_le       := toScale_floor_le
  le_up         := le_toScale_ceil
  down_multiple := ⟨_, rfl⟩
  up_multiple   := ⟨_, rfl⟩
  sub_le        := toScale_ceil_sub_floor_le
  eq_iff        := toScale_ceil_eq_floor_iff
  eq_of_eq h    :=
    ⟨le_antisymm (h ▸ toScale_floor_le) le_toScale_ceil, le_antisymm toScale_floor_le (h ▸ le_toScale_ceil)⟩

end Rounding
