import SwiftProjectKit.Device.Model

namespace Device

def width (n : Nat) : Nat :=
  (Nat.toDigits 10 n).length

variable {a b c m n : Nat}

theorem lt_pow_width : n < 10 ^ width n := by
  have h := @natValue_lt (Nat.toDigits 10 n) isDigit_toDigits
  rwa [natValue_toDigits] at h

theorem width_pos : 0 < width n :=
  List.length_pos_iff.mpr Nat.toDigits_ne_nil

def pair (a b : Nat) : List Char :=
  Nat.toDigits 10 a ++ '0' :: Nat.toDigits 10 b

def triple (a b c : Nat) : List Char :=
  pair a b ++ '0' :: Nat.toDigits 10 c

theorem natValue_triple :
    natValue (triple a b c) = a * 10 ^ (width b + width c + 2) + (b * 10 ^ (width c + 1) + c) := by
  have hp : 10 ^ (width b + 1) * 10 ^ (width c + 1) = 10 ^ (width b + width c + 2) := by
    rw [← Nat.pow_add]
    congr 1
    omega
  rw [triple, pair, natValue_append, natValue_zero_cons, natValue_append, natValue_zero_cons]
  simp only [natValue_toDigits, List.length_cons]
  rw [← width, ← width, Nat.add_mul, Nat.mul_assoc, hp, Nat.add_assoc]

-- Without a third number the digits are those of a third number that is zero, up to two zeros at the end.
theorem triple_zero : triple a b 0 = pair a b ++ ['0', '0'] :=
  rfl

theorem natValue_pair_le : natValue (pair a b) ≤ natValue (triple a b 0) := by
  rw [triple_zero, natValue_append]
  exact Nat.le_add_right_of_le <| Nat.le_mul_of_pos_right _ <| by decide

theorem pair_length : (pair a b).length = width a + width b + 1 := by
  rw [pair, List.length_append, List.length_cons, width, width, Nat.add_assoc]

def pairDigits (a b : Nat) : Digits where
  chars   := pair a b
  ne_nil  := List.append_ne_nil_of_right_ne_nil _ <| List.cons_ne_nil _ _
  isDigit := by
    simp only [pair, List.forall_mem_append, List.forall_mem_cons]
    exact ⟨isDigit_toDigits, rfl, isDigit_toDigits⟩

def tripleDigits (a b c : Nat) : Digits where
  chars   := triple a b c
  ne_nil  := List.append_ne_nil_of_right_ne_nil _ <| List.cons_ne_nil _ _
  isDigit := by
    simp only [triple, List.forall_mem_append, List.forall_mem_cons]
    exact ⟨(pairDigits a b).isDigit, rfl, isDigit_toDigits⟩

theorem int_chars (d : Digits) :
    int d.chars = if natValue d.chars < 2 ^ 63 then some (natValue d.chars : Int) else none := by
  have hn : int.natural d.chars = some (natValue d.chars : Int) := by
    rw [int.natural, Digits.ofList_chars, Option.map_some]
  have hp : '+' ∉ d.chars := fun h => absurd (d.isDigit _ h) <| by decide
  have hf : decide (-2 ^ 63 ≤ (natValue d.chars : Int) ∧ (natValue d.chars : Int) < 2 ^ 63) =
      decide (natValue d.chars < 2 ^ 63) := decide_eq_decide.mpr <| by omega
  rw [int, hn, Option.filter_some, hf]
  · simp only [decide_eq_true_eq]
  · exact fun _ h => d.minus_notMem <| h ▸ List.mem_cons_self
  · exact fun _ h => hp <| h ▸ List.mem_cons_self

theorem int_eq_some {d : Digits} {i : Int} :
    int d.chars = some i ↔ natValue d.chars < 2 ^ 63 ∧ natValue d.chars = i := by
  rw [int_chars, Option.ite_none_right_eq_some, Option.some.injEq]

theorem mul_add_lt {p p' x : Nat} (h : m < n) (hx : x < p) (hp : p ≤ p') : m * p + x < n * p' :=
  calc
    m * p + x < m * p + p    := Nat.add_lt_add_left hx _
    _         = (m + 1) * p  := (Nat.succ_mul m p).symm
    _         ≤ n * p'       := Nat.mul_le_mul h hp

-- Versions of two or three numbers.
structure Version where
  major : Nat
  minor : Nat
  patch : Option Nat

namespace Version

variable {v w : Version}

def text (v : Version) : List Char :=
  Dotted.text <| v.major :: v.minor :: v.patch.toList

def Lt (v w : Version) : Prop :=
  v.major < w.major ∨ v.major = w.major ∧
    (v.minor < w.minor ∨ v.minor = w.minor ∧ v.patch.getD 0 < w.patch.getD 0)

-- A missing third number is written as zero if the other ones have at most three digits.
def IsFilled (v : Version) : Prop :=
  v.patch = none → width v.major + width v.minor ≤ 3

def number (v : Version) : Nat :=
  natValue <| triple v.major v.minor <| v.patch.getD 0

theorem sp_numberVersion_of_isFilled (h : v.IsFilled) :
    sp_numberVersion v.text = int (triple v.major v.minor <| v.patch.getD 0) := by
  rw [sp_numberVersion, text, Dotted.replacingOccurrences_text]
  cases hp : v.patch
  case none =>
    have hl : (pair v.major v.minor).length < 5 := by
      have h := h hp
      rw [pair_length]
      omega
    have ht : ['0'].intercalate ([v.major, v.minor].map <| Nat.toDigits 10) = pair v.major v.minor := by simp [pair]
    simp only [Option.toList_none, ht, if_pos hl, Option.getD_none, triple_zero]
  case some c =>
    have hl : ¬(triple v.major v.minor c).length < 5 := by
      have ha := @width_pos v.major
      have hb := @width_pos v.minor
      have hc := @width_pos c
      rw [triple, List.length_append, pair_length, List.length_cons, ← width]
      omega
    have ht : ['0'].intercalate ([v.major, v.minor, c].map <| Nat.toDigits 10) = triple v.major v.minor c := by
      simp [triple, pair]
    simp only [Option.toList_some, ht, if_neg hl, Option.getD_some]

theorem sp_numberVersion_of_not_isFilled (h : ¬v.IsFilled) :
    v.patch = none ∧ sp_numberVersion v.text = int (pair v.major v.minor) := by
  have ⟨hp, h⟩ := Classical.not_imp.mp h
  have hl : ¬(pair v.major v.minor).length < 5 := by
    rw [pair_length]
    omega
  have ht : ['0'].intercalate ([v.major, v.minor].map <| Nat.toDigits 10) = pair v.major v.minor := by simp [pair]
  refine ⟨hp, ?_⟩
  rw [sp_numberVersion, text, Dotted.replacingOccurrences_text, hp, Option.toList_none, ht]
  exact congrArg int <| if_neg hl

theorem sp_numberVersion_le (h : v.number < 2 ^ 63) : ∃ m ≤ v.number, sp_numberVersion v.text = some (m : Int) := by
  by_cases hf : v.IsFilled
  case pos =>
    rw [sp_numberVersion_of_isFilled hf]
    exact ⟨_, Nat.le_refl _, @int_eq_some (tripleDigits ..) _ |>.mpr ⟨h, rfl⟩⟩
  case neg =>
    have ⟨hp, hs⟩ := sp_numberVersion_of_not_isFilled hf
    have hl : natValue (pair v.major v.minor) ≤ v.number := by
      rw [number, hp]
      exact natValue_pair_le
    rw [hs]
    exact ⟨_, hl, @int_eq_some (pairDigits ..) _ |>.mpr ⟨Nat.lt_of_le_of_lt hl h, rfl⟩⟩

theorem number_lt (h : v.Lt w) (hminor : width v.minor ≤ width w.minor)
    (hpatch : width (v.patch.getD 0) ≤ width (w.patch.getD 0)) : v.number < w.number := by
  have hten {i j : Nat} (h : i ≤ j) : 10 ^ i ≤ 10 ^ j := Nat.pow_le_pow_right (by decide) h
  have hq := hten <| Nat.succ_le_succ hpatch
  have hp : 10 ^ (width v.minor + width (v.patch.getD 0) + 2) ≤ 10 ^ (width w.minor + width (w.patch.getD 0) + 2) :=
    hten <| by omega
  have hc : v.patch.getD 0 < 10 ^ (width (v.patch.getD 0) + 1) :=
    Nat.lt_of_lt_of_le lt_pow_width <| hten <| Nat.le_succ _
  rw [number, number, natValue_triple, natValue_triple]
  cases h
  case inl h =>
    have ht : v.minor * 10 ^ (width (v.patch.getD 0) + 1) + v.patch.getD 0 <
        10 ^ (width v.minor + width (v.patch.getD 0) + 2) := by
      have hm := mul_add_lt (@lt_pow_width v.minor) hc (Nat.le_refl _)
      rw [← Nat.pow_add] at hm
      exact Nat.lt_of_lt_of_le hm <| hten <| by omega
    exact Nat.lt_add_right _ <| mul_add_lt h ht hp
  case inr h =>
    have ⟨ha, h⟩ := h
    rw [ha]
    refine Nat.add_lt_add_of_le_of_lt (Nat.mul_le_mul_left _ hp) ?_
    cases h
    case inl h => exact Nat.lt_add_right _ <| mul_add_lt h hc hq
    case inr h =>
      rw [h.left]
      exact Nat.add_lt_add_of_le_of_lt (Nat.mul_le_mul_left _ hq) h.right

theorem sp_numberVersion_lt {n : Int} (h : v.Lt w) (hminor : width v.minor ≤ width w.minor)
    (hpatch : width (v.patch.getD 0) ≤ width (w.patch.getD 0)) (hw : w.IsFilled)
    (hn : sp_numberVersion w.text = some n) : ∃ m, sp_numberVersion v.text = some m ∧ m < n := by
  rw [sp_numberVersion_of_isFilled hw] at hn
  have ⟨hb, hn⟩ := @int_eq_some (tripleDigits ..) _ |>.mp hn
  have hl := number_lt h hminor hpatch
  have ⟨m, hm, hv⟩ := sp_numberVersion_le <| Nat.lt_trans hl hb
  refine ⟨m, hv, ?_⟩
  rw [← hn]
  exact Int.ofNat_lt.mpr <| Nat.lt_of_le_of_lt hm hl

theorem sample_sp_numberVersion : ∃ m, sp_numberVersion (text ⟨9, 3, none⟩) = some m ∧ m < 100000 :=
  @sp_numberVersion_lt ⟨9, 3, none⟩ ⟨10, 0, none⟩ 100000 (.inl <| by decide) (by decide) (by decide)
    (fun _ => by decide) (by decide +kernel)

-- A second number with two digits moves the first one to the left.
theorem sp_numberVersion_not_mono : Lt ⟨9, 10, none⟩ ⟨10, 0, none⟩ ∧
    sp_numberVersion (text ⟨9, 10, none⟩) = some 901000 ∧ sp_numberVersion (text ⟨10, 0, none⟩) = some 100000 :=
  ⟨.inl <| by decide, by decide +kernel, by decide +kernel⟩

end Version
end Device
