import Mathlib.Algebra.Order.Field.Rat
import Mathlib.Data.List.DropRight
import Mathlib.Tactic.FieldSimp
import Mathlib.Tactic.Ring

structure Digits where
  chars   : List Char
  ne_nil  : chars ≠ []
  isDigit : ∀ c ∈ chars, c.isDigit
deriving DecidableEq

structure Numeral where
  integer  : Digits
  fraction : Option Digits
deriving DecidableEq

namespace Digits

variable {d d' : Digits} {cs : List Char}

@[ext]
theorem ext (h : d.chars = d'.chars) : d = d' := by
  cases d
  cases d'
  cases h
  rfl

def ofList (cs : List Char) : Option Digits :=
  if h : cs ≠ [] ∧ cs.all Char.isDigit then some ⟨cs, h.left, List.all_eq_true.mp h.right⟩ else none

theorem ofList_eq_some : ofList cs = some d ↔ d.chars = cs := by
  rw [ofList]
  constructor
  case mp =>
    intro h
    split at h
    case isTrue  => exact Option.some.inj h ▸ rfl
    case isFalse => contradiction
  case mpr =>
    intro h
    subst h
    exact dif_pos ⟨d.ne_nil, List.all_eq_true.mpr d.isDigit⟩

@[simp]
theorem ofList_chars : ofList d.chars = some d :=
  ofList_eq_some.mpr rfl

theorem point_notMem_of_isDigit (h : ∀ c ∈ cs, c.isDigit) : '.' ∉ cs :=
  fun hp => absurd (h _ hp) <| by decide

theorem point_notMem : '.' ∉ d.chars :=
  point_notMem_of_isDigit d.isDigit

theorem minus_notMem : '-' ∉ d.chars :=
  fun h => absurd (d.isDigit _ h) <| by decide

end Digits

abbrev natValue (cs : List Char) : Nat :=
  Nat.ofDigitChars 10 cs 0

theorem natValue_append (cs cs' : List Char) : natValue (cs ++ cs') = natValue cs * 10 ^ cs'.length + natValue cs' := by
  rw [natValue, Nat.ofDigitChars_append, Nat.ofDigitChars_eq_ofDigitChars_zero, Nat.mul_comm]

theorem natValue_toDigits {n : Nat} : natValue (Nat.toDigits 10 n) = n :=
  Nat.ofDigitChars_ten_toDigits

theorem isDigit_toDigits {n : Nat} : ∀ c ∈ Nat.toDigits 10 n, c.isDigit :=
  fun _ => Nat.isDigit_of_mem_toDigits (by decide) (by decide)

theorem natValue_zero_cons (cs : List Char) : natValue ('0' :: cs) = natValue cs := by
  have h : natValue ('0' :: cs) = 0 * 10 ^ cs.length + natValue cs := natValue_append ['0'] cs
  rw [h, Nat.zero_mul, Nat.zero_add]

theorem toNat_of_isDigit {c : Char} (h : c.isDigit) : 48 ≤ c.toNat ∧ c.toNat ≤ 57 := by
  simpa [Char.isDigit, UInt32.le_iff_toNat_le] using h

theorem natValue_append_singleton (cs : List Char) (c : Char) :
    natValue (cs ++ [c]) = 10 * natValue cs + (c.toNat - '0'.toNat) := by
  rw [natValue, Nat.ofDigitChars_append, Nat.ofDigitChars_cons, Nat.ofDigitChars_nil]

theorem natValue_lt {cs : List Char} (h : ∀ c ∈ cs, c.isDigit) : natValue cs < 10 ^ cs.length := by
  induction cs using List.reverseRecOn
  case nil => decide
  case append_singleton cs c hi =>
    have hi := hi fun c hc => h c <| List.mem_append_left _ hc
    have hc := toNat_of_isDigit <| h c <| by simp
    have h₀ : '0'.toNat = 48 := rfl
    rw [natValue_append_singleton, List.length_append, List.length_singleton, Nat.pow_succ]
    omega

theorem eq_of_natValue_eq {cs cs' : List Char} (hl : cs.length = cs'.length) (h : ∀ c ∈ cs, c.isDigit)
    (h' : ∀ c ∈ cs', c.isDigit) (he : natValue cs = natValue cs') : cs = cs' := by
  induction cs using List.reverseRecOn generalizing cs'
  case nil => exact (List.length_eq_zero_iff.mp hl.symm).symm
  case append_singleton cs c hi =>
    cases cs' using List.reverseRecOn
    case nil => simp at hl
    case append_singleton cs' c' _ =>
      have hc := toNat_of_isDigit <| h c <| by simp
      have hc' := toNat_of_isDigit <| h' c' <| by simp
      have h₀ : '0'.toNat = 48 := rfl
      rw [natValue_append_singleton, natValue_append_singleton] at he
      have hcs := hi (by simpa using hl) (fun c hc => h c <| List.mem_append_left _ hc)
        (fun c hc => h' c <| List.mem_append_left _ hc) <| by omega
      have hn : c.toNat = c'.toNat := by omega
      rw [hcs, Char.toNat_inj.mp hn]

theorem natValue_dropWhile_zero (cs : List Char) : natValue (cs.dropWhile (· = '0')) = natValue cs := by
  induction cs
  case nil => rfl
  case cons c cs hi =>
    by_cases hc : c = '0'
    case pos =>
      rw [List.dropWhile_cons_of_pos (by simpa using hc), hi, hc, natValue_zero_cons]
    case neg => rw [List.dropWhile_cons_of_neg (by simpa using hc)]

def fractionValue (cs : List Char) : Rat :=
  natValue cs / 10 ^ cs.length

theorem fractionValue_rdropWhile_zero (cs : List Char) :
    fractionValue (cs.rdropWhile (· = '0')) = fractionValue cs := by
  induction cs using List.reverseRecOn
  case nil => rfl
  case append_singleton cs c hi =>
    by_cases hc : c = '0'
    case pos =>
      have h : natValue (cs ++ ['0']) = natValue cs * 10 := natValue_append cs ['0']
      rw [List.rdropWhile_concat_pos _ _ _ (by simpa using hc), hi, hc, fractionValue, fractionValue, h]
      rw [List.length_append, List.length_singleton, pow_succ, Nat.cast_mul, Nat.cast_ofNat]
      exact (mul_div_mul_right _ _ (by decide)).symm
    case neg => rw [List.rdropWhile_concat_neg _ _ _ (by simpa using hc)]

namespace Numeral

variable {n : Numeral} {cs : List Char} {scale : Nat}

def decimals (n : Numeral) : List Char :=
  n.fraction.elim [] Digits.chars

def pointed (integer : List Char) (fraction : Option (List Char)) : List Char :=
  integer ++ fraction.elim [] ('.' :: ·)

theorem splitOn_pointed {integer : List Char} {fraction : Option (List Char)} (hi : '.' ∉ integer)
    (hf : ∀ cs ∈ fraction, '.' ∉ cs) : (pointed integer fraction).splitOn '.' = integer :: fraction.toList := by
  cases fraction
  case none    => simp [pointed, List.splitOn_eq_singleton hi]
  case some cs =>
    simp [pointed, List.splitOn_append_cons_self_of_not_mem hi, List.splitOn_eq_singleton (hf cs rfl)]

def text (n : Numeral) : List Char :=
  pointed n.integer.chars <| n.fraction.map Digits.chars

def value (n : Numeral) : Rat :=
  natValue (n.integer.chars ++ n.decimals) / 10 ^ n.decimals.length

theorem value_eq : n.value = natValue n.integer.chars + fractionValue n.decimals := by
  have h : (10 : Rat) ^ n.decimals.length ≠ 0 := pow_ne_zero _ <| by decide
  rw [value, natValue_append, Nat.cast_add, Nat.cast_mul, Nat.cast_pow, add_div]
  congr 1
  exact mul_div_cancel_right₀ _ h

def parse (cs : List Char) : Option Numeral :=
  match cs.splitOn '.' with
  | [integer]           => Digits.ofList integer |>.map (⟨·, none⟩)
  | [integer, fraction] => do return ⟨← Digits.ofList integer, ← Digits.ofList fraction⟩
  | _                   => none

theorem splitOn_text : n.text.splitOn '.' = n.integer.chars :: (n.fraction.map Digits.chars).toList := by
  refine splitOn_pointed Digits.point_notMem fun cs hc => ?_
  have ⟨f, _, hf⟩ := Option.map_eq_some_iff.mp hc
  exact hf ▸ Digits.point_notMem

@[simp]
theorem parse_text (n : Numeral) : parse n.text = some n := by
  rw [parse, splitOn_text]
  cases n with | mk integer fraction =>
  cases fraction <;> simp

theorem ne_nil_of_pointed {integer : List Char} {fraction : Option (List Char)} (hi : '.' ∉ integer)
    (hf : ∀ cs ∈ fraction, '.' ∉ cs) (h : pointed integer fraction = n.text) :
    integer ≠ [] ∧ ∀ cs ∈ fraction, cs ≠ [] := by
  have hs : integer :: fraction.toList = n.integer.chars :: (n.fraction.map Digits.chars).toList := by
    rw [← splitOn_text, ← h, splitOn_pointed hi hf]
  have ⟨hi, hf⟩ := List.cons_eq_cons.mp hs
  refine ⟨hi ▸ n.integer.ne_nil, fun cs hc => ?_⟩
  have hc : cs ∈ (n.fraction.map Digits.chars).toList := hf ▸ Option.mem_toList.mpr hc
  have ⟨f, _, hf⟩ := Option.map_eq_some_iff.mp <| Option.mem_toList.mp hc
  exact hf ▸ f.ne_nil

theorem exists_text_eq_pointed {integer : List Char} {fraction : Option (List Char)} (hi : integer ≠ [])
    (hi' : ∀ c ∈ integer, c.isDigit) (hf : ∀ cs ∈ fraction, cs ≠ []) (hf' : ∀ cs ∈ fraction, ∀ c ∈ cs, c.isDigit) :
    ∃ n : Numeral, pointed integer fraction = n.text ∧ n.integer.chars = integer ∧
      n.decimals = fraction.getD [] :=
  match fraction with
  | none    => ⟨⟨⟨_, hi, hi'⟩, none⟩, rfl, rfl, rfl⟩
  | some cs => ⟨⟨⟨_, hi, hi'⟩, some ⟨cs, hf cs rfl, hf' cs rfl⟩⟩, rfl, rfl, rfl⟩

def rat? : List Char → Option Rat
  | '-' :: cs => parse cs |>.map (-·.value)
  | cs        => parse cs |>.map value

theorem head?_text_ne : n.text.head? ≠ some '-' := by
  rw [text, pointed, List.head?_append_of_ne_nil _ n.integer.ne_nil]
  exact fun h => Digits.minus_notMem <| List.mem_of_head? h

theorem rat?_text (n : Numeral) : rat? n.text = some n.value := by
  rw [rat?]
  · rw [parse_text, Option.map_some]
  · exact fun cs h => head?_text_ne <| by rw [h]; rfl

theorem rat?_neg_text (n : Numeral) : rat? ('-' :: n.text) = some (-n.value) := by
  rw [rat?, parse_text, Option.map_some]

def padded (scale m : Nat) : List Char :=
  .replicate (scale - (Nat.toDigits 10 m).length) '0' ++ Nat.toDigits 10 m

theorem padded_isDigit {m : Nat} : ∀ c ∈ padded scale m, c.isDigit := by
  intro c hc
  cases List.mem_append.mp hc
  case inl hc => exact (List.mem_replicate.mp hc).right ▸ rfl
  case inr hc => exact isDigit_toDigits c hc

theorem padded_length {m : Nat} (hs : 0 < scale) (hm : m < 10 ^ scale) : (padded scale m).length = scale := by
  have hl := Nat.length_toDigits_le_iff (by decide) hs |>.mpr hm
  rw [padded, List.length_append, List.length_replicate]
  omega

theorem natValue_padded {m : Nat} : natValue (padded scale m) = m := by
  rw [natValue, padded, Nat.ofDigitChars_append, Nat.ofDigitChars_replicate_zero, Nat.mul_zero,
    Nat.ofDigitChars_ten_toDigits]

-- The numeral with `scale` digits behind the point, or without a point if there are none.
def ofScale (scale m : Nat) : Numeral where
  integer  := ⟨Nat.toDigits 10 <| m / 10 ^ scale, Nat.toDigits_ne_nil,
    fun _ => Nat.isDigit_of_mem_toDigits (by decide) (by decide)⟩
  fraction := if scale = 0 then none else
    some ⟨padded scale <| m % 10 ^ scale, List.append_ne_nil_of_right_ne_nil _ Nat.toDigits_ne_nil, padded_isDigit⟩

theorem value_ofScale (scale m : Nat) : (ofScale scale m).value = m / 10 ^ scale := by
  cases scale
  case zero => simp [value, ofScale, decimals]
  case succ scale =>
    have hm : m % 10 ^ (scale + 1) < 10 ^ (scale + 1) := Nat.mod_lt _ <| Nat.pow_pos <| by decide
    have hl := padded_length scale.succ_pos hm
    have hd : (ofScale (scale + 1) m).decimals = padded (scale + 1) (m % 10 ^ (scale + 1)) := rfl
    have hi : natValue (ofScale (scale + 1) m).integer.chars = m / 10 ^ (scale + 1) :=
      Nat.ofDigitChars_ten_toDigits
    rw [value, hd, hl, natValue_append, hi, hl, natValue_padded, Nat.div_add_mod']

def fixed (scale : Nat) (m : Int) : List Char :=
  if m < 0 then '-' :: (ofScale scale m.natAbs).text else (ofScale scale m.natAbs).text

theorem rat?_fixed (scale : Nat) (m : Int) : rat? (fixed scale m) = some (m / 10 ^ scale : Rat) := by
  rw [fixed]
  split
  case isTrue hm =>
    have hm : (m : Rat) = -(m.natAbs : Rat) := by
      rw [← Int.cast_natCast, ← Int.cast_neg, Int.ofNat_natAbs_of_nonpos (Int.le_of_lt hm), Int.neg_neg]
    rw [rat?_neg_text, value_ofScale, hm, neg_div]
  case isFalse hm =>
    have hm : (m : Rat) = m.natAbs := by
      rw [← Int.cast_natCast, Int.natAbs_of_nonneg (Int.not_lt.mp hm)]
    rw [rat?_text, value_ofScale, hm]

end Numeral

def Digits.padded (width n : Nat) : Digits where
  chars   := Numeral.padded width n
  ne_nil  := List.append_ne_nil_of_right_ne_nil _ Nat.toDigits_ne_nil
  isDigit := Numeral.padded_isDigit

namespace Digits

variable {width n : Nat}

theorem natValue_padded : natValue (padded width n).chars = n :=
  Numeral.natValue_padded

theorem length_padded (hw : 0 < width) (hn : n < 10 ^ width) : (padded width n).chars.length = width :=
  Numeral.padded_length hw hn

theorem length_padded_zero_eq_two : (padded 0 n).chars.length = 2 ↔ 10 ≤ n ∧ n < 100 := by
  have h₁ : (Nat.toDigits 10 n).length ≤ 1 ↔ n < 10 ^ 1 := Nat.length_toDigits_le_iff (by decide) (by decide)
  have h₂ : (Nat.toDigits 10 n).length ≤ 2 ↔ n < 10 ^ 2 := Nat.length_toDigits_le_iff (by decide) (by decide)
  have hl : (padded 0 n).chars.length = (Nat.toDigits 10 n).length := by simp [padded, Numeral.padded]
  omega

end Digits
