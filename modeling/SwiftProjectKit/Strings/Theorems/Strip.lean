import SwiftProjectKit.Search.Theorems.Agree
import SwiftProjectKit.Strings.Model

namespace Strings

open Numeral

section Zeros

variable {n : Numeral} {integer : List Char} {fraction : Option (List Char)}

structure Clears (n : Numeral) : Prop where
  trailing : ∃ n' : Numeral, clearRedundantZero n.text = n'.text ∧ n'.value = n.value ∧ n'.decimals.getLast? ≠ some '0'
  leading  : ∃ n' : Numeral, clearFristRedundantZero n.text = n'.text ∧ n'.value = n.value ∧
    (n'.integer.chars.head? = some '0' → n'.integer.chars = ['0'])
  both     : ∃ n' : Numeral, clearRedundantZero (clearFristRedundantZero n.text) = n'.text ∧ n'.value = n.value
  both'    : ∃ n' : Numeral, clearFristRedundantZero (clearRedundantZero n.text) = n'.text ∧ n'.value = n.value

def stripLeading (hasPoint : Bool) (integer : List Char) : List Char :=
  let str := integer.dropWhile (· = '0')
  if hasPoint ∧ str = [] then ['0'] else str

def stripTrailing (fraction : List Char) : List Char :=
  fraction.rdropWhile (· = '0')

theorem clearRedundantZero_pointed (hi : '.' ∉ integer) (hf : ∀ cs ∈ fraction, '.' ∉ cs) :
    clearRedundantZero (pointed integer fraction) = pointed integer (fraction.map stripTrailing) := by
  rw [clearRedundantZero, splitOn_pointed hi hf]
  cases fraction <;> rfl

theorem clearFristRedundantZero_pointed (hi : '.' ∉ integer) (hf : ∀ cs ∈ fraction, '.' ∉ cs) :
    clearFristRedundantZero (pointed integer fraction) = pointed (stripLeading fraction.isSome integer) fraction := by
  rw [clearFristRedundantZero, splitOn_pointed hi hf]
  cases fraction
  case none => simp [pointed, stripLeading]
  case some => simp [pointed, stripLeading]

theorem mem_stripLeading {hasPoint : Bool} {c : Char} (h : ∀ c ∈ integer, c.isDigit)
    (hc : c ∈ stripLeading hasPoint integer) : c.isDigit := by
  rw [stripLeading] at hc
  split at hc
  case isTrue  => exact List.mem_singleton.mp hc ▸ rfl
  case isFalse => exact h c <| List.dropWhile_sublist _ |>.mem hc

theorem natValue_stripLeading {hasPoint : Bool} : natValue (stripLeading hasPoint integer) = natValue integer := by
  have h := natValue_dropWhile_zero integer
  rw [stripLeading]
  split
  case isTrue hs  => exact (hs.right ▸ h :)
  case isFalse hs => exact h

theorem stripLeading_eq_nil_iff {hasPoint : Bool} :
    stripLeading hasPoint integer = [] ↔ hasPoint = false ∧ ∀ c ∈ integer, c = '0' := by
  rw [stripLeading]
  split
  case isTrue h  => simp [h.left]
  case isFalse h => cases hasPoint <;> simp_all

theorem head?_stripLeading {hasPoint : Bool} (h : (stripLeading hasPoint integer).head? = some '0') :
    stripLeading hasPoint integer = ['0'] := by
  rw [stripLeading] at h ⊢
  split
  case isTrue     => rfl
  case isFalse hs =>
    have hn := List.head?_dropWhile_not (· = '0') integer
    rw [if_neg hs] at h
    simp [h] at hn

theorem getLast?_stripTrailing {cs : List Char} : (stripTrailing cs).getLast? ≠ some '0' := by
  intro h
  have hn := List.head?_dropWhile_not (· = '0') cs.reverse
  rw [stripTrailing, List.rdropWhile, List.getLast?_reverse] at h
  simp [h] at hn

structure Front (n : Numeral) (integer : List Char) : Prop where
  ne_nil  : integer ≠ []
  isDigit : ∀ c ∈ integer, c.isDigit
  value   : natValue integer = natValue n.integer.chars

structure Behind (n : Numeral) (fraction : Option (List Char)) : Prop where
  ne_nil  : ∀ cs ∈ fraction, cs ≠ []
  isDigit : ∀ cs ∈ fraction, ∀ c ∈ cs, c.isDigit
  value   : fractionValue (fraction.getD []) = fractionValue n.decimals

theorem exists_numeral (hi : Front n integer) (hf : Behind n fraction) :
    ∃ n' : Numeral, pointed integer fraction = n'.text ∧ n'.value = n.value ∧
      n'.integer.chars = integer ∧ n'.decimals = fraction.getD [] := by
  have ⟨n', ht, hc, hd⟩ := exists_text_eq_pointed hi.ne_nil hi.isDigit hf.ne_nil hf.isDigit
  exact ⟨n', ht, by rw [value_eq, value_eq, hc, hd, hi.value, hf.value], hc, hd⟩

theorem front_self (n : Numeral) : Front n n.integer.chars :=
  ⟨n.integer.ne_nil, n.integer.isDigit, rfl⟩

theorem behind_map {g : List Char → List Char} (hn : ∀ f, n.fraction = some f → g f.chars ≠ [])
    (hd : ∀ cs, ∀ c ∈ g cs, c ∈ cs) (hv : ∀ cs, fractionValue (g cs) = fractionValue cs) :
    Behind n (n.fraction.map (g ·.chars)) := by
  cases h : n.fraction
  case none   => exact ⟨nofun, nofun, by rw [decimals, h]; rfl⟩
  case some f =>
    constructor
    case ne_nil  => exact fun cs hc => Option.some.inj hc ▸ hn f h
    case isDigit => exact fun cs hc c => Option.some.inj hc ▸ fun hm => f.isDigit c <| hd _ c hm
    case value   => rw [decimals, h]; exact hv _

theorem behind_self (n : Numeral) : Behind n (n.fraction.map Digits.chars) :=
  behind_map (g := id) (fun f _ => f.ne_nil) (fun _ _ => id) (fun _ => rfl)

-- Whether some digit in front of the point is left, as a zero is only put in front of a point.
def KeepsInteger (n : Numeral) : Prop :=
  n.fraction = none → ∃ c ∈ n.integer.chars, c ≠ '0'

def KeepsFraction (n : Numeral) : Prop :=
  ∀ f, n.fraction = some f → ∃ c ∈ f.chars, c ≠ '0'

theorem stripLeading_ne_nil_iff :
    stripLeading n.fraction.isSome n.integer.chars ≠ [] ↔ KeepsInteger n := by
  simp [stripLeading_eq_nil_iff, KeepsInteger]

theorem stripTrailing_ne_nil_iff {cs : List Char} : stripTrailing cs ≠ [] ↔ ∃ c ∈ cs, c ≠ '0' := by
  simp [stripTrailing, List.rdropWhile_eq_nil_iff]

theorem front_stripLeading (h : KeepsInteger n) : Front n (stripLeading n.fraction.isSome n.integer.chars) :=
  ⟨stripLeading_ne_nil_iff.mpr h, fun _ => mem_stripLeading n.integer.isDigit, natValue_stripLeading⟩

theorem behind_stripTrailing (h : KeepsFraction n) : Behind n (n.fraction.map (stripTrailing ·.chars)) :=
  behind_map (stripTrailing_ne_nil_iff.mpr <| h · ·) (fun _ _ => List.rdropWhile_prefix _ _ |>.mem)
    fractionValue_rdropWhile_zero

theorem point_notMem_map {g : List Char → List Char} (hd : ∀ cs, ∀ c ∈ g cs, c ∈ cs) :
    ∀ cs ∈ n.fraction.map (g ·.chars), '.' ∉ cs := by
  intro cs hc
  have ⟨f, _, hf⟩ := Option.map_eq_some_iff.mp hc
  exact Digits.point_notMem_of_isDigit fun c hc => f.isDigit c <| hd _ c <| hf ▸ hc

-- A fraction of zeros is emptied behind its point, and zeros without a point are all removed.
theorem clears_iff (n : Numeral) : Clears n ↔ KeepsInteger n ∧ KeepsFraction n := by
  have hi : '.' ∉ n.integer.chars := Digits.point_notMem
  have hi' : '.' ∉ stripLeading n.fraction.isSome n.integer.chars :=
    Digits.point_notMem_of_isDigit fun _ => mem_stripLeading n.integer.isDigit
  have hf : ∀ cs ∈ n.fraction.map Digits.chars, '.' ∉ cs := point_notMem_map (g := id) fun _ _ => id
  have hf' : ∀ cs ∈ n.fraction.map (stripTrailing ·.chars), '.' ∉ cs :=
    point_notMem_map fun _ _ => List.rdropWhile_prefix _ _ |>.mem
  have hm : (n.fraction.map Digits.chars).map stripTrailing = n.fraction.map (stripTrailing ·.chars) :=
    Option.map_map ..
  have ht := clearRedundantZero_pointed hi hf
  have hl := clearFristRedundantZero_pointed hi hf
  have hb := clearRedundantZero_pointed hi' hf
  have hb' := clearFristRedundantZero_pointed hi hf'
  rw [hm] at ht hb
  simp only [Option.isSome_map] at hl hb'
  constructor
  case mp =>
    rintro ⟨⟨_, h₁, _⟩, ⟨_, h₂, _⟩, _, _⟩
    rw [text, ht] at h₁
    rw [text, hl] at h₂
    refine ⟨stripLeading_ne_nil_iff.mp <| ne_nil_of_pointed hi' hf h₂ |>.left, fun f hn => ?_⟩
    exact stripTrailing_ne_nil_iff.mp <| ne_nil_of_pointed hi hf' h₁ |>.right _ <| by rw [hn]; rfl
  case mpr =>
    rintro ⟨h₁, h₂⟩
    constructor <;> simp only [text, ht, hl, hb, hb']
    case trailing =>
      obtain ⟨n', h, hv, _, hd⟩ := exists_numeral (front_self n) (behind_stripTrailing h₂)
      refine ⟨n', h, hv, ?_⟩
      rw [hd]
      cases n.fraction
      case none => exact (Option.some_ne_none _).symm
      case some => exact getLast?_stripTrailing
    case leading =>
      obtain ⟨n', h, hv, hc, _⟩ := exists_numeral (front_stripLeading h₁) (behind_self n)
      exact ⟨n', h, hv, hc ▸ head?_stripLeading⟩
    case both =>
      obtain ⟨n', h, hv, _⟩ := exists_numeral (front_stripLeading h₁) (behind_stripTrailing h₂)
      exact ⟨n', h, hv⟩
    case both' =>
      obtain ⟨n', h, hv, _⟩ := exists_numeral (front_stripLeading h₁) (behind_stripTrailing h₂)
      exact ⟨n', h, hv⟩

theorem not_clears :
    let zero : Digits := ⟨['0'], by simp, by simp⟩
    clearRedundantZero "0.0".toList = "0.".toList ∧ ¬Clears ⟨zero, some zero⟩ ∧
      clearFristRedundantZero "0".toList = "".toList ∧ ¬Clears ⟨zero, none⟩ := by
  refine ⟨by decide, fun ⟨⟨n', h, _⟩, _, _, _⟩ => ?_, by decide, fun ⟨_, ⟨n', h, _⟩, _, _⟩ => ?_⟩
  case refine_1 => exact absurd (n'.parse_text.symm.trans <| h ▸ rfl) <| Option.some_ne_none n'
  case refine_2 => exact absurd (n'.parse_text.symm.trans <| h ▸ rfl) <| Option.some_ne_none n'

end Zeros

section Spaces

open Search Characters

variable [Characters] {string : String}

def RemovesSpaces (string : String) : Prop :=
  ∃ fuel result, removePrefixSpace fuel string = some result ∧ ¬hasPrefix result " " ∧
    ∃ n, characters string = List.replicate n " " ++ characters result

theorem characters_space : characters " " = [" "] := by
  have hn {c} (hc : c ∈ characters " ") : c.toList ≠ [] :=
    fun h => nonempty " " <| String.toList_eq_nil_iff.mp h ▸ hc
  have hf : (characters " ").flatMap String.toList = [' '] := flatMap " "
  cases h : characters " "
  case nil => simp [h] at hf
  case cons c cs =>
    rw [h, List.flatMap_cons] at hf
    cases List.append_eq_singleton_iff.mp hf
    case inl hc => exact absurd hc.left <| hn <| h ▸ List.mem_cons_self
    case inr hc =>
      have hs : cs = [] := List.eq_nil_iff_forall_not_mem.mpr fun d hd =>
        hn (h ▸ List.mem_cons_of_mem c hd) <| List.flatMap_eq_nil_iff.mp hc.right d hd
      have hc : c = " " := String.toList_injective hc.left
      rw [hs, hc]

theorem hasPrefix_space_iff : hasPrefix string " " ↔ (characters string).head? = some " " := by
  rw [hasPrefix, characters_space]
  cases characters string
  case nil       => simp
  case cons c cs => simpa using eq_comm

theorem removePrefixSpace_eq_none (h : hasPrefix string " ") (fuel : Nat) : removePrefixSpace fuel string = none := by
  induction fuel generalizing string
  case zero => rfl
  case succ fuel hi =>
    rw [removePrefixSpace, if_pos h, hasPrefix_space_iff.mp h]
    exact hi <| hasPrefix_space_iff.mpr <| congrArg List.head? characters_space

theorem removesSpaces_iff (string : String) : RemovesSpaces string ↔ ¬hasPrefix string " " := by
  constructor
  case mp =>
    intro ⟨fuel, result, hr, _⟩ h
    exact Option.some_ne_none _ <| hr.symm.trans <| removePrefixSpace_eq_none h fuel
  case mpr => exact fun h => ⟨1, string, if_neg h, h, 0, rfl⟩

end Spaces

theorem not_removesSpaces :
    (∀ fuel, @removePrefixSpace Search.Sample.characters fuel " a" = none) ∧
      ¬@RemovesSpaces Search.Sample.characters " a" := by
  have h := @removePrefixSpace_eq_none Search.Sample.characters " a" <| by decide
  exact ⟨h, fun ⟨fuel, _, hr, _⟩ => Option.some_ne_none _ <| hr.symm.trans <| h fuel⟩

end Strings
