import Mathlib.Data.List.TakeWhile
import SwiftProjectKit.Colors.Model
import SwiftProjectKit.Search.Theorems.Agree

namespace Colors

open RichText Search Strings
open Hexadecimal (isDigit number)

-- Of the sequences of ASCII characters, only a carriage return and the line feed behind it are a single character.
class AsciiCharacters extends Characters where
  ascii : ∀ string : String, (∀ c ∈ string.toList, c.toNat < 128 ∧ c ≠ '\r') →
    characters string = string.toList.map String.singleton

def IsPlain (cs : List Char) : Prop :=
  ∀ c ∈ cs, c.toNat < 128 ∧ c ≠ '\r'

variable {cs start pre post : List Char} {c : Char} {k : Nat}

theorem ofCharacters_map_singleton : ofCharacters (cs.map String.singleton) = .ofList cs := by
  simp [ofCharacters, List.flatMap_map]

section

variable [AsciiCharacters]

open Characters

theorem characters_ofList (h : IsPlain cs) : characters (.ofList cs) = cs.map String.singleton := by
  rw [AsciiCharacters.ascii _ <| by rwa [String.toList_ofList], String.toList_ofList]

theorem count_ofList (h : IsPlain cs) : count (.ofList cs) = cs.length := by
  rw [count, characters_ofList h, List.length_map]

theorem hasPrefix_ofList (h : IsPlain cs) (hs : IsPlain start) :
    hasPrefix (.ofList cs) (.ofList start) ↔ start <+: cs := by
  have hi : Function.Injective String.singleton := fun _ _ => String.singleton_inj.mp
  rw [hasPrefix, characters_ofList h, characters_ofList hs, List.isPrefixOf_iff_prefix]
  constructor
  case mp =>
    intro hp
    have ⟨start', hp, he⟩ := List.prefix_map_iff.mp hp
    exact List.map_injective_iff.mpr hi he ▸ hp
  case mpr => exact fun hp => hp.map _

end

theorem dropWhile_append {p : Char → Bool} (hpre : ∀ c ∈ pre, p c) (h : ∀ c ∈ cs, !p c) (hn : cs ≠ []) :
    (pre ++ cs ++ post).dropWhile p = cs ++ post := by
  cases cs
  case nil => contradiction
  case cons c cs =>
    have hc : ¬p c := by simpa using h c List.mem_cons_self
    rw [List.append_assoc, List.dropWhile_append_of_pos hpre, List.cons_append, List.dropWhile_cons_of_neg hc]

theorem trimmingCharacters_ofList (hpre : ∀ c ∈ pre, isWhitespaceOrNewline c)
    (hpost : ∀ c ∈ post, isWhitespaceOrNewline c) (h : ∀ c ∈ cs, !isWhitespaceOrNewline c) (hn : cs ≠ []) :
    trimmingCharacters (.ofList <| pre ++ cs ++ post) = .ofList cs := by
  have hr : ((post.reverse ++ cs.reverse ++ []).dropWhile isWhitespaceOrNewline) = cs.reverse ++ [] :=
    dropWhile_append (by simpa using hpost) (by simpa using h) <| by simpa using hn
  rw [trimmingCharacters, String.toList_ofList, dropWhile_append hpre h hn, List.rdropWhile, List.reverse_append,
    ← List.append_nil (_ ++ _), hr, List.append_nil, List.reverse_reverse]

def units (cs : List Char) : NSString :=
  cs.map (·.toNat.toUInt16)

theorem ofString_ofList (h : ∀ c ∈ cs, c.toNat < 128) : NSString.ofString (.ofList cs) = units cs := by
  have he : ∀ c ∈ cs, NSString.encode c = [c.toNat.toUInt16] := fun c hc => by
    have hl := h c hc
    exact if_pos <| by omega
  rw [NSString.ofString, String.toList_ofList, units, List.flatMap_congr he, List.map_eq_flatMap]

theorem chars_units (h : ∀ c ∈ cs, c.toNat < 128) : (units cs).map (Char.ofNat ·.toNat) = cs := by
  rw [units, List.map_map]
  refine (List.map_congr_left fun c hc => ?_).trans <| List.map_id cs
  have hl := h c hc
  have hu : c.toNat.toUInt16.toNat = c.toNat := Nat.mod_eq_of_lt <| by omega
  rw [Function.comp_apply, hu, Char.ofNat_toNat, id]

theorem toNat_scanHexInt32 (h : ∀ c ∈ cs, c.toNat < 128) (hd : ∀ c ∈ cs.drop k, isDigit c)
    (hl : (cs.drop k).length ≤ 8) : (scanHexInt32 (units cs) k).toNat = number (cs.drop k) := by
  have hn : number (cs.drop k) < 2 ^ 32 := by
    refine Hexadecimal.number_lt.trans_le ?_
    exact Nat.pow_le_pow_right (by decide : 0 < 16) hl
  rw [scanHexInt32, List.map_drop, chars_units h, List.takeWhile_eq_self_iff.mpr hd]
  rw [UInt32.toNat_ofNat', Nat.mod_eq_of_lt] <;> omega

theorem and_mask (n : Nat) : n &&& 0xFF = n % 256 :=
  Nat.and_two_pow_sub_one_eq_mod n 8

theorem shiftRight_and_mask (n k : Nat) : (n >>> k) &&& 0xFF = n / 2 ^ k % 256 := by
  rw [and_mask, Nat.shiftRight_eq_div_pow]

theorem and_mask_shiftRight (n k : Nat) : (n &&& 0xFF <<< k) >>> k = n / 2 ^ k % 256 := by
  rw [Nat.shiftRight_and_distrib, Nat.shiftLeft_shiftRight, shiftRight_and_mask]

namespace UIColor

def ofNumber (n : Nat) (alpha : Rat) : UIColor where
  red   := (n / 2 ^ 16 % 256 : Nat) / 255
  green := (n / 2 ^ 8 % 256 : Nat) / 255
  blue  := (n % 256 : Nat) / 255
  alpha := alpha

theorem RGB16_natCast {n : Nat} {alpha : Rat} : RGB16 n alpha = ofNumber n alpha := by
  have hr : (Int.land n 0xFF0000 >>> 16 : Int) = ((n &&& 0xFF <<< 16) >>> 16 : Nat) := rfl
  have hg : (Int.land n 0xFF00 >>> 8 : Int) = ((n &&& 0xFF <<< 8) >>> 8 : Nat) := rfl
  have hb : Int.land n 0xFF = (n &&& 0xFF : Nat) := rfl
  rw [RGB16, hr, hg, hb, and_mask_shiftRight, and_mask_shiftRight, and_mask, ofNumber]
  simp only [Int.cast_natCast]

end UIColor

-- Strings of six digits in front of which there may be a number sign, with whitespace around them.
structure HexString where
  pre           : List Char
  hash          : Bool
  digits        : List Char
  post          : List Char
  isWhitespace  : ∀ c ∈ pre, isWhitespaceOrNewline c
  isWhitespace' : ∀ c ∈ post, isWhitespaceOrNewline c
  isDigit       : ∀ c ∈ digits, Hexadecimal.isDigit c
  length        : digits.length = 6

namespace HexString

variable {s : HexString}

def body (s : HexString) : List Char :=
  if s.hash then '#' :: s.digits else s.digits

def string (s : HexString) : String :=
  .ofList <| s.pre ++ s.body ++ s.post

def number (s : HexString) : Nat :=
  Hexadecimal.number s.digits

theorem mem_body (h : c ∈ s.body) : c = '#' ∨ Hexadecimal.isDigit c := by
  rw [body] at h
  split at h
  case isTrue =>
    cases h
    case head   => exact .inl rfl
    case tail h => exact .inr <| s.isDigit c h
  case isFalse => exact .inr <| s.isDigit c h

theorem toNat_of_mem (h : c ∈ s.body) : 32 < c.toNat ∧ c.toNat < 128 := by
  have h₀ : '#'.toNat = 35 ∧ '0'.toNat = 48 ∧ 'f'.toNat = 102 := by decide
  cases mem_body h
  case inl h =>
    subst h
    omega
  case inr h =>
    have hd := Hexadecimal.toNat_le_of_isDigit h
    omega

theorem isPlain : IsPlain s.body := by
  intro c hc
  have h := toNat_of_mem hc
  refine ⟨h.right, fun he => ?_⟩
  rw [he] at h
  exact absurd h <| by decide

theorem mem_digits (h : c ∈ s.digits) : c ∈ s.body := by
  rw [body]
  split
  case isTrue  => exact List.mem_cons_of_mem _ h
  case isFalse => exact h

theorem trimmingCharacters_string : trimmingCharacters s.string = .ofList s.body := by
  have hn : s.body ≠ [] := by
    have hd : s.digits ≠ [] := fun h => absurd s.length <| by rw [h]; decide
    have ⟨c, hc⟩ := List.exists_mem_of_ne_nil _ hd
    exact List.ne_nil_of_mem <| mem_digits hc
  refine trimmingCharacters_ofList s.isWhitespace s.isWhitespace' (fun c hc => ?_) hn
  have h := toNat_of_mem hc
  simp only [isWhitespaceOrNewline, Bool.not_eq_true', Bool.or_eq_false_iff, Bool.and_eq_false_iff,
    decide_eq_false_iff_not, beq_eq_false_iff_ne]
  omega

theorem toNat_scan {cs : List Char} (h : cs.length ≤ 8) (hm : ∀ c ∈ cs, c ∈ s.digits) :
    (scanHexInt32 (units cs) 0).toNat = Hexadecimal.number cs :=
  toNat_scanHexInt32 (fun c hc => toNat_of_mem (mem_digits <| hm c hc) |>.right) (fun c hc => s.isDigit c <| hm c hc) h

theorem number_slices : Hexadecimal.number (s.digits.take 2) = s.number / 2 ^ 16 % 256 ∧
    Hexadecimal.number ((s.digits.drop 2).take 2) = s.number / 2 ^ 8 % 256 ∧
    Hexadecimal.number (s.digits.drop 4) = s.number % 256 := by
  have hl := s.length
  have h₁ := @Hexadecimal.number_div (s.digits.take 2) (s.digits.drop 2) 4 <| by simp [hl]
  have h₂ := @Hexadecimal.number_mod (s.digits.take 2) (s.digits.drop 2) 4 <| by simp [hl]
  have h₃ := @Hexadecimal.number_div ((s.digits.drop 2).take 2) ((s.digits.drop 2).drop 2) 2 <| by simp [hl]
  have h₄ := @Hexadecimal.number_mod ((s.digits.drop 2).take 2) ((s.digits.drop 2).drop 2) 2 <| by simp [hl]
  have h₅ : Hexadecimal.number (s.digits.take 2) < 16 ^ 2 := by
    simpa [hl] using @Hexadecimal.number_lt (s.digits.take 2)
  rw [List.take_append_drop] at h₁ h₂ h₃ h₄
  have h₄ : _ = Hexadecimal.number (s.digits.drop 4) := List.drop_drop ▸ h₄
  rw [number]
  omega

theorem toNat_scan_slices : (scanHexInt32 (units <| s.digits.take 2) 0).toNat = s.number / 2 ^ 16 % 256 ∧
    (scanHexInt32 (units <| (s.digits.drop 2).take 2) 0).toNat = s.number / 2 ^ 8 % 256 ∧
    (scanHexInt32 (units <| s.digits.drop 4) 0).toNat = s.number % 256 := by
  have hl := s.length
  have ⟨h₁, h₂, h₃⟩ := @number_slices s
  rw [← h₁, ← h₂, ← h₃]
  exact ⟨toNat_scan (by simp [hl]) fun _ => List.mem_of_mem_take,
    toNat_scan (by simp [hl]) fun _ hc => List.mem_of_mem_drop <| List.mem_of_mem_take hc,
    toNat_scan (by simp [hl]) fun _ => List.mem_of_mem_drop⟩

theorem substring_units {i : Nat} (h : i + 2 ≤ 6) :
    NSRange.substring ⟨i, 2⟩ (units s.digits) = some (units <| (s.digits.drop i).take 2) := by
  have hw : NSRange.IsWithin ⟨i, 2⟩ (units s.digits).length := by
    rw [units, List.length_map, s.length]
    simp only [NSRange.IsWithin, NSRange.maxLength]
    omega
  rw [NSRange.substring, if_pos hw, units, ← List.map_drop, ← List.map_take]
  rfl

section

variable [AsciiCharacters]

theorem hasPrefix_hash : hasPrefix (.ofList s.body) "#" ↔ s.hash := by
  have hh : "#" = String.ofList ['#'] := rfl
  rw [hh, hasPrefix_ofList isPlain <| by simp [IsPlain], body]
  split
  case isTrue h  => simp [h]
  case isFalse h =>
    refine iff_of_false (fun hp => ?_) h
    have hd := s.isDigit '#' <| hp.subset List.mem_cons_self
    exact absurd hd <| by decide

theorem not_hasPrefix_0X : ¬hasPrefix (.ofList s.body) "0X" := by
  have hh : "0X" = String.ofList ['0', 'X'] := rfl
  rw [hh, hasPrefix_ofList isPlain <| by simp [IsPlain]]
  intro hp
  cases mem_body <| hp.subset <| List.mem_cons_of_mem _ List.mem_cons_self
  case inl h => contradiction
  case inr h => exact absurd h <| by decide

theorem ofHex_eq {alpha : Rat} : UIColor.ofHex s.string alpha = .ofNumber s.number alpha := by
  have hd : s.body.drop (if hasPrefix (.ofList s.body) "#" then 1 else 0) = s.digits := by
    rw [if_congr hasPrefix_hash rfl rfl, body]
    split <;> rfl
  have hc : (scanHexInt32 (units s.body) (if hasPrefix (.ofList s.body) "#" then 1 else 0)).toNat = s.number := by
    rw [toNat_scanHexInt32 (fun c hc => toNat_of_mem hc |>.right) (hd ▸ s.isDigit) (by rw [hd, s.length]; decide), hd,
      number]
  have hu := ofString_ofList fun c hc => toNat_of_mem (s := s) hc |>.right
  rw [UIColor.ofHex]
  simp only [trimmingCharacters_string, hu]
  generalize scanHexInt32 _ _ = color at hc ⊢
  have hr : (Int.land (color >>> 16).toNat 0xFF) = ((color.toNat >>> 16) &&& 0xFF : Nat) := by
    rw [UInt32.toNat_shiftRight]
    rfl
  have hg : (Int.land (color >>> 8).toNat 0xFF) = ((color.toNat >>> 8) &&& 0xFF : Nat) := by
    rw [UInt32.toNat_shiftRight]
    rfl
  have hb : Int.land color.toNat 0xFF = (color.toNat &&& 0xFF : Nat) := rfl
  rw [hr, hg, hb, shiftRight_and_mask, shiftRight_and_mask, and_mask, hc, UIColor.ofNumber]
  simp only [Int.cast_natCast]

theorem hex_eq : UIColor.hex s.string = some (.ofNumber s.number 1) := by
  have hp : IsPlain s.digits := fun c hc => isPlain c <| mem_digits hc
  have hc : count (.ofList s.body) = if s.hash then 7 else 6 := by
    rw [count_ofList isPlain, body]
    split <;> simp [s.length]
  have hs : ofCharacters ((Characters.characters (.ofList s.body)).drop (count (.ofList s.body) - 6)) =
      .ofList s.digits := by
    rw [hc, characters_ofList isPlain, ← List.map_drop, ofCharacters_map_singleton, body]
    split <;> rfl
  have hd : (if hasPrefix (.ofList s.body) "#" then String.ofList s.digits else .ofList s.body) = .ofList s.digits := by
    rw [if_congr hasPrefix_hash rfl rfl, body]
    split <;> rfl
  have hu := ofString_ofList fun c hc => (hp c hc).left
  have hl : ¬count (.ofList s.body) < 6 := by
    rw [hc]
    split <;> decide
  have hr : NSRange.substring ⟨0, 2⟩ (units s.digits) = _ := substring_units (by decide : 0 + 2 ≤ 6)
  have hg : NSRange.substring ⟨2, 2⟩ (units s.digits) = _ := substring_units (by decide : 2 + 2 ≤ 6)
  have hb : NSRange.substring ⟨4, 2⟩ (units s.digits) = _ := substring_units (by decide : 4 + 2 ≤ 6)
  have ht : (s.digits.drop 4).take 2 = s.digits.drop 4 := List.take_of_length_le <| by simp [s.length]
  have ⟨h₁, h₂, h₃⟩ := @toNat_scan_slices s
  rw [UIColor.hex]
  simp only [trimmingCharacters_string, hs, if_neg not_hasPrefix_0X, hd, if_neg hl, count_ofList hp,
    s.length, hu, ne_eq, not_true_eq_false, if_false, hr, hg, hb, ht, List.drop_zero,
    Option.bind_eq_bind, Option.bind_some, Option.pure_def]
  rw [UIColor.ofBytes, h₁, h₂, h₃, UIColor.ofNumber]

end

end HexString

structure SameComponents (color color' : UIColor) : Prop where
  red   : color.red = color'.red
  green : color.green = color'.green
  blue  : color.blue = color'.blue

theorem hexParsers_agree [AsciiCharacters] (s : HexString) (alpha alpha' : Rat) : ∃ color,
    UIColor.hex s.string = some color ∧ SameComponents (.ofHex s.string alpha) color ∧
    SameComponents (.RGB16 s.number alpha') color := by
  refine ⟨_, HexString.hex_eq, ?_⟩
  rw [HexString.ofHex_eq, UIColor.RGB16_natCast]
  exact ⟨⟨rfl, rfl, rfl⟩, ⟨rfl, rfl, rfl⟩⟩

namespace Sample

@[reducible]
def characters : AsciiCharacters where
  toCharacters := Search.Sample.characters
  ascii _ _    := rfl

def string : HexString where
  pre           := [' ', '\t']
  hash          := true
  digits        := ['5', 'D', 'A', 'f', 'F', 'c']
  post          := ['\n']
  isWhitespace  := List.all_eq_true.mp <| by decide
  isWhitespace' := List.all_eq_true.mp <| by decide
  isDigit       := List.all_eq_true.mp <| by decide
  length        := rfl

end Sample

theorem sample_hexParsers : ∃ color, @UIColor.hex Sample.characters.toCharacters Sample.string.string = some color ∧
    SameComponents (@UIColor.ofHex Sample.characters.toCharacters Sample.string.string 1) color ∧
    SameComponents (.RGB16 0x5DAFFC 1) color :=
  @hexParsers_agree Sample.characters Sample.string 1 1

end Colors
