import Mathlib.Data.List.TakeWhile
import SwiftProjectKit.RichText.Theorems.Styles

namespace RichText

namespace NSString

inductive IsHeader : NSString → Prop
  | ol {digits : NSString} (hn : digits ≠ []) (hd : ∀ c ∈ digits, isDigit c) :
    IsHeader (tab :: digits ++ [dot, tab])
  | ul : IsHeader [tab, bullet, tab]

inductive IsBody (string body : NSString) : Prop
  | header {m : NSString} (hm : IsHeader m) (hs : string = m ++ body)
  | plain (hm : ∀ m, IsHeader m → ¬m <+: string) (hs : string = body)

def body (string : NSString) : NSString :=
  string.drop <| string.tabPattern.getD 0

variable {string m rest digits : NSString} {length : Nat}

theorem takeWhile_digits {c : unichar} (hd : ∀ c ∈ digits, isDigit c) (hc : isDigit c = false) :
    (digits ++ c :: rest).takeWhile isDigit = digits := by
  rw [List.takeWhile_append_of_pos hd, List.takeWhile_cons_of_neg (by simp [hc]), List.append_nil]

theorem tabPattern_append (h : IsHeader m) : tabPattern (m ++ rest) = some m.length := by
  cases h
  case ol digits hn hd =>
    have ht : (digits ++ dot :: tab :: rest).takeWhile isDigit = digits := takeWhile_digits hd rfl
    simp [tabPattern, ht, hn]
  case ul =>
    have ht : (bullet :: tab :: rest).takeWhile isDigit = [] :=
      List.takeWhile_cons_of_neg <| by decide
    simp [tabPattern, ht]

theorem tabPattern_eq_some (h : tabPattern string = some length) :
    ∃ m rest, IsHeader m ∧ string = m ++ rest ∧ m.length = length := by
  cases string
  case nil => contradiction
  case cons c string =>
    simp only [tabPattern] at h
    split_ifs at h with hc hd hu
    · have hc : c = tab := by simpa using hc
      have hd : string.takeWhile isDigit ≠ [] ∧
          (string.drop (string.takeWhile isDigit).length).take 2 = [dot, tab] := by simpa using hd
      have hs := List.prefix_iff_eq_append.mp <| List.takeWhile_prefix (p := isDigit) (l := string)
      have hr := List.take_append_drop 2 <| string.drop (string.takeWhile isDigit).length
      have he : c :: string = (tab :: string.takeWhile isDigit ++ [dot, tab]) ++
          (string.drop (string.takeWhile isDigit).length).drop 2 := by
        rw [hd.right] at hr
        rw [hc, List.cons_append, List.cons_append, List.append_assoc, hr, hs]
      exact ⟨_, _, .ol hd.left fun c hc => List.mem_takeWhile_imp hc, he, by simpa using h⟩
    · have hc : c = tab := by simpa using hc
      have hr := List.take_append_drop 2 string
      have he : c :: string = [tab, bullet, tab] ++ string.drop 2 := by
        rw [beq_iff_eq.mp hu] at hr
        rw [hc, List.cons_append, hr]
      exact ⟨_, _, .ul, he, by simpa using h⟩

theorem body_append (h : IsHeader m) : body (m ++ rest) = rest := by
  simp [body, tabPattern_append h]

theorem isBody_body (string : NSString) : IsBody string string.body := by
  cases h : string.tabPattern
  case none =>
    refine .plain (fun m hm hp => ?_) (by simp [body, h])
    have ⟨rest, hr⟩ := hp
    simp [← hr, tabPattern_append hm] at h
  case some length =>
    have ⟨m, rest, hm, hs, _⟩ := tabPattern_eq_some h
    exact .header hm <| by rw [hs, body_append hm]

theorem encode_digit {c : Char} (h : c.isDigit) : ∃ u, encode c = [u] ∧ isDigit u := by
  have h : 48 ≤ c.toNat ∧ c.toNat ≤ 57 := by simpa [Char.isDigit, UInt32.le_iff_toNat_le] using h
  refine ⟨c.toNat.toUInt16, by rw [encode, if_pos (by omega)], ?_⟩
  have hn : c.toNat.toUInt16.toNat = c.toNat := UInt16.toNat_ofNat_of_lt' <| by
    simp only [UInt16.size]
    omega
  simp [isDigit, UInt16.le_iff_toNat_le, hn, h]

theorem ofString_digits {digits : List Char} (h : ∀ c ∈ digits, c.isDigit) :
    ∀ u ∈ digits.flatMap encode, isDigit u := by
  intro u hu
  have ⟨c, hc, hu⟩ := List.mem_flatMap.mp hu
  have ⟨v, hv, hd⟩ := encode_digit <| h c hc
  rw [hv, List.mem_singleton] at hu
  exact hu ▸ hd

theorem isHeader_ol (n : Nat) : IsHeader (ofString s!"\t{n}.\t") := by
  have hd : ∀ u ∈ (Nat.toDigits 10 n).flatMap encode, isDigit u :=
    ofString_digits fun c => Nat.isDigit_of_mem_toDigits (by omega) (by omega)
  have hn : (Nat.toDigits 10 n).flatMap encode ≠ [] := by
    cases h : Nat.toDigits 10 n
    case nil => exact absurd h Nat.toDigits_ne_nil
    case cons c cs =>
      have ⟨u, hu, _⟩ := encode_digit <| Nat.isDigit_of_mem_toDigits (n := n) (b := 10) (c := c)
        (by omega) (by omega) (by simp [h])
      simp [hu]
  have he : ofString s!"\t{n}.\t" = tab :: (Nat.toDigits 10 n).flatMap encode ++ [dot, tab] := by
    simp only [ofString, String.toList_append, List.flatMap_append, Nat.toString_eq_repr,
      Nat.toList_repr]
    rfl
  exact he ▸ .ol hn hd

theorem isHeader_header (style : RZTextTabStyle) (i : Nat) : IsHeader (style.header i) := by
  rw [RZTextTabStyle.header]
  split
  case isTrue  => exact .ul
  case isFalse => exact isHeader_ol _

theorem le_location_of_mem_search {pattern : NSString → Option Nat} {location skip : Nat}
    {range : NSRange} (h : range ∈ rangesWith.search pattern location skip string) :
    location ≤ range.location := by
  induction string generalizing location skip
  case nil => contradiction
  case cons c string hi =>
    cases skip
    case succ skip => exact Int.le_of_lt <| hi h
    case zero =>
      cases hp : pattern (c :: string)
      case none =>
        simp only [rangesWith.search, hp] at h
        exact Int.le_of_lt <| hi h
      case some length =>
        simp only [rangesWith.search, hp, List.mem_cons] at h
        cases h
        case inl h => simp [h]
        case inr h => exact Int.le_of_lt <| hi h

end NSString

namespace NSAttributedString

open NSString (tabPattern)

variable {text : NSAttributedString}

def body (text : NSAttributedString) : NSAttributedString :=
  text.drop <| text.string.tabPattern.getD 0

@[simp]
theorem string_body : text.body.string = text.string.body :=
  List.map_drop

theorem headTabRange_eq : text.headTabRange = text.string.tabPattern.map (⟨0, ·⟩) := by
  cases hs : text.string
  case nil => simp [headTabRange, hs, NSString.rangesWith, NSString.rangesWith.search, tabPattern]
  case cons c string =>
    cases hp : tabPattern (c :: string)
    case some => simp [headTabRange, hs, NSString.rangesWith, NSString.rangesWith.search, hp]
    case none =>
      simp only [headTabRange, hs, NSString.rangesWith, NSString.rangesWith.search, hp]
      cases hr : (NSString.rangesWith.search tabPattern 1 0 string).head?
      case none => simp
      case some range =>
        have h := NSString.le_location_of_mem_search <| List.mem_of_mem_head? hr
        have h : range.location ≠ 0 := by omega
        simp [h]

theorem removeHeadTabString_eq : text.removeHeadTabString = some text.body := by
  cases h : text.string.tabPattern
  case none => simp [removeHeadTabString, headTabRange_eq, body, h]
  case some length =>
    have ⟨m, rest, _, hs, hl⟩ := NSString.tabPattern_eq_some h
    have hle : length ≤ text.length := by
      rw [← string_length, hs, ← hl]
      simp
    have hr := NSRange.substring_append (text.take length) (text.drop length) []
    rw [List.append_nil, List.take_append_drop, List.length_take_of_le hle, List.length_drop] at hr
    simp only [removeHeadTabString, headTabRange_eq, body, h, Option.map_some, Option.getD_some,
      NSRange.maxLength, attributedSubstring, Int.zero_add, ← hr]
    congr 2
    omega

end NSAttributedString
end RichText
