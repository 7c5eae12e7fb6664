import SwiftProjectKit.RichText.Delegate
import SwiftProjectKit.RichText.Theorems.Ranges
import SwiftProjectKit.RichText.Theorems.Renumber

namespace RichText

open Segments (offset slice Holds Apart)

namespace NSString

variable {string seg post : NSString} {length : Nat}

theorem tabPattern_le (string : NSString) : string.tabPattern.getD 0 ≤ string.length := by
  cases h : string.tabPattern
  case none => exact Nat.zero_le _
  case some length =>
    have ⟨m, rest, _, hs, hl⟩ := tabPattern_eq_some h
    rw [hs, List.length_append, ← hl]
    exact Nat.le_add_right _ _

theorem getLast?_of_suffix {s : NSString} (hn : s ≠ []) (h : s <:+ string) : s.getLast? = string.getLast? := by
  have ⟨_, hs⟩ := h
  rw [← hs, List.getLast?_append_of_ne_nil _ hn]

theorem isParagraphSeparator_of_apart {c : unichar} (hc : seg.getLast? = some c) (hn : post ≠ [])
    (ha : Apart continues seg post) : isParagraphSeparator c := by
  have h := ha c hc _ <| List.head?_eq_some_head hn
  simp only [continues, Bool.or_eq_false_iff, Bool.not_eq_false'] at h
  exact h.left

theorem tabPattern_of_apart (hs : seg ≠ []) (ha : Apart continues seg post) :
    (seg ++ post).tabPattern = seg.tabPattern := by
  cases h : seg.tabPattern
  case some length =>
    have ⟨m, rest, hm, hs, hl⟩ := tabPattern_eq_some h
    rw [hs, List.append_assoc, tabPattern_append hm, hl]
  case none =>
    cases h' : (seg ++ post).tabPattern
    case none => rfl
    case some length =>
      have ⟨m, rest, hm, he, _⟩ := tabPattern_eq_some h'
      have hp : m <+: seg ++ post := he ▸ List.prefix_append m rest
      cases List.prefix_or_prefix_of_prefix hp <| List.prefix_append seg post
      case inl hp =>
        have ⟨rest, hr⟩ := hp
        rw [← hr, tabPattern_append hm] at h
        contradiction
      case inr hp =>
        -- The first paragraph is a part of the header, and so does not end with a separator.
        have hc := List.getLast?_eq_some_getLast hs
        have hs := hm.not_isParagraphSeparator <| hp.subset <| List.getLast_mem hs
        by_cases hn : post = []
        case pos => rw [hn, List.append_nil, h] at h'; contradiction
        case neg => exact absurd (isParagraphSeparator_of_apart hc hn ha) <| by simp [hs]

end NSString

namespace NSAttributedString

variable {text p : NSAttributedString} {range : NSRange} {f i : Nat} {x : Int}

def headerLength (p : NSAttributedString) : Nat :=
  p.string.tabPattern.getD 0

theorem headerLength_le : p.headerLength ≤ p.length :=
  p.string.tabPattern_le.trans_eq string_length

theorem attributedSubstring_slice {l : Nat} (h : f ≤ l) :
    text.attributedSubstring ⟨offset text.paragraphs f, (slice text.paragraphs f l).flatten.length⟩ =
      some (slice text.paragraphs f l).flatten := by
  have hs := NSRange.substring_append (text.paragraphs.take f).flatten (slice text.paragraphs f l).flatten
    (text.paragraphs.drop l).flatten
  rwa [← List.flatten_append, ← List.flatten_append, Segments.take_slice_drop h, flatten_paragraphs] at hs

theorem parapraghRange_eq_slice (hr : range.IsWithin text.length)
    (hf : Holds text.paragraphs f range.location.toNat) (hlt : range.location < text.length) :
    ∃ l, f < l ∧ text.parapraghRange range =
      some ⟨offset text.paragraphs f, (slice text.paragraphs f l).flatten.length⟩ := by
  have ⟨h₀, h₁, h₂⟩ : 0 ≤ range.location ∧ 0 ≤ range.length ∧ range.maxLength ≤ _ := hr
  have hm : range.maxLength = range.location + range.length := rfl
  let last := (if range.length = 0 then range.location else range.maxLength - 1).toNat
  have ⟨hle, hlast⟩ : range.location.toNat ≤ last ∧ last < text.length := by
    simp only [last]
    split <;> omega
  have hn := List.ne_nil_of_length_pos <| Nat.zero_lt_of_lt hlast
  have ⟨l, hl⟩ := exists_holds hn <| Nat.le_of_lt hlast
  have hfl := Nat.lt_succ_of_le <| hf.le_of_le hl hle
  have ho : offset text.paragraphs f + (slice text.paragraphs f (l + 1)).flatten.length = _ :=
    Segments.offset_add_slice <| Nat.le_of_lt hfl
  have hg : text.string.getParagraphStart range =
      some (offset text.paragraphs f, offset text.paragraphs (l + 1)) := by
    rw [NSString.getParagraphStart, if_pos (by rwa [string_length]), paragraphStart_eq hf (by omega)]
    exact congrArg (fun y => some (_, y)) <| paragraphEnd_eq hl
  refine ⟨l + 1, hfl, ?_⟩
  simp only [parapraghRange, hg, ← ho, Option.bind_eq_bind, Option.bind_some, Option.pure_def]
  congr 2
  omega

theorem tabPattern_slice {l : Nat} (hp : text.paragraphs[f]? = some p) (h : f < l) :
    (string (slice text.paragraphs f l).flatten).tabPattern = p.string.tabPattern := by
  have ⟨hn, _, _, ha⟩ := Segments.splitBy_getElem? (splitBy_paragraphs text) hp
  have hs : (slice text.paragraphs (f + 1) l).flatten <+: (text.paragraphs.drop (f + 1)).flatten :=
    (List.take_prefix _ _).flatten
  rw [Segments.slice_eq_cons hp h, List.flatten_cons, string_append]
  exact NSString.tabPattern_of_apart (string_ne_nil.mpr hn) <| apart_string.mpr <| Segments.apart_prefix hs ha

theorem tabStyleLengthFor_eq (hr : range.IsWithin text.length)
    (hf : Holds text.paragraphs f range.location.toNat) (hlt : range.location < text.length)
    (hp : text.paragraphs[f]? = some p) :
    text.tabStyleLengthFor range = some (p.headerLength : Int) := by
  have ⟨l, hfl, hrg⟩ := parapraghRange_eq_slice hr hf hlt
  have hpat := tabPattern_slice hp hfl
  have hle := headerLength_le (p := (slice text.paragraphs f l).flatten)
  rw [headerLength, hpat, ← headerLength] at hle
  have hb : (body (slice text.paragraphs f l).flatten).length =
      (slice text.paragraphs f l).flatten.length - p.headerLength := by
    rw [body, hpat, ← headerLength, List.length_drop]
  simp only [tabStyleLengthFor, hrg, attributedSubstring_slice (Nat.le_of_lt hfl), removeHeadTabString_eq,
    hb, Option.bind_eq_bind, Option.bind_some, Option.pure_def]
  congr 1
  omega

theorem tabStyleFor_of_getElem? [ParagraphStyles] {c : Character} {x : Nat} (h : text[x]? = some c)
    (length : Int) : text.tabStyleFor ⟨x, length⟩ = some c.attributes.tabStyle := by
  have ⟨hlt, _⟩ := List.getElem?_eq_some_iff.mp h
  have hx : ¬(x : Int) ≥ text.length := by omega
  have hm : max (x : Int) 0 = x := by omega
  have ha : text.attributes x = some c.attributes := by
    rw [attributes, if_pos (Int.natCast_nonneg x), Int.toNat_natCast, h]
    rfl
  simp only [tabStyleFor, if_neg hx, hm, if_neg (Nat.ne_of_gt <| Nat.zero_lt_of_lt hlt)]
  exact congrArg (Option.bind · _) ha

theorem exists_tabStyleFor [ParagraphStyles] (hr : range.IsWithin text.length) :
    ∃ style, text.tabStyleFor range = some style := by
  have ⟨h₀, h₁, h₂⟩ : 0 ≤ range.location ∧ 0 ≤ range.length ∧ range.maxLength ≤ _ := hr
  have hm : range.maxLength = range.location + range.length := rfl
  cases Nat.eq_zero_or_pos text.length
  case inl hl =>
    have hn := List.eq_nil_of_length_eq_zero hl
    exact ⟨.none, by rw [hn]; rfl⟩
  case inr hl =>
    let location := if range.location ≥ text.length then range.location - 1 else range.location
    have hlt : (max location 0).toNat < text.length := by
      simp only [location]
      split <;> omega
    have ha : text.attributes (max location 0) = some text[(max location 0).toNat].attributes := by
      rw [attributes, if_pos (Int.le_max_right _ _), List.getElem?_eq_getElem hlt]
      rfl
    refine ⟨text[(max location 0).toNat].attributes.tabStyle, ?_⟩
    simp only [tabStyleFor, if_neg (Nat.ne_of_gt hl)]
    exact congrArg (Option.bind · _) ha

def ReachesBody (text : NSAttributedString) (range : NSRange) : Prop :=
  ∀ (f : Nat) (p : NSAttributedString) (length : Nat), Holds text.paragraphs f range.location.toNat →
    text.paragraphs[f]? = some p → p.string.tabPattern = some length →
    offset text.paragraphs f + length ≤ range.maxLength

theorem reachesBody_iff (hf : Holds text.paragraphs f range.location.toNat) (hp : text.paragraphs[f]? = some p)
    (hl : offset text.paragraphs f ≤ range.maxLength) : text.ReachesBody range ↔
      offset text.paragraphs f + p.headerLength ≤ range.maxLength := by
  constructor
  case mp =>
    intro h
    rw [headerLength]
    cases ht : p.string.tabPattern
    case none => simpa using hl
    case some length => exact h f p length hf hp ht
  case mpr =>
    intro h i q length hi hq ht
    cases hf.unique hi
    cases Option.some.inj <| hp.symm.trans hq
    simpa [headerLength, ht] using h

variable [ParagraphStyles]

-- A position in the header of a list paragraph, behind the start of the paragraph.
def InHeader (text : NSAttributedString) (x : Int) : Prop :=
  ∃ (i : Nat) (p : NSAttributedString) (length : Nat), text.paragraphs[i]? = some p ∧ p.tab ≠ .none ∧
    p.string.tabPattern = some length ∧ offset text.paragraphs i < x ∧ x < offset text.paragraphs i + length

theorem not_inHeader (hp : text.paragraphs[f]? = some p)
    (hs : offset text.paragraphs f + p.headerLength ≤ x)
    (he : x ≤ offset text.paragraphs (f + 1)) : ¬text.InHeader x := by
  intro ⟨i, q, length, hq, _, hl, h₁, h₂⟩
  have hle : q.headerLength ≤ q.length := headerLength_le
  have ho := Segments.offset_succ hq
  rw [headerLength, hl, Option.getD_some] at hle
  rcases Nat.lt_trichotomy i f with hlt | heq | hgt
  · have hm : offset text.paragraphs (i + 1) ≤ offset text.paragraphs f := Segments.offset_mono hlt
    omega
  · subst heq
    cases Option.some.inj <| hp.symm.trans hq
    rw [headerLength, hl, Option.getD_some] at hs
    omega
  · have hm : offset text.paragraphs (f + 1) ≤ offset text.paragraphs i := Segments.offset_mono hgt
    omega

end NSAttributedString

namespace State

variable [ParagraphStyles] [UITextView] {s : State}

def SkipsHeader (s : State) : Prop :=
  s.options.enableTabStyle ∧ s.textView.selectedRange.maxLength < s.text.length ∧
    s.text.tabStyleFor s.textView.selectedRange ≠ some .none

def LeavesLineFeed (s : State) : Prop :=
  s.options.enableTabStyle ∧ s.text.length ≤ s.textView.selectedRange.maxLength ∧
    s.text.string.getLast? = some 0x0A ∧ s.text.tabStyleFor s.textView.selectedRange ≠ some .none

-- A selection that is kept out of a header goes on behind it, and another one does not start in a header.
-- One that is kept in front of a line feed is not empty.
structure SelectsText (s : State) : Prop where
  skips  : s.SkipsHeader → s.text.ReachesBody s.textView.selectedRange
  stays  : ¬s.SkipsHeader → ¬s.text.InHeader s.textView.selectedRange.location
  leaves : s.LeavesLineFeed → s.textView.selectedRange.length ≠ 0

theorem changeSelection_of_skips (hw : s.textView.selectedRange.IsWithin s.text.length) (h : s.SkipsHeader) :
    ∃ (s' : State) (f : Nat) (p : NSAttributedString) (star : Int),
      s.textViewDidChangeSelection = some s' ∧ s'.text = s.text ∧
      Holds s.text.paragraphs f s.textView.selectedRange.location.toNat ∧ s.text.paragraphs[f]? = some p ∧
      star = offset s.text.paragraphs f + p.headerLength ∧
      s'.textView.selectedRange = if star ≤ s.textView.selectedRange.location then
        s.textView.selectedRange else ⟨star, s.textView.selectedRange.maxLength - star⟩ := by
  have ⟨he, hlt, ht⟩ := h
  have ⟨h₀, h₁, h₂⟩ : 0 ≤ s.textView.selectedRange.location ∧ 0 ≤ s.textView.selectedRange.length ∧ _ := hw
  have hm : s.textView.selectedRange.maxLength = s.textView.selectedRange.location + _ := rfl
  have hn : s.text ≠ [] := List.ne_nil_of_length_pos <| by omega
  have ⟨style, hs⟩ := NSAttributedString.exists_tabStyleFor hw
  have hstyle : (style == .none) = false := by
    rw [hs] at ht
    simpa using ht
  have hx : s.textView.selectedRange.location.toNat ≤ s.text.length := by omega
  have ⟨f, hf⟩ := NSAttributedString.exists_holds hn hx
  have ⟨(p : NSAttributedString), hp⟩ := hf.exists_getElem?
  have ⟨l, _, hrg⟩ := NSAttributedString.parapraghRange_eq_slice hw hf (by omega)
  have hlen := NSAttributedString.tabStyleLengthFor_eq hw hf (by omega) hp
  let star : Int := offset s.text.paragraphs f + p.headerLength
  have hc : s.textView.selectedRange.location - offset s.text.paragraphs f ≥ p.headerLength ↔
      star ≤ s.textView.selectedRange.location := by
    simp only [star]
    omega
  have heq : s.textViewDidChangeSelection = if star ≤ s.textView.selectedRange.location then some s else
      some <| s.setSelectedRange ⟨star, s.textView.selectedRange.maxLength - star⟩ := by
    simp only [textViewDidChangeSelection, he, Int.not_le.mpr hlt, hs, hstyle, hrg, hlen, hc, Bool.not_true,
      Bool.false_eq_true, if_false, Option.bind_eq_bind, Option.bind_some, Option.pure_def]
    rfl
  split at heq
  case isTrue hstar  => exact ⟨s, f, p, star, heq, rfl, hf, hp, rfl, if_pos hstar |>.symm⟩
  case isFalse hstar => exact ⟨_, f, p, star, heq, rfl, hf, hp, rfl, if_neg hstar |>.symm⟩

theorem changeSelection_of_leaves (hw : s.textView.selectedRange.IsWithin s.text.length)
    (h : s.LeavesLineFeed) : s.textViewDidChangeSelection = some (s.setSelectedRange
      ⟨s.textView.selectedRange.location, s.textView.selectedRange.length - 1⟩) := by
  have ⟨he, hend, hl, ht⟩ := h
  have ⟨style, hs⟩ := NSAttributedString.exists_tabStyleFor hw
  have ht : style ≠ .none := by
    rw [hs] at ht
    simpa using ht
  simp [textViewDidChangeSelection, he, hend, hl, hs, ht]

theorem changeSelection_of_stays (hs : ¬s.SkipsHeader) (hl : ¬s.LeavesLineFeed) :
    s.textViewDidChangeSelection = some s := by
  by_cases he : s.options.enableTabStyle
  case neg => simp [textViewDidChangeSelection, he]
  case pos =>
    by_cases hend : s.text.length ≤ s.textView.selectedRange.maxLength
    case neg =>
      have ht : s.text.tabStyleFor s.textView.selectedRange = some .none := by
        by_contra ht
        exact hs ⟨he, Int.not_le.mp hend, ht⟩
      simp [textViewDidChangeSelection, he, hend, ht]
    case pos =>
      by_cases hf : s.text.string.getLast? = some 0x0A
      case neg => simp [textViewDidChangeSelection, he, hend, hf]
      case pos =>
        have ht : s.text.tabStyleFor s.textView.selectedRange = some .none := by
          by_contra ht
          exact hl ⟨he, hend, hf, ht⟩
        simp [textViewDidChangeSelection, he, hend, hf, ht]

theorem isWithin_of_skips (hw : s.textView.selectedRange.IsWithin s.text.length) (hs : s.SkipsHeader) :
    ∃ s', s.textViewDidChangeSelection = some s' ∧
      (s'.textView.selectedRange.IsWithin s'.text.length ∧
        ¬s'.text.InHeader s'.textView.selectedRange.location ↔ s.SelectsText) := by
  have ⟨h₀, h₁, h₂⟩ : 0 ≤ s.textView.selectedRange.location ∧ 0 ≤ s.textView.selectedRange.length ∧ _ := hw
  have hm : s.textView.selectedRange.maxLength = s.textView.selectedRange.location + _ := rfl
  have ⟨s', f, p, star, heq, ht, hf, hp, hst, hr⟩ := changeSelection_of_skips hw hs
  have hl : ¬s.LeavesLineFeed := fun hl => Int.not_le.mpr hs.right.left hl.right.left
  have h₃ := hf.offset_le
  have h₄ := hf.le_offset
  have ho := Segments.offset_succ hp
  have hle : p.headerLength ≤ p.length := NSAttributedString.headerLength_le
  have hreach := NSAttributedString.reachesBody_iff hf hp (by omega)
  have hsel : s.SelectsText ↔ star ≤ s.textView.selectedRange.maxLength :=
    ⟨fun h => hst ▸ hreach.mp (h.skips hs),
      fun h => ⟨fun _ => hreach.mpr (hst ▸ h), absurd hs, (absurd · hl)⟩⟩
  have hlast : offset s.text.paragraphs (f + 1) ≤ s.text.length := NSAttributedString.offset_paragraphs_le
  refine ⟨s', heq, ?_⟩
  rw [hsel, hr, ht]
  split
  case isTrue hstar =>
    exact iff_of_true ⟨hw, NSAttributedString.not_inHeader hp (by omega) (by omega)⟩ (by omega)
  case isFalse hstar =>
    have hn : ¬s.text.InHeader star := NSAttributedString.not_inHeader hp (by omega) (by omega)
    simp only [NSRange.IsWithin, NSRange.maxLength_sub, hn, not_false_eq_true, and_true]
    omega

theorem isWithin_of_leaves (hw : s.textView.selectedRange.IsWithin s.text.length) (hs : ¬s.SkipsHeader)
    (hl : s.LeavesLineFeed) : ∃ s', s.textViewDidChangeSelection = some s' ∧
      (s'.textView.selectedRange.IsWithin s'.text.length ∧
        ¬s'.text.InHeader s'.textView.selectedRange.location ↔ s.SelectsText) := by
  have hsel : s.SelectsText ↔ s.textView.selectedRange.length ≠ 0 ∧
      ¬s.text.InHeader s.textView.selectedRange.location :=
    ⟨fun h => ⟨h.leaves hl, h.stays hs⟩, fun h => ⟨(absurd · hs), fun _ => h.right, fun _ => h.left⟩⟩
  refine ⟨_, changeSelection_of_leaves hw hl, ?_⟩
  rw [hsel]
  refine and_congr_left' ?_
  change NSRange.IsWithin ⟨_, _⟩ s.text.length ↔ _
  simp only [NSRange.IsWithin, NSRange.maxLength] at hw ⊢
  omega

theorem textViewDidChangeSelection_isWithin (hw : s.textView.selectedRange.IsWithin s.text.length) :
    ∃ s', s.textViewDidChangeSelection = some s' ∧
      (s'.textView.selectedRange.IsWithin s'.text.length ∧
        ¬s'.text.InHeader s'.textView.selectedRange.location ↔ s.SelectsText) := by
  by_cases hs : s.SkipsHeader
  case pos => exact isWithin_of_skips hw hs
  case neg =>
    by_cases hl : s.LeavesLineFeed
    case pos => exact isWithin_of_leaves hw hs hl
    case neg =>
      refine ⟨s, changeSelection_of_stays hs hl, fun h => ?_, fun h => ⟨hw, h.stays hs⟩⟩
      exact ⟨(absurd · hs), fun _ => h.right, (absurd · hl)⟩

end State

namespace Sample

def caretInHeader : State where
  textView := {
    attributedText   := paragraph "\t•\tab" .ul
    selectedRange    := ⟨1, 0⟩
    typingAttributes := fun _ => none }

end Sample

namespace State

theorem sample_isWithin :
    ∃ s', @textViewDidChangeSelection Sample.styles Sample.behaviour Sample.caretInHeader = some s' ∧
      (s'.textView.selectedRange.IsWithin s'.text.length ∧
        ¬@NSAttributedString.InHeader Sample.styles s'.text s'.textView.selectedRange.location ↔
          @SelectsText Sample.styles Sample.caretInHeader) :=
  @textViewDidChangeSelection_isWithin Sample.styles Sample.behaviour Sample.caretInHeader <| by decide

theorem caretInHeader_negative :
    Sample.caretInHeader.textView.selectedRange.IsWithin Sample.caretInHeader.text.length ∧
    (@textViewDidChangeSelection Sample.styles Sample.behaviour Sample.caretInHeader).map
        (fun s' => (s'.textView.selectedRange, s'.text.length)) = some (⟨3, -2⟩, 5) ∧
    ¬NSRange.IsWithin ⟨3, -2⟩ 5 := by
  decide +kernel

end State
end RichText
