import SwiftProjectKit.RichText.Delegate
import SwiftProjectKit.RichText.Theorems.Convert

namespace RichText

open Segments (slice mapSlice)

namespace NSString

variable {string : NSString} {style : RZTextTabStyle} {i : Nat}

theorem body_eq_self (h : string.tabPattern = none) : string.body = string := by
  rw [body, h]
  rfl

theorem body_renumber (h : string.tabPattern = none) : (renumber style i string).body = string := by
  cases style
  case none => exact body_eq_self h
  all_goals rw [renumber, body_append <| isHeader_header _ i, body_eq_self h]

theorem length_le_renumber (h : string.tabPattern = none) :
    string.length ≤ (renumber style i string).length := by
  cases style
  case none => rfl
  all_goals
    rw [renumber, body_eq_self h, List.length_append]
    exact Nat.le_add_left _ _

end NSString

-- The list style and the characters of a paragraph.
abbrev Line := RZTextTabStyle × NSString

def Line.renumber (v : Line) (i : Nat) : Line :=
  (v.fst, NSString.renumber v.fst i v.snd)

def Line.renumberAll (lines : List Line) : List Line :=
  List.zipWith Line.renumber lines <| Runs.ranks <| lines.map Prod.fst

theorem Line.map_fst_renumberAll {lines : List Line} :
    (renumberAll lines).map Prod.fst = lines.map Prod.fst :=
  List.ext_getElem (by simp [renumberAll]) fun i _ _ => by simp [renumberAll, Line.renumber]

theorem Line.take_renumberAll {lines : List Line} {i : Nat} :
    (renumberAll lines).take i = renumberAll (lines.take i) := by
  rw [renumberAll, List.take_zipWith, Runs.ranks_take, ← List.map_take, renumberAll]

namespace NSAttributedString

variable {text new : NSAttributedString} {ps : List NSAttributedString} {ranks : List Nat}

theorem paragraphs_flatten (h : (ps.map string).flatten.splitBy NSString.continues = ps.map string) :
    paragraphs ps.flatten = ps := by
  have hs : (paragraphs ps.flatten).map string = ps.map string := by
    rw [← paragraphs_string, string, List.map_flatten]
    exact h
  refine List.eq_iff_flatten_eq.mpr ⟨flatten_paragraphs, ?_⟩
  have hl := congrArg (List.map List.length) hs
  simpa [Function.comp_def] using hl

variable [ParagraphStyles]

def line (p : NSAttributedString) : Line :=
  (p.tab, p.string)

def lines (text : NSAttributedString) : List Line :=
  text.paragraphs.map line

theorem map_snd_lines : text.lines.map Prod.snd = text.string.paragraphs := by
  rw [paragraphs_string, lines, List.map_map]
  rfl

theorem map_fst_lines : text.lines.map Prod.fst = text.paragraphs.map tab := by
  rw [lines, List.map_map]
  rfl

theorem map_line_renumberAll : (renumberAll ps).map line = Line.renumberAll (ps.map line) := by
  rw [renumberAll, Line.renumberAll, List.map_zipWith, List.zipWith_map_left, List.map_map]
  refine congrArg₂ (List.zipWith · ps ·) (funext fun p => funext fun i => ?_) rfl
  rw [line, tab_renumber, string_renumber]
  rfl

omit [ParagraphStyles] in
theorem renumberAll_zipWith {lines : List Line} (h : ranks.length = lines.length) :
    Line.renumberAll (List.zipWith Line.renumber lines ranks) = Line.renumberAll lines := by
  have hf : (List.zipWith Line.renumber lines ranks).map Prod.fst = lines.map Prod.fst :=
    List.ext_getElem (by simp [h]) fun i _ _ => by simp [Line.renumber]
  rw [Line.renumberAll, hf, Line.renumberAll]
  refine List.ext_getElem (by simp [h]) fun i _ _ => ?_
  simp [Line.renumber, NSString.renumber_renumber]

theorem paragraphs_of_lines (h : ps.map line = List.zipWith Line.renumber text.lines ranks) :
    paragraphs ps.flatten = ps := by
  have hs : ps.map string = List.zipWith (fun s v => NSString.renumber v.fst v.snd s)
      text.string.paragraphs ((text.lines.map Prod.fst).zip ranks) := by
    have hm : ps.map string = (ps.map line).map Prod.snd := by
      rw [List.map_map]
      rfl
    rw [hm, h, ← map_snd_lines]
    exact List.ext_getElem (by simp) fun i _ _ => by simp [Line.renumber]
  refine paragraphs_flatten ?_
  rw [hs]
  have hp : text.string.paragraphs.flatten.splitBy NSString.continues = text.string.paragraphs :=
    congrArg NSString.paragraphs <| List.flatten_splitBy _ _
  exact Segments.splitBy_zipWith hp NSString.renumber_ne_nil NSString.isChain_renumber
    NSString.apart_renumber

section

variable (ht : ∀ (p : NSParagraphStyle) s, (p.transParagraphTo s).tabStyle = s)
include ht

theorem lines_unified : text.unified.lines = text.lines := by
  rw [lines, paragraphs_unified, List.map_map, lines]
  refine List.map_congr_left fun p _ => ?_
  rw [Function.comp_apply, line, tab_unified ht, string_unified, line]

theorem lines_reset (h : text.resetTabOrderNumber = some new) :
    new.lines = Line.renumberAll text.lines := by
  rw [lines, paragraphs_reset h, map_line_renumberAll, ← lines, lines_unified ht]

variable {range : NSRange} {style : RZTextTabStyle} {f l : Nat}

theorem transParagraphsTo_lines (h : range.Spans text.paragraphs f l)
    (hb : ∀ p ∈ slice text.paragraphs f (l + 1), body p ≠ [])
    (hp : paragraphs (mapSlice (convertedBody style) text.paragraphs f (l + 1)).flatten =
      mapSlice (convertedBody style) text.paragraphs f (l + 1)) :
    ∃ new, text.transParagraphsTo range style = some new ∧ new.lines =
      Line.renumberAll ((mapSlice (convertedBody style) text.paragraphs f (l + 1)).map line) := by
  have hr := resetTabOrderNumber_eq (mapSlice (convertedBody style) text.paragraphs f (l + 1)).flatten
  refine ⟨_, (transParagraphsTo_eq h hb).trans hr, ?_⟩
  rw [lines_reset ht hr, lines, hp]

theorem transParagraphsTo_ranks (h : range.Spans text.paragraphs f l)
    (hb : ∀ p ∈ slice text.paragraphs f (l + 1), body p ≠ [])
    (hp : paragraphs (mapSlice (convertedBody style) text.paragraphs f (l + 1)).flatten =
      mapSlice (convertedBody style) text.paragraphs f (l + 1)) :
    ∃ new ranks, text.transParagraphsTo range style = some new ∧ ranks.length = text.paragraphs.length ∧
      new.paragraphs.length = text.paragraphs.length ∧ new.lines =
        List.zipWith Line.renumber ((mapSlice (convertedBody style) text.paragraphs f (l + 1)).map line)
          ranks := by
  have hlen : (mapSlice (convertedBody style) text.paragraphs f (l + 1)).length = text.paragraphs.length :=
    Segments.mapSlice_length <| Nat.le_succ_of_le h.le
  have ⟨new, hnew, hlines⟩ := transParagraphsTo_lines ht h hb hp
  have hl := congrArg List.length hlines
  simp only [lines, Line.renumberAll, List.length_map, List.length_zipWith, Runs.ranks_length, hlen,
    Nat.min_self] at hl
  exact ⟨new, _, hnew, by simp [hlen], hl, hlines⟩

end

-- A part of a text none of whose paragraphs belongs to a list or looks like an item of one.
def IsPlain (text : NSAttributedString) (f l : Nat) : Prop :=
  ∀ (i : Nat) (p : NSAttributedString), f ≤ i → i ≤ l → text.paragraphs[i]? = some p →
    p.tab = .none ∧ p.string.tabPattern = none

variable {f l : Nat}

structure Toggled (text new : NSAttributedString) (f l : Nat) (ranks : List Nat) : Prop where
  length_eq    : new.paragraphs.length = text.paragraphs.length
  ranks_length : ranks.length = text.paragraphs.length
  renumber     : ∀ (i r : Nat) (p q : NSAttributedString), text.paragraphs[i]? = some p →
    new.paragraphs[i]? = some q → ranks[i]? = some r → q.string = NSString.renumber q.tab r p.string
  tab          : ∀ (i : Nat) (p q : NSAttributedString), text.paragraphs[i]? = some p →
    new.paragraphs[i]? = some q → ¬(f ≤ i ∧ i < l + 1) → q.tab = p.tab

theorem Toggled.exists_of_getElem? {i : Nat} {p : NSAttributedString}
    (h : Toggled text new f l ranks) (hp : text.paragraphs[i]? = some p) :
    ∃ q r, new.paragraphs[i]? = some q ∧ ranks[i]? = some r ∧
      q.string = NSString.renumber q.tab r p.string := by
  have ⟨hi, _⟩ := List.getElem?_eq_some_iff.mp hp
  have hq := List.getElem?_eq_getElem <| h.length_eq.symm ▸ hi
  have hr := List.getElem?_eq_getElem <| h.ranks_length.symm ▸ hi
  exact ⟨_, _, hq, hr, h.renumber _ _ _ _ hp hq hr⟩

theorem Toggled.body_eq {i : Nat} {p q : NSAttributedString} (h : Toggled text new f l ranks)
    (ht : text.IsPlain f l) (hi : f ≤ i ∧ i < l + 1) (hp : text.paragraphs[i]? = some p)
    (hq : new.paragraphs[i]? = some q) : q.string.body = p.string ∧ p.string.length ≤ q.string.length := by
  have ⟨_, hn⟩ := ht i p hi.left (by omega) hp
  have ⟨_, _, hq', _, hs⟩ := h.exists_of_getElem? hp
  cases Option.some.inj <| hq.symm.trans hq'
  exact hs ▸ ⟨NSString.body_renumber hn, NSString.length_le_renumber hn⟩

variable {range : NSRange} {style : RZTextTabStyle}

theorem string_convertedBody {p : NSAttributedString} (h : p.string.tabPattern = none) :
    (convertedBody style p).string = p.string := by
  rw [convertedBody, string_converted, string_body, NSString.body_eq_self h]

theorem IsPlain.getElem?_mapSlice (style : RZTextTabStyle) (h : text.IsPlain f l) (hle : f ≤ l)
    (hl : l < text.paragraphs.length) {i : Nat} {p : NSAttributedString}
    (hp : text.paragraphs[i]? = some p) : ∃ p',
      (mapSlice (convertedBody style) text.paragraphs f (l + 1))[i]? = some p' ∧
        string p' = p.string ∧ (¬(f ≤ i ∧ i < l + 1) → tab p' = p.tab) := by
  rw [Segments.getElem?_mapSlice (Nat.le_succ_of_le hle) hl, hp]
  by_cases hi : f ≤ i ∧ i < l + 1
  case pos =>
    have ⟨_, hn⟩ := h i p hi.left (by omega) hp
    exact ⟨_, if_pos hi, string_convertedBody hn, fun hn => absurd hi hn⟩
  case neg => exact ⟨p, if_neg hi, rfl, fun _ => rfl⟩

theorem IsPlain.map_string_mapSlice (style : RZTextTabStyle) (h : text.IsPlain f l) (hle : f ≤ l)
    (hl : l < text.paragraphs.length) :
    (mapSlice (convertedBody style) text.paragraphs f (l + 1)).map string =
      text.paragraphs.map string := by
  refine List.ext_getElem ?_ fun i _ hi => ?_
  · rw [List.length_map, Segments.mapSlice_length (Nat.le_succ_of_le hle), List.length_map]
  rw [List.length_map] at hi
  have ⟨p', hp', hs, _⟩ := h.getElem?_mapSlice style hle hl <| List.getElem?_eq_getElem hi
  rw [List.getElem_map, List.getElem_map, ← hs]
  exact congrArg string (List.getElem?_eq_some_iff.mp hp').snd

omit [ParagraphStyles] in
theorem body_ne_nil {p s : NSAttributedString} {i : Nat} (hs : text.paragraphs[i]? = some s)
    (h : p.string.body = s.string) : p.body ≠ [] := by
  have hn := string_ne_nil.mpr <| List.ne_nil_of_mem_splitBy <| List.mem_of_getElem? hs
  exact string_ne_nil.mp <| by rwa [string_body, h]

theorem line_of_lines {p q : NSAttributedString} {i r : Nat}
    (h : new.lines = List.zipWith Line.renumber (ps.map line) ranks) (hp : ps[i]? = some p)
    (hq : new.paragraphs[i]? = some q) (hr : ranks[i]? = some r) :
    q.tab = p.tab ∧ q.string = NSString.renumber p.tab r p.string := by
  have h := congrArg (·[i]?) h
  simp only [lines, List.getElem?_map, List.getElem?_zipWith, hp, hq, hr, Option.map_some] at h
  exact Prod.mk.inj <| Option.some.inj h

section

variable (ht : ∀ (p : NSParagraphStyle) s, (p.transParagraphTo s).tabStyle = s)
include ht

theorem IsPlain.toggled (style : RZTextTabStyle) (h : text.IsPlain f l)
    (hs : range.Spans text.paragraphs f l) :
    ∃ new ranks, text.transParagraphsTo range style = some new ∧ Toggled text new f l ranks := by
  have hle := hs.le
  have hl : l + 1 ≤ text.paragraphs.length := hs.last.lt_length
  have hb : ∀ p ∈ slice text.paragraphs f (l + 1), body p ≠ [] := fun p hp => by
    have ⟨i, hi, hi', hp⟩ := Segments.mem_slice hl hp
    have ⟨_, hn⟩ := h i p hi (by omega) hp
    exact body_ne_nil hp <| NSString.body_eq_self hn
  have hstr := h.map_string_mapSlice style hle hl
  have hpar := paragraphs_flatten <| by
    rw [hstr, ← paragraphs_string]
    exact congrArg NSString.paragraphs <| List.flatten_splitBy _ _
  have ⟨new, ranks, hnew, hrl, hlen, hlines⟩ := transParagraphsTo_ranks ht hs hb hpar
  refine ⟨new, ranks, hnew, hlen, hrl, fun i r p q hp hq hr => ?_, fun i p q hp hq hi => ?_⟩
  · have ⟨p', hp', hs', _⟩ := h.getElem?_mapSlice style hle hl hp
    have ⟨htab, hstr⟩ := line_of_lines hlines hp' hq hr
    rw [hstr, htab, hs']
  · have ⟨p', hp', _, ht'⟩ := h.getElem?_mapSlice style hle hl hp
    have hi' : i < ranks.length := hrl ▸ (List.getElem?_eq_some_iff.mp hp).fst
    have ⟨htab, _⟩ := line_of_lines hlines hp' hq <| List.getElem?_eq_getElem hi'
    rw [htab, ht' hi]

theorem tab_convertedBody_none {p : NSAttributedString} : (convertedBody .none p).tab = .none :=
  tab_converted_none ht

theorem Toggled.map_line_mapSlice (h : Toggled text new f l ranks) (hp : text.IsPlain f l)
    (hle : f ≤ l) (hl : l < text.paragraphs.length) :
    (mapSlice (convertedBody .none) new.paragraphs f (l + 1)).map line =
      List.zipWith Line.renumber text.lines ranks := by
  have hl' : l + 1 ≤ new.paragraphs.length := h.length_eq.symm ▸ hl
  refine List.ext_getElem? fun i => ?_
  rw [List.getElem?_map, Segments.getElem?_mapSlice (Nat.le_succ_of_le hle) hl', List.getElem?_zipWith,
    lines, List.getElem?_map]
  cases hi : text.paragraphs[i]?
  case none =>
    have hq : new.paragraphs[i]? = none := by
      rw [List.getElem?_eq_none_iff, h.length_eq]
      exact List.getElem?_eq_none_iff.mp hi
    simp [hq]
  case some p =>
    have ⟨q, r, hq, hr, hs⟩ := h.exists_of_getElem? hi
    simp only [hq, hr, Option.map_some]
    by_cases hin : f ≤ i ∧ i < l + 1
    case pos =>
      have ⟨htab, _⟩ := hp i p hin.left (by omega) hi
      have ⟨hb, _⟩ := h.body_eq hp hin hi hq
      have hq : (convertedBody .none q).line = (.none, p.string) := by
        rw [line, tab_convertedBody_none ht, convertedBody, string_converted, string_body, hb]
      rw [if_pos hin, Option.map_some, hq, line, htab]
      rfl
    case neg =>
      rw [if_neg hin, Option.map_some, line, hs, h.tab i p q hi hq hin]
      rfl

theorem Toggled.back (h : Toggled text new f l ranks) (hp : text.IsPlain f l)
    (hs : range.Spans new.paragraphs f l) (hfix : Line.renumberAll text.lines = text.lines) :
    ∃ back, new.transParagraphsTo range .none = some back ∧ back.lines = text.lines := by
  have hl : l + 1 ≤ new.paragraphs.length := hs.last.lt_length
  have hlines := h.map_line_mapSlice ht hp hs.le <| h.length_eq ▸ hl
  have hb : ∀ q ∈ slice new.paragraphs f (l + 1), body q ≠ [] := fun q hq => by
    have ⟨i, hi, hi', hq⟩ := Segments.mem_slice hl hq
    have ⟨hlt, _⟩ := List.getElem?_eq_some_iff.mp hq
    have ht := List.getElem?_eq_getElem <| h.length_eq ▸ hlt
    have ⟨hb, _⟩ := h.body_eq hp ⟨hi, hi'⟩ ht hq
    exact body_ne_nil ht hb
  have ⟨back, hback, hl'⟩ := transParagraphsTo_lines ht hs hb <| paragraphs_of_lines hlines
  refine ⟨back, hback, ?_⟩
  rw [hl', hlines, renumberAll_zipWith, hfix]
  simp [h.ranks_length, lines]

end

theorem tabStyleFor_paragraph {i : Nat}
    (h : (NSRange.consecutive 0 text.paragraphs)[i]? = some range) :
    text.tabStyleFor range = text.paragraphs[i]?.map tab := by
  rw [NSRange.getElem?_consecutive] at h
  have ⟨p, hp, hr⟩ := Option.map_eq_some_iff.mp h
  have hn : p ≠ [] := List.ne_nil_of_mem_splitBy <| List.mem_of_getElem? hp
  have hs : tabStyleFor ((text.paragraphs.take i).flatten ++ p ++ (text.paragraphs.drop (i + 1)).flatten)
      _ = some (tab p) := tabStyleFor_append hn
  rw [Segments.flatten_eq hp, flatten_paragraphs] at hs
  rw [← hr, Int.zero_add, hp]
  exact hs

-- The paragraphs of two texts have the same ranges, characters and list styles.
structure SameParagraphs (text new : NSAttributedString) : Prop where
  string : new.string = text.string
  ranges : new.allParapraghRange = text.allParapraghRange
  tabs   : ∀ ranges, text.allParapraghRange = some ranges → ∀ range ∈ ranges,
    new.tabStyleFor range = text.tabStyleFor range

theorem sameParagraphs_of_lines (h : new.lines = text.lines) : SameParagraphs text new := by
  have hs : new.string.paragraphs = text.string.paragraphs := by rw [← map_snd_lines, h, map_snd_lines]
  have hc : NSRange.consecutive 0 new.paragraphs = NSRange.consecutive 0 text.paragraphs := by
    rw [← consecutive_paragraphs_string, hs, consecutive_paragraphs_string]
  refine ⟨?_, by rw [allParapraghRange_eq, hc, allParapraghRange_eq], fun ranges hr range hm => ?_⟩
  · rw [← flatten_map_string, ← paragraphs_string, hs, paragraphs_string, flatten_map_string]
  · cases Option.some.inj <| text.allParapraghRange_eq.symm.trans hr
    have ⟨i, hi⟩ := List.getElem?_of_mem hm
    have ht := congrArg (·[i]?) <| congrArg (List.map Prod.fst) h
    simp only [map_fst_lines, List.getElem?_map] at ht
    rw [tabStyleFor_paragraph hi, tabStyleFor_paragraph (hc ▸ hi), ht]

theorem isPlain_of_paragraphRanges {ranges : List NSRange} (hs : range.Spans text.paragraphs f l)
    (hr : text.paragraphRanges range = some ranges)
    (h : ∀ rg ∈ ranges, text.tabStyleFor rg = some .none ∧
      (text.attributedSubstring rg).bind headTabRange = none) : text.IsPlain f l := by
  intro i p hi hi' hp
  cases Option.some.inj <| (paragraphRanges_eq hs).symm.trans hr
  have hrg := NSRange.getElem?_consecutive_zero (List.getElem?_eq_some_iff.mp hp).fst
  have hm : (NSRange.consecutive (Segments.offset text.paragraphs f) _)[i - f]? = _ :=
    NSRange.getElem?_consecutive_slice (j := l + 1) (by omega)
  rw [Nat.add_sub_cancel' hi, hrg] at hm
  have ⟨ht, hh⟩ := h _ <| List.mem_of_getElem? hm
  rw [tabStyleFor_paragraph hrg, hp] at ht
  rw [attributedSubstring_paragraph hrg, hp, Option.bind_some, headTabRange_eq,
    Option.map_eq_none_iff] at hh
  exact ⟨Option.some.inj ht, hh⟩

section

variable (ht : ∀ (p : NSParagraphStyle) s, (p.transParagraphTo s).tabStyle = s)
include ht

theorem lines_fixed (h : text.resetTabOrderNumber.map string = some text.string) :
    Line.renumberAll text.lines = text.lines := by
  have ⟨new, hnew, hs⟩ := Option.map_eq_some_iff.mp h
  have hl := lines_reset ht hnew
  have hfst : new.lines.map Prod.fst = text.lines.map Prod.fst := by
    rw [map_fst_lines, paragraphs_reset hnew, map_tab_renumberAll, map_tab_unified ht, map_fst_lines]
  have hsnd : new.lines.map Prod.snd = text.lines.map Prod.snd := by
    rw [map_snd_lines, hs, map_snd_lines]
  have hz (lines : List Line) : (lines.map Prod.fst).zip (lines.map Prod.snd) = lines := by
    rw [← List.unzip_fst, ← List.unzip_snd, List.zip_unzip]
  rw [← hl, ← hz new.lines, hfst, hsnd, hz]

theorem transParagraphsTo_back (style : RZTextTabStyle) (hp : text.IsPlain f l)
    (hs : range.Spans text.paragraphs f l)
    (hfix : text.resetTabOrderNumber.map string = some text.string) :
    ∃ new newRange back backRange, text.transParagraphsTo range style = some new ∧
      text.newRangeFor range new = some newRange ∧ new.transParagraphsTo newRange .none = some back ∧
      new.newRangeFor newRange back = some backRange ∧ SameParagraphs text back := by
  have hfix := lines_fixed ht hfix
  have ⟨new, ranks, hnew, ht'⟩ := hp.toggled ht style hs
  have hrange := newRangeFor_eq hs <| ht'.length_eq.symm ▸ hs.last.lt_length
  have hs' := spans_moved hs ht'.length_eq fun i p q hi hp' hq => by
    have ⟨_, hl⟩ := ht'.body_eq hp hi hp' hq
    simpa using hl
  have ⟨back, hback, hlines⟩ := ht'.back ht hp hs' hfix
  have hlen : back.paragraphs.length = new.paragraphs.length := by
    have h := congrArg List.length hlines
    simpa [lines, ht'.length_eq] using h
  exact ⟨new, _, back, _, hnew, hrange, hback, newRangeFor_eq hs' <| hlen.symm ▸ hs'.last.lt_length,
    sameParagraphs_of_lines hlines⟩

end

end NSAttributedString

namespace State

open NSAttributedString (SameParagraphs)

variable [ParagraphStyles] [UITextView]

theorem insetOrDeleteTabStyle_eq {s : State} {style : RZTextTabStyle} {new : NSAttributedString}
    {newRange : NSRange} (hs : s.text = [] → style = .none)
    (hnew : s.text.transParagraphsTo s.textView.selectedRange style = some new)
    (hr : s.text.newRangeFor s.textView.selectedRange new = some newRange) :
    s.insetOrDeleteTabStyle style =
      some { s.setAttributedText new with mainQueue := s.mainQueue ++ [newRange] } := by
  rw [insetOrDeleteTabStyle, if_neg (by simpa using hs)]
  simp only [pure_bind, hnew, hr, Option.bind_eq_bind, Option.bind_some]
  rfl

-- Making a list out of paragraphs that are in none and removing the list again, with the selection
-- that the first step assigns, changes neither characters nor list styles. The text is numbered already.
theorem insetOrDeleteTabStyle_toggle
    (ht : ∀ (p : NSParagraphStyle) style, (p.transParagraphTo style).tabStyle = style)
    {s : State} {ranges : List NSRange} (style : RZTextTabStyle) (hn : s.text ≠ [])
    (hfix : s.text.resetTabOrderNumber.map (·.string) = some s.text.string)
    (hw : s.textView.selectedRange.IsWithin s.text.length)
    (hr : s.text.paragraphRanges s.textView.selectedRange = some ranges)
    (hp : ∀ rg ∈ ranges, s.text.tabStyleFor rg = some .none ∧
      (s.text.attributedSubstring rg).bind (·.headTabRange) = none) :
    ∃ s₁ newRange s₂, s.insetOrDeleteTabStyle style = some s₁ ∧
      s₁.mainQueue = s.mainQueue ++ [newRange] ∧
      s.text.newRangeFor s.textView.selectedRange s₁.text = some newRange ∧
      (s₁.setSelectedRange newRange).insetOrDeleteTabStyle .none = some s₂ ∧
      SameParagraphs s.text s₂.text := by
  have ⟨f, l, hs⟩ := NSAttributedString.exists_spans hn hw
  have hplain := NSAttributedString.isPlain_of_paragraphRanges hs hr hp
  have ⟨new, newRange, back, backRange, h₁, h₂, h₃, h₄, h₅⟩ :=
    NSAttributedString.transParagraphsTo_back ht style hplain hs hfix
  let s₁ : State := { s.setAttributedText new with mainQueue := s.mainQueue ++ [newRange] }
  have hs₁ : s.insetOrDeleteTabStyle style = some s₁ :=
    insetOrDeleteTabStyle_eq (absurd · hn) h₁ h₂
  have hs₂ := insetOrDeleteTabStyle_eq (s := s₁.setSelectedRange newRange) (fun _ => rfl) h₃ h₄
  exact ⟨s₁, newRange, _, hs₁, rfl, h₂, hs₂, h₅⟩

end State

namespace Sample

def separated : State where
  textView := {
    attributedText   := paragraph "\t1.\ta\n" .ol ++ paragraph "b\n" .none ++ paragraph "\t1.\tc" .ol
    selectedRange    := ⟨7, 0⟩
    typingAttributes := fun _ => none }

end Sample

namespace State

theorem sample_toggle :
    ∃ s₁ newRange s₂,
      @insetOrDeleteTabStyle Sample.styles Sample.behaviour Sample.separated .ol = some s₁ ∧
      s₁.mainQueue = Sample.separated.mainQueue ++ [newRange] ∧
      Sample.separated.text.newRangeFor Sample.separated.textView.selectedRange s₁.text =
        some newRange ∧
      @insetOrDeleteTabStyle Sample.styles Sample.behaviour
        (@setSelectedRange Sample.behaviour s₁ newRange) .none = some s₂ ∧
      @NSAttributedString.SameParagraphs Sample.styles Sample.separated.text s₂.text :=
  @insetOrDeleteTabStyle_toggle Sample.styles Sample.behaviour Sample.tabStyle_transParagraphTo
    Sample.separated [⟨6, 2⟩] .ol (by decide) (by decide +kernel) (by decide +kernel)
    (by decide +kernel) (by decide +kernel)

end State
end RichText
