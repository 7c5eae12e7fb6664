import SwiftProjectKit.RichText.Theorems.Toggle

namespace RichText

open Segments (offset slice mapSlice Holds)

namespace NSString

variable {string : NSString} {style : RZTextTabStyle}

-- What is left of a paragraph when it is converted to a list style. A list paragraph loses another header,
-- if there is one behind the first, when it is renumbered.
def rest (style : RZTextTabStyle) (string : NSString) : NSString :=
  match style with
  | .none     => string.body
  | .ul | .ol => string.body.body

theorem rest_suffix_renumber {tab : RZTextTabStyle} {i : Nat} (h : style = .none → tab = .none) :
    rest style string <:+ renumber tab i string.body := by
  cases style
  case none =>
    cases h rfl
    exact List.suffix_rfl
  all_goals
    cases tab
    case none => exact body_suffix _
    all_goals exact List.suffix_append _ _

theorem rest_suffix : rest style string <:+ string := by
  cases style
  case none => exact body_suffix _
  all_goals exact (body_suffix _).trans <| body_suffix _

end NSString

namespace NSAttributedString

variable {text new : NSAttributedString} {ps : List NSAttributedString}

def UsesLineFeeds (text : NSAttributedString) : Prop :=
  ∀ c ∈ text.string, NSString.isParagraphSeparator c → c = 0x0A

def HasBodies (text : NSAttributedString) : Prop :=
  ∀ p ∈ text.paragraphs, p.string.tabPattern ≠ some p.length

instance : Decidable text.UsesLineFeeds :=
  List.decidableBAll (fun c => NSString.isParagraphSeparator c → c = 0x0A) text.string

instance : Decidable text.HasBodies :=
  List.decidableBAll (fun p : NSAttributedString => p.string.tabPattern ≠ some p.length) text.paragraphs

theorem HasBodies.body_ne_nil (h : text.HasBodies) {p : NSAttributedString} (hp : p ∈ text.paragraphs) :
    p.body ≠ [] := by
  cases ht : p.string.tabPattern
  case none =>
    have hn : p ≠ [] := List.ne_nil_of_mem_splitBy hp
    simpa [body, ht] using hn
  case some length =>
    obtain ⟨m, rest, _, hs, hl⟩ := NSString.tabPattern_eq_some ht
    have hle := congrArg List.length hs
    have hne := h p hp
    rw [ht, ne_eq, Option.some.injEq] at hne
    rw [string_length, List.length_append] at hle
    simp only [body, ht, Option.getD_some, ne_eq, List.drop_eq_nil_iff]
    omega

theorem paragraphs_of_suffix (hn : text.UsesLineFeeds) (hl : ps.length = text.paragraphs.length)
    (h : ∀ (i : Nat) p q, text.paragraphs[i]? = some p → ps[i]? = some q → q ≠ [] ∧ string q <:+ p.string) :
    paragraphs ps.flatten = ps := by
  have hf : (text.paragraphs.map string).flatten = text.string := flatten_map_string
  apply paragraphs_flatten
  apply Segments.splitBy_of_suffix
  case hs =>
    rw [hf, ← paragraphs_string]
    rfl
  case hl => rw [List.length_map, hl, List.length_map]
  case hr =>
    intro c hc d d' hd
    simp only [NSString.continues, Bool.or_eq_false_iff, Bool.not_eq_false'] at hd
    have hc := hn c (hf ▸ hc) hd.left
    subst hc
    rfl
  case h =>
    intro i p q hp hq
    rw [List.getElem?_map] at hp hq
    obtain ⟨p', hp', hp⟩ := Option.map_eq_some_iff.mp hp
    obtain ⟨q', hq', hq⟩ := Option.map_eq_some_iff.mp hq
    obtain ⟨hne, hs⟩ := h i p' q' hp' hq'
    exact hp ▸ hq ▸ ⟨string_ne_nil.mpr hne, hs⟩

variable {range : NSRange} {style : RZTextTabStyle} {f l i : Nat} {p q : NSAttributedString}

-- Where a position in a paragraph goes to if the text is converted to a list style.
structure KeepsPosition (text new : NSAttributedString) (style : RZTextTabStyle) (i : Nat) (x x' : Int) :
    Prop where
  holds    : Holds text.paragraphs i x.toNat
  start    : offset new.paragraphs i ≤ x'
  «end»    : x' ≤ offset new.paragraphs (i + 1)
  distance : x' = max (offset new.paragraphs (i + 1) - (offset text.paragraphs (i + 1) - x))
    (offset new.paragraphs i)
  rest     : ∀ p q, text.paragraphs[i]? = some p → new.paragraphs[i]? = some q →
    offset text.paragraphs (i + 1) ≤ x + (NSString.rest style p.string).length →
    q.string.drop (x' - offset new.paragraphs i).toNat = p.string.drop (x - offset text.paragraphs i).toNat

theorem drop_eq_of_suffix {s t r : NSString} {x y : Nat} (hs : r <:+ s) (ht : r <:+ t)
    (hx : s.length ≤ x + r.length) (hy : s.length + y = t.length + x) : s.drop x = t.drop y := by
  have ⟨s', hs⟩ := hs
  have ⟨t', ht⟩ := ht
  subst hs ht
  simp only [List.length_append] at hx hy
  have hs : s'.drop x = [] := List.drop_eq_nil_of_le <| by omega
  have ht : t'.drop y = [] := List.drop_eq_nil_of_le <| by omega
  have h : x - s'.length = y - t'.length := by omega
  rw [List.drop_append, List.drop_append, hs, ht, h]

theorem keepsPosition_moved {x : Int} (hx : 0 ≤ x) (h : Holds text.paragraphs i x.toNat)
    (hr : ∀ p q, text.paragraphs[i]? = some p → new.paragraphs[i]? = some q →
      NSString.rest style p.string <:+ q.string) :
    KeepsPosition text new style i x (moved text.paragraphs new.paragraphs i x) := by
  have h₁ := h.offset_le
  have h₂ := h.le_offset
  have ho : offset new.paragraphs i ≤ offset new.paragraphs (i + 1) := Segments.offset_mono <| Nat.le_succ i
  refine ⟨h, ?_, ?_, rfl, fun p q hp hq hl => ?_⟩
  · exact Int.le_max_right _ _
  · simp only [moved]
    omega
  · have hs : NSString.rest style p.string <:+ p.string := NSString.rest_suffix
    have hr := hr p q hp hq
    have hpo := Segments.offset_succ hp
    have hqo := Segments.offset_succ hq
    have hrl := hr.length_le
    rw [string_length] at hrl
    refine drop_eq_of_suffix hr hs ?_ ?_
    all_goals
      simp only [string_length, moved]
      omega

theorem moved_le_moved (new : NSAttributedString) (h : range.Spans text.paragraphs f l) :
    moved text.paragraphs new.paragraphs f range.location ≤
      moved text.paragraphs new.paragraphs l range.maxLength := by
  have ⟨h₀, h₁, _⟩ : 0 ≤ range.location ∧ 0 ≤ range.length ∧ range.maxLength ≤ _ := h.isWithin
  have hm : range.maxLength = range.location + range.length := rfl
  have hf := h.first.le_offset
  simp only [moved]
  cases Nat.eq_or_lt_of_le h.le
  case inl he => subst he; omega
  case inr hlt =>
    have ho : offset new.paragraphs (f + 1) ≤ offset new.paragraphs l := Segments.offset_mono hlt
    have ho' : offset new.paragraphs f ≤ offset new.paragraphs (f + 1) := Segments.offset_mono <| Nat.le_succ f
    omega

variable [ParagraphStyles]

theorem convertedBody_ne_nil (h : p.body ≠ []) : convertedBody style p ≠ [] := by
  rw [← string_ne_nil, convertedBody, string_converted]
  exact string_ne_nil.mpr h

theorem paragraphs_mapSlice (style : RZTextTabStyle) (hn : text.UsesLineFeeds) (hb : text.HasBodies) (hle : f ≤ l)
    (hl : l < text.paragraphs.length) :
    paragraphs (mapSlice (convertedBody style) text.paragraphs f (l + 1)).flatten =
      mapSlice (convertedBody style) text.paragraphs f (l + 1) := by
  apply paragraphs_of_suffix hn
  case hl => exact Segments.mapSlice_length <| Nat.le_succ_of_le hle
  case h =>
    intro i p q hp hq
    have hm := List.mem_of_getElem? hp
    rw [Segments.getElem?_mapSlice (Nat.le_succ_of_le hle) hl, hp] at hq
    split at hq
    case isTrue =>
      cases Option.some.inj hq
      refine ⟨convertedBody_ne_nil <| hb.body_ne_nil hm, ?_⟩
      rw [convertedBody, string_converted, string_body]
      exact NSString.body_suffix _
    case isFalse =>
      cases Option.some.inj hq
      exact ⟨List.ne_nil_of_mem_splitBy hm, List.suffix_rfl⟩

section

variable (ht : ∀ (p : NSParagraphStyle) s, (p.transParagraphTo s).tabStyle = s)
include ht

theorem transParagraphsTo_rest (style : RZTextTabStyle) (hn : text.UsesLineFeeds) (hb : text.HasBodies)
    (hs : range.Spans text.paragraphs f l) : ∃ new, text.transParagraphsTo range style = some new ∧
      new.paragraphs.length = text.paragraphs.length ∧
      ∀ (i : Nat) p q, f ≤ i → i ≤ l → text.paragraphs[i]? = some p → new.paragraphs[i]? = some q →
        NSString.rest style p.string <:+ q.string := by
  have hle := Nat.le_succ_of_le hs.le
  have hl : l + 1 ≤ text.paragraphs.length := hs.last.lt_length
  have hb' : ∀ p ∈ slice text.paragraphs f (l + 1), body p ≠ [] := fun p hp => by
    have ⟨_, _, _, hp⟩ := Segments.mem_slice hl hp
    exact hb.body_ne_nil <| List.mem_of_getElem? hp
  have ⟨new, ranks, hnew, hrl, hlen, hlines⟩ :=
    transParagraphsTo_ranks ht hs hb' <| paragraphs_mapSlice style hn hb hs.le hl
  refine ⟨new, hnew, hlen, fun i p q hi hi' hp hq => ?_⟩
  have hr : i < ranks.length := hrl ▸ (List.getElem?_eq_some_iff.mp hp).fst
  have hm : (mapSlice (convertedBody style) text.paragraphs f (l + 1))[i]? = some (convertedBody style p) := by
    rw [Segments.getElem?_mapSlice hle hl, if_pos (by omega), hp]
    rfl
  have ⟨_, hq⟩ := line_of_lines hlines hm hq <| List.getElem?_eq_getElem hr
  rw [hq, convertedBody, string_converted, string_body]
  exact NSString.rest_suffix_renumber fun h => by
    subst h
    exact tab_convertedBody_none ht

end

end NSAttributedString

namespace State

open NSAttributedString (KeepsPosition)

variable [ParagraphStyles] [UITextView]

-- When a list style is inserted or removed, the start and the end of the selection stay in their paragraphs, at
-- their distances from the ends of these.
theorem insetOrDeleteTabStyle_newRange
    (ht : ∀ (p : NSParagraphStyle) style, (p.transParagraphTo style).tabStyle = style)
    {s : State} (style : RZTextTabStyle) (hn : s.text ≠ []) (hl : s.text.UsesLineFeeds)
    (hb : s.text.HasBodies) (hw : s.textView.selectedRange.IsWithin s.text.length) :
    ∃ s' newRange f l, s.insetOrDeleteTabStyle style = some s' ∧
      s'.mainQueue = s.mainQueue ++ [newRange] ∧
      s.text.newRangeFor s.textView.selectedRange s'.text = some newRange ∧
      newRange.IsWithin s'.text.length ∧
      KeepsPosition s.text s'.text style f s.textView.selectedRange.location newRange.location ∧
      KeepsPosition s.text s'.text style l s.textView.selectedRange.maxLength newRange.maxLength := by
  have ⟨h₀, h₁, _⟩ : 0 ≤ s.textView.selectedRange.location ∧ 0 ≤ s.textView.selectedRange.length ∧ _ := hw
  have hm : s.textView.selectedRange.maxLength = s.textView.selectedRange.location + _ := rfl
  have ⟨f, l, hs⟩ := NSAttributedString.exists_spans hn hw
  have ⟨new, hnew, hlen, hr⟩ := NSAttributedString.transParagraphsTo_rest ht style hl hb hs
  have hrange := NSAttributedString.newRangeFor_eq hs <| hlen.symm ▸ hs.last.lt_length
  have hf := NSAttributedString.keepsPosition_moved h₀ hs.first (hr f · · le_rfl hs.le)
  have hl := NSAttributedString.keepsPosition_moved (by omega) hs.last (hr l · · hs.le le_rfl)
  have hfl := NSAttributedString.moved_le_moved new hs
  have ho : offset new.paragraphs (l + 1) ≤ new.length := NSAttributedString.offset_paragraphs_le
  refine ⟨_, _, f, l, insetOrDeleteTabStyle_eq (absurd · hn) hnew hrange, rfl, hrange, ?_, hf, ?_⟩
  · have hfs := hf.start
    have hle := hl.end
    change NSRange.IsWithin _ new.length
    simp only [NSRange.IsWithin, NSRange.maxLength_sub]
    omega
  · rwa [NSRange.maxLength_sub]

end State

namespace Sample

def twoHeaders : State where
  textView := {
    attributedText   := paragraph "\t•\t\t•\ta\n" .ul
    selectedRange    := ⟨3, 0⟩
    typingAttributes := fun _ => none }

end Sample

namespace State

open NSAttributedString (KeepsPosition)

theorem sample_newRange :
    ∃ s' newRange f l, @insetOrDeleteTabStyle Sample.styles Sample.behaviour Sample.separated .ol = some s' ∧
      s'.mainQueue = Sample.separated.mainQueue ++ [newRange] ∧
      Sample.separated.text.newRangeFor Sample.separated.textView.selectedRange s'.text = some newRange ∧
      newRange.IsWithin s'.text.length ∧
      KeepsPosition Sample.separated.text s'.text .ol f Sample.separated.textView.selectedRange.location
        newRange.location ∧
      KeepsPosition Sample.separated.text s'.text .ol l Sample.separated.textView.selectedRange.maxLength
        newRange.maxLength :=
  @insetOrDeleteTabStyle_newRange Sample.styles Sample.behaviour Sample.tabStyle_transParagraphTo _ .ol
    (by decide) (by decide +kernel) (by decide +kernel) (by decide)

-- Both headers are removed, so that what is behind the first one changes.
theorem twoHeaders_changes :
    let s := Sample.twoHeaders
    s.text.UsesLineFeeds ∧ s.text.HasBodies ∧ s.text.string.tabPattern = some 3 ∧
    (@insetOrDeleteTabStyle Sample.styles Sample.behaviour s .ol).map
        (fun s' => (s'.mainQueue, s'.text.string)) = some ([⟨1, 0⟩], .ofString "\t1.\ta\n") ∧
    (NSString.ofString "\t1.\ta\n").drop 1 ≠ s.text.string.drop 3 := by
  decide +kernel

end State
end RichText
