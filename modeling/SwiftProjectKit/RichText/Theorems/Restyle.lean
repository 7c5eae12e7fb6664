import SwiftProjectKit.RichText.Theorems.Caret
import SwiftProjectKit.RichText.Theorems.Typing

namespace RichText

open Segments (offset slice mapSlice Holds Apart)

namespace NSString

variable {string : NSString} {c d : unichar}

theorem eq_of_continues (hc : isParagraphSeparator c) (h : continues c d) : c = 0x0D ∧ d = 0x0A := by
  simpa [continues, hc] using h

theorem eq_singleton_of_isChain (hs : string.IsChain fun c d => continues c d) (h : string.head? = some 0x0A) :
    string = [0x0A] := by
  have ⟨l, hl⟩ := List.head?_eq_some_iff.mp h
  subst hl
  cases l
  case nil => rfl
  case cons d l =>
    have hd := List.isChain_cons_cons.mp hs |>.left
    exact absurd hd <| by simp [continues, isParagraphSeparator]

end NSString

namespace NSAttributedString

variable {text p q : NSAttributedString} {ps : List NSAttributedString} {f l i k x : Nat}

theorem holds_string : Holds text.string.paragraphs i x ↔ Holds text.paragraphs i x := by
  rw [paragraphs_string]
  exact Segments.holds_map fun _ => string_length

theorem head?_of_holds (h : Holds text.paragraphs i x) (hx : x < text.length)
    (hq : text.paragraphs[i]? = some q) : q.head? = text[text.string.paragraphStart x]? := by
  have hn : q ≠ [] := List.ne_nil_of_mem_splitBy <| List.mem_of_getElem? hq
  have hs : text.paragraphs.flatten[offset text.paragraphs i]? = q.head? := Segments.getElem?_offset hq hn
  rw [paragraphStart_eq h hx, ← hs, flatten_paragraphs]

theorem tab_of_head? [ParagraphStyles] (h : p.head? = q.head?) : p.tab = q.tab := by
  rw [tab, firstAttributes, h]
  rfl

theorem map_string_mapSlice {g g' : NSAttributedString → NSAttributedString}
    (hg : ∀ p, string (g p) = string (g' p)) :
    (mapSlice g ps f l).map string = (mapSlice g' ps f l).map string := by
  simp [mapSlice, hg]

def stripped (text : NSAttributedString) (f l : Nat) : NSAttributedString :=
  (mapSlice body text.paragraphs f (l + 1)).flatten

variable [ParagraphStyles] {style : RZTextTabStyle}

def restyled (text : NSAttributedString) (style : RZTextTabStyle) (f l : Nat) : List NSAttributedString :=
  mapSlice (convertedBody style) text.paragraphs f (l + 1)

theorem map_string_restyled : (restyled text style f l).map string =
    (mapSlice body text.paragraphs f (l + 1)).map string :=
  map_string_mapSlice fun _ => string_converted

theorem string_restyled : string (restyled text style f l).flatten = (stripped text f l).string := by
  rw [string, List.map_flatten, stripped, string, List.map_flatten]
  exact congrArg List.flatten map_string_restyled

theorem map_string_paragraphs_restyled : (paragraphs (restyled text style f l).flatten).map string =
    (stripped text f l).paragraphs.map string := by
  rw [← paragraphs_string, ← paragraphs_string, string_restyled]

theorem length_paragraphs_restyled :
    (paragraphs (restyled text style f l).flatten).length = (stripped text f l).paragraphs.length := by
  simpa using congrArg List.length <| @map_string_paragraphs_restyled text f l _ style

theorem holds_restyled : Holds (paragraphs (restyled text style f l).flatten) i x ↔
    Holds (stripped text f l).paragraphs i x := by
  rw [← holds_string, string_restyled, holds_string]

theorem offset_restyled :
    offset (restyled text style f l) k = offset (mapSlice body text.paragraphs f (l + 1)) k := by
  have h : ∀ p : NSAttributedString, p.string.length = p.length := fun _ => string_length
  rw [← Segments.offset_map h, map_string_restyled, Segments.offset_map h]

theorem getElem?_restyled (style : RZTextTabStyle) (hle : f ≤ l) (hl : l < text.paragraphs.length)
    (hb : ∀ p ∈ slice text.paragraphs f (l + 1), body p ≠ []) (hp : text.paragraphs[k]? = some p) :
    ∃ s, (restyled text style f l)[k]? = some s ∧ s ≠ [] ∧ string s <:+ p.string ∧
      s = if f ≤ k ∧ k < l + 1 then convertedBody style p else p := by
  rw [restyled, Segments.getElem?_mapSlice (Nat.le_succ_of_le hle) hl, hp]
  split
  case isFalse => exact ⟨p, rfl, List.ne_nil_of_mem_splitBy <| List.mem_of_getElem? hp, List.suffix_rfl, rfl⟩
  case isTrue hk =>
    have hm : p ∈ slice text.paragraphs f (l + 1) := Segments.mem_slice_of_getElem? hk hp
    refine ⟨_, rfl, convertedBody_ne_nil <| hb p hm, ?_, rfl⟩
    rw [convertedBody, string_converted, string_body]
    exact NSString.body_suffix _

omit [ParagraphStyles] in
theorem isParagraphSeparator_of_getLast? (hq : text.paragraphs[k]? = some q)
    (hp : text.paragraphs[k + 1]? = some p) : ∀ c ∈ q.string.getLast?, NSString.isParagraphSeparator c := by
  have ⟨_, _, _, ha⟩ := Segments.splitBy_getElem? (splitBy_paragraphs text) hq
  have hn : p ≠ [] := List.ne_nil_of_mem_splitBy <| List.mem_of_getElem? hp
  have ⟨hlt, he⟩ := List.getElem?_eq_some_iff.mp hp
  have hpre : p <+: (text.paragraphs.drop (k + 1)).flatten := by
    rw [List.drop_eq_getElem_cons hlt, he]
    exact List.prefix_append _ _
  exact fun c hc => NSString.isParagraphSeparator_of_apart hc (string_ne_nil.mpr hn) <|
    apart_string.mpr <| Segments.apart_prefix hpre ha

theorem offset_lt_of_getElem? {s : NSAttributedString} (hs : (restyled text style f l)[k]? = some s)
    (hn : s ≠ []) :
    offset (restyled text style f l) k < (restyled text style f l).flatten.length := by
  have ho := Segments.offset_succ hs
  have hle : offset (restyled text style f l) (k + 1) ≤ (restyled text style f l).flatten.length :=
    Segments.offset_le_length
  have hl := List.length_pos_iff.mpr hn
  omega

section

variable (hle : f ≤ l) (hl : l < text.paragraphs.length)
  (hb : ∀ p ∈ slice text.paragraphs f (l + 1), body p ≠ [])
include hle hl hb

variable {r s t : NSAttributedString}

theorem apart_take_restyled (hq : text.paragraphs[k]? = some q)
    (ha : Apart NSString.continues q.string s.string) :
    Apart NSString.continues (string ((restyled text style f l).take (k + 1)).flatten) s.string := by
  have ⟨t, ht, htn, hsuf, _⟩ := getElem?_restyled style hle hl hb hq
  refine apart_string.mpr <| Segments.apart_take ht htn |>.mpr <| apart_string.mp fun c hc => ?_
  exact ha c <| NSString.getLast?_of_suffix (string_ne_nil.mpr htn) hsuf ▸ hc

theorem paragraphStart_of_apart (hs : (restyled text style f l)[k]? = some s) (hn : s ≠ [])
    (ha : ∀ g q, k = g + 1 → text.paragraphs[g]? = some q → Apart NSString.continues q.string s.string) :
    (string (restyled text style f l).flatten).paragraphStart (offset (restyled text style f l) k) =
      offset (restyled text style f l) k := by
  refine NSString.paragraphStart_eq_self ?_
  cases k
  case zero => rfl
  case succ g =>
    have hlen : (restyled text style f l).length = text.paragraphs.length :=
      Segments.mapSlice_length <| Nat.le_succ_of_le hle
    have ⟨hg, _⟩ := List.getElem?_eq_some_iff.mp hs
    have hq := List.getElem?_eq_getElem <| Nat.lt_of_succ_lt <| hlen ▸ hg
    have hpre : Apart NSString.continues (string ((restyled text style f l).take (g + 1)).flatten) s.string :=
      apart_take_restyled hle hl hb hq <| ha g _ rfl hq
    rw [← Segments.flatten_eq hs, string_append, string_append, offset, ← string_length, List.append_assoc]
    refine NSString.isParagraphStart_of_apart ?_ ?_
    · exact Segments.apart_append_right (string_ne_nil.mpr hn) |>.mpr hpre
    · exact List.append_ne_nil_of_left_ne_nil (string_ne_nil.mpr hn) _

omit [ParagraphStyles] hle hl hb in
theorem isChain_of_suffix (hp : text.paragraphs[k]? = some p) (hs : string s <:+ p.string) :
    (string s).IsChain fun c d => NSString.continues c d := by
  have ⟨_, _, hc, _⟩ := Segments.splitBy_getElem? (splitBy_paragraphs text) hp
  exact isChain_string.mpr hc |>.suffix hs

omit [ParagraphStyles] hle hl hb in
theorem eq_of_not_apart (hq : text.paragraphs[k]? = some q) (hp : text.paragraphs[k + 1]? = some p)
    (hs : string s <:+ p.string) (ha : ¬Apart NSString.continues q.string s.string) :
    q.string.getLast? = some 0x0D ∧ s.string = [0x0A] := by
  obtain ⟨c, hc, d, hd, hcd⟩ : ∃ c ∈ q.string.getLast?, ∃ d ∈ s.string.head?, NSString.continues c d := by
    simpa [Apart] using ha
  obtain ⟨hcr, hlf⟩ := NSString.eq_of_continues (isParagraphSeparator_of_getLast? hq hp c hc) hcd
  subst hcr hlf
  exact ⟨hc, NSString.eq_singleton_of_isChain (isChain_of_suffix hp hs) hd⟩

theorem paragraphStart_of_not_apart (hq : text.paragraphs[k]? = some q)
    (hp : text.paragraphs[k + 1]? = some p) (ht : (restyled text style f l)[k]? = some t)
    (hs : (restyled text style f l)[k + 1]? = some s) (ha : ¬Apart NSString.continues q.string s.string) :
    s.string = [0x0A] ∧
      (string (restyled text style f l).flatten).paragraphStart (offset (restyled text style f l) (k + 1)) =
        offset (restyled text style f l) k := by
  have ⟨t', ht', htn, htq, _⟩ := getElem?_restyled style hle hl hb hq
  have ⟨s', hs', hsn, hsp, _⟩ := getElem?_restyled style hle hl hb hp
  cases Option.some.inj <| ht.symm.trans ht'
  cases Option.some.inj <| hs.symm.trans hs'
  have ⟨hcr, hlf⟩ := eq_of_not_apart hq hp hsp ha
  have hlast := NSString.getLast?_of_suffix (string_ne_nil.mpr htn) htq |>.trans hcr
  refine ⟨hlf, ?_⟩
  have hts : (string t ++ string s).IsChain fun c d => NSString.continues c d := by
    refine List.isChain_append.mpr ⟨isChain_of_suffix hq htq, isChain_of_suffix hp hsp, fun c hc d hd => ?_⟩
    rw [hlast] at hc
    rw [hlf] at hd
    cases hc
    cases hd
    decide
  -- A line feed in front of the carriage return would be a paragraph of its own.
  have hpre : Apart NSString.continues (string ((restyled text style f l).take k).flatten) (string t) := by
    cases k
    case zero => exact Segments.apart_nil_left
    case succ g =>
      have hr := List.getElem?_eq_getElem <| Nat.lt_of_succ_lt (List.getElem?_eq_some_iff.mp hq).fst
      refine apart_take_restyled hle hl hb hr <| by_contra fun hab => ?_
      have ⟨_, he⟩ := eq_of_not_apart hr hq htq hab
      rw [he] at hlast
      exact absurd hlast <| by decide
  have hf : string (restyled text style f l).flatten = string ((restyled text style f l).take k).flatten ++
      (string t ++ string s) ++ string ((restyled text style f l).drop (k + 1 + 1)).flatten := by
    rw [← Segments.flatten_eq hs, List.take_add_one, ht]
    simp [string_append]
  have ho : offset (restyled text style f l) k =
      (string ((restyled text style f l).take k).flatten).length := string_length.symm
  have ho' : offset (restyled text style f l) (k + 1) =
      (string ((restyled text style f l).take k).flatten).length + (string t).length := by
    rw [Segments.offset_succ ht, ho, string_length, string_length]
  have hlen : (string t).length < (string t ++ string s).length := by simp [hlf]
  rw [hf, ho, ho']
  exact NSString.paragraphStart_append (Segments.apart_append_right (string_ne_nil.mpr htn) |>.mpr hpre) hts hlen

theorem tab_of_apart (hs : (restyled text style f l)[k]? = some s) (hn : s ≠ [])
    (ha : ∀ g q, k = g + 1 → text.paragraphs[g]? = some q → Apart NSString.continues q.string s.string)
    (hi : Holds (paragraphs (restyled text style f l).flatten) i (offset (restyled text style f l) k))
    (hr : (paragraphs (restyled text style f l).flatten)[i]? = some r) : r.tab = s.tab := by
  refine tab_of_head? ?_
  have hx := offset_lt_of_getElem? hs hn
  rw [head?_of_holds hi hx hr, paragraphStart_of_apart hle hl hb hs hn ha, Segments.getElem?_offset hs hn]

theorem tab_of_not_apart (hq : text.paragraphs[k]? = some q) (hp : text.paragraphs[k + 1]? = some p)
    (ht : (restyled text style f l)[k]? = some t) (htn : t ≠ [])
    (hs : (restyled text style f l)[k + 1]? = some s)
    (hn : s ≠ []) (ha : ¬Apart NSString.continues q.string s.string)
    (hi : Holds (paragraphs (restyled text style f l).flatten) i (offset (restyled text style f l) (k + 1)))
    (hr : (paragraphs (restyled text style f l).flatten)[i]? = some r) : r.tab = t.tab := by
  refine tab_of_head? ?_
  have hx := offset_lt_of_getElem? hs hn
  have ⟨_, hst⟩ := paragraphStart_of_not_apart hle hl hb hq hp ht hs ha
  rw [head?_of_holds hi hx hr, hst, Segments.getElem?_offset ht htn]

end

-- A paragraph that gets the list style from its first character, because that has a paragraph style or because
-- none has.
def CanConvert (style : RZTextTabStyle) (p : NSAttributedString) : Prop :=
  style = .none ∨ p.firstAttributes.paragraphStyle.isSome ∨ p.hasParagraphStyle = false

-- The paragraph before a part of a text has the list style, if the first paragraph of the part becomes part of
-- it without its header. That happens to a line feed behind a carriage return.
def JoinsStyled (text : NSAttributedString) (style : RZTextTabStyle) (f : Nat) : Prop :=
  ∀ (g : Nat) (p q : NSAttributedString), f = g + 1 → text.paragraphs[g]? = some q →
    text.paragraphs[f]? = some p → ¬Apart NSString.continues q.string p.string.body → q.tab = style

structure CanRestyle (text : NSAttributedString) (style : RZTextTabStyle) (f l : Nat) : Prop where
  bodies : ∀ p ∈ slice text.paragraphs f (l + 1), body p ≠ []
  styles : ∀ p ∈ slice text.paragraphs f (l + 1), CanConvert style (body p)
  joins  : text.JoinsStyled style f
  count  : text ≠ [] → l < (stripped text f l).paragraphs.length

-- The new text has the paragraphs of the text without the headers of some of them. Those of which something is
-- left have the list style.
structure Restyles (text new : NSAttributedString) (style : RZTextTabStyle) (f l : Nat) : Prop where
  length_eq : new.paragraphs.length = (stripped text f l).paragraphs.length
  string    : ∀ (i : Nat) (p q : NSAttributedString), (stripped text f l).paragraphs[i]? = some p →
    new.paragraphs[i]? = some q → ∃ r, q.string = NSString.renumber q.tab r p.string
  tab       : ∀ (k i : Nat) (p q : NSAttributedString), f ≤ k → k ≤ l → text.paragraphs[k]? = some p →
    p.body ≠ [] →
    Holds (stripped text f l).paragraphs i (offset (mapSlice body text.paragraphs f (l + 1)) k) →
    new.paragraphs[i]? = some q → q.tab = style

-- No attribute becomes visible on an empty text, so that the recursion does not end.
theorem mutableTransParagraphTo_nil {fuel : Nat} : mutableTransParagraphTo style fuel [] = none := by
  induction fuel
  case zero => rfl
  case succ fuel hi =>
    rw [mutableTransParagraphTo, enumerateAttribute_whole, Option.bind_eq_bind, Option.bind_some,
      replaceParagraphStyles_eq, Option.bind_eq_bind, Option.bind_some, any_enumerateAttribute,
      if_neg (by decide)]
    simp only [addAttribute_whole, Option.bind_some]
    exact hi

theorem exists_mutableTransParagraphTo_iff :
    (∃ fuel new, mutableTransParagraphTo style fuel p = some new) ↔ p ≠ [] := by
  refine ⟨fun ⟨fuel, new, h⟩ hp => ?_, fun hn => ⟨_, _, mutableTransParagraphTo_eq hn⟩⟩
  subst hp
  rw [mutableTransParagraphTo_nil] at h
  contradiction

omit [ParagraphStyles] in
theorem canConvert_of_length (h : p.length = 1) : p.CanConvert style := by
  have ⟨c, hc⟩ := List.length_eq_one_iff.mp h
  subst hc
  refine Or.inr ?_
  cases hs : c.attributes.paragraphStyle <;> simp [firstAttributes, hasParagraphStyle, hs]

section

variable (ht : ∀ (p : NSParagraphStyle) s, (p.transParagraphTo s).tabStyle = s)
include ht

theorem tab_converted_iff (hn : p ≠ []) : (p.converted style).tab = style ↔ p.CanConvert style := by
  have ⟨c, p', hc⟩ := List.exists_cons_of_ne_nil hn
  subst hc
  have hf : firstAttributes (c :: p') = c.attributes := rfl
  have ht' : ∀ g, NSAttributedString.tab (mapAttributes (c :: p') g) = (g c.attributes).tabStyle := fun _ => rfl
  rw [converted, CanConvert, hf]
  cases hp : hasParagraphStyle (c :: p')
  case false =>
    have hs : Attributes.tabStyle (c.attributes.set .paragraphStyle <| some <| .paragraphStyle <|
        ParagraphStyles.init.transParagraphTo style) = style := by
      rw [Attributes.tabStyle, Attributes.paragraphStyle_set]
      exact ht _ _
    simpa [ht'] using hs
  case true =>
    rw [if_pos rfl, ht', Attributes.tabStyle, Attributes.paragraphStyle_mapParagraphStyle]
    cases c.attributes.paragraphStyle
    case none => simpa using eq_comm
    case some => simpa using ht _ _

variable (hle : f ≤ l) (hl : l < text.paragraphs.length)
  (hb : ∀ p ∈ slice text.paragraphs f (l + 1), body p ≠ []) {r : NSAttributedString}
include hle hl hb

theorem tab_iff_of_apart (hk : f ≤ k ∧ k < l + 1) (hp : text.paragraphs[k]? = some p)
    (ha : ∀ g q, k = g + 1 → text.paragraphs[g]? = some q → Apart NSString.continues q.string p.body.string)
    (hi : Holds (paragraphs (restyled text style f l).flatten) i (offset (restyled text style f l) k))
    (hr : (paragraphs (restyled text style f l).flatten)[i]? = some r) :
    r.tab = style ↔ CanConvert style (body p) := by
  have hn := hb p <| Segments.mem_slice_of_getElem? hk hp
  have ⟨s, hs, hsn, _, he⟩ := getElem?_restyled style hle hl hb hp
  rw [if_pos hk] at he
  subst he
  rw [tab_of_apart hle hl hb hs hsn ?_ hi hr, convertedBody]
  · exact tab_converted_iff ht hn
  · rw [convertedBody, string_converted]
    exact ha

theorem tab_iff_of_not_apart (hk : f ≤ k + 1 ∧ k + 1 < l + 1) (hq : text.paragraphs[k]? = some q)
    (hp : text.paragraphs[k + 1]? = some p) (ha : ¬Apart NSString.continues q.string p.body.string)
    (hi : Holds (paragraphs (restyled text style f l).flatten) i (offset (restyled text style f l) (k + 1)))
    (hr : (paragraphs (restyled text style f l).flatten)[i]? = some r) :
    CanConvert style (body p) ∧
      (r.tab = style ↔ if f ≤ k then CanConvert style (body q) else q.tab = style) := by
  obtain ⟨s, hs, hsn, _, hse⟩ := getElem?_restyled style hle hl hb hp
  obtain ⟨t, ht', htn, _, hte⟩ := getElem?_restyled style hle hl hb hq
  rw [if_pos hk] at hse
  subst hse
  have ha : ¬Apart NSString.continues q.string (string <| convertedBody style p) := by
    rwa [convertedBody, string_converted]
  obtain ⟨hlf, _⟩ := paragraphStart_of_not_apart hle hl hb hq hp ht' hs ha
  rw [convertedBody, string_converted] at hlf
  have hlen : (body p).length = 1 := by rw [← string_length, hlf, List.length_singleton]
  refine ⟨canConvert_of_length hlen, ?_⟩
  rw [tab_of_not_apart hle hl hb hq hp ht' htn hs hsn ha hi hr, hte]
  by_cases hf : f ≤ k
  case pos =>
    have hk' : f ≤ k ∧ k < l + 1 := ⟨hf, by omega⟩
    rw [if_pos hf, if_pos hk', convertedBody]
    exact tab_converted_iff ht <| hb q <| Segments.mem_slice_of_getElem? hk' hq
  case neg => rw [if_neg hf, if_neg fun hk' => hf hk'.left]

variable {new : NSAttributedString}

omit hle hl hb in
theorem length_reset (h : text.resetTabOrderNumber = some new) :
    new.paragraphs.length = text.paragraphs.length := by
  simpa using congrArg List.length (renumbers_reset ht h).tabs

omit hle hl hb in
theorem tab_reset (h : text.resetTabOrderNumber = some new) (hp : text.paragraphs[i]? = some p)
    (hq : new.paragraphs[i]? = some q) : q.tab = p.tab := by
  have ht := congrArg (·[i]?) (renumbers_reset ht h).tabs
  simpa [hp, hq] using ht

omit ht in
theorem exists_holds_restyled (style : RZTextTabStyle) (hp : text.paragraphs[k]? = some p) :
    ∃ (i : Nat) (r : NSAttributedString),
      Holds (paragraphs (restyled text style f l).flatten) i (offset (restyled text style f l) k) ∧
        (paragraphs (restyled text style f l).flatten)[i]? = some r := by
  have ⟨s, hs, hn, _⟩ := getElem?_restyled style hle hl hb hp
  have hx := offset_lt_of_getElem? hs hn
  have ⟨i, hi⟩ := exists_holds (List.ne_nil_of_length_pos <| Nat.zero_lt_of_lt hx) <| Nat.le_of_lt hx
  exact ⟨i, _, hi, List.getElem?_eq_getElem hi.lt_length⟩

theorem canConvert_of_tab (hk : f ≤ k ∧ k < l + 1) (hp : text.paragraphs[k]? = some p)
    (hi : Holds (paragraphs (restyled text style f l).flatten) i (offset (restyled text style f l) k))
    (hr : (paragraphs (restyled text style f l).flatten)[i]? = some r) (h : r.tab = style) :
    CanConvert style (body p) := by
  by_cases ha : ∀ g q, k = g + 1 → text.paragraphs[g]? = some q →
      Apart NSString.continues (string q) (string <| body p)
  case pos => exact tab_iff_of_apart ht hle hl hb hk hp ha hi hr |>.mp h
  case neg =>
    simp only [not_forall, exists_prop] at ha
    have ⟨g, q, hg, hq, hn⟩ := ha
    subst hg
    exact tab_iff_of_not_apart ht hle hl hb hk hq hp hn hi hr |>.left

theorem tab_of_canConvert (hk : f ≤ k ∧ k < l + 1) (hp : text.paragraphs[k]? = some p)
    (hi : Holds (paragraphs (restyled text style f l).flatten) i (offset (restyled text style f l) k))
    (hr : (paragraphs (restyled text style f l).flatten)[i]? = some r)
    (hs : ∀ p ∈ slice text.paragraphs f (l + 1), CanConvert style (body p)) (hj : text.JoinsStyled style f) :
    r.tab = style := by
  by_cases ha : ∀ g q, k = g + 1 → text.paragraphs[g]? = some q →
      Apart NSString.continues (string q) (string <| body p)
  case pos =>
    exact tab_iff_of_apart ht hle hl hb hk hp ha hi hr |>.mpr <| hs p <| Segments.mem_slice_of_getElem? hk hp
  case neg =>
    simp only [not_forall, exists_prop] at ha
    have ⟨g, q, hg, hq, hn⟩ := ha
    subst hg
    refine tab_iff_of_not_apart ht hle hl hb hk hq hp hn hi hr |>.right.mpr ?_
    by_cases hf : f ≤ g
    case pos =>
      rw [if_pos hf]
      exact hs q <| Segments.mem_slice_of_getElem? ⟨hf, by omega⟩ hq
    case neg =>
      have hf' : f = g + 1 := by omega
      subst hf'
      rw [if_neg hf]
      exact hj g p q rfl hq hp <| by rwa [← string_body]

theorem Restyles.exists_tab (h : resetTabOrderNumber (restyled text style f l).flatten = some new)
    (hn : Restyles text new style f l) (hk : f ≤ k ∧ k < l + 1) (hp : text.paragraphs[k]? = some p) :
    ∃ (i : Nat) (r : NSAttributedString),
      Holds (paragraphs (restyled text style f l).flatten) i (offset (restyled text style f l) k) ∧
        (paragraphs (restyled text style f l).flatten)[i]? = some r ∧ r.tab = style := by
  have ⟨i, r, hi, hr⟩ := exists_holds_restyled hle hl hb style hp
  have hi' := holds_restyled.mp hi
  rw [offset_restyled] at hi'
  have hq := List.getElem?_eq_getElem <| (length_reset ht h).symm ▸ hi.lt_length
  refine ⟨i, r, hi, hr, ?_⟩
  rw [← tab_reset ht h hr hq]
  exact hn.tab k i p _ hk.left (by omega) hp (hb p <| Segments.mem_slice_of_getElem? hk hp) hi' hq

theorem restyles_of_canConvert (h : resetTabOrderNumber (restyled text style f l).flatten = some new)
    (hs : ∀ p ∈ slice text.paragraphs f (l + 1), CanConvert style (body p)) (hj : text.JoinsStyled style f) :
    Restyles text new style f l where
  length_eq := (length_reset ht h).trans length_paragraphs_restyled
  string i p q hp hq := by
    have ⟨hi, _⟩ := List.getElem?_eq_some_iff.mp hq
    have ⟨r, hr⟩ : ∃ r, (paragraphs (restyled text style f l).flatten)[i]? = some r :=
      ⟨_, List.getElem?_eq_getElem <| length_reset ht h ▸ hi⟩
    have ⟨k, _, hk⟩ := getElem?_reset ht h hr
    have hs : _ = (((stripped text f l).paragraphs).map NSAttributedString.string)[i]? :=
      congrArg (·[i]?) <| @map_string_paragraphs_restyled text f l _ style
    simp only [List.getElem?_map, hr, hp, Option.map_some, Option.some.injEq] at hs
    rw [hq, Option.map_some, Option.some.injEq, hs] at hk
    exact ⟨k, by rw [hk, tab_reset ht h hr hq]⟩
  tab k i p q hk hk' hp _ hi hq := by
    have hi : Holds (paragraphs (restyled text style f l).flatten) i (offset (restyled text style f l) k) :=
      holds_restyled.mpr <| by rwa [offset_restyled]
    have hr := List.getElem?_eq_getElem hi.lt_length
    rw [tab_reset ht h hr hq]
    exact tab_of_canConvert ht hle hl hb ⟨hk, by omega⟩ hp hi hr hs hj

theorem restyles_iff (h : resetTabOrderNumber (restyled text style f l).flatten = some new) :
    Restyles text new style f l ↔
      (∀ p ∈ slice text.paragraphs f (l + 1), CanConvert style (body p)) ∧ text.JoinsStyled style f := by
  refine ⟨fun hn => ⟨fun p hp => ?_, fun g p q hf hq hp ha => ?_⟩, fun ⟨hs, hj⟩ =>
    restyles_of_canConvert ht hle hl hb h hs hj⟩
  · have ⟨k, hk, hk', hp⟩ := Segments.mem_slice hl hp
    have ⟨i, r, hi, hr, htab⟩ := hn.exists_tab ht hle hl hb h ⟨hk, hk'⟩ hp
    exact canConvert_of_tab ht hle hl hb ⟨hk, hk'⟩ hp hi hr htab
  · subst hf
    have hk : g + 1 ≤ g + 1 ∧ g + 1 < l + 1 := ⟨Nat.le_refl _, by omega⟩
    have ⟨i, r, hi, hr, htab⟩ := hn.exists_tab ht hle hl hb h hk hp
    rw [← string_body] at ha
    have ⟨_, h⟩ := tab_iff_of_not_apart ht hle hl hb hk hq hp ha hi hr
    rw [if_neg (by omega)] at h
    exact h.mp htab

variable {range : NSRange}

omit hle hl hb in
theorem canRestyle_iff (hs : range.Spans text.paragraphs f l) (hn : text ≠ []) :
    ((∀ p ∈ slice text.paragraphs f (l + 1), ∃ tempAttr fuel new, removeHeadTabString p = some tempAttr ∧
        mutableTransParagraphTo style fuel tempAttr = some new) ∧
      ∃ new, text.transParagraphsTo range style = some new ∧ l < new.paragraphs.length ∧
        text.Restyles new style f l) ↔ text.CanRestyle style f l := by
  have hl := hs.last.lt_length
  have hreset := resetTabOrderNumber_eq (restyled text style f l).flatten
  constructor
  case mp =>
    intro ⟨hm, new, hnew, hlt, hr⟩
    have hb : ∀ p ∈ slice text.paragraphs f (l + 1), body p ≠ [] := fun p hp => by
      have ⟨_, fuel, new, hp, hnew⟩ := hm p hp
      rw [removeHeadTabString_eq, Option.some.injEq] at hp
      subst hp
      exact exists_mutableTransParagraphTo_iff.mp ⟨fuel, new, hnew⟩
    rw [transParagraphsTo_eq hs hb] at hnew
    have ⟨hstyles, hjoins⟩ := restyles_iff ht hs.le hl hb hnew |>.mp hr
    exact ⟨hb, hstyles, hjoins, fun _ => hr.length_eq ▸ hlt⟩
  case mpr =>
    intro h
    refine ⟨fun p hp => ?_, _, (transParagraphsTo_eq hs h.bodies).trans hreset, ?_, ?_⟩
    · have ⟨fuel, new, hnew⟩ := @exists_mutableTransParagraphTo_iff (body p) _ style |>.mpr <| h.bodies p hp
      exact ⟨_, fuel, new, removeHeadTabString_eq, hnew⟩
    · rw [length_reset ht hreset, length_paragraphs_restyled]
      exact h.count hn
    · exact restyles_iff ht hs.le hl h.bodies hreset |>.mpr ⟨h.styles, h.joins⟩

end

end NSAttributedString

namespace NSAttributedString

variable {range : NSRange} {typing : Attributes}

theorem spans_lineFeed (typing : Attributes) (h : range.IsWithin 0) :
    range.Spans (ofString (.ofString "\n") typing).paragraphs 0 0 := by
  have ⟨h₁, h₂, h₃⟩ : 0 ≤ range.location ∧ 0 ≤ range.length ∧ range.maxLength ≤ 0 := h
  have hm : range.maxLength = range.location + range.length := rfl
  have hw : range.IsWithin (ofString (.ofString "\n") typing).length := ⟨h₁, h₂, by omega⟩
  have ⟨f, l, hs⟩ := exists_spans (List.cons_ne_nil _ _) hw
  cases Nat.lt_one_iff.mp hs.first.lt_length
  cases Nat.lt_one_iff.mp hs.last.lt_length
  exact hs

variable [ParagraphStyles]

theorem canRestyle_lineFeed {style : RZTextTabStyle} :
    (ofString (.ofString "\n") typing).CanRestyle style 0 0 where
  bodies p hp := by
    cases List.mem_singleton.mp hp
    exact List.cons_ne_nil _ _
  styles p hp := by
    cases List.mem_singleton.mp hp
    exact canConvert_of_length rfl
  joins g _ _ hg := absurd hg <| Nat.succ_ne_zero g |>.symm
  count _ := Nat.one_pos

theorem canRestyle_nil {style : RZTextTabStyle} : CanRestyle [] style 0 0 where
  bodies _ hp := absurd hp List.not_mem_nil
  styles _ hp := absurd hp List.not_mem_nil
  joins g _ _ hg := absurd hg <| Nat.succ_ne_zero g |>.symm
  count hn := absurd rfl hn

theorem restyles_nil {style : RZTextTabStyle} : Restyles [] [] style 0 0 where
  length_eq := rfl
  string _ _ _ hp := by contradiction
  tab _ _ _ _ _ _ hp := by contradiction

end NSAttributedString

namespace State

open NSAttributedString (mutableTransParagraphTo removeHeadTabString)

variable [ParagraphStyles] [UITextView] {s s' : State} {style : RZTextTabStyle} {text : NSAttributedString}

-- The text that is converted. A list in an empty text starts with a line feed.
def edited (s : State) (style : RZTextTabStyle) : Option NSAttributedString := do
  if s.text.length = 0 && style != .none then
    return .ofString (.ofString "\n") (← s.typingAttributes)
  else
    return s.text

theorem insetOrDeleteTabStyle_eq_some (he : s.edited style = some text) :
    s.insetOrDeleteTabStyle style = some s' ↔
      ∃ new newRange, text.transParagraphsTo s.textView.selectedRange style = some new ∧
        s.text.newRangeFor s.textView.selectedRange new = some newRange ∧
        { s.setAttributedText new with mainQueue := s.mainQueue ++ [newRange] } = s' := by
  have h : s.insetOrDeleteTabStyle style = (s.edited style).bind fun attributedText => do
      let new ← attributedText.transParagraphsTo s.textView.selectedRange style
      let newRange ← s.text.newRangeFor s.textView.selectedRange new
      return { s.setAttributedText new with mainQueue := s.mainQueue ++ [newRange] } := by
    rw [insetOrDeleteTabStyle, edited]
    split
    case isTrue => cases s.typingAttributes <;> rfl
    case isFalse => rfl
  rw [h, he]
  simp only [Option.bind_some, Option.bind_eq_bind, Option.bind_eq_some_iff, Option.pure_def, Option.some.injEq]
  constructor
  case mp =>
    rintro ⟨new, hnew, newRange, hr, hs⟩
    exact ⟨new, newRange, hnew, hr, hs⟩
  case mpr =>
    rintro ⟨new, newRange, hnew, hr, hs⟩
    exact ⟨new, hnew, newRange, hr, hs⟩

def Converts (s : State) (style : RZTextTabStyle) (text : NSAttributedString) (f l : Nat) : Prop :=
  (∀ p ∈ slice text.paragraphs f (l + 1), ∃ tempAttr fuel new, removeHeadTabString p = some tempAttr ∧
    mutableTransParagraphTo style fuel tempAttr = some new) ∧
  ∃ s', s.insetOrDeleteTabStyle style = some s' ∧ text.Restyles s'.text style f l

section

variable {f l : Nat} (ht : ∀ (p : NSParagraphStyle) style, (p.transParagraphTo style).tabStyle = style)
include ht

theorem converts_iff_of_ne_nil (hn : s.text ≠ []) (hs : s.textView.selectedRange.Spans s.text.paragraphs f l) :
    s.Converts style s.text f l ↔ s.text.CanRestyle style f l := by
  have he : s.edited style = some s.text := by
    rw [edited, if_neg (by simp [hn])]
    rfl
  refine Iff.trans (and_congr_right fun _ => ?_) <| NSAttributedString.canRestyle_iff ht hs hn
  constructor
  case mp =>
    intro ⟨s', hs', hr⟩
    have ⟨new, newRange, hnew, hnr, hs'⟩ := insetOrDeleteTabStyle_eq_some he |>.mp hs'
    subst hs'
    exact ⟨new, hnew, NSAttributedString.lt_of_newRangeFor hs hnr, hr⟩
  case mpr =>
    intro ⟨new, hnew, hlt, hr⟩
    have hnr := NSAttributedString.newRangeFor_eq hs hlt
    exact ⟨_, insetOrDeleteTabStyle_eq_some he |>.mpr ⟨new, _, hnew, hnr, rfl⟩, hr⟩

theorem converts_of_nil (style : RZTextTabStyle) (hn : s.text = [])
    (hw : s.textView.selectedRange.IsWithin s.text.length) :
    ∃ text, s.edited style = some text ∧ (text ≠ [] → s.textView.selectedRange.Spans text.paragraphs 0 0) ∧
      s.Converts style text 0 0 ∧ text.CanRestyle style 0 0 := by
  have hnr : ∀ new, s.text.newRangeFor s.textView.selectedRange new = some s.textView.selectedRange :=
    fun _ => hn ▸ rfl
  by_cases hs : style = .none
  case pos =>
    subst hs
    have he : s.edited .none = some [] := by
      rw [edited, if_neg (by simp), hn]
      rfl
    have hnew : NSAttributedString.transParagraphsTo [] s.textView.selectedRange .none = some [] := rfl
    refine ⟨[], he, absurd rfl, ⟨fun _ hp => absurd hp List.not_mem_nil, _,
      insetOrDeleteTabStyle_eq_some he |>.mpr ⟨_, _, hnew, hnr _, rfl⟩, NSAttributedString.restyles_nil⟩,
      NSAttributedString.canRestyle_nil⟩
  case neg =>
    have ⟨typing, ht'⟩ := typingAttributes_isSome hw
    have he : s.edited style = some (.ofString (.ofString "\n") typing) := by
      rw [edited, if_pos (by simp [hn, hs]), ht']
      rfl
    have hw : s.textView.selectedRange.IsWithin 0 := by rwa [hn] at hw
    have hspans := NSAttributedString.spans_lineFeed typing hw
    have hc := @NSAttributedString.canRestyle_lineFeed typing _ style
    have ⟨hm, new, hnew, _, hr⟩ := NSAttributedString.canRestyle_iff ht hspans (List.cons_ne_nil _ _) |>.mpr hc
    have hs := insetOrDeleteTabStyle_eq_some he |>.mpr ⟨new, _, hnew, hnr _, rfl⟩
    exact ⟨_, he, fun _ => hspans, ⟨hm, _, hs, hr⟩, hc⟩

-- Converting the paragraphs of a selection ends and gives each of them the list style exactly if something is
-- left of each of them without its header, each of them can be converted, and none becomes part of another one
-- in a way that changes its list style or leaves too few paragraphs for the new selection.
theorem insetOrDeleteTabStyle_converts (s : State) (style : RZTextTabStyle)
    (hw : s.textView.selectedRange.IsWithin s.text.length) :
    ∃ text f l, s.edited style = some text ∧
      (text ≠ [] → s.textView.selectedRange.Spans text.paragraphs f l) ∧
      (s.Converts style text f l ↔ text.CanRestyle style f l) := by
  by_cases hn : s.text = []
  case pos =>
    have ⟨text, he, hs, hc, hr⟩ := converts_of_nil ht style hn hw
    exact ⟨text, 0, 0, he, hs, iff_of_true hc hr⟩
  case neg =>
    have he : s.edited style = some s.text := by
      rw [edited, if_neg (by simp [hn])]
      rfl
    have ⟨f, l, hs⟩ := NSAttributedString.exists_spans hn hw
    exact ⟨s.text, f, l, he, fun _ => hs, converts_iff_of_ne_nil ht hn hs⟩

end

end State

namespace State

open NSAttributedString (mutableTransParagraphTo)

theorem sample_converts :
    ∃ text f l, @edited Sample.styles Sample.separated .ol = some text ∧
      (text ≠ [] → Sample.separated.textView.selectedRange.Spans text.paragraphs f l) ∧
      (@Converts Sample.styles Sample.behaviour Sample.separated .ol text f l ↔
        @NSAttributedString.CanRestyle Sample.styles text .ol f l) :=
  @insetOrDeleteTabStyle_converts Sample.styles Sample.behaviour Sample.tabStyle_transParagraphTo
    Sample.separated .ol (by decide)

theorem lastItem_recurses :
    let s := Sample.item "\t•\t"
    s.textView.selectedRange.IsWithin s.text.length ∧
    s.text.paragraphRanges s.textView.selectedRange = some [s.text.whole] ∧
    s.text.attributedSubstring s.text.whole = some s.text ∧ s.text.removeHeadTabString = some [] ∧
    ∀ style, ¬∃ fuel new, @mutableTransParagraphTo Sample.styles style fuel [] = some new :=
  ⟨by decide, by decide, rfl, rfl, fun _ ⟨_, _, h⟩ => by
    rw [@NSAttributedString.mutableTransParagraphTo_nil Sample.styles] at h
    contradiction⟩

end State
end RichText
