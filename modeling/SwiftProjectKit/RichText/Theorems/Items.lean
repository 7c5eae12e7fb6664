import SwiftProjectKit.RichText.Theorems.Insertion
import SwiftProjectKit.RichText.Theorems.Toggle

namespace RichText

open Segments (offset slice Holds Apart)

namespace NSString

variable {string m : NSString}

theorem IsHeader.two_lt (h : IsHeader m) : 2 < m.length := by
  cases h
  case ol digits hn _ =>
    have hl := List.length_pos_iff.mpr hn
    simp only [List.length_append, List.length_cons, List.length_nil]
    omega
  case ul => exact Nat.lt_succ_self 2

theorem paragraphStart_length (h : ∀ c ∈ string.getLast?, isParagraphSeparator c) :
    string.paragraphStart string.length = string.length := by
  refine paragraphStart_eq_self ?_
  cases hl : string.getLast?
  case none => rw [List.getLast?_eq_none_iff.mp hl]; rfl
  case some c =>
    have ⟨l, hs⟩ := List.getLast?_eq_some_iff.mp hl
    have hc := h c hl
    simpa [hs, isParagraphStart] using hc

end NSString

namespace NSAttributedString

variable [ParagraphStyles] {text new pre header body post rest : NSAttributedString} {i k : Nat} {c : Character}

omit [ParagraphStyles] in
theorem exists_paragraphs_cons (c : Character) (rest : NSAttributedString) :
    ∃ p ps, paragraphs (c :: rest) = (c :: p) :: ps := by
  have hf : (paragraphs (c :: rest)).flatten = c :: rest := flatten_paragraphs
  cases hp : paragraphs (c :: rest)
  case nil =>
    rw [hp] at hf
    contradiction
  case cons p ps =>
    have hn : p ≠ [] := List.ne_nil_of_mem_splitBy <| hp.symm ▸ List.mem_cons_self
    have ⟨d, p', hd⟩ := List.exists_cons_of_ne_nil hn
    rw [hp, hd, List.flatten_cons, List.cons_append] at hf
    have ⟨hc, _⟩ := List.cons.inj hf
    exact ⟨p', ps, by rw [hd, hc]⟩

-- An item of a list, cut into its header and its body, and what surrounds it.
structure Item (text : NSAttributedString) (i : Nat) (pre header body post : NSAttributedString) : Prop where
  paragraphs : text.paragraphs = pre.paragraphs ++ (header ++ body) :: post.paragraphs
  index      : pre.paragraphs.length = i
  isHeader   : NSString.IsHeader header.string
  styled     : ∀ c ∈ header, c.attributes.tabStyle ≠ .none

theorem exists_item {p : NSAttributedString} (hfix : text.resetTabOrderNumber = some text)
    (hp : text.paragraphs[i]? = some p) (htab : p.tab ≠ .none) : ∃ header body, p = header ++ body ∧
      Item text i (text.paragraphs.take i).flatten header body (text.paragraphs.drop (i + 1)).flatten := by
  obtain ⟨hi, hp'⟩ := List.getElem?_eq_some_iff.mp hp
  have hr := paragraphs_reset hfix
  rw [hr] at hp
  obtain ⟨q, hq, k, hqk⟩ := mem_renumberAll <| List.mem_of_getElem? hp
  have hqt : q.tab ≠ .none := by rwa [hqk, tab_renumber] at htab
  obtain ⟨style, hs⟩ : ∃ style, p = ofString (RZTextTabStyle.header style k) q.firstAttributes ++ q.body := by
    rw [hqk, renumber]
    cases ht : q.tab
    case none => contradiction
    all_goals exact ⟨_, rfl⟩
  have htake : paragraphs (text.paragraphs.take i).flatten = text.paragraphs.take i :=
    Segments.splitBy_take (splitBy_paragraphs text) i
  have hdrop : paragraphs (text.paragraphs.drop (i + 1)).flatten = text.paragraphs.drop (i + 1) :=
    Segments.splitBy_drop (splitBy_paragraphs text) (i + 1)
  refine ⟨_, _, hs, ?_, ?_, ?_, fun c hc => ?_⟩
  · rw [htake, hdrop, ← hs, ← hp', ← List.drop_eq_getElem_cons, List.take_append_drop]
  · rw [htake, List.length_take_of_le (Nat.le_of_lt hi)]
  · rw [string_ofString]
    exact NSString.isHeader_header _ _
  · obtain ⟨_, _, he⟩ := List.mem_map.mp hc
    exact he ▸ hqt

namespace Item

theorem text_eq (h : Item text i pre header body post) : text = pre ++ (header ++ body) ++ post := by
  have hf := congrArg List.flatten h.paragraphs
  rwa [List.flatten_append, List.flatten_cons, flatten_paragraphs, flatten_paragraphs, flatten_paragraphs,
    ← List.append_assoc] at hf

theorem getElem? (h : Item text i pre header body post) : text.paragraphs[i]? = some (header ++ body) := by
  rw [h.paragraphs, List.getElem?_append_right (Nat.le_of_eq h.index), h.index]
  simp

theorem take (h : Item text i pre header body post) : text.paragraphs.take i = pre.paragraphs := by
  rw [h.paragraphs, ← h.index, List.take_left]

theorem drop (h : Item text i pre header body post) : text.paragraphs.drop (i + 1) = post.paragraphs := by
  rw [h.paragraphs, ← h.index, List.drop_append]
  simp

theorem lines (h : Item text i pre header body post) :
    text.lines.take i = pre.lines ∧ text.lines.drop (i + 1) = post.lines := by
  rw [NSAttributedString.lines, ← List.map_take, ← List.map_drop, h.take, h.drop]
  exact ⟨rfl, rfl⟩

theorem piece (h : Item text i pre header body post) : Apart continues pre (header ++ body) ∧
    ((header ++ body).IsChain fun c d => continues c d) ∧ Apart continues (header ++ body) post := by
  have ⟨_, hl, hc, hr⟩ := Segments.splitBy_getElem? (splitBy_paragraphs text) h.getElem?
  rw [h.take, flatten_paragraphs] at hl
  rw [h.drop, flatten_paragraphs] at hr
  exact ⟨hl, hc, hr⟩

theorem header_ne_nil (h : Item text i pre header body post) : header ≠ [] :=
  string_ne_nil.mp h.isHeader.ne_nil

theorem two_lt (h : Item text i pre header body post) : 2 < header.length := by
  have hl := h.isHeader.two_lt
  rwa [string_length] at hl

theorem headerLength_eq (h : Item text i pre header body post) :
    headerLength (header ++ body) = header.length := by
  rw [headerLength, string_append, NSString.tabPattern_append h.isHeader, Option.getD_some, string_length]

theorem post_eq_nil (h : Item text i pre header body post) (hb : body = []) : post = [] := by
  by_contra hn
  have ⟨_, _, hr⟩ := h.piece
  rw [hb, List.append_nil, ← apart_string] at hr
  have hs := NSString.isParagraphSeparator_of_apart h.isHeader.getLast? (string_ne_nil.mpr hn) hr
  exact absurd hs <| by decide

theorem separator (h : Item text i pre header body post) :
    ∀ c ∈ pre.string.getLast?, NSString.isParagraphSeparator c := fun c hc => by
  have ⟨hl, _, _⟩ := h.piece
  refine NSString.isParagraphSeparator_of_apart hc ?_ <| apart_string.mpr hl
  exact string_ne_nil.mpr <| List.append_ne_nil_of_left_ne_nil h.header_ne_nil body

theorem offset_eq (h : Item text i pre header body post) : offset text.paragraphs i = pre.length := by
  rw [offset, h.take, flatten_paragraphs]

theorem holds (h : Item text i pre header body post) (hk : k < (header ++ body).length) :
    Holds text.paragraphs i (pre.length + k) := by
  have ho := h.offset_eq
  have ho' := Segments.offset_succ h.getElem?
  have ⟨hlt, _⟩ := List.getElem?_eq_some_iff.mp h.getElem?
  exact ⟨hlt, by omega, by omega, fun he => by omega⟩

theorem lt_length (h : Item text i pre header body post) (hk : k < (header ++ body).length) :
    pre.length + k < text.length := by
  rw [h.text_eq, List.length_append, List.length_append]
  omega

theorem isWithin {n : Nat} (h : Item text i pre header body post) (hk : k + n ≤ (header ++ body).length) :
    NSRange.IsWithin ⟨pre.length + k, n⟩ text.length := by
  simp only [NSRange.IsWithin, NSRange.maxLength, h.text_eq, List.length_append] at hk ⊢
  omega

variable {range : NSRange}

theorem tabStyleLengthFor (h : Item text i pre header body post) (hr : range.IsWithin text.length)
    (hl : range.location = pre.length + k) (hk : k < (header ++ body).length) :
    text.tabStyleLengthFor range = some (header.length : Int) := by
  have hk' : range.location.toNat = pre.length + k := by omega
  have hlt := h.lt_length hk
  rw [tabStyleLengthFor_eq hr (hk' ▸ h.holds hk) (by omega) h.getElem?, h.headerLength_eq]

theorem parapraghRange_location (h : Item text i pre header body post) (hr : range.IsWithin text.length)
    (hl : range.location = pre.length + k) (hk : k < (header ++ body).length) :
    ∃ length, text.parapraghRange range = some ⟨pre.length, length⟩ := by
  have hk' : range.location.toNat = pre.length + k := by omega
  have hlt := h.lt_length hk
  have ⟨_, _, hrg⟩ := parapraghRange_eq_slice hr (hk' ▸ h.holds hk) (by omega)
  exact ⟨_, h.offset_eq ▸ hrg⟩

theorem paragraphAttributedSubString (h : Item text i pre header body post) (hk : k < (header ++ body).length) :
    text.paragraphAttributedSubString ⟨pre.length + k, 0⟩ = some (header ++ body) := by
  have ho := h.offset_eq
  have ho' := Segments.offset_succ h.getElem?
  have hr : NSRange.IsWithin ⟨pre.length + k, 0⟩ text.length := h.isWithin <| Nat.le_of_lt hk
  have ⟨length, hrg⟩ := h.parapraghRange_location hr rfl hk
  have ⟨range, hrg', hm⟩ := parapraghRange_eq <| h.holds hk
  rw [Int.natCast_add, hrg, Option.some.injEq] at hrg'
  rw [← hrg', NSRange.maxLength] at hm
  have hlen : length = (header ++ body).length := by
    simp only at hm
    omega
  rw [NSAttributedString.paragraphAttributedSubString, hrg, hlen, Option.bind_eq_bind, Option.bind_some,
    attributedSubstring, h.text_eq]
  exact NSRange.substring_append ..

theorem tabStyleFor_header (h : Item text i pre header body post) (hk : k < header.length) (length : Int) :
    ∃ style, style ≠ .none ∧ text.tabStyleFor ⟨pre.length + k, length⟩ = some style := by
  have hc : text[pre.length + k]? = some header[k] := by
    rw [h.text_eq, List.append_assoc, List.getElem?_append_right (Nat.le_add_right _ _), List.append_assoc,
      Nat.add_sub_cancel_left, List.getElem?_append_left hk, List.getElem?_eq_getElem hk]
  exact ⟨_, h.styled _ <| List.getElem_mem hk, tabStyleFor_of_getElem? hc length⟩

end Item

def unlisted (pre body post : NSAttributedString) (p : NSParagraphStyle) : NSAttributedString :=
  pre ++ body.mapAttributes (·.set .paragraphStyle <| some <| .paragraphStyle p) ++ post

def plainLines (p : NSAttributedString) : List Line :=
  if p.string.body = [] then [] else [(.none, p.string.body)]

def linesWithout (text : NSAttributedString) (i : Nat) (p : NSAttributedString) : List Line :=
  text.lines.take i ++ plainLines p ++ text.lines.drop (i + 1)

namespace Item

theorem string_body (h : Item text i pre header body post) : (string (header ++ body)).body = body.string := by
  rw [string_append, NSString.body_append h.isHeader]

theorem linesWithout_eq (h : Item text i pre header body post) :
    linesWithout text i (header ++ body) =
      pre.lines ++ (if body.string = [] then [] else [(.none, body.string)]) ++ post.lines := by
  rw [linesWithout, plainLines, h.string_body, h.lines.left, h.lines.right]

theorem body_pieces (h : Item text i pre header body post) (hb : body ≠ []) :
    (body.IsChain fun c d => continues c d) ∧ Apart continues body post := by
  have ⟨_, hc, hr⟩ := h.piece
  exact ⟨hc.suffix <| List.suffix_append _ _, Segments.apart_append_left hb |>.mp hr⟩

theorem lines_unlisted {p : NSParagraphStyle} (h : Item text i pre header body post)
    (ha : Apart NSString.continues pre.string body.string) (hp : p.tabStyle = .none) :
    (unlisted pre body post p).lines = linesWithout text i (header ++ body) := by
  rw [h.linesWithout_eq, unlisted]
  by_cases hb : body = []
  case pos =>
    have hpost := h.post_eq_nil hb
    subst hb hpost
    simp [NSAttributedString.lines, mapAttributes, string, NSAttributedString.paragraphs]
  case neg =>
    obtain ⟨hc, hr⟩ := h.body_pieces hb
    have hn : body.mapAttributes (·.set .paragraphStyle <| some <| .paragraphStyle p) ≠ [] := by
      simpa [mapAttributes] using hb
    have hs : string (body.mapAttributes (·.set .paragraphStyle <| some <| .paragraphStyle p)) = body.string :=
      string_mapAttributes
    generalize hm : body.mapAttributes (·.set .paragraphStyle <| some <| .paragraphStyle p) = body' at hn hs ⊢
    rw [← isChain_string, ← hs, isChain_string] at hc
    rw [← apart_string, ← hs, apart_string, ← Segments.apart_append_left hn] at hr
    rw [← hs, apart_string] at ha
    have hps : NSAttributedString.paragraphs (pre ++ body' ++ post) =
        pre.paragraphs ++ [body'] ++ post.paragraphs := by
      have h₁ := List.splitBy_append hr
      have h₂ := List.splitBy_append ha
      rw [h₂, List.splitBy_of_isChain hn hc] at h₁
      exact h₁
    have ht : body'.tab = .none := by
      obtain ⟨c, l, hl⟩ := List.exists_cons_of_ne_nil hb
      rw [← hm, hl]
      simpa [tab, firstAttributes, mapAttributes, Attributes.tabStyle] using hp
    rw [NSAttributedString.lines, hps, List.map_append, List.map_append, if_neg (string_ne_nil.mpr hb),
      List.map_singleton, line, ht, hs]
    rfl

theorem parapraghRange_body (h : Item text i pre header body post)
    (ha : Apart NSString.continues pre.string body.string) :
    NSAttributedString.parapraghRange (pre ++ body ++ post) ⟨pre.length, 0⟩ = some ⟨pre.length, body.length⟩ := by
  by_cases hb : body = []
  case neg =>
    have ⟨hc, hr⟩ := h.body_pieces hb
    exact parapraghRange_append (apart_string.mp ha) hb hc hr
  case pos =>
    have hpost := h.post_eq_nil hb
    subst hb hpost
    have hw : NSRange.IsWithin ⟨pre.length, 0⟩ pre.string.length := by
      simp only [NSRange.IsWithin, NSRange.maxLength, string_length]
      omega
    have hs := NSString.paragraphStart_length h.separator
    have he : pre.string.paragraphEnd pre.string.length = pre.string.length := NSString.paragraphEnd_length
    rw [string_length] at hs he
    rw [List.append_nil, List.append_nil, NSAttributedString.parapraghRange, NSString.getParagraphStart, if_pos hw]
    simp [hs, he]

variable (h : Item text i pre header body post)
include h

section

variable (ht : ∀ (p : NSParagraphStyle) s, (p.transParagraphTo s).tabStyle = s)
  (hfix : text.resetTabOrderNumber = some text)
  (hnew : new.lines = Line.renumberAll (linesWithout text i (header ++ body)))
include ht hfix hnew

theorem take_lines : string (new.paragraphs.take i).flatten = pre.string := by
  have hfix : Line.renumberAll text.lines = text.lines := lines_fixed ht <| by rw [hfix]; rfl
  have hl : pre.lines.length = i := (List.length_map _).trans h.index
  have hi : new.lines.take i = pre.lines := by
    rw [hnew, Line.take_renumberAll, h.linesWithout_eq, List.append_assoc, ← hl, List.take_left,
      ← h.lines.left, ← Line.take_renumberAll, hfix]
  have hs : (new.paragraphs.take i).map string = pre.paragraphs.map string := by
    have hi := congrArg (List.map Prod.snd) hi
    rwa [List.map_take, map_snd_lines, map_snd_lines, paragraphs_string, paragraphs_string, ← List.map_take] at hi
  rw [string, List.map_flatten]
  exact congrArg List.flatten hs |>.trans flatten_map_string

theorem length_le : pre.length ≤ new.length := by
  have hl := congrArg List.length <| h.take_lines ht hfix hnew
  have hle := (List.take_sublist i new.paragraphs).flatten.length_le
  rw [flatten_paragraphs] at hle
  rw [string_length, string_length] at hl
  exact hl ▸ hle

theorem apart_of_lines : Apart NSString.continues pre.string body.string := by
  by_cases hb : body.string = []
  case pos =>
    rw [hb]
    exact fun _ _ _ => nofun
  case neg =>
    have hl : pre.lines.length = i := (List.length_map _).trans h.index
    have hi : (linesWithout text i (header ++ body))[i]? = some (.none, body.string) := by
      rw [h.linesWithout_eq, if_neg hb, List.append_assoc, List.getElem?_append_right (Nat.le_of_eq hl), hl]
      simp
    have hlen : i < (Runs.ranks <| (linesWithout text i (header ++ body)).map Prod.fst).length := by
      obtain ⟨hlt, _⟩ := List.getElem?_eq_some_iff.mp hi
      simpa using hlt
    have hr : new.lines[i]? = some (.none, body.string) := by
      rw [hnew, Line.renumberAll, List.getElem?_zipWith, hi, List.getElem?_eq_getElem hlen]
      rfl
    rw [NSAttributedString.lines, List.getElem?_map] at hr
    obtain ⟨q, hq, he⟩ := Option.map_eq_some_iff.mp hr
    obtain ⟨_, ha, _⟩ := Segments.splitBy_getElem? (splitBy_paragraphs new) hq
    have hs : string q = body.string := congrArg Prod.snd he
    rwa [← apart_string, h.take_lines ht hfix hnew, hs] at ha

end

theorem replaceCharacters_keeps {part : NSAttributedString} (hl : (pre.length : Int) < range.location)
    (hr : text.replaceCharacters range part = some new) :
    ∃ c rest, header.head? = some c ∧ new = pre ++ c :: rest := by
  obtain ⟨c, header', hc⟩ := List.exists_cons_of_ne_nil h.header_ne_nil
  have ht : text = pre ++ c :: (header' ++ body ++ post) := by simp [h.text_eq, hc]
  rw [replaceCharacters, ht] at hr
  obtain ⟨rest, hrest⟩ := NSRange.replace_keeps pre hl hr
  exact ⟨c, rest, hc ▸ rfl, hrest⟩

theorem lines_ne {c : Character} (ht : ∀ (p : NSParagraphStyle) s, (p.transParagraphTo s).tabStyle = s)
    (hc : header.head? = some c) (hn : new = pre ++ c :: rest ∨
      resetTabOrderNumber (pre ++ c :: rest) = some new) :
    new.lines ≠ Line.renumberAll (linesWithout text i (header ++ body)) := by
  intro he
  have hl : pre.lines.length = i := (List.length_map _).trans h.index
  have hfst (lines : List Line) (hf : new.lines.map Prod.fst = lines.map Prod.fst) :
      (lines.map Prod.fst)[i]? = ((linesWithout text i (header ++ body)).map Prod.fst)[i]? := by
    rw [← hf, he, Line.map_fst_renumberAll]
  have hexp : ((linesWithout text i (header ++ body)).map Prod.fst)[i]? ≠ some c.attributes.tabStyle := by
    have hs := h.styled c <| List.mem_of_mem_head? hc
    rw [h.linesWithout_eq, List.getElem?_map, List.append_assoc, List.getElem?_append_right (Nat.le_of_eq hl), hl]
    split
    case isTrue hb =>
      rw [h.post_eq_nil <| List.map_eq_nil_iff.mp hb]
      simp [NSAttributedString.lines, NSAttributedString.paragraphs]
    case isFalse => simpa using Ne.symm hs
  refine hexp <| (hfst (NSAttributedString.lines (pre ++ c :: rest)) ?_).symm.trans ?_
  · cases hn
    case inl hn => rw [hn]
    case inr hn => rw [lines_reset ht hn, Line.map_fst_renumberAll]
  · have ha := h.piece.left
    have hp : NSAttributedString.paragraphs (pre ++ c :: rest) =
        pre.paragraphs ++ NSAttributedString.paragraphs (c :: rest) :=
      List.splitBy_append_cons rest fun d hd =>
        ha d hd c <| by rwa [List.head?_append_of_ne_nil _ h.header_ne_nil]
    obtain ⟨q, qs, hq⟩ := exists_paragraphs_cons c rest
    rw [NSAttributedString.lines, hp, List.map_append, ← NSAttributedString.lines, hq, List.getElem?_map,
      List.getElem?_append_right (Nat.le_of_eq hl), hl]
    simp [line, tab, firstAttributes]

end Item
end NSAttributedString
end RichText
