import SwiftProjectKit.RichText.Theorems.Items

namespace RichText

open Segments (Apart)

namespace State

open NSAttributedString (Item unlisted linesWithout)

variable [ParagraphStyles] [UITextView] {s s' s₁ : State} {typing : Attributes} {range : NSRange}
  {p : NSParagraphStyle} {pre header body post : NSAttributedString} {i k : Nat}

omit [UITextView] in
theorem updateLink_setTypingAttributes (h : s.updateLink range = some s₁) : ∃ typing : Attributes,
    typing.paragraphStyle.isSome = s.textView.typingAttributes.paragraphStyle.isSome ∧
      s₁ = s.setTypingAttributes typing := by
  cases updateLink_eq_some h
  case inl h => exact ⟨_, rfl, h⟩
  case inr h =>
    have ⟨typing, ht, h⟩ := Option.bind_eq_some_iff.mp h
    refine ⟨_, ?_, (Option.some.inj h).symm⟩
    rw [Attributes.paragraphStyle_set_of_ne (by decide), paragraphStyle_typingAttributes ht]

omit [UITextView] in
theorem updateLink_isSome (hw : s.textView.selectedRange.IsWithin s.text.length) {pr : Option NSRange}
    (hr : s.text.rangeFor .link range = some pr) : ∃ s₁, s.updateLink range = some s₁ := by
  have ⟨typing, ht⟩ := typingAttributes_isSome hw
  simp only [updateLink, removeLink, ht, hr, Option.bind_eq_bind, Option.bind_some]
  split
  case isTrue => exact ⟨_, rfl⟩
  case isFalse =>
    split
    case h_2 => exact ⟨_, rfl⟩
    case h_1 =>
      split
      case h_2 => exact ⟨_, rfl⟩
      case h_1 =>
        split
        case isTrue  => exact ⟨_, rfl⟩
        case isFalse => exact ⟨_, rfl⟩

omit [UITextView] in
theorem insertedText_unlisted (h : Item s.text i pre header body post)
    (ha : Apart NSString.continues pre.string body.string) (he : s.options.enableTabStyle)
    (hp : typing.paragraphStyle = some p) :
    s.insertedText [] typing true (some ⟨pre.length, header.length⟩) =
      (unlisted pre body post p).resetTabOrderNumber.map (·, ⟨pre.length, 0⟩) := by
  have hl := List.length_pos_iff.mpr h.header_ne_nil
  have hadd : NSAttributedString.addAttributes [] typing (NSAttributedString.whole []) = some [] := rfl
  have ht : s.text = pre ++ header ++ (body ++ post) := by simp [h.text_eq]
  have hrep : s.replaced [] typing (some ⟨pre.length, header.length⟩) =
      some (pre ++ body ++ post, ⟨pre.length, 0⟩) := by
    rw [replaced_eq (by simp) (.inr <| by simpa using hl), NSAttributedString.replaceCharacters, ht,
      NSRange.replace_append]
    simp
  have hadd' : NSAttributedString.addAttribute (pre ++ body ++ post) .paragraphStyle (.paragraphStyle p)
      ⟨pre.length, body.length⟩ = some (unlisted pre body post p) :=
    NSAttributedString.updateAttributes_append
  simp only [insertedText, hadd, hrep, h.parapraghRange_body ha, hp, hadd', he, if_true, Option.bind_eq_bind,
    Option.bind_some, Option.getD_some, Option.map_eq_bind]
  rfl

theorem deleteTab_of_none (ht : s.typingAttributes = some typing) (hp : typing.paragraphStyle = none) :
    s.deleteTab range = some (s, true) := by
  rw [deleteTab, ht, Option.bind_eq_bind, Option.bind_some]
  simp only [hp]
  rfl

theorem deleteTab_of_some (h : Item s.text i pre header body post) (hk : k + 1 = header.length)
    (ht : s.typingAttributes = some typing) (hp : typing.paragraphStyle = some p) :
    s.deleteTab ⟨pre.length + k, 1⟩ =
      ((s.setTypingAttributes <| typing.set .paragraphStyle <| some <| .paragraphStyle <|
        p.transParagraphTo .none).insert (some []) none true (some ⟨pre.length, header.length⟩)).map
          (·, false) := by
  have hlt : k < (header ++ body).length := by
    rw [List.length_append]
    omega
  have hr : NSRange.IsWithin ⟨pre.length + k, 1⟩ s.text.length := h.isWithin hlt
  have hlen := h.tabStyleLengthFor hr rfl hlt
  have h₁ : (pre.length + k - (header.length - 1) : Int) = pre.length := by omega
  have h₂ : (1 + (header.length - 1) : Int) = header.length := by omega
  have hs (typing : Attributes) : (s.setTypingAttributes typing).text = s.text := rfl
  simp only [deleteTab, ht, hp, hs, hlen, h₁, h₂, Option.bind_eq_bind, Option.bind_some, Option.map_eq_bind]
  rfl

structure RemovesHeader (s s' : State) (i : Nat) (p : NSAttributedString) : Prop where
  lines  : s'.text.lines = Line.renumberAll (linesWithout s.text i p)
  typing : s'.textView.typingAttributes.tabStyle = .none

theorem deleteTab_removes (ht : ∀ (p : NSParagraphStyle) s, (p.transParagraphTo s).tabStyle = s)
    (hfix : s.text.resetTabOrderNumber = some s.text) (h : Item s.text i pre header body post)
    (hk : k + 1 = header.length) (he : s.options.enableTabStyle)
    (ha : Apart NSString.continues pre.string body.string)
    (hw : s.textView.selectedRange.IsWithin s.text.length)
    (hp : s.textView.typingAttributes.paragraphStyle.isSome) :
    ∃ s', s.deleteTab ⟨pre.length + k, 1⟩ = some (s', false) ∧ s.RemovesHeader s' i (header ++ body) := by
  obtain ⟨typing, htyp⟩ := typingAttributes_isSome hw
  rw [← paragraphStyle_typingAttributes htyp] at hp
  obtain ⟨p, hp⟩ := Option.isSome_iff_exists.mp hp
  let newp := p.transParagraphTo .none
  let type := typing.set .paragraphStyle <| some <| .paragraphStyle newp
  let s₁ := s.setTypingAttributes type
  have hnewp : (type.set .originfontName none).paragraphStyle = some newp := by
    rw [Attributes.paragraphStyle_set_of_ne (by decide)]
    exact Attributes.paragraphStyle_set
  have hnone : type.tabStyle = .none :=
    (Attributes.tabStyle_of_paragraphStyle Attributes.paragraphStyle_set).trans <| ht p .none
  have htyp₁ : s₁.typingAttributes = some (type.set .originfontName none) := typingAttributes_of_none hw hnone
  have hnew := NSAttributedString.resetTabOrderNumber_eq (unlisted pre body post newp)
  have hlines := NSAttributedString.lines_reset ht hnew
  rw [h.lines_unlisted ha <| ht p .none] at hlines
  have hi : s₁.insertedText (s₁.inserted (some []) none).fst _ true (some ⟨pre.length, header.length⟩) = _ :=
    insertedText_unlisted h ha he hnewp
  rw [hnew, Option.map_some] at hi
  have hle := h.length_le ht hfix hlines
  have hw' : NSRange.IsWithin ⟨pre.length, 0⟩
      (NSAttributedString.renumberAll (unlisted pre body post newp).unified.paragraphs).flatten.length := by
    simp only [NSRange.IsWithin, NSRange.maxLength]
    omega
  obtain ⟨s', hs'⟩ := insert_isSome htyp₁ hi hw'
  obtain ⟨typing', range, htyp', hi', _, htype⟩ := insert_insertedText hs'
  cases Option.some.inj <| htyp₁.symm.trans htyp'
  obtain ⟨htext, _⟩ := Prod.mk.inj <| Option.some.inj <| hi.symm.trans hi'
  refine ⟨s', ?_, htext ▸ hlines, ?_⟩
  · rw [deleteTab_of_some h hk htyp hp]
    exact congrArg (Option.map (·, false)) hs'
  · rw [htype rfl, Attributes.tabStyle_of_paragraphStyle hnewp]
    exact ht p .none

omit [UITextView] in
theorem changeText_keeps (ht : ∀ (p : NSParagraphStyle) s, (p.transParagraphTo s).tabStyle = s)
    {string : NSString} (h : Item s.text i pre header body post) (htext : s₁.text = s.text)
    (hl : (pre.length : Int) < range.location) (hs : s₁.changeText range string false = some s') :
    ¬s.RemovesHeader s' i (header ++ body) := by
  have hr := changeText_eq_some hs
  rw [htext] at hr
  have ⟨_, _, hc, hrest⟩ := h.replaceCharacters_keeps hl hr
  exact fun hrem => h.lines_ne ht hc (.inl hrest) hrem.lines

theorem insert_keeps (ht : ∀ (p : NSParagraphStyle) s, (p.transParagraphTo s).tabStyle = s)
    {string : NSString} (h : Item s.text i pre header body post) (htext : s₁.text = s.text)
    (hl : (pre.length : Int) < range.location) (hlen : range.length = 0) (hn : string ≠ [])
    (hs : s₁.insert string none false range = some s') : ¬s.RemovesHeader s' i (header ++ body) := by
  have ⟨typing, _, _, hi, _⟩ := insert_insertedText hs
  have ⟨tempAttr, ha, hi⟩ := Option.bind_eq_some_iff.mp hi
  have ⟨(replaced, _), hr, hi⟩ := Option.bind_eq_some_iff.mp hi
  have hne : tempAttr ≠ [] := by
    have ⟨l, m, r, hl, hm⟩ := NSAttributedString.updateAttributes_eq_some ha
    have hl := congrArg List.length hl
    have hs : (s₁.inserted (some string) none).fst = NSAttributedString.ofString string fun _ => none := rfl
    rw [hs] at hl
    rw [hm, ← List.length_pos_iff]
    have hpos := List.length_pos_iff.mpr hn
    simp only [NSAttributedString.ofString, List.length_map, List.length_append,
      NSAttributedString.mapAttributes_length] at hl ⊢
    omega
  rw [replaced_eq (Int.le_of_eq hlen.symm) (.inl hne)] at hr
  have ⟨_, hr', he⟩ := Option.map_eq_some_iff.mp hr
  cases he
  rw [htext] at hr'
  have ⟨c, rest, hc, hrest⟩ := h.replaceCharacters_keeps hl hr'
  have hnew : s'.text = pre ++ c :: rest ∨
      NSAttributedString.resetTabOrderNumber (pre ++ c :: rest) = some s'.text := by
    rw [← hrest]
    simp only [Bool.false_eq_true, if_false, pure_bind] at hi
    split at hi
    case isTrue =>
      have ⟨_, hn, hi⟩ := Option.bind_eq_some_iff.mp hi
      cases Option.some.inj hi
      exact .inr hn
    case isFalse =>
      cases Option.some.inj hi
      exact .inl rfl
  exact fun hrem => h.lines_ne ht hc hnew hrem.lines

omit [UITextView] in
theorem attributedSubstring_tab (h : Item s.text i pre header body post) (hk : k + 1 = header.length) :
    ∃ c, s.text.attributedSubstring ⟨pre.length + k, 1⟩ = some [c] ∧ c.char = NSString.tab := by
  have hl := h.isHeader.getLast?
  rw [NSAttributedString.string, List.getLast?_map] at hl
  obtain ⟨c, hc, htab⟩ := Option.map_eq_some_iff.mp hl
  obtain ⟨header', hh⟩ := List.getLast?_eq_some_iff.mp hc
  have ht : s.text = (pre ++ header') ++ [c] ++ (body ++ post) := by simp [h.text_eq, hh]
  have hs : NSRange.substring ⟨(pre ++ header').length, [c].length⟩ _ = some [c] :=
    NSRange.substring_append (pre ++ header') [c] (body ++ post)
  have hlen : ((pre ++ header').length : Int) = pre.length + k := by
    rw [hh] at hk
    simp only [List.length_append, List.length_singleton] at hk ⊢
    omega
  rw [← ht, hlen] at hs
  exact ⟨c, hs, htab⟩

theorem shouldChangeTextIn_delete (h : Item s.text i pre header body post) (hk : k + 1 = header.length)
    (he : s.options.enableTabStyle) (hu : s.updateLink ⟨pre.length + k, 1⟩ = some s₁) :
    s.shouldChangeTextIn ⟨pre.length + k, 1⟩ [] = s₁.deleteTab ⟨pre.length + k, 1⟩ := by
  have ⟨_, _, hs₁⟩ := updateLink_setTypingAttributes hu
  have ht : s₁.text = s.text := hs₁ ▸ rfl
  have hlt : k < (header ++ body).length := by
    rw [List.length_append]
    omega
  have hr : NSRange.IsWithin ⟨pre.length + k, 1⟩ s.text.length := h.isWithin hlt
  have ⟨style, hstyle, htab⟩ := h.tabStyleFor_header (Nat.lt_of_succ_le <| Nat.le_of_eq hk) 1
  have ⟨c, hsub, hc⟩ := attributedSubstring_tab h hk
  have hlen := h.tabStyleLengthFor hr rfl hlt
  have ⟨length, hrg⟩ := h.parapraghRange_location hr rfl hlt
  have hlt' : ¬((pre.length + k : Int) ≥ pre.length + header.length) := by omega
  have hdel : s₁.shouldDelete ⟨pre.length + k, 1⟩ style = s₁.deleteTab ⟨pre.length + k, 1⟩ := by
    simp [shouldDelete, ht, hsub, NSAttributedString.string, hc, hrg, hlen, hlt']
  simp [shouldChangeTextIn, he, hu, ht, htab, hstyle, hdel]

theorem shouldChangeTextIn_break {x : Int} {style : RZTextTabStyle} (he : s.options.enableTabStyle)
    (hu : s.updateLink ⟨x, 0⟩ = some s₁) (ht : s.text.tabStyleFor ⟨x, 0⟩ = some style) (hs : style ≠ .none) :
    s.shouldChangeTextIn ⟨x, 0⟩ (.ofString "\n") = s₁.shouldBreak ⟨x, 0⟩ := by
  have ⟨_, _, hs₁⟩ := updateLink_setTypingAttributes hu
  have ht' : s₁.text = s.text := hs₁ ▸ rfl
  have hn : (NSString.ofString "\n").isEmpty = false := rfl
  simp [shouldChangeTextIn, he, hu, ht', ht, hs, hn]

theorem shouldBreak_eq (h : Item s.text i pre header body post) (hb : body ≠ []) :
    s.shouldBreak ⟨pre.length + header.length, 0⟩ = if body.string = [0x0A] then
        s.deleteTab ⟨pre.length + header.length - 1, 1⟩
      else
        (s.insert (some <| .ofString "\n") none false (some ⟨pre.length + header.length, 0⟩)).map (·, false) := by
  have hlt : header.length < (header ++ body).length := by
    have hl := List.length_pos_iff.mpr hb
    rw [List.length_append]
    omega
  have hsub := h.paragraphAttributedSubString hlt
  have hbody : NSAttributedString.body (header ++ body) = body := by
    rw [NSAttributedString.body, NSAttributedString.string_append, NSString.tabPattern_append h.isHeader,
      NSAttributedString.string_length, Option.getD_some, List.drop_left]
  simp only [shouldBreak, hsub, NSAttributedString.removeHeadTabString_eq, hbody, beq_iff_eq,
    Option.bind_eq_bind, Option.bind_some, Option.map_eq_bind]
  rfl

theorem shouldBreak_of_nil {answer : State × Bool} (h : Item s.text i pre header body post) (hb : body = [])
    (hs : s.shouldBreak ⟨pre.length + header.length, 0⟩ = some answer) : ∃ s',
      s.insert (some <| .ofString "\n") none false (some ⟨pre.length + header.length, 0⟩) = some s' ∧
        answer = (s', false) := by
  have ⟨p, hp, hs⟩ := Option.bind_eq_some_iff.mp hs
  rw [NSAttributedString.removeHeadTabString_eq, Option.bind_eq_bind, Option.bind_some] at hs
  split at hs
  case isFalse =>
    have ⟨s', hi, hs⟩ := Option.bind_eq_some_iff.mp hs
    exact ⟨s', hi, (Option.some.inj hs).symm⟩
  case isTrue hn =>
    -- The paragraph goes up to the end of the text, and so ends with the tab of the header.
    have ht : s.text = pre ++ header := by simp [h.text_eq, hb, h.post_eq_nil hb]
    have hlen : (pre.length + header.length : Int) = s.text.length := by simp [ht]
    have hbody : p.body.string = [0x0A] := beq_iff_eq.mp hn
    have hsuf : p.body.string <:+ s.text.string :=
      (List.drop_suffix _ _).trans (NSAttributedString.paragraphAttributedSubString_suffix <| hlen ▸ hp) |>.map _
    have hlast : s.text.string.getLast? = some NSString.tab := by
      rw [ht, NSAttributedString.string_append, List.getLast?_append_of_ne_nil _ h.isHeader.ne_nil,
        h.isHeader.getLast?]
    have hl := NSString.getLast?_of_suffix (List.cons_ne_nil _ _) <| hbody ▸ hsuf
    exact absurd (hl.trans hlast) <| by decide

-- What removing the header of a paragraph needs. A carriage return in front of the header and a line feed behind
-- it would become a single line break.
structure CanRemoveHeader (s : State) (i : Nat) (p : NSAttributedString) : Prop where
  enable : s.options.enableTabStyle
  typing : s.textView.typingAttributes.paragraphStyle.isSome
  apart  : Apart NSString.continues (NSAttributedString.string (s.text.paragraphs.take i).flatten) p.string.body

theorem deleteTab_paragraphStyle (h : s.deleteTab range = some (s', false)) :
    s.textView.typingAttributes.paragraphStyle.isSome := by
  have ⟨typing, ht, _⟩ := Option.bind_eq_some_iff.mp h
  rw [← paragraphStyle_typingAttributes ht]
  cases hp : typing.paragraphStyle
  case some => rfl
  case none =>
    rw [deleteTab_of_none ht hp] at h
    cases h

theorem shouldChangeTextIn_of_removes (ht : ∀ (p : NSParagraphStyle) s, (p.transParagraphTo s).tabStyle = s)
    {string : NSString} (h : Item s.text i pre header body post) (hl : (pre.length : Int) < range.location)
    (hs : s.typeText range string = some s') (hrem : s.RemovesHeader s' i (header ++ body)) :
    s.options.enableTabStyle ∧ s.shouldChangeTextIn range string = some (s', false) ∧
      ∃ s₁, s.updateLink range = some s₁ := by
  obtain ⟨answer, ha, hs⟩ := Option.bind_eq_some_iff.mp hs
  cases shouldChangeTextIn_answers ha
  case leaves s₁ hr =>
    obtain ⟨_, _, hr⟩ := hr
    exact absurd hrem <| changeText_keeps ht h (hr ▸ rfl) hl hs
  case inserts =>
    cases Option.some.inj hs
    have ha' := ha
    rw [shouldChangeTextIn] at ha'
    split at ha'
    case isTrue => cases ha'
    case isFalse he =>
      obtain ⟨s₁, hu, _⟩ := Option.bind_eq_some_iff.mp ha'
      exact ⟨by simpa using he, ha, s₁, hu⟩

theorem typeText_of_false {string : NSString} (h : s.shouldChangeTextIn range string = some (s', false)) :
    s.typeText range string = some s' := by
  rw [typeText, h]
  rfl

section

variable (ht : ∀ (p : NSParagraphStyle) s, (p.transParagraphTo s).tabStyle = s)
  (hfix : s.text.resetTabOrderNumber = some s.text)
  (h : Item s.text i (s.text.paragraphs.take i).flatten header body post)
include ht hfix h

omit [UITextView] in
theorem canRemoveHeader (he : s.options.enableTabStyle) (hrem : s.RemovesHeader s' i (header ++ body))
    (hp : s.textView.typingAttributes.paragraphStyle.isSome) : s.CanRemoveHeader i (header ++ body) where
  enable := he
  typing := hp
  apart  := by
    rw [h.string_body]
    exact h.apart_of_lines ht hfix hrem.lines

theorem typeText_backspace (hk : k + 1 = header.length)
    (hw : s.textView.selectedRange.IsWithin s.text.length) :
    (∃ s', s.typeText ⟨(s.text.paragraphs.take i).flatten.length + k, 1⟩ [] = some s' ∧
      s.RemovesHeader s' i (header ++ body)) ↔ s.CanRemoveHeader i (header ++ body) := by
  have hlt : k < (header ++ body).length := by
    rw [List.length_append]
    omega
  have hlt' := h.lt_length hlt
  constructor
  case mp =>
    intro ⟨s', hs, hrem⟩
    have hlen := h.two_lt
    have ⟨he, ha, s₁, hu⟩ := shouldChangeTextIn_of_removes ht h (by simp only; omega) hs hrem
    have ⟨typing, htyp, hs₁⟩ := updateLink_setTypingAttributes hu
    rw [shouldChangeTextIn_delete h hk he hu] at ha
    refine canRemoveHeader ht hfix h he hrem ?_
    have hp := deleteTab_paragraphStyle ha
    rw [hs₁] at hp
    exact htyp ▸ hp
  case mpr =>
    intro ⟨he, hp, ha⟩
    rw [h.string_body] at ha
    have hr : NSRange.IsWithin ⟨(s.text.paragraphs.take i).flatten.length + k, 1⟩ s.text.length :=
      h.isWithin hlt
    have ⟨_, hpr⟩ := NSAttributedString.rangeFor_isSome .link hr (h.holds hlt) (by simp only; omega)
    have ⟨s₁, hu⟩ := updateLink_isSome hw hpr
    have ⟨typing, htyp, hs₁⟩ := updateLink_setTypingAttributes hu
    have hdel := shouldChangeTextIn_delete h hk he hu
    subst hs₁
    have ⟨s', hs, hrem⟩ := deleteTab_removes (s := s.setTypingAttributes typing) ht hfix h hk he ha hw (htyp ▸ hp)
    exact ⟨s', typeText_of_false <| hdel.trans hs, hrem.lines, hrem.typing⟩

theorem canRemoveHeader_of_return
    (hs : s.typeText ⟨(s.text.paragraphs.take i).flatten.length + header.length, 0⟩ (.ofString "\n") = some s')
    (hrem : s.RemovesHeader s' i (header ++ body)) :
    s.CanRemoveHeader i (header ++ body) ∧ body.string = [0x0A] ∧
      s.text.tabStyleFor ⟨(s.text.paragraphs.take i).flatten.length + header.length, 0⟩ ≠ some .none := by
  generalize hpre : (s.text.paragraphs.take i).flatten = pre at h hs ⊢
  have hlen := h.two_lt
  have hr : NSRange.IsWithin ⟨pre.length + header.length, 0⟩ s.text.length :=
    h.isWithin <| List.length_append ▸ Nat.le_add_right _ _
  obtain ⟨style, hstyle⟩ := NSAttributedString.exists_tabStyleFor hr
  obtain ⟨he, ha, s₁, hu⟩ := shouldChangeTextIn_of_removes ht h (by simp only; omega) hs hrem
  obtain ⟨typing, htyp, hs₁⟩ := updateLink_setTypingAttributes hu
  have htext : s₁.text = s.text := hs₁ ▸ rfl
  have hne : style ≠ .none := fun hn => by
    subst hn
    simp [shouldChangeTextIn, he, hu, htext, hstyle] at ha
  rw [shouldChangeTextIn_break he hu hstyle hne] at ha
  have hkeeps (hi : s₁.insert (some <| .ofString "\n") none false
      (some ⟨pre.length + header.length, 0⟩) = some s') : False :=
    insert_keeps ht h htext (by simp only; omega) rfl (by decide) hi hrem
  by_cases hb : body = []
  case pos =>
    obtain ⟨_, hi, he⟩ := shouldBreak_of_nil (htext.symm ▸ h) hb ha
    cases he
    exact (hkeeps hi).elim
  case neg =>
    rw [shouldBreak_eq (htext.symm ▸ h) hb] at ha
    split at ha
    case isFalse =>
      obtain ⟨_, hi, he⟩ := Option.map_eq_some_iff.mp ha
      cases he
      exact (hkeeps hi).elim
    case isTrue hn =>
      have hp := deleteTab_paragraphStyle ha
      rw [hs₁] at hp
      refine ⟨canRemoveHeader ht hfix (hpre.symm ▸ h) he hrem <| htyp ▸ hp, hn, ?_⟩
      rw [hstyle]
      simpa using hne

theorem removesHeader_of_return (hw : s.textView.selectedRange.IsWithin s.text.length)
    (hc : s.CanRemoveHeader i (header ++ body)) (hn : body.string = [0x0A])
    (hne : s.text.tabStyleFor ⟨(s.text.paragraphs.take i).flatten.length + header.length, 0⟩ ≠ some .none) :
    ∃ s', s.typeText ⟨(s.text.paragraphs.take i).flatten.length + header.length, 0⟩ (.ofString "\n") = some s' ∧
      s.RemovesHeader s' i (header ++ body) := by
  have ⟨he, hp, ha⟩ := hc
  rw [h.string_body] at ha
  have hlen := h.two_lt
  have hb : body ≠ [] := NSAttributedString.string_ne_nil.mp <| by simp [hn]
  have hlt : header.length < (header ++ body).length := by
    have hl := List.length_pos_iff.mpr hb
    rw [List.length_append]
    omega
  have hlt' := h.lt_length hlt
  have hr : NSRange.IsWithin ⟨(s.text.paragraphs.take i).flatten.length + header.length, 0⟩ s.text.length :=
    h.isWithin <| Nat.le_of_lt hlt
  have ⟨style, hstyle⟩ := NSAttributedString.exists_tabStyleFor hr
  have ⟨_, hpr⟩ := NSAttributedString.rangeFor_isSome .link hr (h.holds hlt) (by simp only; omega)
  have ⟨s₁, hu⟩ := updateLink_isSome hw hpr
  have ⟨typing, htyp, hs₁⟩ := updateLink_setTypingAttributes hu
  have hbreak := shouldChangeTextIn_break he hu hstyle <| by
    rw [hstyle] at hne
    simpa using hne
  subst hs₁
  rw [shouldBreak_eq (s := s.setTypingAttributes typing) h hb, if_pos hn] at hbreak
  have hk : header.length - 1 + 1 = header.length := by omega
  have ⟨s', hs, hrem⟩ := deleteTab_removes (s := s.setTypingAttributes typing) ht hfix h hk he ha hw (htyp ▸ hp)
  have hx : ((s.text.paragraphs.take i).flatten.length + header.length - 1 : Int) =
      (s.text.paragraphs.take i).flatten.length + (header.length - 1 : Nat) := by omega
  exact ⟨s', typeText_of_false <| hbreak.trans <| hx ▸ hs, hrem.lines, hrem.typing⟩

theorem typeText_return (hw : s.textView.selectedRange.IsWithin s.text.length) :
    (∃ s', s.typeText ⟨(s.text.paragraphs.take i).flatten.length + header.length, 0⟩ (.ofString "\n") = some s' ∧
      s.RemovesHeader s' i (header ++ body)) ↔
    s.CanRemoveHeader i (header ++ body) ∧ body.string = [0x0A] ∧
      s.text.tabStyleFor ⟨(s.text.paragraphs.take i).flatten.length + header.length, 0⟩ ≠ some .none :=
  ⟨fun ⟨_, hs, hrem⟩ => canRemoveHeader_of_return ht hfix h hs hrem,
    fun ⟨hc, hn, hne⟩ => removesHeader_of_return ht hfix h hw hc hn hne⟩

end

-- Return behind the header of an item without text, and Backspace behind any header, remove the header exactly if
-- this is possible and, for Return, a line feed follows the header.
theorem typeText_removesHeader (ht : ∀ (p : NSParagraphStyle) s, (p.transParagraphTo s).tabStyle = s)
    {p : NSAttributedString} (hfix : s.text.resetTabOrderNumber = some s.text)
    (hp : s.text.paragraphs[i]? = some p) (htab : p.tab ≠ .none)
    (hc : s.textView.selectedRange = ⟨Segments.offset s.text.paragraphs i + p.headerLength, 0⟩) :
    ((∃ s', s.typeText s.textView.selectedRange (.ofString "\n") = some s' ∧ s.RemovesHeader s' i p) ↔
      s.CanRemoveHeader i p ∧ p.string.body = [0x0A] ∧
        s.text.tabStyleFor s.textView.selectedRange ≠ some .none) ∧
    ((∃ s', s.typeText ⟨s.textView.selectedRange.location - 1, 1⟩ [] = some s' ∧ s.RemovesHeader s' i p) ↔
      s.CanRemoveHeader i p) := by
  have ⟨header, body, hhb, h⟩ := NSAttributedString.exists_item hfix hp htab
  subst hhb
  have hlt := h.two_lt
  rw [h.headerLength_eq, h.offset_eq] at hc
  have hw : s.textView.selectedRange.IsWithin s.text.length := by
    rw [hc]
    exact h.isWithin <| List.length_append ▸ Nat.le_add_right _ _
  have hk : header.length - 1 + 1 = header.length := by omega
  have hx : ((s.text.paragraphs.take i).flatten.length + header.length - 1 : Int) =
      (s.text.paragraphs.take i).flatten.length + (header.length - 1 : Nat) := by omega
  have hret := typeText_return ht hfix h hw
  have hback := typeText_backspace ht hfix h hk hw
  rw [← hx] at hback
  rw [hc, h.string_body]
  exact ⟨hret, hback⟩

end State

namespace Sample

open NSAttributedString (tab unified ofString resetTabOrderNumber)

theorem transParagraphTo_transParagraphTo (p : NSParagraphStyle) (s : RZTextTabStyle) :
    @NSParagraphStyle.transParagraphTo styles (@NSParagraphStyle.transParagraphTo styles p s) s =
      @NSParagraphStyle.transParagraphTo styles p s := by
  cases s <;> rfl

theorem unified_paragraph (string : String) (style : RZTextTabStyle) :
    @unified styles (paragraph string style) = paragraph string style := by
  refine List.map_map.trans <| List.map_congr_left fun c _ => ?_
  simp only [Function.comp_apply, Attributes.mapParagraphStyle_set, tabStyle_transParagraphTo,
    transParagraphTo_transParagraphTo]

def item (string : String) : State where
  textView := {
    attributedText   := paragraph string .ul
    selectedRange    := ⟨3, 0⟩
    typingAttributes := (paragraph string .ul).firstAttributes }

theorem reset_item {string : String} (hp : (item string).text.paragraphs = [(item string).text])
    (ht : @tab styles (item string).text = .ul)
    (hb : ofString (RZTextTabStyle.header .ul 0) (item string).text.firstAttributes ++ (item string).text.body =
      (item string).text) :
    @resetTabOrderNumber styles (item string).text = some (item string).text := by
  have hr := @NSAttributedString.resetTabOrderNumber_eq styles (item string).text
  have hu : @unified styles (item string).text = (item string).text := unified_paragraph string .ul
  have hn : @NSAttributedString.renumber styles (item string).text 0 = (item string).text := by
    simp only [NSAttributedString.renumber, ht, hb]
  rw [hr, hu, hp]
  simp [NSAttributedString.renumberAll, Runs.ranks, Runs.ranksFrom, hn]

end Sample

namespace State

open NSAttributedString (linesWithout)

theorem sample_removesHeader :
    let s := Sample.item "\t•\t\n"
    ((∃ s', @typeText Sample.styles Sample.behaviour s s.textView.selectedRange (.ofString "\n") = some s' ∧
        @RemovesHeader Sample.styles s s' 0 s.text) ↔
      s.CanRemoveHeader 0 s.text ∧ s.text.string.body = [0x0A] ∧
        @NSAttributedString.tabStyleFor Sample.styles s.text s.textView.selectedRange ≠ some .none) ∧
    ((∃ s', @typeText Sample.styles Sample.behaviour s ⟨s.textView.selectedRange.location - 1, 1⟩ [] = some s' ∧
        @RemovesHeader Sample.styles s s' 0 s.text) ↔ s.CanRemoveHeader 0 s.text) :=
  @typeText_removesHeader Sample.styles Sample.behaviour (Sample.item "\t•\t\n") 0
    Sample.tabStyle_transParagraphTo _ (Sample.reset_item rfl (by decide +kernel) rfl) rfl (by decide +kernel)
    (by decide +kernel)

-- Nothing follows the header of the last item, which gets a line feed.
theorem lastItem_keepsHeader :
    let s := Sample.item "\t•\t"
    @NSAttributedString.resetTabOrderNumber Sample.styles s.text = some s.text ∧
    s.text.paragraphs = [s.text] ∧ @NSAttributedString.tab Sample.styles s.text = .ul ∧
    s.textView.selectedRange = ⟨Segments.offset s.text.paragraphs 0 + s.text.headerLength, 0⟩ ∧
    (@typeText Sample.styles Sample.behaviour s s.textView.selectedRange (.ofString "\n")).map
        (fun s' => @NSAttributedString.lines Sample.styles s'.text) = some [(.ul, .ofString "\t•\t\n")] ∧
    Line.renumberAll (@linesWithout Sample.styles s.text 0 s.text) = [] :=
  ⟨Sample.reset_item rfl (by decide +kernel) rfl, rfl, by decide +kernel, by decide +kernel,
    by decide +kernel, by decide +kernel⟩

end State
end RichText
