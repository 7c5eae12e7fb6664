import SwiftProjectKit.RichText.Link
import SwiftProjectKit.RichText.Theorems.Formatting
import SwiftProjectKit.RichText.Theorems.Insertion
import SwiftProjectKit.RichText.Theorems.Undo
import SwiftProjectKit.Strings.Theorems.Percent

namespace RichText
namespace State

variable {s s' s'' : State} {typing : Attributes} {tempAttr new : NSAttributedString} {range : NSRange}

theorem addAttributes_whole : tempAttr.addAttributes typing tempAttr.whole =
    some (tempAttr.mapAttributes (·.add typing)) := by
  have h := @NSAttributedString.updateAttributes_append [] tempAttr [] (·.add typing)
  simpa [NSAttributedString.addAttributes, NSAttributedString.whole] using h

theorem replaced_selectedRange (typing : Attributes) (hn : tempAttr ≠ [])
    (hw : s.textView.selectedRange.IsWithin s.text.length) :
    ∃ text, s.text.replaceCharacters s.textView.selectedRange tempAttr = some text ∧
      s.replaced tempAttr typing none =
        some (text, ⟨s.textView.selectedRange.location + tempAttr.length, 0⟩) := by
  have hp : 0 < tempAttr.length := List.length_pos_iff.mpr hn
  have hs : s.replaced tempAttr typing none = s.replaced tempAttr typing (some s.textView.selectedRange) := by
    simp [replaced, hp]
  rw [hs, replaced_eq hw.right.left (.inl hn), NSAttributedString.replaceCharacters, NSRange.replace, if_pos hw]
  exact ⟨_, rfl, rfl⟩

theorem replaced_nil {text : NSAttributedString} (hl : s.textView.selectedRange.length = 0)
    (h : s.replaced [] typing none = some (text, range)) : text = s.text := by
  simp only [replaced, Option.getD_none, Option.map_none, List.length_nil] at h
  obtain ⟨attr, hs, h₁⟩ := Option.bind_eq_some_iff.mp h
  obtain ⟨newAttr, hn, h₂⟩ := Option.bind_eq_some_iff.mp h₁
  obtain ⟨new, hc, h₃⟩ := Option.bind_eq_some_iff.mp h₂
  obtain ⟨pre, post, hp, hr⟩ := NSRange.substring_eq_some hs
  have ha : attr = [] := List.length_eq_zero_iff.mp <| by
    have hz := congrArg NSRange.length hr
    simp only [hl] at hz
    omega
  rw [ha, NSAttributedString.replaceAttributes_eq] at hn
  have hn : newAttr = [] := (Option.some.inj (hn : some [] = some newAttr)).symm
  rw [hn, hr, hp, ha, NSAttributedString.replaceCharacters, NSRange.replace_append] at hc
  have hnew : new = text := congrArg Prod.fst <| Option.some.inj h₃
  rw [← hnew, hp, ha, ← Option.some.inj hc]

theorem ofString_ne_nil {string : String} (h : string ≠ "") : NSString.ofString string ≠ [] := by
  have ⟨c, cs, hc⟩ := List.exists_cons_of_ne_nil <| mt String.toList_eq_nil_iff.mp h
  rw [NSString.ofString, hc, List.flatMap_cons, NSString.encode]
  split <;> simp

variable [ParagraphStyles]

def renumbered (s : State) (text : NSAttributedString) : Option NSAttributedString :=
  if s.options.enableTabStyle then text.resetTabOrderNumber else some text

theorem insertedText_of_replaced {tempAttr' text : NSAttributedString}
    (ha : tempAttr.addAttributes typing tempAttr.whole = some tempAttr')
    (hr : s.replaced tempAttr' typing none = some (text, range)) :
    s.insertedText tempAttr typing false none = (s.renumbered text).map (·, range) := by
  simp only [insertedText, ha, hr, Option.bind_eq_bind, Option.bind_some, renumbered, Option.map_eq_bind]
  cases s.options.enableTabStyle <;> rfl

theorem insertedText_selectedRange (hn : tempAttr ≠ []) (hw : s.textView.selectedRange.IsWithin s.text.length)
    (h : s.insertedText tempAttr typing false none = some (new, range)) : range.length = 0 ∧ ∃ text,
      s.text.replaceCharacters s.textView.selectedRange (tempAttr.mapAttributes (·.add typing)) = some text ∧
      s.renumbered text = some new := by
  have hm : tempAttr.mapAttributes (·.add typing) ≠ [] := List.map_eq_nil_iff.not.mpr hn
  have ⟨text, ht, hr⟩ := replaced_selectedRange typing hm hw
  rw [insertedText_of_replaced addAttributes_whole hr, Option.map_eq_some_iff] at h
  have ⟨_, hs, h⟩ := h
  cases h
  exact ⟨rfl, text, ht, hs⟩

theorem insertedText_nil (hl : s.textView.selectedRange.length = 0)
    (h : s.insertedText [] typing false none = some (new, range)) : s.renumbered s.text = some new := by
  cases hr : s.replaced [] typing none
  case none =>
    have ha : NSAttributedString.addAttributes [] typing (NSAttributedString.whole []) = some [] := rfl
    simp [insertedText, ha, hr] at h
  case some r =>
    obtain ⟨text, range'⟩ := r
    rw [insertedText_of_replaced rfl hr, replaced_nil hl hr, Option.map_eq_some_iff] at h
    have ⟨_, hs, h⟩ := h
    cases h
    exact hs

theorem textViewDidChange_history (hm : s.textView.markedTextRange = none) (h : s.textViewDidChange = some s') :
    s'.options = s.options ∧ s'.textView.markedTextRange = none ∧ s'.notesCount = s.notesCount ∧
      ∃ entry, entry.attributedText = s'.text ∧ s'.undoHistory = s.undoHistory.record (s.notesCount + 1) entry := by
  have ⟨s₁, hr, h⟩ := Option.bind_eq_some_iff.mp h
  have ⟨_, _, _, he⟩ := reviseImageMaskViewFrame_eq_some hr
  have hm₁ : s₁.textView.markedTextRange = none := he ▸ hm
  simp only [hm₁, Option.isSome_none, Bool.false_and, Bool.false_eq_true, if_false] at h
  have ⟨typing, hh, ht, hc⟩ := addToHistory_eq_some h
  have ho : s'.options = s₁.options := by
    have ⟨_, _, h⟩ := Option.bind_eq_some_iff.mp h
    exact Option.some.inj h ▸ rfl
  refine ⟨ho.trans <| he ▸ rfl, ht ▸ hm₁, hc.trans <| he ▸ rfl, s₁.entry typing, ?_, hh.trans <| he ▸ rfl⟩
  rw [text, ht]
  rfl

theorem typingAttributes_link {url : String} {attributes : Attributes} (h : attributes .link = some (.other url))
    (ht : (s.setTypingAttributes attributes).typingAttributes = some typing) : typing .link = some (.other url) := by
  have hs : (attributes.set .originfontName none) .link = some (.other url) := h
  cases typingAttributes_eq_some ht
  case inl he => exact he ▸ hs
  case inr he =>
    have ⟨_, _, _, he⟩ := he
    exact he ▸ hs

theorem string_renumbered (ht : ∀ (p : NSParagraphStyle) s, (p.transParagraphTo s).tabStyle = s)
    (ho : s'.options = s.options) {text new' : NSAttributedString} (h : s.renumbered text = some new)
    (h' : s'.renumbered new = some new') : new'.string = new.string := by
  rw [renumbered] at h h'
  rw [ho] at h'
  split at h
  case isTrue ht' =>
    rw [if_pos ht'] at h'
    exact NSAttributedString.string_reset_reset ht h h'
  case isFalse ht' =>
    rw [if_neg ht'] at h'
    rw [Option.some.inj h']

variable [UITextView] {string : Option NSString} {image : Option UIImage}

theorem insert_history (hk : ∀ text, UITextView.markedTextRange text none = none)
    (hm : s.textView.markedTextRange = none) (h : s.insert string image false none = some s') :
    s'.options = s.options ∧ s'.textView.markedTextRange = none ∧ s'.notesCount = s.notesCount ∧
      ∃ entry, entry.attributedText = s'.text ∧ s'.undoHistory = s.undoHistory.record (s.notesCount + 1) entry := by
  have ⟨typing, _, h⟩ := Option.bind_eq_some_iff.mp h
  have ⟨(new, range), _, h⟩ := Option.bind_eq_some_iff.mp h
  have ⟨s₂, hs, h⟩ := Option.bind_eq_some_iff.mp h
  cases Option.some.inj h
  have hm' : (s.addSubview (s.inserted string image).snd |>.setAttributedText new
      |>.setSelectedRange range).textView.markedTextRange = none :=
    (congrArg (UITextView.markedTextRange new) hm).trans <| hk new
  have ⟨ho, hm, hc, entry, he, hh⟩ := textViewDidChange_history hm' hs
  exact ⟨ho, hm, hc, entry, he, hh⟩

-- What a link is inserted as: its text or itself, linked throughout, in place of what was selected.
structure Links (s : State) (url : String) (part new : NSAttributedString) : Prop where
  ne_nil  : part ≠ []
  linked  : ∀ c ∈ part, c.attributes .link = some (.other url)
  replace : s.text.replaceCharacters s.textView.selectedRange part = some new

theorem linkEditEnd_eq_some {text url : String} (hu : url ≠ "") (hi : text ≠ "" ∨ image = none)
    (h : s.linkEditEnd text image url = some s') : ∃ attributes tempText, attributes .link = some (.other url) ∧
      tempText ≠ "" ∧
      (s.setTypingAttributes attributes).insert (some <| .ofString tempText) image false none = some s' := by
  have ht : (if url ≠ "" ∧ text = "" ∧ image.isNone then url else text) ≠ "" := by
    split
    case isTrue     => exact hu
    case isFalse hn => exact fun he => hn ⟨hu, he, by simpa [he] using hi⟩
  simp only [linkEditEnd, if_pos hu, Option.bind_eq_bind] at h
  have ⟨typing, _, h⟩ := Option.bind_eq_some_iff.mp h
  exact ⟨_, _, Function.update_self .., ht, h⟩

theorem linkEditEnd_links {text url : String} (hu : url ≠ "") (hi : text ≠ "" ∨ image = none)
    (hw : s.textView.selectedRange.IsWithin s.text.length) (h : s.linkEditEnd text image url = some s') :
    s'.textView.selectedRange.length = 0 ∧ ∃ part new, s.Links url part new ∧ s.renumbered new = some s'.text := by
  have ⟨attributes, tempText, ha, hn, h⟩ := linkEditEnd_eq_some hu hi h
  have ⟨typing, _, ht, hi, hr, _⟩ := insert_insertedText h
  have hne : (inserted (s.setTypingAttributes attributes) (some <| .ofString tempText) image).fst ≠ [] := by
    have hs : NSAttributedString.ofString (NSString.ofString tempText) (fun _ => none) ≠ [] :=
      List.map_eq_nil_iff.not.mpr <| ofString_ne_nil hn
    exact fun he => hs (List.append_eq_nil_iff.mp he).right
  have ⟨hl, new, hc, hn⟩ := insertedText_selectedRange hne hw hi
  refine ⟨hr ▸ hl, _, new, ⟨List.map_eq_nil_iff.not.mpr hne, fun c hc => ?_, hc⟩, hn⟩
  have ⟨c', _, hc'⟩ := List.mem_map.mp hc
  have hadd : c.attributes .link = (typing .link <|> c'.attributes .link) := hc' ▸ rfl
  rw [hadd, typingAttributes_link ha ht]
  rfl

theorem finish_link {attributes : Attributes} (hl : s.textView.selectedRange.length = 0)
    (h : s.finish .link attributes = some s') : s.renumbered s.text = some s'.text := by
  have ⟨_, _, _, hi, _⟩ := insert_insertedText (h : (s.setTypingAttributes attributes).insert none none false none = _)
  exact insertedText_nil (s := s.setTypingAttributes attributes) hl hi

-- Undoing once after a link has been confirmed changes no character: confirming records the text with the link, and
-- records it again with the attributes. The link that is inserted is read as the one that was typed.
theorem confirmLink_undo (ht : ∀ (p : NSParagraphStyle) s, (p.transParagraphTo s).tabStyle = s)
    (hk : ∀ text, UITextView.markedTextRange text none = none) (hm : s.textView.markedTextRange = none)
    (hn : 1 ≤ s.notesCount) (hw : s.textView.selectedRange.IsWithin s.text.length) {link text : String}
    (hlink : link ≠ "") (hi : text ≠ "" ∨ image = none) (h : s.confirmLink (some link) (some text) image = some s')
    (hu : s'.revokeText true = some s'') : s''.text.string = s'.text.string ∧ ∃ url part new,
      Strings.removingPercentEncoding url = some link ∧ s.Links url part new ∧ s.renumbered new = some s''.text := by
  have ⟨attributes, _, h⟩ := Option.bind_eq_some_iff.mp h
  rw [Strings.linkString_some, Option.getD_some, Option.getD_some] at h
  have ⟨s₁, h₁, h₂⟩ := Option.bind_eq_some_iff.mp h
  have hurl := Strings.urlEncoded_ne_empty hlink
  have ⟨hl, part, new, hp, hr⟩ := linkEditEnd_links hurl hi hw h₁
  have hf := finish_link hl h₂
  have ⟨attributes', _, _, _, hs₁⟩ := linkEditEnd_eq_some hurl hi h₁
  have hm' : (s.setTypingAttributes attributes').textView.markedTextRange = none := hm
  have ⟨ho, hm₁, hc, a, ha, ha'⟩ := insert_history hk hm' hs₁
  have hm₁' : (s₁.setTypingAttributes attributes).textView.markedTextRange = none := hm₁
  have ⟨_, _, _, b, _, hb⟩ := insert_history hk hm₁' h₂
  have hh : s'.undoHistory = (s.undoHistory.record (s.notesCount + 1) a).record (s.notesCount + 1) b := by
    have hc' : (s₁.setTypingAttributes attributes).notesCount = s.notesCount := hc
    have hh' : (s₁.setTypingAttributes attributes).undoHistory = s₁.undoHistory := rfl
    rw [hb, hc', hh', ha']
    rfl
  have ⟨done, hd⟩ := UndoHistory.done_record_record (h := s.undoHistory) (a := a) (b := b)
    (by omega : 2 ≤ s.notesCount + 1)
  have hd' : s'.history = done ++ [a, b] := (congrArg UndoHistory.done hh).trans hd
  have hundo : s''.text = s₁.text := by
    have hs := (revokeText_eq_some hu).text
    rw [if_pos rfl, undo_append hd'] at hs
    exact hs.trans ha
  rw [hundo]
  exact ⟨(string_renumbered ht ho hr hf).symm, _, part, new, Strings.removingPercentEncoding_urlEncoded, hp, hr⟩

omit [ParagraphStyles] [UITextView] in
theorem confirmLink_undo_sample : let _ := Sample.styles; let _ := Sample.behaviour
    ∃ s' s'', (start {} Sample.textView 20).confirmLink (some "a b") (some "text") none = some s' ∧
      s'.revokeText true = some s'' ∧ s''.text.string = s'.text.string := by
  let _ := Sample.styles
  let _ := Sample.behaviour
  have hs : ((start {} Sample.textView 20).confirmLink (some "a b") (some "text") none).isSome := by
    decide +kernel
  have ⟨s', hs⟩ := Option.isSome_iff_exists.mp hs
  have ⟨s'', hu⟩ := s'.revokeText_isSome true
  exact ⟨s', s'', hs, hu, confirmLink_undo Sample.tabStyle_transParagraphTo (fun _ => rfl) rfl (by decide) (by decide)
    (by decide) (.inr rfl) hs hu |>.left⟩

end State
end RichText
