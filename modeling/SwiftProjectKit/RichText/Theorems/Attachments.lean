import SwiftProjectKit.RichText.Helper
import SwiftProjectKit.RichText.Theorems.Reset

namespace RichText

namespace NSString

def attachmentCharacter : unichar := 0xFFFC

theorem IsHeader.attachmentCharacter_notMem {m : NSString} (h : IsHeader m) :
    attachmentCharacter ∉ m := by
  cases h
  case ul => decide
  case ol digits _ hd =>
    intro hm
    simp only [List.cons_append, List.mem_cons, List.mem_append, List.not_mem_nil, or_false] at hm
    have hn : attachmentCharacter ∉ digits := fun hm => absurd (hd _ hm) (by decide)
    rcases hm with hm | hm | hm | hm
    all_goals first | exact hn hm | exact absurd hm (by decide)

end NSString

open NSString (attachmentCharacter)

namespace NSAttributedString

def Carries (text : NSAttributedString) (attach : NSTextAttachment) : Prop :=
  ∃ c ∈ text, c.attributes .attachment = some (.attachment attach)

def Shows (text : NSAttributedString) (attach : NSTextAttachment) : Prop :=
  ∃ c ∈ text, c.char = attachmentCharacter ∧ c.attributes .attachment = some (.attachment attach)

variable {text new pre post seg : NSAttributedString} {attach : NSTextAttachment} {range : NSRange}
  {f : Attributes → Attributes} {attributes : Attributes} {string : NSString}

theorem Shows.carries (h : text.Shows attach) : text.Carries attach :=
  have ⟨c, hc, _, ha⟩ := h
  ⟨c, hc, ha⟩

theorem Carries.of_subset (h : text.Carries attach) (hs : text ⊆ new) : new.Carries attach :=
  have ⟨c, hc, ha⟩ := h
  ⟨c, hs hc, ha⟩

theorem carries_append : Carries (pre ++ post) attach ↔ pre.Carries attach ∨ post.Carries attach := by
  simp [Carries, or_and_right, exists_or]

theorem shows_append : Shows (pre ++ post) attach ↔ pre.Shows attach ∨ post.Shows attach := by
  simp [Shows, or_and_right, exists_or]

theorem exists_mem_flatten {p : Character → Prop} {ps : List NSAttributedString} :
    (∃ c ∈ ps.flatten, p c) ↔ ∃ q ∈ ps, ∃ c ∈ q, p c := by
  simp only [List.mem_flatten]
  constructor
  case mp  => exact fun ⟨c, ⟨q, hq, hc⟩, h⟩ => ⟨q, hq, c, hc, h⟩
  case mpr => exact fun ⟨q, hq, c, hc, h⟩ => ⟨c, ⟨q, hq, hc⟩, h⟩

theorem carries_flatten {ps : List NSAttributedString} :
    Carries ps.flatten attach ↔ ∃ p ∈ ps, Carries p attach :=
  exists_mem_flatten

theorem shows_flatten {ps : List NSAttributedString} :
    Shows ps.flatten attach ↔ ∃ p ∈ ps, Shows p attach :=
  exists_mem_flatten

theorem attachment_of_carries_ofString (h : (ofString string attributes).Carries attach) :
    attributes .attachment = some (.attachment attach) := by
  have ⟨c, hc, ha⟩ := h
  have ⟨_, _, he⟩ := List.mem_map.mp hc
  cases he
  exact ha

theorem value_eq_iff_carries (h : seg ∈ text.runs .attachment) :
    seg.value .attachment = some (.attachment attach) ↔ Carries seg attach := by
  constructor
  case mp =>
    intro hv
    have hn : seg ≠ [] := fun hn => List.nil_notMem_splitBy _ _ <| hn ▸ h
    exact ⟨_, List.head_mem hn, value_of_mem_runs h (List.head_mem hn) ▸ hv⟩
  case mpr => exact fun ⟨c, hc, ha⟩ => value_of_mem_runs h hc ▸ ha

theorem richTextAttachments_eq (text : NSAttributedString) : ∃ attachments,
    text.richTextAttachments = some attachments ∧
      ∀ attach, attach ∈ attachments ↔ text.Carries attach := by
  rw [richTextAttachments, enumerateAttribute_whole]
  refine ⟨_, rfl, fun attach => ?_⟩
  have hc : Carries (text.runs .attachment).flatten attach ↔
      some (.attachment attach) ∈ (text.runs .attachment).map (value .attachment) := by
    rw [carries_flatten, List.mem_map]
    exact exists_congr fun run => and_congr_right fun hr => (value_eq_iff_carries hr).symm
  rw [runs_flatten, ← map_fst_enumerated, List.mem_map] at hc
  rw [hc, List.mem_filterMap]
  refine exists_congr fun v => and_congr_right fun _ => ?_
  split
  case h_1 => simp
  case h_2 hn =>
    simp only [reduceCtorEq, false_iff]
    exact fun hv => hn _ _ <| Prod.ext hv rfl

theorem updateAttributes_eq_some (h : text.updateAttributes range f = some new) :
    ∃ pre seg post, text = pre ++ seg ++ post ∧ new = pre ++ mapAttributes seg f ++ post := by
  have ⟨seg, hs, hr⟩ := Option.bind_eq_some_iff.mp h
  have ⟨pre, post, ht, hrange⟩ := NSRange.substring_eq_some hs
  rw [ht, hrange, replaceCharacters, NSRange.replace_append, Option.some.injEq] at hr
  exact ⟨pre, seg, post, ht, hr.symm⟩

theorem Carries.of_mapAttributes (hf : ∀ attributes value, f attributes .attachment = some value →
    attributes .attachment = some value) (h : (text.mapAttributes f).Carries attach) :
    text.Carries attach := by
  have ⟨_, hc, ha⟩ := h
  have ⟨c, hm, he⟩ := List.mem_map.mp hc
  cases he
  exact ⟨c, hm, hf _ _ ha⟩

theorem Carries.of_updateAttributes (hf : ∀ attributes value, f attributes .attachment = some value →
    attributes .attachment = some value) (h : text.updateAttributes range f = some new)
    (hc : new.Carries attach) : text.Carries attach := by
  have ⟨pre, seg, post, ht, hn⟩ := updateAttributes_eq_some h
  rw [hn, carries_append, carries_append] at hc
  rw [ht, carries_append, carries_append]
  exact hc.imp_left <| Or.imp_right <| .of_mapAttributes hf

theorem Shows.mapAttributes (hs : text.Shows attach)
    (hf : ∀ attributes, f attributes .attachment = attributes .attachment) :
    (text.mapAttributes f).Shows attach := by
  have ⟨c, hc, hchar, ha⟩ := hs
  exact ⟨_, List.mem_map_of_mem hc, hchar, (hf _).trans ha⟩

theorem Shows.updateAttributes (hf : ∀ attributes, f attributes .attachment = attributes .attachment)
    (hs : text.Shows attach) (h : text.updateAttributes range f = some new) : new.Shows attach := by
  have ⟨pre, seg, post, ht, hn⟩ := updateAttributes_eq_some h
  rw [ht, shows_append, shows_append] at hs
  rw [hn, shows_append, shows_append]
  exact hs.imp_left <| Or.imp_right fun hs => hs.mapAttributes hf

theorem Carries.of_replaceCharacters {part : NSAttributedString}
    (h : text.replaceCharacters range part = some new) (hc : new.Carries attach) :
    text.Carries attach ∨ part.Carries attach := by
  have ⟨pre, seg, post, ht, _, hn⟩ := NSRange.replace_eq_some h
  rw [hn, carries_append, carries_append] at hc
  rw [ht, carries_append, carries_append]
  tauto

theorem Shows.replaceCharacters {part : NSAttributedString} (hs : part.Shows attach)
    (h : text.replaceCharacters range part = some new) : new.Shows attach := by
  have ⟨pre, seg, post, _, _, hn⟩ := NSRange.replace_eq_some h
  rw [hn, shows_append, shows_append]
  exact .inl <| .inr hs

theorem Carries.of_replaceAttributes (ha : attributes .attachment = none)
    (h : text.replaceAttributes attributes range = some new) (hc : new.Carries attach) :
    text.Carries attach := by
  have ⟨attr, hadd, hr⟩ := Option.bind_eq_some_iff.mp h
  have hrem (keys : List Key) (attr : NSAttributedString)
      (h : keys.foldlM (·.removeAttribute · range) attr = some new) : attr.Carries attach := by
    induction keys generalizing attr
    case nil => exact Option.some.inj h ▸ hc
    case cons key keys hi =>
      have ⟨attr', hk, h⟩ := Option.bind_eq_some_iff.mp h
      refine .of_updateAttributes (fun attributes value hv => ?_) hk <| hi _ h
      rw [Attributes.set, Function.update_apply] at hv
      split at hv
      case isTrue  => contradiction
      case isFalse => exact hv
  refine .of_updateAttributes (fun attributes value hv => ?_) hadd <| hrem _ _ hr
  rwa [Attributes.add, ha] at hv

variable {p : NSAttributedString} {i : Nat}

theorem Shows.body (h : p.Shows attach) : p.body.Shows attach := by
  cases hk : p.string.tabPattern
  case none => rwa [NSAttributedString.body, hk]
  case some length =>
    obtain ⟨m, rest, hm, hs, hl⟩ := NSString.tabPattern_eq_some hk
    obtain ⟨c, hc, hchar, ha⟩ := h
    rw [NSAttributedString.body, hk, Option.getD_some]
    rw [← List.take_append_drop length p, List.mem_append] at hc
    cases hc
    case inr hc => exact ⟨c, hc, hchar, ha⟩
    case inl hc =>
      have ht : string (p.take length) = m := by
        rw [string, List.map_take, ← string, hs, ← hl, List.take_left]
      have hmem : c.char ∈ string (p.take length) := List.mem_map_of_mem hc
      rw [ht, hchar] at hmem
      exact absurd hmem hm.attachmentCharacter_notMem

variable [ParagraphStyles]

theorem Carries.of_renumber (h : (p.renumber i).Carries attach) : p.Carries attach := by
  have hb : p.body.Carries attach → p.Carries attach := fun hb => hb.of_subset <| List.drop_subset _ _
  have hh : ∀ header, (ofString header p.firstAttributes).Carries attach → p.Carries attach := by
    intro header hh
    have ha := attachment_of_carries_ofString hh
    cases p
    case nil => contradiction
    case cons c p => exact ⟨c, List.mem_cons_self, ha⟩
  rw [renumber] at h
  split at h
  case h_1 => exact h
  all_goals exact carries_append.mp h |>.elim (hh _) hb

theorem Shows.renumber (h : p.Shows attach) : (p.renumber i).Shows attach := by
  rw [NSAttributedString.renumber]
  split
  case h_1 => exact h
  all_goals exact shows_append.mpr <| .inr h.body

theorem carries_unified : text.unified.Carries attach → text.Carries attach :=
  .of_mapAttributes fun attributes value hv => by rwa [Attributes.attachment_mapParagraphStyle] at hv

theorem Carries.of_resetTabOrderNumber (h : text.resetTabOrderNumber = some new)
    (hc : new.Carries attach) : text.Carries attach := by
  cases Option.some.inj <| text.resetTabOrderNumber_eq.symm.trans h
  have ⟨_, hp, hc⟩ := carries_flatten.mp hc
  have ⟨p, hm, _, he⟩ := mem_renumberAll hp
  have hu : Carries text.unified.paragraphs.flatten attach :=
    carries_flatten.mpr ⟨p, hm, .of_renumber <| he ▸ hc⟩
  rw [flatten_paragraphs] at hu
  exact carries_unified hu

theorem Shows.resetTabOrderNumber (hs : text.Shows attach) (h : text.resetTabOrderNumber = some new) :
    new.Shows attach := by
  cases Option.some.inj <| text.resetTabOrderNumber_eq.symm.trans h
  have hu : Shows text.unified.paragraphs.flatten attach := by
    rw [flatten_paragraphs]
    exact hs.mapAttributes fun _ => Attributes.attachment_mapParagraphStyle
  have ⟨p, hp, hs⟩ := shows_flatten.mp hu
  have ⟨i, hi⟩ := List.getElem?_of_mem hp
  have ⟨_, _, hr⟩ := getElem?_renumberAll hi
  exact shows_flatten.mpr ⟨_, List.mem_of_getElem? hr, hs.renumber⟩

variable {style : RZTextTabStyle} {fuel : Nat}

theorem Carries.of_mutableTransParagraphTo (h : mutableTransParagraphTo style fuel text = some new)
    (hc : new.Carries attach) : text.Carries attach := by
  have hm (text : NSAttributedString) (trans : NSParagraphStyle → NSParagraphStyle) :
      (text.mapAttributes (·.mapParagraphStyle trans)).Carries attach → text.Carries attach :=
    .of_mapAttributes fun _ _ hv => by rwa [Attributes.attachment_mapParagraphStyle] at hv
  induction fuel generalizing text
  case zero => contradiction
  case succ fuel hi =>
    have ⟨_, _, h⟩ := Option.bind_eq_some_iff.mp h
    rw [replaceParagraphStyles_eq, Option.bind_eq_bind, Option.bind_some] at h
    split at h
    case isTrue  => exact hm _ _ <| Option.some.inj h ▸ hc
    case isFalse =>
      have ⟨_, ha, h⟩ := Option.bind_eq_some_iff.mp h
      refine hm _ _ <| .of_updateAttributes ?_ ha <| hi h
      exact fun _ _ hv => hv

omit [ParagraphStyles] in
theorem Carries.of_foldlM_replaceCharacters {vs : List (NSRange × NSAttributedString)}
    (h : vs.foldlM (fun text (range, attr) => replaceCharacters text range attr) text = some new)
    (hc : new.Carries attach) : text.Carries attach ∨ ∃ v ∈ vs, v.snd.Carries attach := by
  induction vs generalizing text
  case nil => exact .inl <| Option.some.inj h ▸ hc
  case cons v vs hi =>
    have ⟨_, hr, h⟩ := Option.bind_eq_some_iff.mp h
    cases hi h
    case inl hc =>
      exact hc.of_replaceCharacters hr |>.imp_right fun hc => ⟨v, List.mem_cons_self, hc⟩
    case inr hv =>
      have ⟨v', hm, hc⟩ := hv
      exact .inr ⟨v', List.mem_cons_of_mem _ hm, hc⟩

theorem Carries.of_transParagraphsTo (h : text.transParagraphsTo range style = some new)
    (hc : new.Carries attach) : text.Carries attach := by
  have ⟨ranges, _, h⟩ := Option.bind_eq_some_iff.mp h
  have ⟨rangesAttrs, hm, h⟩ := Option.bind_eq_some_iff.mp h
  have ⟨_, hf, h⟩ := Option.bind_eq_some_iff.mp h
  cases of_foldlM_replaceCharacters hf <| hc.of_resetTabOrderNumber h
  case inl hc => exact hc
  case inr hv =>
    have ⟨v, hv, hc⟩ := hv
    have hv := List.of_mem_zip (List.mem_reverse.mp hv) |>.right
    have ⟨range, _, hr⟩ := Segments.mem_of_mapM hm hv
    have ⟨part, hs, hr⟩ := Option.bind_eq_some_iff.mp hr
    rw [removeHeadTabString_eq, Option.bind_eq_bind, Option.bind_some] at hr
    have ⟨pre, post, ht, _⟩ := NSRange.substring_eq_some hs
    have hb : part.Carries attach := hc.of_mutableTransParagraphTo hr |>.of_subset <| List.drop_subset _ _
    rw [ht, carries_append, carries_append]
    exact .inl <| .inr hb

end NSAttributedString
namespace State

open NSAttributedString (Carries Shows)

variable {s : State} {attach : NSTextAttachment} {tempAttr new : NSAttributedString}
  {typing : Attributes} {range : NSRange} {changeParagraph : Bool} {replaceRange : Option NSRange}

theorem replaced_eq_some (h : s.replaced tempAttr typing replaceRange = some (new, range)) :
    (∃ range, s.text.replaceCharacters range tempAttr = some new) ∨
      (tempAttr = [] ∧ ∃ range attr newAttr, s.text.attributedSubstring range = some attr ∧
        attr.replaceAttributes typing attr.whole = some newAttr ∧
        s.text.replaceCharacters range newAttr = some new) := by
  rw [replaced] at h
  split at h
  case isTrue =>
    dsimp only at h
    split at h
    all_goals
      have ⟨_, ht, h⟩ := Option.bind_eq_some_iff.mp h
      cases Option.some.inj h
      exact .inl ⟨_, ht⟩
  case isFalse hn =>
    have ⟨attr, ha, h⟩ := Option.bind_eq_some_iff.mp h
    have ⟨newAttr, hr, h⟩ := Option.bind_eq_some_iff.mp h
    have ⟨_, ht, h⟩ := Option.bind_eq_some_iff.mp h
    cases Option.some.inj h
    refine .inr ⟨?_, _, attr, newAttr, ha, hr, ht⟩
    by_contra hne
    exact hn <| by simp [List.length_pos_iff.mpr hne]

theorem carries_replaced (ht : typing .attachment = none)
    (h : s.replaced tempAttr typing replaceRange = some (new, range)) (hc : new.Carries attach) :
    s.text.Carries attach ∨ tempAttr.Carries attach := by
  cases replaced_eq_some h
  case inl h =>
    have ⟨_, hr⟩ := h
    exact hc.of_replaceCharacters hr
  case inr h =>
    have ⟨_, _, attr, newAttr, hs, hr, h⟩ := h
    refine .inl <| hc.of_replaceCharacters h |>.elim id fun hc => ?_
    have ⟨pre, post, ht', _⟩ := NSRange.substring_eq_some hs
    rw [ht', NSAttributedString.carries_append, NSAttributedString.carries_append]
    exact .inl <| .inr <| hc.of_replaceAttributes ht hr

theorem shows_replaced (h : s.replaced tempAttr typing replaceRange = some (new, range))
    (hs : tempAttr.Shows attach) : new.Shows attach := by
  cases replaced_eq_some h
  case inl h =>
    have ⟨_, hr⟩ := h
    exact hs.replaceCharacters hr
  case inr h =>
    have ⟨he, _⟩ := h
    have ⟨_, hc, _⟩ := hs
    simp [he] at hc

variable [ParagraphStyles]

theorem insertedText_eq_some
    (h : s.insertedText tempAttr typing changeParagraph replaceRange = some (new, range)) :
    ∃ tempAttr' replaced parted, tempAttr.addAttributes typing tempAttr.whole = some tempAttr' ∧
      s.replaced tempAttr' typing replaceRange = some (replaced, range) ∧
      (parted = replaced ∨ ∃ p range, replaced.addAttribute .paragraphStyle (.paragraphStyle p) range =
        some parted) ∧
      (new = parted ∨ parted.resetTabOrderNumber = some new) := by
  have ⟨tempAttr', ha, h⟩ := Option.bind_eq_some_iff.mp h
  have ⟨(replaced, _), hr, h⟩ := Option.bind_eq_some_iff.mp h
  dsimp only at h
  have hnew (parted : NSAttributedString) {range' : NSRange}
      (h : (if s.options.enableTabStyle then do
          let new ← parted.resetTabOrderNumber
          pure (new, range')
        else pure (parted, range')) = some (new, range)) :
      range' = range ∧ (new = parted ∨ parted.resetTabOrderNumber = some new) := by
    split at h
    case isFalse => cases Option.some.inj h; exact ⟨rfl, .inl rfl⟩
    case isTrue =>
      have ⟨_, hn, h⟩ := Option.bind_eq_some_iff.mp h
      cases Option.some.inj h
      exact ⟨rfl, .inr hn⟩
  split at h
  case isFalse =>
    have ⟨he, hn⟩ := hnew _ h
    exact ⟨tempAttr', replaced, replaced, ha, he ▸ hr, .inl rfl, hn⟩
  case isTrue =>
    have ⟨_, _, h⟩ := Option.bind_eq_some_iff.mp h
    have ⟨parted, hp, h⟩ := Option.bind_eq_some_iff.mp h
    have ⟨he, hn⟩ := hnew _ h
    exact ⟨tempAttr', replaced, parted, ha, he ▸ hr, .inr ⟨_, _, hp⟩, hn⟩

theorem carries_insertedText (ht : typing .attachment = none)
    (h : s.insertedText tempAttr typing changeParagraph replaceRange = some (new, range))
    (hc : new.Carries attach) : s.text.Carries attach ∨ tempAttr.Carries attach := by
  have ⟨_, replaced, parted, ha, hr, hp, hn⟩ := insertedText_eq_some h
  have hparted : parted.Carries attach := by
    cases hn
    case inl hn => exact hn ▸ hc
    case inr hn => exact hc.of_resetTabOrderNumber hn
  have hreplaced : replaced.Carries attach := by
    cases hp
    case inl hp => exact hp ▸ hparted
    case inr hp =>
      have ⟨_, _, hp⟩ := hp
      refine .of_updateAttributes ?_ hp hparted
      exact fun _ _ hv => hv
  refine carries_replaced ht hr hreplaced |>.imp_right fun hc => .of_updateAttributes ?_ ha hc
  intro attributes value hv
  rwa [Attributes.add, ht] at hv

theorem shows_insertedText (ht : typing .attachment = none)
    (h : s.insertedText tempAttr typing changeParagraph replaceRange = some (new, range))
    (hs : tempAttr.Shows attach) : new.Shows attach := by
  have ⟨_, replaced, parted, ha, hr, hp, hn⟩ := insertedText_eq_some h
  have hreplaced : replaced.Shows attach := shows_replaced hr <| hs.updateAttributes (fun _ => by
    simp [Attributes.add, ht]) ha
  have hparted : parted.Shows attach := by
    cases hp
    case inl hp => exact hp ▸ hreplaced
    case inr hp =>
      have ⟨_, _, hp⟩ := hp
      refine hreplaced.updateAttributes ?_ hp
      exact fun _ => rfl
  cases hn
  case inl hn => exact hn ▸ hparted
  case inr hn => exact hparted.resetTabOrderNumber hn

end State
end RichText
