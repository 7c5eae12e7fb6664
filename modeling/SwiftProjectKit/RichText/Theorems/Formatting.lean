import SwiftProjectKit.RichText.Edit
import SwiftProjectKit.RichText.Theorems.Styles

namespace RichText

def Key.formatting : List Key :=
  [backgroundColor, baselineOffset, strokeWidth, strokeColor, shadow, expansion, underlineStyle, underlineColor,
    strikethroughStyle, strikethroughColor, kern]

-- The style that a color belongs to.
def Key.style : Key → Option Key
  | strokeColor        => strokeWidth
  | underlineColor     => underlineStyle
  | strikethroughColor => strikethroughStyle
  | _                  => none

def NSRange.Covers (range : NSRange) (i : Nat) : Prop :=
  range.location ≤ i ∧ i < range.maxLength

instance {range : NSRange} {i : Nat} : Decidable (range.Covers i) :=
  inferInstanceAs <| Decidable (_ ∧ _)

namespace Attributes

variable {old new : Attributes} {key : Key}

-- Whether a character keeps a color because the new style comes without one.
def keeps (new : Attributes) (key : Key) : Bool :=
  new.absent key && key.style.any fun style => !new.absent style && !new.isZero style

def resolved (new : Attributes) (key : Key) : Option Value :=
  if key ∈ new.removed then none else new key

def replaced (old new : Attributes) : Attributes :=
  new.removed.foldl (·.set · none) <| old.add new

theorem foldl_set_none {keys : List Key} :
    keys.foldl (·.set · none) old key = if key ∈ keys then none else old key := by
  induction keys generalizing old
  case nil => rfl
  case cons k keys hi =>
    rw [List.foldl_cons, hi, set, Function.update_apply]
    by_cases hk : key ∈ keys <;> by_cases he : key = k <;> simp [hk, he]

theorem replaced_apply : old.replaced new key = if key ∈ new.removed then none else new key <|> old key :=
  foldl_set_none

@[simp]
theorem replaced_replaced : (old.replaced new).replaced new = old.replaced new := by
  funext key
  simp only [replaced_apply]
  split
  case isTrue => rfl
  case isFalse => cases new key <;> rfl

theorem keeps_iff (h : key ∈ Key.formatting) : new.keeps key ↔ key ∉ new.removed ∧ new.absent key := by
  simp only [Key.formatting, List.mem_cons, List.not_mem_nil, or_false] at h
  rcases h with rfl | rfl | rfl | rfl | rfl | rfl | rfl | rfl | rfl | rfl | rfl
  all_goals simp [keeps, Key.style, removed]
  all_goals tauto

theorem replaced_formatting (h : key ∈ Key.formatting) :
    old.replaced new key = if new.keeps key then old key else new.resolved key := by
  simp only [replaced_apply, resolved, keeps_iff h, absent]
  by_cases hr : key ∈ new.removed
  case pos => simp [hr]
  case neg => cases hn : new key <;> simp [hr]

end Attributes

namespace NSAttributedString

variable {text new : NSAttributedString} {attributes : Attributes} {range : NSRange} {f g : Attributes → Attributes}

theorem updateAttributes_updateAttributes :
    (text.updateAttributes range f).bind (·.updateAttributes range g) =
    text.updateAttributes range fun attributes => g <| f attributes := by
  by_cases hw : range.IsWithin text.length
  case neg => simp [updateAttributes, attributedSubstring, NSRange.substring, hw]
  case pos =>
    obtain ⟨pre, seg, post, ht, hr⟩ := NSRange.exists_append hw
    have hl : range = ⟨pre.length, (mapAttributes seg f).length⟩ := by
      rw [hr, mapAttributes_length]
    rw [ht, hr, updateAttributes_append, updateAttributes_append, Option.bind_some, ← hr, hl,
      updateAttributes_append, mapAttributes_mapAttributes]

theorem foldlM_removeAttribute {keys : List Key} :
    (text.updateAttributes range f).bind (keys.foldlM (·.removeAttribute · range)) =
    text.updateAttributes range fun attributes => keys.foldl (·.set · none) <| f attributes := by
  induction keys generalizing f
  case nil => exact Option.bind_fun_some _
  case cons key keys hi =>
    simp only [List.foldl_cons, List.foldlM_cons]
    rw [← hi, ← updateAttributes_updateAttributes (f := f) (g := (·.set key none)), Option.bind_assoc]
    rfl

theorem replaceAttributes_eq :
    text.replaceAttributes attributes range = text.updateAttributes range (·.replaced attributes) :=
  foldlM_removeAttribute

theorem replaceAttributes_replaceAttributes :
    (text.replaceAttributes attributes range).bind (·.replaceAttributes attributes range) =
    text.replaceAttributes attributes range := by
  simp only [replaceAttributes_eq, updateAttributes_updateAttributes, Attributes.replaced_replaced]

structure Replaces (text : NSAttributedString) (attributes : Attributes) (range : NSRange)
    (new : NSAttributedString) : Prop where
  string  : new.string = text.string
  inside  : ∀ i c c', range.Covers i → text[i]? = some c → new[i]? = some c' → ∀ key ∈ Key.formatting,
    c'.attributes key = if attributes.keeps key then c.attributes key else attributes.resolved key
  outside : ∀ i, ¬range.Covers i → new[i]? = text[i]?

theorem replaces_mapAttributes {pre seg post : NSAttributedString} :
    Replaces (pre ++ seg ++ post) attributes ⟨pre.length, seg.length⟩
      (pre ++ seg.mapAttributes (·.replaced attributes) ++ post) := by
  have hc (i : Nat) : NSRange.Covers ⟨pre.length, seg.length⟩ i ↔
      pre.length ≤ i ∧ i < pre.length + seg.length := by
    simp only [NSRange.Covers, NSRange.maxLength]
    omega
  constructor
  case string => simp [NSAttributedString.string, mapAttributes]
  case inside =>
    intro i c c' hi ht hn key hk
    obtain ⟨hl, hr⟩ := (hc i).mp hi
    have hs : i - pre.length < seg.length := by omega
    rw [List.append_assoc, List.getElem?_append_right hl] at ht hn
    rw [List.getElem?_append_left hs] at ht
    rw [List.getElem?_append_left (by rwa [mapAttributes_length]), mapAttributes, List.getElem?_map, ht,
      Option.map_some, Option.some.injEq] at hn
    rw [← hn]
    exact Attributes.replaced_formatting hk
  case outside =>
    intro i hi
    rw [hc] at hi
    by_cases hl : i < pre.length
    case pos => simp only [List.append_assoc, List.getElem?_append_left hl]
    case neg =>
      have hr : pre.length + seg.length ≤ i := by omega
      rw [List.getElem?_append_right (by simpa using hr), List.getElem?_append_right (by simpa using hr)]
      simp

-- Apart from colors whose style is replaced by one without a color, the formatting in the range is determined
-- by the new attributes alone.
theorem replaceAttributes_spec (h : range.IsWithin text.length) :
    ∃ new, text.replaceAttributes attributes range = some new ∧ Replaces text attributes range new ∧
      new.replaceAttributes attributes range = some new := by
  have ⟨pre, seg, post, ht, hr⟩ := NSRange.exists_append h
  have hn : text.replaceAttributes attributes range =
      some (pre ++ mapAttributes seg (·.replaced attributes) ++ post) := by
    rw [replaceAttributes_eq, ht, hr, updateAttributes_append]
  refine ⟨_, hn, ht ▸ hr ▸ replaces_mapAttributes, ?_⟩
  have h : (text.replaceAttributes attributes range).bind (·.replaceAttributes attributes range) = _ :=
    replaceAttributes_replaceAttributes
  rwa [hn] at h

end NSAttributedString

namespace Sample

def red : Value :=
  .other "red"

def underlined : Attributes :=
  Attributes.set (fun _ => none) .underlineStyle (some (.int 1))

def letters : List Character :=
  [⟨0x61, underlined.set .underlineColor red⟩, ⟨0x61, fun _ => none⟩]

end Sample

namespace NSAttributedString

theorem sample_replaceAttributes :
    ∃ new, replaceAttributes Sample.letters Sample.underlined ⟨0, 2⟩ = some new ∧
      Replaces Sample.letters Sample.underlined ⟨0, 2⟩ new ∧
      new.replaceAttributes Sample.underlined ⟨0, 2⟩ = some new :=
  replaceAttributes_spec (by decide)

theorem replaceAttributes_keeps_color :
    ¬∃ determined : Attributes → Key → Option Value, ∀ text new attributes range,
      replaceAttributes text attributes range = some new → ∀ (i : Nat) c, range.Covers i → new[i]? = some c →
        ∀ key ∈ Key.formatting, c.attributes key = determined attributes key := by
  intro ⟨determined, h⟩
  have h := h Sample.letters _ Sample.underlined ⟨0, 2⟩ rfl
  have hr : some Sample.red = determined Sample.underlined .underlineColor :=
    h 0 _ (by decide) rfl .underlineColor (by decide)
  have hn : none = determined Sample.underlined .underlineColor :=
    h 1 _ (by decide) rfl .underlineColor (by decide)
  exact nomatch hn.trans hr.symm

end NSAttributedString
end RichText
