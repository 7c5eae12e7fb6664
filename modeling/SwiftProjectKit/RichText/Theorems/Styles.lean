import SwiftProjectKit.RichText.Theorems.Paragraphs

namespace RichText

namespace Attributes

variable {attributes : Attributes} {trans : NSParagraphStyle → NSParagraphStyle}

def mapParagraphStyle (attributes : Attributes) (trans : NSParagraphStyle → NSParagraphStyle) :
    Attributes :=
  match attributes.paragraphStyle with
  | some p => attributes.set .paragraphStyle <| some <| .paragraphStyle <| trans p
  | none   => attributes

theorem paragraphStyle_mapParagraphStyle :
    (attributes.mapParagraphStyle trans).paragraphStyle = attributes.paragraphStyle.map trans := by
  cases h : attributes.paragraphStyle
  case none => simp [mapParagraphStyle, h]
  case some =>
    simp only [mapParagraphStyle, h]
    simp [paragraphStyle, set, Value.asParagraphStyle]

theorem attachment_mapParagraphStyle :
    (attributes.mapParagraphStyle trans) .attachment = attributes .attachment := by
  cases h : attributes.paragraphStyle
  all_goals simp [mapParagraphStyle, h, set]

variable {p : NSParagraphStyle}

@[simp]
theorem paragraphStyle_set :
    (attributes.set .paragraphStyle <| some <| .paragraphStyle p).paragraphStyle = some p := by
  simp [paragraphStyle, set, Value.asParagraphStyle]

theorem mapParagraphStyle_set :
    (attributes.set .paragraphStyle <| some <| .paragraphStyle p).mapParagraphStyle trans =
      attributes.set .paragraphStyle (some <| .paragraphStyle <| trans p) := by
  rw [mapParagraphStyle, paragraphStyle_set]
  exact Function.update_idem ..

variable [ParagraphStyles]

theorem tabStyle_mapParagraphStyle (h : ∀ p, (trans p).tabStyle = p.tabStyle) :
    (attributes.mapParagraphStyle trans).tabStyle = attributes.tabStyle := by
  rw [tabStyle, paragraphStyle_mapParagraphStyle, tabStyle]
  cases attributes.paragraphStyle
  case none => rfl
  case some => exact h _

end Attributes

namespace NSAttributedString

variable {text pre seg post : NSAttributedString} {segs : List NSAttributedString}
  {f : Attributes → Attributes} {trans : NSParagraphStyle → NSParagraphStyle} {key : Key}

@[simp]
theorem string_mapAttributes : (text.mapAttributes f).string = text.string := by
  simp [mapAttributes, string]

@[simp]
theorem mapAttributes_length : (text.mapAttributes f).length = text.length :=
  List.length_map _

theorem mapAttributes_mapAttributes {g : Attributes → Attributes} :
    (text.mapAttributes f).mapAttributes g = text.mapAttributes (fun attributes => g <| f attributes) :=
  List.map_map

theorem mapAttributes_append :
    mapAttributes (pre ++ post) f = mapAttributes pre f ++ mapAttributes post f :=
  List.map_append

theorem paragraphs_mapAttributes :
    (text.mapAttributes f).paragraphs = text.paragraphs.map (·.mapAttributes f) :=
  Segments.splitBy_map _ _

theorem updateAttributes_append :
    updateAttributes (pre ++ seg ++ post) ⟨pre.length, seg.length⟩ f =
      some (pre ++ seg.mapAttributes f ++ post) := by
  simp only [updateAttributes, attributedSubstring, NSRange.substring_append, replaceCharacters,
    NSRange.replace_append, Option.bind_eq_bind, Option.bind_some]

def value (key : Key) (run : NSAttributedString) : Option Value :=
  run.head?.bind (·.attributes key)

-- Maximal parts of a text over which an attribute does not change.
def runs (text : NSAttributedString) (key : Key) : List NSAttributedString :=
  text.splitBy fun c d => c.attributes key == d.attributes key

theorem runs_flatten : (text.runs key).flatten = text :=
  List.flatten_splitBy _ _

theorem value_of_mem_runs {c : Character} (hs : seg ∈ text.runs key) (hc : c ∈ seg) :
    c.attributes key = seg.value key := by
  have h := List.isChain_of_mem_splitBy hs
  cases seg
  case nil => contradiction
  case cons d seg => exact Segments.eq_of_isChain h hc

theorem enumerateAttribute_whole : text.enumerateAttribute key text.whole =
    some ((text.runs key |>.map <| value key).zip <| NSRange.consecutive 0 <| text.runs key) := by
  have h : NSRange.substring text.whole text = some text := by
    simpa [whole] using NSRange.substring_append [] text []
  simp only [enumerateAttribute, attributedSubstring, h, Option.bind_eq_bind, Option.bind_some]
  rfl

theorem map_fst_enumerated : (((text.runs key).map <| value key).zip <|
    NSRange.consecutive 0 <| text.runs key).map Prod.fst = (text.runs key).map (value key) :=
  List.map_fst_zip <| by simp [NSRange.consecutive_length]

theorem replaceParagraphStyle_append
    (h : ∀ c ∈ seg, c.attributes .paragraphStyle = seg.value .paragraphStyle) :
    replaceParagraphStyle trans (pre ++ seg ++ post)
        (seg.value .paragraphStyle, ⟨pre.length, seg.length⟩) =
      some (pre ++ seg.mapAttributes (·.mapParagraphStyle trans) ++ post) := by
  have hp : ∀ c ∈ seg, c.attributes.paragraphStyle =
    (seg.value .paragraphStyle).bind Value.asParagraphStyle := fun c hc => by
      rw [Attributes.paragraphStyle, h c hc]
  cases hv : (seg.value .paragraphStyle).bind Value.asParagraphStyle
  case none =>
    have hm : seg.mapAttributes (·.mapParagraphStyle trans) = seg :=
      (List.map_congr_left fun c hc => by simp [Attributes.mapParagraphStyle, hp c hc, hv]).trans
        <| List.map_id _
    simp [replaceParagraphStyle, hv, hm]
  case some p =>
    have hm : seg.mapAttributes (·.mapParagraphStyle trans) =
        seg.mapAttributes (·.set .paragraphStyle <| some <| .paragraphStyle <| trans p) :=
      List.map_congr_left fun c hc => by simp [Attributes.mapParagraphStyle, hp c hc, hv]
    simp only [replaceParagraphStyle, hv, hm, addAttribute, updateAttributes_append]

theorem foldlM_replaceParagraphStyle (trans : NSParagraphStyle → NSParagraphStyle)
    (pre : NSAttributedString) (segs : List NSAttributedString)
    (h : ∀ seg ∈ segs, ∀ c ∈ seg, c.attributes .paragraphStyle = seg.value .paragraphStyle) :
    ((segs.map <| value .paragraphStyle).zip <| NSRange.consecutive pre.length segs).foldlM
        (replaceParagraphStyle trans) (pre ++ segs.flatten) =
      some (pre ++ mapAttributes segs.flatten (·.mapParagraphStyle trans)) := by
  induction segs generalizing pre
  case nil => rfl
  case cons seg segs hi =>
    have ⟨hs, h⟩ := List.forall_mem_cons.mp h
    have hi := hi (pre ++ seg.mapAttributes (·.mapParagraphStyle trans)) h
    simp only [List.length_append, mapAttributes_length, Int.natCast_add] at hi
    simp only [List.flatten_cons, ← List.append_assoc, List.map_cons, NSRange.consecutive,
      List.zip_cons_cons, List.foldlM_cons, replaceParagraphStyle_append hs, Option.bind_eq_bind,
      Option.bind_some, hi, mapAttributes_append]

theorem replaceParagraphStyles_eq : text.replaceParagraphStyles trans =
    some (text.mapAttributes (·.mapParagraphStyle trans)) := by
  have h := foldlM_replaceParagraphStyle trans [] (text.runs .paragraphStyle) fun _ hs _ =>
    value_of_mem_runs hs
  rw [List.nil_append, runs_flatten] at h
  simp only [replaceParagraphStyles, enumerateAttribute_whole, Option.bind_eq_bind, Option.bind_some]
  exact h

variable [ParagraphStyles]

def unified (text : NSAttributedString) : NSAttributedString :=
  text.mapAttributes (·.mapParagraphStyle fun p => p.transParagraphTo p.tabStyle)

theorem unifyTabstyle_eq : text.unifyTabstyle = some text.unified :=
  replaceParagraphStyles_eq

@[simp]
theorem string_unified : text.unified.string = text.string :=
  string_mapAttributes

theorem paragraphs_unified : text.unified.paragraphs = text.paragraphs.map unified :=
  paragraphs_mapAttributes

end NSAttributedString
end RichText
