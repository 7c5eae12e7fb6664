import SwiftProjectKit.RichText.Theorems.Ranges
import SwiftProjectKit.RichText.Theorems.Reset

namespace RichText

open Segments (offset slice mapSlice)

namespace NSAttributedString

variable {text : NSAttributedString} {range : NSRange} {f l fuel : Nat} {style : RZTextTabStyle}

def hasParagraphStyle (text : NSAttributedString) : Bool :=
  text.any (·.attributes.paragraphStyle.isSome)

theorem hasParagraphStyle_of_mem_runs {run : NSAttributedString}
    (h : run ∈ text.runs .paragraphStyle) :
    run.hasParagraphStyle = ((run.value .paragraphStyle).bind Value.asParagraphStyle).isSome := by
  have hv : ∀ c ∈ run, c.attributes.paragraphStyle =
      (run.value .paragraphStyle).bind Value.asParagraphStyle := fun c hc => by
    rw [Attributes.paragraphStyle, value_of_mem_runs h hc]
  have hn : run ≠ [] := fun hn => List.nil_notMem_splitBy _ _ <| hn ▸ h
  rw [Bool.eq_iff_iff, hasParagraphStyle, List.any_eq_true]
  constructor
  case mp =>
    rintro ⟨c, hc, hs⟩
    exact hv c hc ▸ hs
  case mpr => exact fun hs => ⟨_, List.head_mem hn, hv _ (List.head_mem hn) ▸ hs⟩

theorem any_enumerateAttribute : ((text.runs .paragraphStyle |>.map <| value .paragraphStyle).zip <|
      NSRange.consecutive 0 <| text.runs .paragraphStyle).any
    (·.fst.bind Value.asParagraphStyle |>.isSome) = text.hasParagraphStyle := by
  have hf : (text.runs .paragraphStyle).flatten = text := runs_flatten
  have hr : (text.runs .paragraphStyle).any hasParagraphStyle = text.hasParagraphStyle :=
    List.any_flatten.symm.trans <| congrArg hasParagraphStyle hf
  calc
    _ = (((text.runs .paragraphStyle |>.map <| value .paragraphStyle).zip <|
          NSRange.consecutive 0 <| text.runs .paragraphStyle).map Prod.fst).any
        (·.bind Value.asParagraphStyle |>.isSome) := List.any_map.symm
    _ = (text.runs .paragraphStyle).any
        ((·.bind Value.asParagraphStyle |>.isSome) ∘ value .paragraphStyle) := by
      rw [map_fst_enumerated, List.any_map]
    _ = (text.runs .paragraphStyle).any hasParagraphStyle :=
      Bool.eq_iff_iff.mpr <| by
        simp only [List.any_eq_true]
        refine exists_congr fun run => and_congr_right fun h => ?_
        rw [hasParagraphStyle_of_mem_runs h, Function.comp_apply]
    _ = _ := hr

theorem addAttribute_whole {key : Key} {v : Value} :
    text.addAttribute key v text.whole = some (text.mapAttributes (·.set key v)) := by
  have h : updateAttributes ([] ++ text ++ []) ⟨0, text.length⟩ (·.set key v) =
      some ([] ++ text.mapAttributes (·.set key v) ++ []) := updateAttributes_append
  simpa [whole, addAttribute] using h

variable [ParagraphStyles]

def converted (style : RZTextTabStyle) (text : NSAttributedString) : NSAttributedString :=
  if text.hasParagraphStyle then
    text.mapAttributes (·.mapParagraphStyle (·.transParagraphTo style))
  else
    text.mapAttributes
      (·.set .paragraphStyle <| some <| .paragraphStyle <| ParagraphStyles.init.transParagraphTo style)

@[simp]
theorem string_converted : (text.converted style).string = text.string := by
  rw [converted]
  split <;> exact string_mapAttributes

theorem mutableTransParagraphTo_succ (h : text.hasParagraphStyle) :
    mutableTransParagraphTo style (fuel + 1) text =
      some (text.mapAttributes (·.mapParagraphStyle (·.transParagraphTo style))) := by
  rw [mutableTransParagraphTo, enumerateAttribute_whole, Option.bind_eq_bind, Option.bind_some,
    replaceParagraphStyles_eq, Option.bind_eq_bind, Option.bind_some, if_pos]
  · rfl
  · rwa [any_enumerateAttribute]

-- A text without paragraph styles gets one, so that the recursion ends with the second call.
theorem mutableTransParagraphTo_eq (h : text ≠ []) :
    mutableTransParagraphTo style (text.length + 1) text = some (text.converted style) := by
  cases hp : text.hasParagraphStyle
  case true => rw [mutableTransParagraphTo_succ hp, converted, if_pos hp]
  case false =>
    have hn : ∀ c ∈ text, c.attributes.paragraphStyle = none := fun c hc => by
      simpa using List.any_eq_false.mp hp c hc
    have hm : text.mapAttributes (·.mapParagraphStyle (·.transParagraphTo style)) = text :=
      (List.map_congr_left fun c hc => by simp [Attributes.mapParagraphStyle, hn c hc]).trans
        <| List.map_id _
    obtain ⟨c, text', hc⟩ := List.exists_cons_of_ne_nil h
    have hi : hasParagraphStyle (text.mapAttributes
        (·.set .paragraphStyle <| some <| .paragraphStyle ParagraphStyles.init)) := by
      simp [hc, mapAttributes, hasParagraphStyle]
    have hl : text.length = text'.length + 1 := congrArg List.length hc
    rw [mutableTransParagraphTo, enumerateAttribute_whole, Option.bind_eq_bind, Option.bind_some,
      replaceParagraphStyles_eq, Option.bind_eq_bind, Option.bind_some, any_enumerateAttribute, hp, hm]
    simp only [addAttribute_whole, Option.bind_some, hl, mutableTransParagraphTo_succ hi, converted,
      hp, mapAttributes_mapAttributes, Attributes.mapParagraphStyle_set, Bool.false_eq_true, if_false]

def convertedBody (style : RZTextTabStyle) (p : NSAttributedString) : NSAttributedString :=
  p.body.converted style

-- The paragraphs of a selection lose the headers they start with before they are converted. That is
-- only possible if something is left of them.
theorem transParagraphsTo_eq (h : range.Spans text.paragraphs f l)
    (hb : ∀ p ∈ slice text.paragraphs f (l + 1), body p ≠ []) :
    text.transParagraphsTo range style =
      resetTabOrderNumber (mapSlice (convertedBody style) text.paragraphs f (l + 1)).flatten := by
  have ht : text = (text.paragraphs.take f).flatten ++ (slice text.paragraphs f (l + 1)).flatten ++
      (text.paragraphs.drop (l + 1)).flatten := by
    have hle := h.le
    rw [← List.flatten_append, ← List.flatten_append, Segments.take_slice_drop (by omega),
      flatten_paragraphs]
  have hm : (NSRange.consecutive (offset text.paragraphs f) <| slice text.paragraphs f (l + 1)).mapM
      (fun range => do
        let tempAttr ← (← text.attributedSubstring range).removeHeadTabString
        mutableTransParagraphTo style (tempAttr.length + 1) tempAttr) =
      some ((slice text.paragraphs f (l + 1)).map <| convertedBody style) := by
    refine NSRange.mapM_consecutive (fun range p hp hr => ?_) ht
    simp only [attributedSubstring, hr, removeHeadTabString_eq, Option.bind_eq_bind, Option.bind_some,
      mutableTransParagraphTo_eq (hb p hp), convertedBody]
  have hl : ((slice text.paragraphs f (l + 1)).map <| convertedBody style).length = _ :=
    List.length_map _
  have hr := NSRange.foldlM_replace_reverse (text.paragraphs.take f).flatten
    (text.paragraphs.drop (l + 1)).flatten hl
  rw [← ht] at hr
  simp only [transParagraphsTo, paragraphRanges_eq h, Option.bind_eq_bind, Option.bind_some] at hm ⊢
  rw [hm, Option.bind_some, mapSlice, List.flatten_append, List.flatten_append]
  exact congrArg (Option.bind · resetTabOrderNumber) hr

variable {p : NSAttributedString} (ht : ∀ (p : NSParagraphStyle) s, (p.transParagraphTo s).tabStyle = s)
include ht

theorem tab_converted_none : (p.converted .none).tab = .none := by
  have hf : ∀ f : Attributes → Attributes, (∀ attributes, (f attributes).tabStyle = .none) →
      (p.mapAttributes f).tab = .none := fun f hf => by
    cases p
    case nil => rfl
    case cons => exact hf _
  rw [converted]
  split
  case isTrue =>
    refine hf _ fun attributes => ?_
    rw [Attributes.tabStyle, Attributes.paragraphStyle_mapParagraphStyle]
    cases attributes.paragraphStyle
    case none => rfl
    case some => exact ht _ _
  case isFalse =>
    refine hf _ fun _ => ?_
    rw [Attributes.tabStyle, Attributes.paragraphStyle_set]
    exact ht _ _

end NSAttributedString
end RichText
