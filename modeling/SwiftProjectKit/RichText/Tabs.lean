import SwiftProjectKit.RichText.NSAttributedString

namespace RichText

structure RZTextTabStyleFormat where
  attributedString : NSAttributedString
  range            : NSRange
  tab              : RZTextTabStyle

namespace NSAttributedString

def parapraghRange (text : NSAttributedString) (range : NSRange) : Option NSRange := do
  let (star, «end») ← text.string.getParagraphStart range
  return ⟨star, «end» - star⟩

-- There are at most as many paragraphs as characters, which is what bounds the loop.
def allParapraghRange (text : NSAttributedString) : Option (List NSRange) :=
  loop text.length 0
where
  loop (fuel : Nat) (location : Int) : Option (List NSRange) :=
    if location < text.length then
      match fuel with
      | 0        => none
      | fuel + 1 => do
        let rg ← text.parapraghRange ⟨location, 0⟩
        return rg :: (← loop fuel <| rg.location + rg.length)
    else
      some []

def paragraphRanges (text : NSAttributedString) (range : NSRange) : Option (List NSRange) := do
  let all ← text.allParapraghRange
  return all.filter fun tempRang =>
    if range.maxLength < tempRang.location then
      false
    else if tempRang.maxLength ≤ range.location && tempRang.maxLength != text.length then
      false
    else
      true

def paragraphAttributedSubString (text : NSAttributedString) (range : NSRange) :
    Option NSAttributedString := do
  text.attributedSubstring <| ← text.parapraghRange range

def headTabRange (text : NSAttributedString) : Option NSRange :=
  match text.string.rangesWith NSString.tabPattern |>.head? with
  | some range => if range.location = 0 then range else none
  | none       => none

def removeHeadTabString (text : NSAttributedString) : Option NSAttributedString :=
  match text.headTabRange with
  | some range => text.attributedSubstring ⟨range.maxLength, text.length - range.maxLength⟩
  | none       => text

def tabStyleLengthFor (text : NSAttributedString) (range : NSRange) : Option Int := do
  let p  ← text.attributedSubstring <| ← text.parapraghRange range
  let p1 ← p.removeHeadTabString
  return p.length - p1.length

def replaceParagraphStyle (trans : NSParagraphStyle → NSParagraphStyle) (tempAttr : NSAttributedString)
    (value : Option Value × NSRange) : Option NSAttributedString :=
  match value.fst.bind Value.asParagraphStyle with
  | some p => tempAttr.addAttribute .paragraphStyle (.paragraphStyle <| trans p) value.snd
  | none   => tempAttr

def replaceParagraphStyles (text : NSAttributedString) (trans : NSParagraphStyle → NSParagraphStyle) :
    Option NSAttributedString := do
  let values ← text.enumerateAttribute .paragraphStyle text.whole
  values.foldlM (replaceParagraphStyle trans) text

variable [ParagraphStyles]

def tabStyleFor (text : NSAttributedString) (range : NSRange) : Option RZTextTabStyle := do
  let location := if range.location ≥ text.length then range.location - 1 else range.location
  let t := max location 0
  let enable ←
    if text.length = 0 then
      let values ← text.enumerateAttribute .paragraphStyle ⟨0, 0⟩
      pure <| values.any (·.fst.bind Value.asParagraphStyle |>.isSome)
    else
      pure true
  if enable then
    return (← text.attributes t).tabStyle
  else
    return .none

def unifyTabstyle (text : NSAttributedString) : Option NSAttributedString :=
  text.replaceParagraphStyles fun p => p.transParagraphTo p.tabStyle

end NSAttributedString

-- The paragraphs that have been visited, grouped by consecutive paragraphs with the same list style.
structure Grouping where
  allList  : List (List RZTextTabStyleFormat) := []
  sameList : List RZTextTabStyleFormat := []
  i        : Nat := 0

def Grouping.visit (count : Nat) (g : Grouping) (format : RZTextTabStyleFormat) : Grouping :=
  let (allList, sameList) :=
    if some format.tab == g.sameList.getLast?.map (·.tab) || g.sameList.length == 0 then
      (g.allList, g.sameList ++ [format])
    else
      (g.allList ++ [g.sameList], [format])
  { allList  := if (g.i : Int) == count - 1 then allList ++ [sameList] else allList
    sameList := sameList
    i        := g.i + 1 }

def RZTextTabStyle.header (style : RZTextTabStyle) (i : Nat) : NSString :=
  if style == .ul then .ofString "\t•\t" else .ofString s!"\t{i + 1}.\t"

def RZTextTabStyleFormat.reset (v : RZTextTabStyleFormat) (i : Nat) : Option NSAttributedString :=
  match v.tab with
  | .none     => v.attributedString
  | .ul | .ol => do
    let a    ← v.attributedString.removeHeadTabString
    let attr ← v.attributedString.attributes 0
    NSAttributedString.insert a (.ofString (v.tab.header i) attr) 0

namespace NSAttributedString

variable [ParagraphStyles]

def formatFor (attributedText : NSAttributedString) (range : NSRange) :
    Option RZTextTabStyleFormat := do
  let p    ← attributedText.tabStyleFor range
  let attr ← attributedText.attributedSubstring range
  return { attributedString := attr, range, tab := p }

def resetTabOrderNumber (text : NSAttributedString) : Option NSAttributedString := do
  let attributedText ← text.unifyTabstyle
  let allParas ← attributedText.allParapraghRange
  let formats ← allParas.mapM attributedText.formatFor
  let allList := formats.foldl (Grouping.visit allParas.length) {} |>.allList
  let paras ← allList.mapM fun formatters => formatters.zipIdx.mapM fun (v, i) => v.reset i
  return paras.flatten.flatten

end NSAttributedString

namespace Sample

def describe (textLists : List NSTextList) : String :=
  .join <| textLists.map fun list => "format <" ++ list.markerFormat ++ ">"

@[reducible]
def styles : ParagraphStyles where
  init := {}
  description p := describe p.textLists
  htmlString html :=
    if html == "<ul><li></li></ul>" then
      some { textLists := [⟨"\x7bdisc\x7d"⟩] }
    else if html == "<ol><li></li></ol>" then
      some { textLists := [⟨"\x7bdecimal\x7d."⟩] }
    else
      none

theorem textLists_ul : (@NSParagraphStyle.ulParagraphStyle styles).textLists = [⟨"\x7bdisc\x7d"⟩] := by
  decide

theorem textLists_ol :
    (@NSParagraphStyle.olParagraphStyle styles).textLists = [⟨"\x7bdecimal\x7d."⟩] := by
  decide

theorem tabStyle_transParagraphTo (p : NSParagraphStyle) (s : RZTextTabStyle) :
    @NSParagraphStyle.tabStyle styles (@NSParagraphStyle.transParagraphTo styles p s) = s := by
  cases s
  case none => rfl
  all_goals
    simp only [NSParagraphStyle.tabStyle, NSParagraphStyle.transParagraphTo, textLists_ul, textLists_ol,
      ParagraphStyles.description]
    decide

def paragraph (string : String) (style : RZTextTabStyle) : NSAttributedString :=
  let p := @NSParagraphStyle.transParagraphTo styles {} style
  .ofString (.ofString string) <| Attributes.set (fun _ => none) .paragraphStyle <| some <| .paragraphStyle p

-- Two runs of an ordered list, with a paragraph that has a wrong number and one that looks like an
-- item of a list but is none.
def text : NSAttributedString :=
  paragraph "a\n" .ol ++ paragraph "\t7.\tb\n" .ol ++ paragraph "\t1.\tc\n" .none ++ paragraph "d" .ol

end Sample
end RichText
