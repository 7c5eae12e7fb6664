import SwiftProjectKit.RichText.Theorems.Renumber

namespace RichText

-- The loop collects the maximal runs of paragraphs with the same list style. Its two lists are
-- those of `List.splitBy.loop` in reverse.
theorem Grouping.foldl_visit_loop {count i : Nat} (a b : RZTextTabStyleFormat)
    (g rest : List RZTextTabStyleFormat) (gs : List (List RZTextTabStyleFormat))
    (hi : i + rest.length + 1 = count) :
    ((b :: rest).foldl (Grouping.visit count) ⟨gs.reverse, (a :: g).reverse, i⟩).allList =
      List.splitBy.loop (fun a b => b.tab == a.tab) (b :: rest) a g gs := by
  induction rest generalizing a b g gs i
  case nil =>
    have hf : (i : Int) == count - 1 := beq_iff_eq.mpr <| by
      simp only [List.length_nil] at hi
      omega
    cases hb : b.tab == a.tab <;> simp [Grouping.visit, List.splitBy.loop, hb, hf]
  case cons b' rest ih =>
    have hf : ((i : Int) == count - 1) = false := beq_eq_false_iff_ne.mpr <| by
      simp only [List.length_cons] at hi
      omega
    have hi' : i + 1 + rest.length + 1 = count := by
      simp only [List.length_cons] at hi
      omega
    rw [List.foldl_cons, List.splitBy.loop]
    cases hb : b.tab == a.tab
    case true =>
      rw [← ih b b' (a :: g) gs hi']
      simp [Grouping.visit, hb, hf]
    case false =>
      rw [← ih b b' [] ((a :: g).reverse :: gs) hi']
      simp [Grouping.visit, hb, hf]

theorem Grouping.foldl_visit_eq_splitBy (formats : List RZTextTabStyleFormat) :
    (formats.foldl (Grouping.visit formats.length) {}).allList =
      formats.splitBy fun a b => b.tab == a.tab := by
  cases formats
  case nil => rfl
  case cons a rest =>
    cases rest
    case nil => rfl
    case cons b rest =>
      have hf : (((0 : Nat) : Int) == (a :: b :: rest).length - 1) = false :=
        beq_eq_false_iff_ne.mpr <| by simp only [List.length_cons]; omega
      have hv : Grouping.visit (a :: b :: rest).length {} a = ⟨[], [a], 1⟩ := by
        simp only [Grouping.visit, hf]
        rfl
      rw [List.foldl_cons, hv, List.splitBy]
      exact foldl_visit_loop a b [] rest [] <| by simp [Nat.add_comm]

namespace NSAttributedString

variable {pre seg post p : NSAttributedString} {segs : List NSAttributedString} {i : Nat}

theorem attributes_zero (hp : p ≠ []) : p.attributes 0 = some p.firstAttributes := by
  have ⟨c, p', hc⟩ := List.exists_cons_of_ne_nil hp
  simp [attributes, hc, firstAttributes]

theorem attributes_append (hs : seg ≠ []) :
    attributes (pre ++ seg ++ post) pre.length = some seg.firstAttributes := by
  have ⟨c, seg', hc⟩ := List.exists_cons_of_ne_nil hs
  simp [attributes, hc, firstAttributes]

variable [ParagraphStyles]

theorem tabStyleFor_append (hs : seg ≠ []) :
    tabStyleFor (pre ++ seg ++ post) ⟨pre.length, seg.length⟩ = some seg.tab := by
  have hl := List.length_pos_iff.mpr hs
  have hn : (pre ++ seg ++ post).length ≠ 0 := by
    simp only [List.length_append]
    omega
  have hlt : ¬(pre.length : Int) ≥ (pre ++ seg ++ post).length := by
    simp only [List.length_append]
    omega
  have ht : max (pre.length : Int) 0 = pre.length := by omega
  simp only [tabStyleFor, if_neg hlt, if_neg hn, ht, attributes_append hs]
  rfl

def formats (location : Int) (ps : List NSAttributedString) : List RZTextTabStyleFormat :=
  List.zipWith (fun p range => ⟨p, range, p.tab⟩) ps <| NSRange.consecutive location ps

theorem formatFor_append (hs : seg ≠ []) :
    formatFor (pre ++ seg ++ post) ⟨pre.length, seg.length⟩ =
      some ⟨seg, ⟨pre.length, seg.length⟩, seg.tab⟩ := by
  rw [formatFor, tabStyleFor_append hs, attributedSubstring, NSRange.substring_append]
  rfl

theorem mapM_formatFor (pre : NSAttributedString) (segs : List NSAttributedString)
    (hs : ∀ seg ∈ segs, seg ≠ []) :
    (NSRange.consecutive pre.length segs).mapM (formatFor <| pre ++ segs.flatten) =
      some (formats pre.length segs) := by
  induction segs generalizing pre
  case nil => rfl
  case cons seg segs hi =>
    have ⟨hn, hs⟩ := List.forall_mem_cons.mp hs
    have hi := hi (pre ++ seg) hs
    simp only [List.length_append, Int.natCast_add] at hi
    simp only [List.flatten_cons, ← List.append_assoc, NSRange.consecutive, List.mapM_cons,
      formatFor_append hn, hi, Option.bind_eq_bind, Option.bind_some]
    rfl

theorem formats_length (location : Int) (ps : List NSAttributedString) :
    (formats location ps).length = (NSRange.consecutive location ps).length := by
  induction ps generalizing location
  case nil => rfl
  case cons p ps hi => exact congrArg (· + 1) <| hi _

theorem map_tab_formats (location : Int) (ps : List NSAttributedString) :
    (formats location ps).map (·.tab) = ps.map tab := by
  induction ps generalizing location
  case nil => rfl
  case cons p ps hi => exact congrArg (p.tab :: ·) <| hi _

theorem map_attributedString_formats (location : Int) (ps : List NSAttributedString) :
    (formats location ps).map (·.attributedString) = ps := by
  induction ps generalizing location
  case nil => rfl
  case cons p ps hi => exact congrArg (p :: ·) <| hi _

theorem of_mem_formats {location : Int} {ps : List NSAttributedString} {v : RZTextTabStyleFormat}
    (h : v ∈ formats location ps) : v.tab = v.attributedString.tab ∧ v.attributedString ∈ ps := by
  have hm := List.mem_map_of_mem (f := (·.attributedString)) h
  rw [map_attributedString_formats] at hm
  have ⟨_, _, he⟩ := List.getElem_of_mem h
  simp only [formats, List.getElem_zipWith] at he
  exact ⟨by rw [← he], hm⟩

theorem reset_eq {v : RZTextTabStyleFormat} (hv : v.tab = v.attributedString.tab)
    (hp : v.attributedString ≠ []) : v.reset i = some (v.attributedString.renumber i) := by
  have hi : ∀ new, insert v.attributedString.body new 0 = some (new ++ v.attributedString.body) :=
    NSRange.replace_append [] [] v.attributedString.body
  cases h : v.attributedString.tab
  case none => simp [RZTextTabStyleFormat.reset, renumber, hv, h]
  all_goals
    simp only [RZTextTabStyleFormat.reset, renumber, hv, h, removeHeadTabString_eq,
      attributes_zero hp, hi, Option.bind_eq_bind, Option.bind_some]

-- The groups of paragraphs. Numbering the paragraphs group by group numbers them by their ranks.
def groups (ps : List NSAttributedString) : List (List RZTextTabStyleFormat) :=
  (formats 0 ps).splitBy fun a b => b.tab == a.tab

theorem flatten_groups (ps : List NSAttributedString) :
    ((groups ps).map fun g => g.zipIdx.map fun v => v.fst.attributedString.renumber v.snd).flatten =
      renumberAll ps := by
  have h : renumberAll ps = List.zipWith (fun v i => v.attributedString.renumber i) (formats 0 ps)
      (Runs.ranks <| ps.map tab) := by
    rw [← List.zipWith_map_left, map_attributedString_formats, renumberAll]
  rw [← List.flatMap_def, ← List.map_flatMap, groups, Runs.flatMap_zipIdx_splitBy, map_tab_formats,
    List.map_zip_eq_zipWith, h]
  rfl

theorem mapM_reset {ps : List NSAttributedString} (hs : ∀ p ∈ ps, p ≠ []) :
    ((groups ps).mapM fun g => g.zipIdx.mapM fun v => v.fst.reset v.snd) =
      some ((groups ps).map fun g => g.zipIdx.map fun v => v.fst.attributedString.renumber v.snd) := by
  refine Segments.mapM_eq_some_map fun g hg => Segments.mapM_eq_some_map fun v hv => ?_
  have hf : v.fst ∈ (groups ps).flatten :=
    List.mem_flatten_of_mem hg <| List.fst_mem_of_mem_zipIdx hv
  rw [groups, List.flatten_splitBy] at hf
  have ⟨ht, hm⟩ := of_mem_formats hf
  exact reset_eq ht <| hs _ hm

theorem resetTabOrderNumber_eq (text : NSAttributedString) :
    text.resetTabOrderNumber = some (renumberAll text.unified.paragraphs).flatten := by
  have hs : ∀ p ∈ text.unified.paragraphs, p ≠ [] := fun _ => List.ne_nil_of_mem_splitBy
  have hf : text.unified.paragraphs.flatten = text.unified := List.flatten_splitBy _ _
  have hm : (NSRange.consecutive 0 text.unified.paragraphs).mapM text.unified.formatFor =
      some (formats 0 text.unified.paragraphs) := by
    simpa [hf] using mapM_formatFor [] text.unified.paragraphs hs
  simp only [resetTabOrderNumber, unifyTabstyle_eq, allParapraghRange_eq, Option.bind_eq_bind,
    Option.bind_some, ← formats_length, hm, Grouping.foldl_visit_eq_splitBy]
  rw [← groups, mapM_reset hs, Option.bind_some, flatten_groups]
  rfl

-- The lists of the text `new` are those of `text`, numbered anew.
structure Renumbers (text new : NSAttributedString) : Prop where
  tabs : new.paragraphs.map tab = text.paragraphs.map tab
  none : ∀ (i : Nat) (p : NSAttributedString), text.paragraphs[i]? = some p → p.tab = .none →
    new.paragraphs[i]?.map string = some p.string
  ul   : ∀ (i : Nat) (p : NSAttributedString), text.paragraphs[i]? = some p → p.tab = .ul →
    ∃ body, NSString.IsBody p.string body ∧
      new.paragraphs[i]?.map string = some (.ofString "\t•\t" ++ body)
  ol   : ∀ start count, Runs.IsRun (text.paragraphs.map tab) .ol start count → ∀ k < count,
    ∃ (p : NSAttributedString) (body : NSString),
      text.paragraphs[start + k]? = some p ∧ NSString.IsBody p.string body ∧
      new.paragraphs[start + k]?.map string = some (.ofString s!"\t{k + 1}.\t" ++ body)

variable {text new new' : NSAttributedString} {ps qs : List NSAttributedString}

theorem map_tab_renumberAll : (renumberAll ps).map tab = ps.map tab :=
  List.ext_getElem (by simp [renumberAll]) <| by simp [renumberAll, tab_renumber]

theorem map_string_renumberAll : (renumberAll ps).map string =
    List.zipWith (fun p i => NSString.renumber p.fst i p.snd) ((ps.map tab).zip <| ps.map string)
      (Runs.ranks <| ps.map tab) := by
  rw [renumberAll, List.map_zipWith, List.zip_map', List.zipWith_map_left]
  simp only [string_renumber]

theorem map_string_renumberAll_renumberAll :
    (renumberAll <| renumberAll ps).map string = (renumberAll ps).map string := by
  rw [map_string_renumberAll, map_tab_renumberAll]
  refine List.ext_getElem (by simp [renumberAll]) fun i _ _ => ?_
  simp [renumberAll, string_renumber, NSString.renumber_renumber]

theorem paragraphs_reset (h : text.resetTabOrderNumber = some new) :
    new.paragraphs = renumberAll text.unified.paragraphs := by
  cases Option.some.inj <| text.resetTabOrderNumber_eq.symm.trans h
  exact paragraphs_renumberAll <| congrArg paragraphs <| List.flatten_splitBy _ _

theorem map_string_unified : text.unified.paragraphs.map string = text.paragraphs.map string := by
  simp [paragraphs_unified, Function.comp_def]

section

-- A style that is converted to a list style is recognized as one of that list style.
variable (ht : ∀ (p : NSParagraphStyle) s, (p.transParagraphTo s).tabStyle = s)
include ht

theorem tab_unified : p.unified.tab = p.tab := by
  cases p
  case nil => rfl
  case cons => exact Attributes.tabStyle_mapParagraphStyle fun _ => ht _ _

theorem map_tab_unified : text.unified.paragraphs.map tab = text.paragraphs.map tab := by
  simp [paragraphs_unified, Function.comp_def, tab_unified ht]

theorem getElem?_reset {i : Nat} (h : text.resetTabOrderNumber = some new)
    (hp : text.paragraphs[i]? = some p) :
    ∃ k, (Runs.ranks <| text.paragraphs.map tab)[i]? = some k ∧
      new.paragraphs[i]?.map string = some (NSString.renumber p.tab k p.string) := by
  have hu : text.unified.paragraphs[i]? = some p.unified := by simp [paragraphs_unified, hp]
  have ⟨k, hk, hr⟩ := getElem?_renumberAll hu
  rw [map_tab_unified ht] at hk
  refine ⟨k, hk, ?_⟩
  rw [paragraphs_reset h, hr, Option.map_some, string_renumber, tab_unified ht, string_unified]

theorem renumbers_reset (h : text.resetTabOrderNumber = some new) : Renumbers text new where
  tabs := by rw [paragraphs_reset h, map_tab_renumberAll, map_tab_unified ht]
  none i p hp hs := by
    obtain ⟨_, _, hr⟩ := getElem?_reset ht h hp
    rw [hr, hs, NSString.renumber]
  ul i p hp hs := by
    obtain ⟨_, _, hr⟩ := getElem?_reset ht h hp
    exact ⟨_, NSString.isBody_body _, by rw [hr, hs]; rfl⟩
  ol start count hrun k hk := by
    have hs := hrun.inside k hk
    rw [List.getElem?_map] at hs
    obtain ⟨p, hp, hs⟩ := Option.map_eq_some_iff.mp hs
    obtain ⟨i, hi, hr⟩ := getElem?_reset ht h hp
    cases Option.some.inj <| hi.symm.trans <| hrun.getElem?_ranks hk
    exact ⟨p, _, hp, NSString.isBody_body _, by rw [hr, hs]; rfl⟩

theorem string_reset_reset (h : text.resetTabOrderNumber = some new)
    (h' : new.resetTabOrderNumber = some new') : new'.string = new.string := by
  have hr : new'.paragraphs.map string = new.paragraphs.map string := by
    rw [paragraphs_reset h', map_string_renumberAll, map_tab_unified ht, map_string_unified,
      ← map_string_renumberAll, paragraphs_reset h, map_string_renumberAll_renumberAll]
  rw [← flatten_map_string, hr, flatten_map_string]

-- Renumbering is always possible and gives a text whose lists are numbered anew, and renumbering
-- that text changes no character.
theorem resetTabOrderNumber_renumbers (text : NSAttributedString) :
    ∃ new, text.resetTabOrderNumber = some new ∧ Renumbers text new ∧
      ∃ new', new.resetTabOrderNumber = some new' ∧ new'.string = new.string :=
  have h := text.resetTabOrderNumber_eq
  have h' := resetTabOrderNumber_eq _
  ⟨_, h, renumbers_reset ht h, _, h', string_reset_reset ht h h'⟩

end

omit [ParagraphStyles] in
theorem sample_renumbers :
    ∃ new, @resetTabOrderNumber Sample.styles Sample.text = some new ∧
      @Renumbers Sample.styles Sample.text new ∧
        ∃ new', @resetTabOrderNumber Sample.styles new = some new' ∧ new'.string = new.string :=
  @resetTabOrderNumber_renumbers Sample.styles Sample.tabStyle_transParagraphTo Sample.text

end NSAttributedString
end RichText
