import SwiftProjectKit.Primitives.Runs
import SwiftProjectKit.RichText.Theorems.Header

namespace RichText

open Segments (Apart)

namespace NSString

-- What renumbering makes of the characters of a paragraph at a position in its run.
def renumber (style : RZTextTabStyle) (i : Nat) (string : NSString) : NSString :=
  match style with
  | .none     => string
  | .ul | .ol => style.header i ++ string.body

variable {string s₁ s₂ m : NSString} {style style' : RZTextTabStyle} {i i' : Nat}

theorem renumber_renumber : renumber style i (renumber style i' string) = renumber style i string := by
  cases style
  case none => rfl
  all_goals simp only [renumber, body_append <| isHeader_header _ i']

theorem IsHeader.ne_nil (h : IsHeader m) : m ≠ [] := by
  cases h <;> simp

theorem IsHeader.head? (h : IsHeader m) : m.head? = some tab := by
  cases h <;> rfl

theorem IsHeader.getLast? (h : IsHeader m) : m.getLast? = some tab := by
  cases h
  case ol => rw [List.getLast?_append_of_ne_nil _ (by simp)]; rfl
  case ul => rfl

theorem IsHeader.not_isParagraphSeparator {c : unichar} (h : IsHeader m) (hc : c ∈ m) :
    isParagraphSeparator c = false := by
  cases h
  case ol digits _ hd =>
    have hdig : c ∈ digits → isParagraphSeparator c = false := fun hc => by
      have hd := hd c hc
      by_contra hs
      simp only [isParagraphSeparator, Bool.not_eq_false, Bool.or_eq_true, beq_iff_eq] at hs
      rcases hs with (rfl | rfl) | rfl <;> exact absurd hd (by decide)
    simp only [List.cons_append, List.mem_cons, List.mem_append, List.not_mem_nil, or_false] at hc
    rcases hc with rfl | hc | rfl | rfl
    all_goals first | rfl | exact hdig hc
  case ul =>
    simp only [List.mem_cons, List.not_mem_nil, or_false] at hc
    rcases hc with rfl | rfl | rfl <;> rfl

theorem isChain_append_of_forall (h : ∀ c ∈ m, isParagraphSeparator c = false)
    (hs : string.IsChain fun c d => continues c d) :
    (m ++ string).IsChain fun c d => continues c d := by
  induction m
  case nil => exact hs
  case cons c m hi =>
    have ⟨hc, h⟩ := List.forall_mem_cons.mp h
    exact List.isChain_cons.mpr ⟨fun d _ => by simp [continues, hc], hi h⟩

theorem body_suffix (string : NSString) : string.body <:+ string :=
  List.drop_suffix _ _

theorem renumber_ne_nil (h : string ≠ []) : renumber style i string ≠ [] := by
  cases style
  case none => exact h
  all_goals simp [renumber, IsHeader.ne_nil <| isHeader_header _ _]

theorem isChain_renumber (h : string.IsChain fun c d => continues c d) :
    (renumber style i string).IsChain fun c d => continues c d := by
  cases style
  case none => exact h
  all_goals
    exact isChain_append_of_forall (fun _ => (isHeader_header _ i).not_isParagraphSeparator) <|
      h.suffix <| body_suffix string

theorem getLast?_renumber {c : unichar} (h : string.getLast? = some c) (hc : isParagraphSeparator c) :
    (renumber style i string).getLast? = some c := by
  by_cases hb : string.body = []
  case neg =>
    have ⟨_, hp⟩ := body_suffix string
    have hl : string.body.getLast? = some c := by
      rwa [← hp, List.getLast?_append_of_ne_nil _ hb] at h
    cases style
    case none => exact h
    all_goals rw [renumber, List.getLast?_append_of_ne_nil _ hb, hl]
  case pos =>
    cases isBody_body string
    case header m hm hs =>
      -- The paragraph is nothing but a header, and so does not end with a separator.
      have hc' := hm.not_isParagraphSeparator <| List.mem_of_mem_getLast? <| by
        rwa [hs, hb, List.append_nil] at h
      exact absurd hc <| by simp [hc']
    case plain _ hs =>
      rw [hs.trans hb] at h
      contradiction

theorem head?_renumber {c : unichar} (h : string.head? = some c) :
    (renumber style i string).head? = some c ∨ (renumber style i string).head? = some tab := by
  cases style
  case none => exact .inl h
  all_goals
    refine .inr ?_
    rw [renumber, List.head?_append_of_ne_nil _ (IsHeader.ne_nil <| isHeader_header _ _)]
    exact IsHeader.head? <| isHeader_header _ _

theorem apart_renumber (h₁ : s₁ ≠ []) (h₂ : s₂ ≠ []) (h : Apart continues s₁ s₂) :
    Apart continues (renumber style i s₁) (renumber style' i' s₂) := by
  have hc := List.getLast?_eq_some_getLast h₁
  have hd := List.head?_eq_some_head h₂
  have h  := h _ hc _ hd
  have hs : isParagraphSeparator (s₁.getLast h₁) := by
    simp only [continues, Bool.or_eq_false_iff, Bool.not_eq_false'] at h
    exact h.left
  intro c hc' d hd'
  cases getLast?_renumber hc hs ▸ hc'
  cases head?_renumber hd
  case inl hr => exact Option.some.inj (hr.symm.trans hd') ▸ h
  case inr hr =>
    cases Option.some.inj <| hr.symm.trans hd'
    simp [continues, hs, tab]

end NSString

namespace NSAttributedString

variable {text p : NSAttributedString} {ps qs : List NSAttributedString} {i : Nat}

def firstAttributes (text : NSAttributedString) : Attributes :=
  text.head?.elim (fun _ => none) Character.attributes

variable [ParagraphStyles]

-- The list style of a paragraph is that of its first character.
def tab (p : NSAttributedString) : RZTextTabStyle :=
  p.firstAttributes.tabStyle

def renumber (p : NSAttributedString) (i : Nat) : NSAttributedString :=
  match p.tab with
  | .none     => p
  | .ul | .ol => ofString (p.tab.header i) p.firstAttributes ++ p.body

def renumberAll (ps : List NSAttributedString) : List NSAttributedString :=
  List.zipWith renumber ps <| Runs.ranks <| ps.map tab

theorem string_renumber : (p.renumber i).string = NSString.renumber p.tab i p.string := by
  cases h : p.tab
  case none => simp [renumber, h, NSString.renumber]
  all_goals
    simp only [renumber, h, NSString.renumber]
    rw [string_append, string_ofString, string_body]

theorem tab_renumber : (p.renumber i).tab = p.tab := by
  cases h : p.tab
  case none => simp [renumber, h]
  all_goals
    have hh := NSString.IsHeader.head? <| NSString.isHeader_header p.tab i
    have ⟨_, hh⟩ := List.head?_eq_some_iff.mp hh
    simp only [renumber, h]
    rw [h] at hh
    rw [hh, tab, firstAttributes]
    exact h

theorem renumber_ne_nil (h : p ≠ []) : p.renumber i ≠ [] := by
  rw [← string_ne_nil, string_renumber]
  exact NSString.renumber_ne_nil <| string_ne_nil.mpr h

theorem paragraphs_renumberAll (h : ps.flatten.splitBy continues = ps) :
    paragraphs (renumberAll ps).flatten = renumberAll ps := by
  refine Segments.splitBy_zipWith h renumber_ne_nil (fun hc => ?_) fun h₁ h₂ ha => ?_
  · rw [← isChain_string, string_renumber]
    exact NSString.isChain_renumber <| isChain_string.mpr hc
  · rw [← apart_string, string_renumber, string_renumber]
    exact NSString.apart_renumber (string_ne_nil.mpr h₁) (string_ne_nil.mpr h₂) <| apart_string.mpr ha

theorem mem_renumberAll (h : p ∈ renumberAll ps) : ∃ q ∈ ps, ∃ i, p = q.renumber i := by
  have ⟨_, _, he⟩ := List.getElem_of_mem h
  simp only [renumberAll, List.getElem_zipWith] at he
  exact ⟨_, List.getElem_mem _, _, he.symm⟩

theorem getElem?_renumberAll (h : ps[i]? = some p) :
    ∃ k, (Runs.ranks <| ps.map tab)[i]? = some k ∧ (renumberAll ps)[i]? = some (p.renumber k) := by
  have ⟨hi, hp⟩ := List.getElem?_eq_some_iff.mp h
  have hk : i < (Runs.ranks <| ps.map tab).length := by simpa using hi
  have hr := List.getElem?_eq_getElem hk
  exact ⟨_, hr, by rw [renumberAll, List.getElem?_zipWith, h, hr]⟩

end NSAttributedString
end RichText
