import SwiftProjectKit.RichText.Theorems.Ranges

namespace RichText

open Segments (offset slice Holds)

namespace NSRange

-- Ranges that are not empty and follow each other from one position to another one.
inductive Partition : List NSRange → Int → Int → Prop
  | nil {x} : Partition [] x x
  | cons {range ranges y} : 0 < range.length → Partition ranges range.maxLength y →
    Partition (range :: ranges) range.location y

def Contains (range : NSRange) (x : Int) : Prop :=
  range.location ≤ x ∧ x < range.maxLength

variable {α : Type*} {segs : List (List α)} {ranges : List NSRange} {range range' : NSRange} {x y z : Int}

namespace Partition

theorem le_location (h : Partition ranges x y) (hm : range ∈ ranges) : x ≤ range.location := by
  induction h
  case nil => contradiction
  case cons hl _ hi =>
    cases hm
    case head => exact Int.le_refl _
    case tail hm =>
      have hi := hi hm
      rw [maxLength] at hi
      omega

theorem exists_contains (h : Partition ranges x y) (hx : x ≤ z) (hy : z < y) :
    ∃ range ∈ ranges, range.Contains z := by
  induction h
  case nil => omega
  case cons range _ _ hl _ hi =>
    by_cases hz : z < range.maxLength
    case pos => exact ⟨range, List.mem_cons_self, hx, hz⟩
    case neg =>
      have ⟨range', hm, hc⟩ := hi (Int.le_of_not_gt hz) hy
      exact ⟨range', List.mem_cons_of_mem _ hm, hc⟩

theorem contains_unique (h : Partition ranges x y) (hm : range ∈ ranges) (hm' : range' ∈ ranges)
    (hc : range.Contains z) (hc' : range'.Contains z) : range = range' := by
  have ⟨_, _⟩ := hc
  have ⟨_, _⟩ := hc'
  induction h
  case nil => contradiction
  case cons _ hp hi =>
    cases hm
    case head =>
      cases hm'
      case head => rfl
      case tail hm' =>
        have hl := hp.le_location hm'
        omega
    case tail hm =>
      cases hm'
      case head =>
        have hl := hp.le_location hm
        omega
      case tail hm' => exact hi hm hm'

end Partition

theorem consecutive_append {segs' : List (List α)} : consecutive x (segs ++ segs') =
    consecutive x segs ++ consecutive (x + segs.flatten.length) segs' := by
  induction segs generalizing x
  case nil => simp [consecutive]
  case cons seg segs hi =>
    rw [List.cons_append, consecutive, hi, consecutive, List.cons_append, List.flatten_cons, List.length_append,
      Int.natCast_add, Int.add_assoc]

theorem partition_consecutive (hn : [] ∉ segs) :
    Partition (consecutive x segs) x (x + segs.flatten.length) := by
  induction segs generalizing x
  case nil => simpa [consecutive] using Partition.nil
  case cons seg segs hi =>
    obtain ⟨hs, hn⟩ := not_or.mp <| mt List.mem_cons.mpr hn
    have hl := List.length_pos_iff.mpr <| Ne.symm hs
    have hp := hi hn (x := x + seg.length)
    rw [Int.add_assoc, ← Int.natCast_add, ← List.length_append, ← List.flatten_cons] at hp
    exact @Partition.cons ⟨x, seg.length⟩ _ _ (Int.natCast_pos.mpr hl) hp

theorem consecutive_slice_isInfix {i j : Nat} (h : i ≤ j) :
    consecutive (offset segs i) (slice segs i j) <:+: consecutive 0 segs := by
  refine ⟨consecutive 0 (segs.take i),
    consecutive (offset segs i + (slice segs i j).flatten.length) (segs.drop j), ?_⟩
  have hs : segs.take i ++ slice segs i j ++ segs.drop j = segs := Segments.take_slice_drop h
  have hs := congrArg (consecutive 0) hs
  rwa [List.append_assoc, consecutive_append, consecutive_append, Int.zero_add, ← List.append_assoc] at hs

def Hosts (ranges : List NSRange) (count : Nat) (x : Int) (range : NSRange) : Prop :=
  range.Contains x ∨ x = count ∧ ranges.getLast? = some range

theorem hosts_consecutive {i x : Nat} (h : Holds segs i x) :
    ∃ range, (consecutive 0 segs)[i]? = some range ∧ Hosts (consecutive 0 segs) segs.flatten.length x range := by
  have hi := getElem?_consecutive_zero h.lt_length
  refine ⟨_, hi, ?_⟩
  by_cases hx : x < segs.flatten.length
  case pos =>
    have h₁ := h.offset_le
    have h₂ := h.lt_offset_succ hx
    refine .inl ⟨by simpa using h₁, ?_⟩
    rw [maxLength_sub]
    omega
  case neg =>
    have h₁ := h.le_offset
    have h₂ : offset segs (i + 1) ≤ segs.flatten.length := Segments.offset_le_length
    have hl := h.last (by omega)
    refine .inr ⟨by omega, ?_⟩
    rw [List.getLast?_eq_getElem?, consecutive_length, ← hl, Nat.add_sub_cancel, hi]

end NSRange

namespace NSAttributedString

variable {text : NSAttributedString} {range : NSRange} {ranges : List NSRange}

structure Block (all : List NSRange) (count : Nat) (range : NSRange) (ranges : List NSRange) : Prop where
  isInfix : ranges <:+: all
  first   : ∃ paragraph, ranges.head? = some paragraph ∧ NSRange.Hosts all count range.location paragraph
  last    : ∃ paragraph, ranges.getLast? = some paragraph ∧ NSRange.Hosts all count range.maxLength paragraph

theorem paragraphRanges_block (hn : text ≠ []) (h : range.IsWithin text.length) : ∃ ranges,
    text.paragraphRanges range = some ranges ∧
      Block (NSRange.consecutive 0 text.paragraphs) text.length range ranges := by
  have ⟨h₀, h₁, _⟩ : 0 ≤ range.location ∧ 0 ≤ range.length ∧ range.maxLength ≤ _ := h
  have hm : range.maxLength = range.location + range.length := rfl
  have ⟨f, l, hs⟩ := exists_spans hn h
  have ⟨first, hf, hfirst⟩ := NSRange.hosts_consecutive hs.first
  have ⟨last, hl, hlast⟩ := NSRange.hosts_consecutive hs.last
  rw [Int.toNat_of_nonneg (by omega), flatten_paragraphs] at hfirst hlast
  exact ⟨_, paragraphRanges_eq hs,
    NSRange.consecutive_slice_isInfix <| Nat.le_succ_of_le hs.le,
    ⟨first, head?_paragraphRanges (Nat.lt_succ_of_le hs.le) |>.trans hf, hfirst⟩,
    ⟨last, getLast?_paragraphRanges hs.le hs.last.lt_length |>.trans hl, hlast⟩⟩

theorem parapraghRange_of_contains {x : Int} (hm : range ∈ NSRange.consecutive 0 text.paragraphs)
    (hc : range.Contains x) : text.parapraghRange ⟨x, 0⟩ = some range := by
  have ⟨i, hi⟩ := List.mem_iff_getElem?.mp hm
  have ⟨hlt, _⟩ := List.getElem?_eq_some_iff.mp hi
  rw [NSRange.consecutive_length] at hlt
  cases Option.some.inj <| (NSRange.getElem?_consecutive_zero hlt).symm.trans hi
  have h₁ : (offset text.paragraphs i : Int) ≤ x := hc.left
  have h₂ := hc.right
  rw [NSRange.maxLength_sub] at h₂
  lift x to Nat using by omega
  have hl : offset text.paragraphs (i + 1) ≤ text.length := offset_paragraphs_le
  have hh : Holds text.paragraphs i x := ⟨hlt, by omega, by omega, fun _ => by omega⟩
  have hw : NSRange.IsWithin ⟨x, 0⟩ text.string.length := by
    simp only [NSRange.IsWithin, NSRange.maxLength, string_length]
    omega
  simp only [parapraghRange, NSString.getParagraphStart, if_pos hw, if_true, Int.toNat_natCast, paragraphEnd_eq hh,
    paragraphStart_eq hh (by omega), Option.bind_eq_bind, Option.bind_some, Option.pure_def]

-- The paragraphs of a text share its positions out among themselves, and those of a range are the ones from the
-- paragraph of its start to the paragraph of its end.
structure Decomposes (text : NSAttributedString) (all : List NSRange) : Prop where
  loop      : ∀ fuel, text.length ≤ fuel → allParapraghRange.loop text fuel 0 = some all
  partition : NSRange.Partition all 0 text.length
  unique    : ∀ x, 0 ≤ x → x < (text.length : Int) → ∃! paragraph, paragraph ∈ all ∧ paragraph.Contains x
  paragraph : ∀ paragraph ∈ all, ∀ x, paragraph.Contains x → text.parapraghRange ⟨x, 0⟩ = some paragraph
  block     : text ≠ [] → ∀ range : NSRange, range.IsWithin text.length → ∃ ranges,
    text.paragraphRanges range = some ranges ∧ Block all text.length range ranges

theorem allParapraghRange_decomposes (text : NSAttributedString) :
    ∃ all, text.allParapraghRange = some all ∧ text.Decomposes all := by
  have hp := NSRange.partition_consecutive (x := 0) (@nil_notMem_paragraphs text)
  rw [Int.zero_add, flatten_paragraphs] at hp
  refine ⟨_, text.allParapraghRange_eq, ?_⟩
  exact {
    loop      := fun _ h => loop_eq h
    partition := hp
    unique    := fun x hx hy => by
      have ⟨paragraph, hm, hc⟩ := hp.exists_contains hx hy
      exact ⟨paragraph, ⟨hm, hc⟩, fun _ ⟨hm', hc'⟩ => hp.contains_unique hm' hm hc' hc⟩
    paragraph := fun _ hm _ hc => parapraghRange_of_contains hm hc
    block     := fun hn _ h => paragraphRanges_block hn h
  }

end NSAttributedString
end RichText
