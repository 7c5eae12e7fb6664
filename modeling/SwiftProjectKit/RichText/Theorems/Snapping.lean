import Mathlib.Tactic.NormNum
import Mathlib.Tactic.Ring
import SwiftProjectKit.Primitives.Least
import SwiftProjectKit.RichText.PickerView

namespace RichText

open Least

variable {K : Type*} [Field K] [LinearOrder K]

namespace ScrollDirection

def along : ScrollDirection → CGPoint K → K
  | horizontal => CGPoint.x
  | vertical   => CGPoint.y

def across : ScrollDirection → CGPoint K → K
  | horizontal => CGPoint.y
  | vertical   => CGPoint.x

def extent : ScrollDirection → CGSize K → K
  | horizontal => CGSize.width
  | vertical   => CGSize.height

def visible (direction : ScrollDirection) (offset : CGPoint K) (size : CGSize K) : CGRect K :=
  match direction with
  | horizontal => ⟨⟨offset.x, 0⟩, size⟩
  | vertical   => ⟨⟨0, offset.y⟩, size⟩

end ScrollDirection

namespace RZPickerCollectionFlowLayout

variable {layout : RZPickerCollectionFlowLayout K} {offset : CGPoint K}

def items (layout : RZPickerCollectionFlowLayout K) (offset : CGPoint K) : List (UICollectionViewLayoutAttributes K) :=
  layout.layoutAttributesForElements (layout.scrollDirection.visible offset <| layout.collectionViewSize.getD ⟨0, 0⟩)
    |>.getD []

def delta (layout : RZPickerCollectionFlowLayout K) (offset : CGPoint K)
    (attrs : UICollectionViewLayoutAttributes K) : K :=
  layout.scrollDirection.along attrs.center - (layout.scrollDirection.along offset +
    layout.scrollDirection.extent (layout.collectionViewSize.getD ⟨0, 0⟩) / (2 : Nat))

-- At the target, an item is in the center of the view to which no other one was nearer.
structure Snaps (layout : RZPickerCollectionFlowLayout K) (offset : CGPoint K) : Prop where
  across : layout.scrollDirection.across (layout.targetContentOffset offset) = layout.scrollDirection.across offset
  stays  : layout.items offset = [] → layout.targetContentOffset offset = offset
  center : layout.items offset ≠ [] → ∃ attrs ∈ layout.items offset,
    layout.delta (layout.targetContentOffset offset) attrs = 0 ∧
    ∀ attrs' ∈ layout.items offset, |layout.delta offset attrs| ≤ |layout.delta offset attrs'|

def minDelta (layout : RZPickerCollectionFlowLayout K) (offset : CGPoint K) : K :=
  least (|·|) MAXFLOAT <| (layout.items offset).map <| layout.delta offset

theorem targetContentOffset_along : layout.scrollDirection.along (layout.targetContentOffset offset) =
    layout.scrollDirection.along offset + layout.minDelta offset := by
  simp only [minDelta, least, List.foldl_map, items, targetContentOffset]
  cases h : layout.scrollDirection <;> simp only [delta, h] <;> rfl

theorem targetContentOffset_across : layout.scrollDirection.across (layout.targetContentOffset offset) =
    layout.scrollDirection.across offset := by
  rw [targetContentOffset]
  cases layout.scrollDirection <;> rfl

variable [IsStrictOrderedRing K]

theorem maxfloat_pos : (0 : K) < MAXFLOAT := by
  norm_num [MAXFLOAT]

theorem snaps_of_ne_nil (hn : layout.items offset ≠ [])
    (h : ∀ attrs ∈ layout.items offset, |layout.delta offset attrs| < MAXFLOAT) : layout.Snaps offset where
  across := targetContentOffset_across
  stays  := fun he => absurd he hn
  center := fun _ => by
    have hm : layout.minDelta offset ∈ (layout.items offset).map (layout.delta offset) := by
      refine least_mem (mt List.map_eq_nil_iff.mp hn) fun d hd => ?_
      obtain ⟨attrs, ha, hd⟩ := List.mem_map.mp hd
      exact hd ▸ (h attrs ha).le.trans (le_abs_self _)
    obtain ⟨attrs, ha, hd⟩ := List.mem_map.mp hm
    refine ⟨attrs, ha, ?_, fun attrs' ha' => ?_⟩
    case refine_1 =>
      rw [delta] at hd ⊢
      rw [targetContentOffset_along, ← hd]
      ring
    case refine_2 =>
      rw [hd]
      exact least_le <| List.mem_map_of_mem ha'

-- The start value of the search is added to the offset if there is nothing to search.
theorem not_snaps_of_nil (hn : layout.items offset = []) : ¬layout.Snaps offset := by
  intro h
  have ha : layout.scrollDirection.along offset + MAXFLOAT = layout.scrollDirection.along offset := by
    have ht := @targetContentOffset_along _ _ _ layout offset
    rwa [h.stays hn, minDelta, hn, List.map_nil, eq_comm] at ht
  exact maxfloat_pos.ne' <| add_eq_left.mp ha

theorem snaps_iff (h : ∀ attrs ∈ layout.items offset, |layout.delta offset attrs| < MAXFLOAT) :
    layout.Snaps offset ↔ layout.items offset ≠ [] :=
  ⟨fun hs hn => not_snaps_of_nil hn hs, (snaps_of_ne_nil · h)⟩

def sample (xs : List Rat) : RZPickerCollectionFlowLayout Rat where
  scrollDirection                  := .horizontal
  collectionViewSize               := some ⟨100, 40⟩
  layoutAttributesForElements rect := some <|
    xs.filter (fun x => rect.origin.x ≤ x ∧ x ≤ rect.origin.x + rect.size.width) |>.map fun x => ⟨⟨x, 20⟩⟩

theorem sample_snaps : (sample [0, 45, 90]).Snaps ⟨7, 0⟩ :=
  snaps_iff (by decide +kernel) |>.mpr <| by decide +kernel

theorem not_snaps : (sample []).items ⟨7, 0⟩ = [] ∧ ¬(sample []).Snaps ⟨7, 0⟩ :=
  ⟨rfl, not_snaps_of_nil rfl⟩

end RZPickerCollectionFlowLayout
end RichText
