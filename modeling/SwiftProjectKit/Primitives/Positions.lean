import SwiftProjectKit.Primitives.Segments

-- Positions in a list that is made up of segments.
namespace Segments

variable {α : Type*} {seg : List α} {segs segs' : List (List α)} {i j k x y : Nat}

-- Where a segment starts. The offset that follows the last segment is the length of the whole list.
def offset (segs : List (List α)) (i : Nat) : Nat :=
  (segs.take i).flatten.length

-- The segment that a position lies in. The end of the list lies in the last segment.
structure Holds (segs : List (List α)) (i x : Nat) : Prop where
  lt_length : i < segs.length
  offset_le : offset segs i ≤ x
  le_offset : x ≤ offset segs (i + 1)
  last      : x = offset segs (i + 1) → i + 1 = segs.length

def slice (segs : List (List α)) (i j : Nat) : List (List α) :=
  (segs.drop i).take (j - i)

def mapSlice (g : List α → List α) (segs : List (List α)) (i j : Nat) : List (List α) :=
  segs.take i ++ (slice segs i j).map g ++ segs.drop j

@[simp]
theorem offset_zero : offset segs 0 = 0 :=
  rfl

theorem offset_cons_succ : offset (seg :: segs) (i + 1) = seg.length + offset segs i := by
  simp [offset]

theorem offset_length (segs : List (List α)) : offset segs segs.length = segs.flatten.length := by
  rw [offset, List.take_length]

theorem offset_succ (h : segs[i]? = some seg) : offset segs (i + 1) = offset segs i + seg.length := by
  rw [offset, List.take_add_one, h, Option.toList_some, List.flatten_append, List.length_append, offset]
  simp

theorem flatten_eq (h : segs[i]? = some seg) :
    (segs.take i).flatten ++ seg ++ (segs.drop (i + 1)).flatten = segs.flatten := by
  have ⟨hi, hs⟩ := List.getElem?_eq_some_iff.mp h
  rw [List.append_assoc, ← List.flatten_cons, ← hs, ← List.drop_eq_getElem_cons, ← List.flatten_append,
    List.take_append_drop]

theorem getElem?_offset (h : segs[i]? = some seg) (hn : seg ≠ []) :
    segs.flatten[offset segs i]? = seg.head? := by
  rw [← flatten_eq h, List.append_assoc, offset, List.getElem?_append_right le_rfl, Nat.sub_self,
    List.getElem?_append_left (List.length_pos_iff.mpr hn), List.head?_eq_getElem?]

theorem offset_mono (h : i ≤ j) : offset segs i ≤ offset segs j := by
  have ht : segs.take i = (segs.take j).take i := by rw [List.take_take, Nat.min_eq_left h]
  have hs : (segs.take i).Sublist (segs.take j) := ht ▸ List.take_sublist _ _
  exact hs.flatten.length_le

theorem offset_le_length : offset segs i ≤ segs.flatten.length := by
  rw [offset]
  exact (List.take_sublist i segs).flatten.length_le

theorem offset_lt (h : [] ∉ segs) (hi : i < segs.length) : offset segs i < offset segs (i + 1) := by
  have hs := List.getElem?_eq_getElem hi
  have hn : segs[i] ≠ [] := fun hn => h <| hn ▸ List.getElem_mem hi
  rw [offset_succ hs]
  exact Nat.lt_add_of_pos_right <| List.length_pos_iff.mpr hn

theorem offset_lt_of_lt (h : [] ∉ segs) (hij : i < j) (hj : j ≤ segs.length) :
    offset segs i < offset segs j :=
  Nat.lt_of_lt_of_le (offset_lt h <| Nat.lt_of_lt_of_le hij hj) <| offset_mono hij

theorem getElem?_slice (h : i + k < j) : (slice segs i j)[k]? = segs[i + k]? := by
  rw [slice, List.getElem?_take_of_lt (by omega), List.getElem?_drop]

theorem offset_slice (h : i + k ≤ j) :
    offset segs i + offset (slice segs i j) k = offset segs (i + k) := by
  rw [offset, offset, offset, slice, List.take_take, Nat.min_eq_left (by omega), List.take_add,
    List.flatten_append, List.length_append]

theorem offset_add_slice (h : i ≤ j) :
    offset segs i + (slice segs i j).flatten.length = offset segs j := by
  rw [offset, slice, ← List.length_append, ← List.flatten_append, ← List.take_add, Nat.add_sub_cancel' h,
    offset]

theorem slice_eq_cons (hs : segs[i]? = some seg) (h : i < j) :
    slice segs i j = seg :: slice segs (i + 1) j := by
  have ⟨hi, he⟩ := List.getElem?_eq_some_iff.mp hs
  have hj : j - i = j - (i + 1) + 1 := by omega
  rw [slice, List.drop_eq_getElem_cons hi, he, hj, List.take_succ_cons, slice]

theorem slice_length (h : j ≤ segs.length) : (slice segs i j).length = j - i := by
  rw [slice, List.length_take, List.length_drop]
  omega

theorem nil_notMem_slice (h : [] ∉ segs) : [] ∉ slice segs i j :=
  fun hs => h <| List.mem_of_mem_drop <| List.mem_of_mem_take hs

theorem mem_slice (hj : j ≤ segs.length) (h : seg ∈ slice segs i j) :
    ∃ k, i ≤ k ∧ k < j ∧ segs[k]? = some seg := by
  have ⟨k, hk⟩ := List.getElem?_of_mem h
  have ⟨hl, _⟩ := List.getElem?_eq_some_iff.mp hk
  rw [slice_length hj] at hl
  rw [getElem?_slice (by omega)] at hk
  exact ⟨i + k, by omega, by omega, hk⟩

theorem mem_slice_of_getElem? (hk : i ≤ k ∧ k < j) (h : segs[k]? = some seg) : seg ∈ slice segs i j := by
  have hs : (slice segs i j)[k - i]? = segs[i + (k - i)]? := getElem?_slice (by omega)
  rw [Nat.add_sub_cancel' hk.left, h] at hs
  exact List.mem_of_getElem? hs

theorem take_slice_drop (hi : i ≤ j) : segs.take i ++ slice segs i j ++ segs.drop j = segs := by
  have hd : (segs.drop i).drop (j - i) = segs.drop j := by
    rw [List.drop_drop, Nat.add_sub_cancel' hi]
  rw [slice, List.append_assoc, ← hd, List.take_append_drop, List.take_append_drop]

theorem flatten_slice (hij : i ≤ j) :
    segs.flatten = (segs.take i).flatten ++ (slice segs i j).flatten ++ (segs.drop j).flatten := by
  rw [← List.flatten_append, ← List.flatten_append, take_slice_drop hij]

theorem drop_offset (hij : i ≤ j) :
    segs.flatten.drop (offset segs i) = (slice segs i j).flatten ++ (segs.drop j).flatten := by
  rw [flatten_slice hij, List.append_assoc]
  exact List.drop_left ..

theorem getElem?_slice_flatten (hij : i ≤ j) (hx : offset segs i + x < offset segs j) :
    (slice segs i j).flatten[x]? = segs.flatten[offset segs i + x]? := by
  have hl := @offset_add_slice _ segs _ _ hij
  rw [← List.getElem?_drop, drop_offset hij, List.getElem?_append_left (by omega)]

theorem flatten_eq_iff_of_length {l : List α} (h : [] ∉ segs) (hl : segs.length = l.length) :
    segs.flatten = l ↔ segs = l.map ([·]) := by
  constructor
  case mp =>
    intro hf
    subst hf
    induction segs
    case nil => rfl
    case cons seg segs hi =>
      have ⟨hs, h⟩ := not_or.mp <| mt List.mem_cons.mpr h
      have hp := List.length_pos_iff.mpr <| Ne.symm hs
      have hn := length_le_length_flatten h
      rw [List.flatten_cons, List.length_cons, List.length_append] at hl
      have ⟨a, ha⟩ := List.length_eq_one_iff.mp (by omega : seg.length = 1)
      rw [ha, List.flatten_cons, List.map_append, ← hi h (by omega)]
      rfl
  case mpr => exact fun hs => hs ▸ List.flatMap_def ▸ List.flatMap_singleton' l

theorem mapSlice_length {g : List α → List α} (hi : i ≤ j) :
    (mapSlice g segs i j).length = segs.length := by
  rw [mapSlice, List.length_append, List.length_append, List.length_map, ← List.length_append,
    ← List.length_append, take_slice_drop hi]

theorem getElem?_mapSlice {g : List α → List α} (hi : i ≤ j) (hj : j ≤ segs.length) :
    (mapSlice g segs i j)[k]? = if i ≤ k ∧ k < j then segs[k]?.map g else segs[k]? := by
  have ht : (segs.take i).length = i := List.length_take_of_le <| Nat.le_trans hi hj
  have hs := slice_length (i := i) hj
  by_cases hk : k < i
  case pos =>
    rw [mapSlice, List.append_assoc, List.getElem?_append_left (by omega), if_neg (by omega),
      List.getElem?_take_of_lt hk]
  case neg =>
    rw [mapSlice, List.append_assoc, List.getElem?_append_right (by omega), ht]
    by_cases hk' : k < j
    case pos =>
      rw [List.getElem?_append_left (by rw [List.length_map]; omega), List.getElem?_map,
        getElem?_slice (by omega), if_pos (by omega), Nat.add_sub_cancel' (by omega)]
    case neg =>
      rw [List.getElem?_append_right (by rw [List.length_map]; omega), List.length_map, hs,
        List.getElem?_drop, if_neg (by omega)]
      congr 1
      omega

theorem splitBy_drop {r : α → α → Bool} (h : segs.flatten.splitBy r = segs) (i : Nat) :
    (segs.drop i).flatten.splitBy r = segs.drop i := by
  induction i generalizing segs
  case zero => exact h
  case succ i hi =>
    cases segs
    case nil => rfl
    case cons seg segs =>
      have ⟨_, _, _, _, h⟩ := splitBy_eq_cons h
      exact hi h

theorem apart_take_drop {r : α → α → Bool} (h : segs.flatten.splitBy r = segs) (i : Nat) :
    Apart r (segs.take i).flatten (segs.drop i).flatten := by
  induction i generalizing segs
  case zero => exact apart_nil_left
  case succ i hi =>
    cases segs
    case nil => exact apart_nil_left
    case cons seg segs =>
      have ⟨_, _, _, ha, h⟩ := splitBy_eq_cons h
      rw [List.take_succ_cons, List.drop_succ_cons, List.flatten_cons]
      by_cases hn : (segs.take i).flatten = []
      case neg => exact apart_append_left hn |>.mpr <| hi h
      case pos =>
        rw [← List.take_append_drop i segs, List.flatten_append, hn, List.nil_append] at ha
        rwa [hn, List.append_nil]

theorem apart_take {r : α → α → Bool} {l : List α} (h : segs[i]? = some seg) (hn : seg ≠ []) :
    Apart r (segs.take (i + 1)).flatten l ↔ Apart r seg l := by
  rw [List.take_add_one, h, Option.toList_some, List.flatten_append, List.flatten_singleton,
    apart_append_left hn]

theorem splitBy_take {r : α → α → Bool} (h : segs.flatten.splitBy r = segs) (i : Nat) :
    (segs.take i).flatten.splitBy r = segs.take i := by
  have ha := List.splitBy_append <| apart_take_drop h i
  rw [← List.flatten_append, List.take_append_drop, h, splitBy_drop h] at ha
  nth_rewrite 1 [← List.take_append_drop i segs] at ha
  exact List.append_cancel_right ha |>.symm

theorem splitBy_getElem? {r : α → α → Bool} (h : segs.flatten.splitBy r = segs) (hs : segs[i]? = some seg) :
    seg ≠ [] ∧ Apart r (segs.take i).flatten seg ∧ (seg.IsChain fun a b => r a b) ∧
      Apart r seg (segs.drop (i + 1)).flatten := by
  have ⟨hi, he⟩ := List.getElem?_eq_some_iff.mp hs
  have hd := splitBy_drop h i
  have ha := apart_take_drop h i
  rw [List.drop_eq_getElem_cons hi, he] at hd ha
  have ⟨_, hn, hc, hp, _⟩ := splitBy_eq_cons hd
  exact ⟨hn, apart_append_right hn |>.mp ha, hc, hp⟩

namespace Holds

theorem exists_of_le (hn : segs ≠ []) (hx : x ≤ segs.flatten.length) : ∃ i, Holds segs i x := by
  induction segs generalizing x
  case nil => contradiction
  case cons seg segs hi =>
    by_cases hs : x < seg.length ∨ segs = []
    case pos =>
      refine ⟨0, by simp, Nat.zero_le _, ?_, fun he => ?_⟩
      all_goals
        cases hs
        case inl hs => simp [offset_cons_succ] at *; omega
        case inr hs => simp_all [offset_cons_succ]
    case neg =>
      have ⟨hl, hs⟩ := not_or.mp hs
      rw [List.flatten_cons, List.length_append] at hx
      have ⟨i, hi⟩ := hi hs (x := x - seg.length) (by omega)
      have h₁ := hi.offset_le
      have h₂ := hi.le_offset
      have h₃ := hi.last
      refine ⟨i + 1, by simpa using hi.lt_length, ?_, ?_, fun he => ?_⟩
      · rw [offset_cons_succ]; omega
      · rw [offset_cons_succ]; omega
      · rw [offset_cons_succ] at he
        exact congrArg (· + 1) <| h₃ (by omega)

theorem exists_getElem? (h : Holds segs i x) : ∃ seg, segs[i]? = some seg :=
  ⟨_, List.getElem?_eq_getElem h.lt_length⟩

theorem le_of_le (hx : Holds segs i x) (hy : Holds segs j y) (h : x ≤ y) : i ≤ j := by
  by_contra hn
  have hm : offset segs (j + 1) ≤ offset segs i := offset_mono <| Nat.lt_of_not_le hn
  have h₁ := hx.offset_le
  have h₂ := hy.le_offset
  have h₃ := hy.last (by omega)
  have h₄ := hx.lt_length
  omega

theorem lt_offset_iff (h : Holds segs i x) (hj : j < segs.length) : x < offset segs j ↔ i < j := by
  have h₁ := h.offset_le
  have h₂ := h.le_offset
  have h₃ := h.last
  constructor
  case mp =>
    intro hlt
    by_contra hn
    have hm : offset segs j ≤ offset segs i := offset_mono <| Nat.le_of_not_lt hn
    omega
  case mpr =>
    intro hlt
    have hm : offset segs (i + 1) ≤ offset segs j := offset_mono hlt
    omega

theorem lt_offset_succ (h : Holds segs i x) (hx : x < segs.flatten.length) : x < offset segs (i + 1) := by
  refine Nat.lt_of_le_of_ne h.le_offset fun he => ?_
  rw [he, h.last he, offset_length] at hx
  exact Nat.lt_irrefl _ hx

theorem offset_succ_le_iff (h : Holds segs i x) (hn : [] ∉ segs) :
    offset segs (j + 1) ≤ x ∧ offset segs (j + 1) ≠ segs.flatten.length ↔ j < i := by
  have h₁ := h.offset_le
  have h₂ := h.le_offset
  have hl : offset segs (i + 1) ≤ segs.flatten.length := offset_le_length
  constructor
  case mp =>
    intro ⟨hle, hne⟩
    by_contra hlt
    have hm : offset segs (i + 1) ≤ offset segs (j + 1) := offset_mono <| by omega
    have hlast := h.last (by omega)
    have he := offset_length segs
    rw [← hlast] at he
    omega
  case mpr =>
    intro hlt
    have hm : offset segs (j + 1) ≤ offset segs i := offset_mono hlt
    have ho := offset_lt hn h.lt_length
    omega

theorem unique (hi : Holds segs i x) (hj : Holds segs j x) : i = j :=
  Nat.le_antisymm (hi.le_of_le hj <| Nat.le_refl x) (hj.le_of_le hi <| Nat.le_refl x)

variable {seg seg' : List α} (hl : segs'.length = segs.length) (hs : segs[i]? = some seg)
  (hs' : segs'[i]? = some seg') (hle : seg.length ≤ seg'.length)
include hs hs' hle

include hl in
theorem move (h : Holds segs i x) :
    Holds segs' i (offset segs' (i + 1) - (offset segs (i + 1) - x)) := by
  have ⟨h₁, h₂, h₃, h₄⟩ := h
  have ho  := offset_succ hs
  have ho' := offset_succ hs'
  exact ⟨by omega, by omega, by omega, fun he => by omega⟩

theorem move_eq_max (h : Holds segs i x) :
    ((offset segs' (i + 1) - (offset segs (i + 1) - x) : Nat) : Int) =
      max (offset segs' (i + 1) - (offset segs (i + 1) - x : Int)) (offset segs' i) := by
  have h₁ := h.offset_le
  have h₂ := h.le_offset
  have ho  := offset_succ hs
  have ho' := offset_succ hs'
  omega

end Holds

variable {β : Type*} {f : List α → List β}

theorem offset_map (hf : ∀ seg, (f seg).length = seg.length) : offset (segs.map f) i = offset segs i := by
  induction segs generalizing i
  case nil => simp [offset]
  case cons seg segs hi =>
    cases i
    case zero => rfl
    case succ i => rw [List.map_cons, offset_cons_succ, offset_cons_succ, hf, hi]

theorem holds_map (hf : ∀ seg, (f seg).length = seg.length) : Holds (segs.map f) i x ↔ Holds segs i x := by
  have ho : ∀ i, offset (segs.map f) i = offset segs i := fun _ => offset_map hf
  constructor
  case mp =>
    intro ⟨h₁, h₂, h₃, h₄⟩
    simp only [List.length_map, ho] at h₁ h₂ h₃ h₄
    exact ⟨h₁, h₂, h₃, h₄⟩
  case mpr =>
    intro ⟨h₁, h₂, h₃, h₄⟩
    simp only [← ho] at h₂ h₃ h₄
    rw [← List.length_map f] at h₁ h₄
    exact ⟨h₁, h₂, h₃, h₄⟩

end Segments
