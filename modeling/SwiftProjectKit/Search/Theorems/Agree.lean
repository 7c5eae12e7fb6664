import SwiftProjectKit.Search.Theorems.Ranges

namespace Search

open RichText Occurrences

variable {s w : NSString} {x : Nat} {ys : List Nat} {string searchString : String}

theorem encode_ne_nil {c : Char} : NSString.encode c ≠ [] := by
  rw [NSString.encode]
  split <;> exact List.cons_ne_nil _ _

theorem ofString_eq_nil_iff : NSString.ofString string = [] ↔ string = "" := by
  simp only [NSString.ofString, List.flatMap_eq_nil_iff, encode_ne_nil, imp_false]
  rw [← String.toList_eq_nil_iff, List.eq_nil_iff_forall_not_mem]

theorem length_le_flatMap {α β : Type*} {f : α → List β} {as : List α} (h : ∀ a ∈ as, f a ≠ []) :
    as.length ≤ (as.flatMap f).length := by
  induction as
  case nil => exact le_rfl
  case cons a as hi =>
    have ⟨ha, has⟩ := List.forall_mem_cons.mp h
    have ha := List.length_pos_iff.mpr ha
    have hi := hi has
    rw [List.flatMap_cons, List.length_append, List.length_cons]
    omega

section

variable [Characters]

theorem eq_empty_of_count_eq_zero (h : count string = 0) : string = "" := by
  have hf := Characters.flatMap string
  rw [List.length_eq_zero_iff.mp h] at hf
  exact String.toList_eq_nil_iff.mp hf.symm

-- There are no more characters than code points, and no more code points than code units.
theorem count_le : count string ≤ (NSString.ofString string).length := by
  have hc : count string ≤ string.toList.length := by
    rw [← Characters.flatMap string]
    refine length_le_flatMap fun c hc h => Characters.nonempty string ?_
    rwa [← String.toList_eq_nil_iff.mp h]
  exact hc.trans <| length_le_flatMap fun _ _ => encode_ne_nil

end

section

variable [NSRegularExpression]

def literal (w s : NSString) (x : Nat) : Option Nat :=
  if Occurs w s x then some w.length else none

def MatchesLiterally (pattern : String) (s w : NSString) (limit x : Nat) (ys : List Nat) : Prop :=
  ∀ z, x ≤ z → z ≤ limit → (∀ y ∈ ys, z ≤ y ∨ y + w.length ≤ z) →
    NSRegularExpression.matchAt pattern s ⟨0, limit⟩ z = literal w s z

variable {pattern : String} {limit location skip remaining : Nat}

theorem matchesLiterally_succ (hx : x ≤ limit) (hl : ∀ y ∈ ys, x ≤ y) :
    MatchesLiterally pattern s w limit x ys ↔
    NSRegularExpression.matchAt pattern s ⟨0, limit⟩ x = literal w s x ∧
      MatchesLiterally pattern s w limit (x + 1) ys := by
  constructor
  case mp  => exact fun h => ⟨h x le_rfl hx fun y hy => .inl <| hl y hy, fun z hz => h z <| Nat.le_of_succ_le hz⟩
  case mpr =>
    intro ⟨hm, h⟩ z hz hzl hy
    rcases hz.eq_or_lt with rfl | hz
    · exact hm
    · exact h z hz hzl hy

theorem matchesLiterally_cons (hw : w ≠ []) (hx : x ≤ limit) (hl : ∀ y ∈ ys, x + w.length ≤ y) :
    MatchesLiterally pattern s w limit x (x :: ys) ↔
    NSRegularExpression.matchAt pattern s ⟨0, limit⟩ x = literal w s x ∧
      MatchesLiterally pattern s w limit (x + w.length) ys := by
  have hp := List.length_pos_iff.mpr hw
  constructor
  case mp  =>
    intro h
    refine ⟨h x le_rfl hx ?_, fun z hz hzl hy => h z (by omega) hzl ?_⟩
    · exact List.forall_mem_cons.mpr ⟨.inl le_rfl, fun y hy => .inl <| (Nat.le_add_right _ _).trans <| hl y hy⟩
    · exact List.forall_mem_cons.mpr ⟨.inr hz, hy⟩
  case mpr =>
    intro ⟨hm, h⟩ z hz hzl hy
    have ⟨hzx, hy⟩ := List.forall_mem_cons.mp hy
    rcases hz.eq_or_lt with rfl | hz
    · exact hm
    · exact h z (by omega) hzl hy

section

open enumerateMatches (search)

theorem search_none (h : NSRegularExpression.matchAt pattern s ⟨0, limit⟩ location = none) :
    search pattern s ⟨0, limit⟩ location 0 (remaining + 1) =
    search pattern s ⟨0, limit⟩ (location + 1) 0 remaining := by
  rw [search, h]

theorem search_some {length : Nat}
    (h : NSRegularExpression.matchAt pattern s ⟨0, limit⟩ location = some length) :
    search pattern s ⟨0, limit⟩ location 0 (remaining + 1) =
    ⟨location, length⟩ :: search pattern s ⟨0, limit⟩ (location + 1) (length - 1) remaining := by
  rw [search, h]

theorem le_of_mem_search {r : NSRange} (h : r ∈ search pattern s ⟨0, limit⟩ location skip remaining) :
    location ≤ r.location := by
  induction remaining generalizing location skip
  case zero => simp [search] at h
  case succ remaining hi =>
    have hi' {skip} (h : r ∈ search pattern s ⟨0, limit⟩ (location + 1) skip remaining) :
        location ≤ r.location := by
      have hi := hi h
      omega
    cases skip
    case succ => exact hi' h
    case zero =>
      cases hm : NSRegularExpression.matchAt pattern s ⟨0, limit⟩ location
      case none => exact hi' <| search_none hm ▸ h
      case some length =>
        rw [search_some hm] at h
        cases List.mem_cons.mp h
        case inl h => simp [h]
        case inr h => exact hi' h

theorem literal_of_search (hg : Greedy w s location ys)
    (h : search pattern s ⟨0, limit⟩ location 0 (remaining + 1) = spans w ys) :
    NSRegularExpression.matchAt pattern s ⟨0, limit⟩ location = literal w s location := by
  rw [literal]
  split
  case isTrue ho =>
    have ⟨zs, hy, _⟩ := hg.of_occurs ho
    rw [hy, spans, List.map_cons] at h
    cases hm : NSRegularExpression.matchAt pattern s ⟨0, limit⟩ location
    case none =>
      have hl := le_of_mem_search <| (search_none hm).symm.trans h ▸ List.mem_cons_self
      simp only at hl
      omega
    case some length =>
      have h := (List.cons_eq_cons.mp <| (search_some hm).symm.trans h).left
      simp only [NSRange.mk.injEq, true_and] at h
      exact congrArg some <| by omega
  case isFalse ho =>
    cases hm : NSRegularExpression.matchAt pattern s ⟨0, limit⟩ location
    case none => rfl
    case some length =>
      have h := (search_some hm).symm.trans h
      rcases ys with _ | ⟨y, ys⟩
      · contradiction
      · have hl := (hg.succ ho).le y List.mem_cons_self
        have h := (List.cons_eq_cons.mp h).left
        simp only [NSRange.mk.injEq] at h
        omega

theorem search_eq_spans_iff (hw : w ≠ []) (hr : location + remaining = limit + 1)
    (hg : Greedy w s (location + skip) ys) :
    search pattern s ⟨0, limit⟩ location skip remaining = spans w ys ↔
    (∀ y ∈ ys, y + w.length ≤ limit) ∧ MatchesLiterally pattern s w limit (location + skip) ys := by
  induction remaining generalizing location skip ys
  case zero =>
    have hm : MatchesLiterally pattern s w limit (location + skip) ys := fun z hz hl => by omega
    rw [search, and_iff_left hm, eq_comm, spans, List.map_eq_nil_iff]
    constructor
    case mp  => exact fun h y hy => absurd (h ▸ hy) List.not_mem_nil
    case mpr =>
      refine fun h => List.eq_nil_iff_forall_not_mem.mpr fun y hy => ?_
      have hl := h y hy
      have hg := hg.le y hy
      omega
  case succ remaining hi =>
    cases skip
    case succ skip =>
      have hs : location + 1 + skip = location + (skip + 1) := by omega
      have hi := @hi _ (location + 1) skip (by omega) (hs ▸ hg)
      rwa [hs] at hi
    case zero =>
      simp only [Nat.add_zero] at hg ⊢
      have hx : location ≤ limit := by omega
      by_cases hm : NSRegularExpression.matchAt pattern s ⟨0, limit⟩ location = literal w s location
      case neg =>
        refine iff_of_false (mt (literal_of_search hg) hm) fun h => hm ?_
        exact h.right location le_rfl hx fun y hy => .inl <| hg.le y hy
      case pos =>
        by_cases ho : Occurs w s location
        case neg =>
          have hg := hg.succ ho
          have hi := @hi _ (location + 1) 0 (by omega) hg
          rw [search_none (hm.trans <| if_neg ho), hi, Nat.add_zero,
            matchesLiterally_succ hx fun y hy => Nat.le_of_succ_le <| hg.le y hy]
          simp [hm]
        case pos =>
          obtain ⟨zs, hy, hg⟩ := hg.of_occurs ho
          have hm' := hm.trans <| if_pos ho
          have hl : location + w.length ≤ limit := by
            have h := NSRegularExpression.matchAt_le _ _ _ _ _ hm'
            simp only [NSRange.maxLength] at h
            omega
          have hp := List.length_pos_iff.mpr hw
          have hs : location + 1 + (w.length - 1) = location + w.length := by omega
          have hi := @hi _ (location + 1) (w.length - 1) (by omega) (hs ▸ hg)
          rw [hs] at hi
          rw [hy, search_some hm', spans, List.map_cons, List.cons_eq_cons, matchesLiterally_cons hw hx hg.le,
            List.forall_mem_cons]
          simp [hm, hl, ← hi, spans]

end

variable [Characters]

-- The expression matches the occurrences that are found by the literal search, and nothing else.
def Agrees (string searchString : String) : Prop :=
  let s := NSString.ofString string
  let w := NSString.ofString searchString
  ∀ ys, Greedy w s 0 ys →
    if NSRegularExpression.isValid searchString then
      (∀ y ∈ ys, y + w.length ≤ count string) ∧ MatchesLiterally searchString s w (count string) 0 ys
    else
      ys = []

theorem enumerateMatches_eq :
    enumerateMatches searchString (.ofString string) ⟨0, count string⟩ = some
      (enumerateMatches.search searchString (.ofString string) ⟨0, count string⟩ 0 0 (count string + 1)) := by
  have hc : count string ≤ (NSString.ofString string).length := count_le
  rw [enumerateMatches, if_pos]
  case hc =>
    simp only [NSRange.IsWithin, NSRange.maxLength]
    omega
  rfl

end

namespace Sample

@[reducible]
def characters : Characters where
  characters string := string.toList.map String.singleton
  flatMap string    := by simp [List.flatMap_map]
  nonempty string   := by simp [String.singleton_ne_empty]

@[reducible]
def regularExpression : NSRegularExpression where
  isValid _ := true
  matchAt pattern string range location :=
    let w := NSString.ofString pattern
    if Occurs w string location ∧ location + w.length ≤ range.maxLength then some w.length else none
  matchAt_le pattern string range location length h := by
    have ⟨⟨_, hl⟩, h⟩ := Option.ite_none_right_eq_some.mp h
    have := Option.some.inj h
    omega

end Sample

end Search
