import SwiftProjectKit.Primitives.Occurrences
import SwiftProjectKit.RichText.Theorems.Paragraphs
import SwiftProjectKit.Search.Model

namespace Search

open RichText Occurrences

variable {s w : NSString} {x y : Nat} {ys : List Nat} {fuel : Nat} {found : List NSRange}

def spans (w : NSString) (ys : List Nat) : List NSRange :=
  ys.map fun y : Nat => ⟨y, w.length⟩

inductive Finds (s w : NSString) (x : Nat) : Option NSRange → Prop
  | none : (∀ y, x ≤ y → ¬Occurs w s y) → Finds s w x none
  | some {y : Nat} : x ≤ y → Occurs w s y → (∀ z, x ≤ z → z < y → ¬Occurs w s z) →
    Finds s w x (some ⟨y, w.length⟩)

theorem range_finds (hw : w ≠ []) (hx : x ≤ s.length) :
    ∃ next, range s w ⟨x, s.length - x⟩ = some next ∧ Finds s w x next := by
  have hr : NSRange.IsWithin ⟨x, s.length - x⟩ s.length := by
    simp only [NSRange.IsWithin, NSRange.maxLength]
    omega
  have hc : ((s.length : Int) - x).toNat = s.length - x := by omega
  simp only [range, hr, List.isEmpty_iff, hw, decide_true, Bool.not_true, Bool.false_eq_true, if_false,
    Int.toNat_natCast, hc]
  refine ⟨_, rfl, ?_⟩
  cases h : (List.range' x (s.length - x + 1 - w.length)).find? fun i => w.isPrefixOf <| s.drop i
  case none =>
    refine .none fun y hy ho => ?_
    have hl := ho.add_length_le hw
    have h := List.find?_range'_eq_none.mp h y hy (by omega)
    simp [List.isPrefixOf_iff_prefix.mpr ho] at h
  case some y =>
    obtain ⟨ho, hm, hn⟩ := List.find?_range'_eq_some.mp h
    refine .some (List.mem_range'_1.mp hm).left (List.isPrefixOf_iff_prefix.mp ho) fun z hz hl ho => ?_
    have hn := hn z hz hl
    simp [List.isPrefixOf_iff_prefix.mpr ho] at hn

-- Each round of the loop goes on behind an occurrence, which the fuel accounts for.
theorem rangesFrom_greedy {next : Option NSRange} (hw : w ≠ []) (hx : x ≤ s.length)
    (hf : s.length - x < fuel) (hn : Finds s w x next) :
    ∃ ys, Greedy w s x ys ∧ rangesFrom s w fuel next found = some (found ++ spans w ys) := by
  induction fuel generalizing x next found
  case zero => contradiction
  case succ fuel hi =>
    cases hn
    case none hn => exact ⟨[], .done hn, by simp [rangesFrom, spans]⟩
    case some y hl ho hn =>
      have hy := ho.add_length_le hw
      have hp := List.length_pos_iff.mpr hw
      have ⟨next, hr, hs⟩ := range_finds hw hy
      have ⟨ys, hg, h⟩ := @hi _ (found ++ [⟨y, w.length⟩]) _ hy (by omega) hs
      refine ⟨y :: ys, .next hl ho hn hg, ?_⟩
      simp only [rangesFrom, ← Int.natCast_add, hr, Option.bind_some, h]
      simp [spans]

-- What is required of the ranges in which a word is found.
structure Exact (s w : NSString) (found : List NSRange) : Prop where
  greedy : w ≠ [] → ∃ ys, Greedy w s 0 ys ∧ found = spans w ys
  spells : ∀ r ∈ found, r.substring s = some w
  apart  : found.Pairwise fun r r' => r.maxLength ≤ r'.location
  gaps   : w ≠ [] → ∀ r : NSRange, r.substring s = some w →
    ∃ r' ∈ found, r'.location < r.maxLength ∧ r.location < r'.maxLength
  empty  : w = [] → found = []

theorem substring_of_occurs (h : Occurs w s x) (hw : w ≠ []) : NSRange.substring ⟨x, w.length⟩ s = some w := by
  have hl := h.add_length_le hw
  have ⟨post, h⟩ := h
  have hs : s = s.take x ++ w ++ post := by
    rw [List.append_assoc, h, List.take_append_drop]
  have hx : (s.take x).length = x := List.length_take_of_le <| Nat.le_of_add_right_le hl
  have hr := NSRange.substring_append (s.take x) w post
  rwa [← hs, hx] at hr

theorem occurs_of_substring {r : NSRange} (h : r.substring s = some w) :
    ∃ x : Nat, r = ⟨x, w.length⟩ ∧ Occurs w s x := by
  have ⟨pre, post, hs, hr⟩ := NSRange.substring_eq_some h
  exact ⟨pre.length, hr, post, by simp [hs]⟩

theorem exact_of_greedy (hw : w ≠ []) (hg : Greedy w s 0 ys) : Exact s w (spans w ys) := by
  constructor
  case greedy => exact fun _ => ⟨ys, hg, rfl⟩
  case spells => exact List.forall_mem_map.mpr fun y hy => substring_of_occurs (hg.occurs y hy) hw
  case apart =>
    refine List.pairwise_map.mpr <| hg.apart.imp fun h => ?_
    simp only [NSRange.maxLength]
    omega
  case gaps =>
    intro _ r hr
    obtain ⟨x, hr, ho⟩ := occurs_of_substring hr
    obtain ⟨y, hy, h₁, h₂⟩ := hg.overlaps x.zero_le ho
    refine ⟨_, List.mem_map_of_mem hy, ?_⟩
    simp only [hr, NSRange.maxLength]
    omega
  case empty => exact fun h => absurd h hw

theorem exact_nil : Exact s [] [] :=
  ⟨nofun, nofun, .nil, nofun, fun _ => rfl⟩

variable {string str : String}

theorem range_nil : range s [] ⟨0, s.length⟩ = some none := by
  have hr : NSRange.IsWithin ⟨0, s.length⟩ s.length := by
    simp only [NSRange.IsWithin, NSRange.maxLength]
    omega
  simp [range, hr]

theorem ranges_greedy (hw : NSString.ofString str ≠ []) (hf : (NSString.ofString string).length < fuel) :
    ∃ ys, Greedy (NSString.ofString str) (NSString.ofString string) 0 ys ∧
      ranges fuel string str = some (spans (.ofString str) ys) := by
  have ⟨next, hr, hs⟩ := range_finds hw (Nat.zero_le (NSString.ofString string).length)
  have ⟨ys, hg, h⟩ := @rangesFrom_greedy _ _ _ _ [] _ hw (Nat.zero_le _) hf hs
  refine ⟨ys, hg, ?_⟩
  simp only [Int.natCast_zero, Int.sub_zero] at hr
  rw [ranges, hr, Option.bind_some, h]
  rfl

theorem ranges_eq_spans (string str : String) : ∃ ys,
    (∀ fuel, (NSString.ofString string).length < fuel →
      ranges fuel string str = some (spans (.ofString str) ys)) ∧
    (NSString.ofString str ≠ [] → Greedy (NSString.ofString str) (NSString.ofString string) 0 ys) ∧
    (NSString.ofString str = [] → ys = []) := by
  by_cases hw : NSString.ofString str = []
  case pos =>
    refine ⟨[], fun fuel hf => ?_, fun h => absurd hw h, fun _ => rfl⟩
    cases fuel
    case zero => contradiction
    case succ => rw [ranges, hw, range_nil]; rfl
  case neg =>
    have ⟨ys, hg, _⟩ := ranges_greedy hw (Nat.lt_succ_self (NSString.ofString string).length)
    refine ⟨ys, fun fuel hf => ?_, fun _ => hg, fun h => absurd h hw⟩
    have ⟨ys', hg', h⟩ := ranges_greedy hw hf
    rw [h, hg.unique hg']

theorem ranges_exact (string str : String) : ∃ found,
    (∀ fuel, (NSString.ofString string).length < fuel → ranges fuel string str = some found) ∧
    Exact (.ofString string) (.ofString str) found := by
  have ⟨ys, hf, hg, hn⟩ := ranges_eq_spans string str
  refine ⟨_, hf, ?_⟩
  by_cases hw : NSString.ofString str = []
  case pos => exact hn hw ▸ hw ▸ exact_nil
  case neg => exact exact_of_greedy hw <| hg hw

end Search
