import SwiftProjectKit.Primitives.Positions
import SwiftProjectKit.Search.Theorems.Agree
import SwiftProjectKit.Strings.Model

namespace Strings

open RichText Search Segments Occurrences

section Encode

variable {c d : Char} {r s : NSString}

theorem encode_append_inj (h : NSString.encode c ++ r = NSString.encode d ++ s) : c = d ∧ r = s := by
  have hc : c.toNat < 0xD800 ∨ 0xDFFF < c.toNat ∧ c.toNat < 0x110000 := c.valid
  have hd : d.toNat < 0xD800 ∨ 0xDFFF < d.toNat ∧ d.toNat < 0x110000 := d.valid
  suffices c.toNat = d.toNat ∧ r = s from ⟨Char.toNat_inj.mp this.left, this.right⟩
  rw [NSString.encode, NSString.encode] at h
  split at h <;> split at h <;>
    simp only [List.cons_append, List.nil_append, List.cons.injEq, ← UInt16.toNat_inj, Nat.toUInt16_eq,
      UInt16.toNat_ofNat'] at h
  · exact ⟨by omega, h.right⟩
  · omega
  · omega
  · exact ⟨by omega, h.right.right⟩

theorem encode_flatMap_inj {cs ds : List Char} (h : cs.flatMap NSString.encode = ds.flatMap NSString.encode) :
    cs = ds := by
  induction cs generalizing ds
  case nil =>
    cases ds
    case nil  => rfl
    case cons => exact absurd (List.append_eq_nil_iff.mp h.symm).left encode_ne_nil
  case cons c cs hi =>
    cases ds
    case nil       => exact absurd (List.append_eq_nil_iff.mp h).left encode_ne_nil
    case cons d ds =>
      have ⟨hc, h⟩ := encode_append_inj h
      rw [hc, hi h]

theorem ofString_injective : Function.Injective NSString.ofString :=
  fun _ _ h => String.toList_injective <| encode_flatMap_inj h

theorem ofString_ofCharacters {cs : List String} :
    NSString.ofString (ofCharacters cs) = (cs.map NSString.ofString).flatten := by
  rw [NSString.ofString, ofCharacters, String.toList_ofList, List.flatMap_assoc, List.flatMap_def]
  rfl

theorem utf16Offset_append (cs ds : List Char) :
    utf16Offset (cs ++ ds) (cs.map Char.utf8Size).sum = some (cs.flatMap NSString.encode).length := by
  induction cs
  case nil => cases ds <;> rfl
  case cons c cs hi =>
    have hc := c.utf8Size_pos
    rw [List.map_cons, List.sum_cons, List.cons_append, utf16Offset, if_pos (Nat.le_add_right ..),
      Nat.add_sub_cancel_left, hi, Option.map_some, List.flatMap_cons, List.length_append, Nat.add_comm]
    omega

end Encode

section RoundTrip

variable [Characters] {string str : String} {i j : Nat}

open Characters

def clusters (string : String) : List NSString :=
  characters string |>.map .ofString

def text (string : String) (i j : Nat) : String :=
  ofCharacters <| characters string |>.take j |>.drop i

def byteOffset (string : String) (i : Nat) : Nat :=
  (characters string |>.take i |>.flatMap String.toList |>.map Char.utf8Size).sum

theorem byteOffset_mono (h : i ≤ j) : byteOffset string i ≤ byteOffset string j := by
  have ht : (characters string).take i = ((characters string).take j).take i := by
    rw [List.take_take, Nat.min_eq_left h]
  have ⟨cs, hs⟩ : (characters string).take i <+: (characters string).take j := ht ▸ List.take_prefix ..
  rw [byteOffset, byteOffset, ← hs, List.flatMap_append, List.map_append, List.sum_append]
  exact Nat.le_add_right ..

def boundaries (string : String) (h : i ≤ j) : IndexRange :=
  ⟨byteOffset string i, byteOffset string j, byteOffset_mono h⟩

-- Each code unit of a range is the only one of the character at the same position.
structure Aligned (string : String) (i j : Nat) : Prop where
  le_count : offset (clusters string) j ≤ count string
  single   : ∀ k, offset (clusters string) i + k < offset (clusters string) j →
    (clusters string)[offset (clusters string) i + k]? =
      (NSString.ofString string)[offset (clusters string) i + k]?.map ([·])

theorem clusters_length : (clusters string).length = count string :=
  List.length_map _

theorem nil_notMem_clusters : [] ∉ clusters string := by
  intro h
  have ⟨c, hc, hn⟩ := List.mem_map.mp h
  exact nonempty string <| ofString_eq_nil_iff.mp hn ▸ hc

theorem clusters_flatten : (clusters string).flatten = NSString.ofString string := by
  rw [clusters, ← ofString_ofCharacters, ofCharacters, flatMap, String.ofList_toList]

theorem ofString_text : NSString.ofString (text string i j) = (slice (clusters string) i j).flatten := by
  rw [text, ofString_ofCharacters, List.map_drop, List.map_take, List.drop_take]
  rfl

theorem utf16Offset_byteOffset (i : Nat) :
    utf16Offset string.toList (byteOffset string i) = some (offset (clusters string) i) := by
  have hs : string.toList = (characters string |>.take i |>.flatMap String.toList) ++
      (characters string |>.drop i |>.flatMap String.toList) := by
    rw [← List.flatMap_append, List.take_append_drop, flatMap]
  rw [hs, byteOffset, utf16Offset_append, offset, clusters, List.flatMap_assoc, ← List.map_take, List.flatMap_def]
  rfl

theorem rangeFrom_boundaries (h : i ≤ j) :
    rangeFrom string (boundaries string h) =
      some ⟨offset (clusters string) i, offset (clusters string) j - offset (clusters string) i⟩ := by
  simp [rangeFrom, boundaries, utf16Offset_byteOffset]

theorem text_eq_iff_aligned (h : i ≤ j) (hj : offset (clusters string) j ≤ count string) :
    text string (offset (clusters string) i) (offset (clusters string) j) = text string i j ↔
      Aligned string i j := by
  have hm : offset (clusters string) i ≤ offset (clusters string) j := offset_mono h
  have hc : (slice (clusters string) (offset (clusters string) i) (offset (clusters string) j)).length =
      offset (clusters string) j - offset (clusters string) i := slice_length <| clusters_length ▸ hj
  have hu := @offset_add_slice _ (clusters string) _ _ h
  rw [← ofString_injective.eq_iff, ofString_text, ofString_text,
    flatten_eq_iff_of_length (nil_notMem_slice nil_notMem_clusters) (by omega)]
  have hk {k} (hk : offset (clusters string) i + k < offset (clusters string) j) :
      (slice (clusters string) i j).flatten[k]? = (NSString.ofString string)[offset (clusters string) i + k]? := by
    rw [getElem?_slice_flatten h hk, clusters_flatten]
  constructor
  case mp =>
    intro hs
    refine ⟨hj, fun k hl => ?_⟩
    rw [← getElem?_slice hl, hs, List.getElem?_map, hk hl]
  case mpr =>
    intro ha
    refine List.ext_getElem? fun k => ?_
    by_cases hl : offset (clusters string) i + k < offset (clusters string) j
    case pos => rw [getElem?_slice hl, ha.single k hl, List.getElem?_map, hk hl]
    case neg => rw [List.getElem?_eq_none (by omega), List.getElem?_eq_none (by rw [List.length_map]; omega)]

theorem substring_eq_iff (h : i ≤ j) {r : NSRange} (hi : r.location = offset (clusters string) i)
    (hj : r.maxLength = offset (clusters string) j) :
    substring string r = some (some (text string i j)) ↔ Aligned string i j := by
  have hm : offset (clusters string) i ≤ offset (clusters string) j := offset_mono h
  rw [substring, hi, hj]
  split
  case isTrue hc => exact iff_of_false nofun fun ha => absurd ha.le_count <| by omega
  case isFalse hc =>
    rw [if_pos <| by omega, Int.toNat_natCast, Int.toNat_natCast, Option.some_inj, Option.some_inj]
    exact text_eq_iff_aligned h <| by omega

theorem text_eq_of_occurs {x : Nat} (h : i ≤ j) (ho : Occurs (NSString.ofString str) (NSString.ofString string) x)
    (hi : x = offset (clusters string) i) (hj : x + (NSString.ofString str).length = offset (clusters string) j) :
    text string i j = str := by
  have hl := @offset_add_slice _ (clusters string) _ _ h
  have ⟨post, hp⟩ := ho
  rw [hi, ← @clusters_flatten _ string, drop_offset h] at hp
  exact ofString_injective <| ofString_text.trans <| (List.append_inj hp <| by omega).left.symm

-- The range that is made of indices yields the text between them.
def RoundTrips (string : String) (h : i ≤ j) : Prop :=
  (rangeFrom string <| boundaries string h).bind (substring string) = some (some <| text string i j)

def OnBoundaries (r : NSRange) (string : String) (i j : Nat) : Prop :=
  r.location = offset (clusters string) i ∧ r.maxLength = offset (clusters string) j

instance {h : i ≤ j} : Decidable (RoundTrips string h) :=
  inferInstanceAs <| Decidable (_ = _)

instance {r : NSRange} : Decidable (OnBoundaries r string i j) :=
  inferInstanceAs <| Decidable (_ ∧ _)

theorem roundTrips_iff_aligned (h : i ≤ j) : RoundTrips string h ↔ Aligned string i j := by
  rw [RoundTrips, rangeFrom_boundaries, Option.bind_some]
  exact substring_eq_iff h rfl <| by simp [NSRange.maxLength]

theorem substring_found_iff {ys : List Nat} {r : NSRange} (h : i ≤ j)
    (ho : ∀ y ∈ ys, Occurs (NSString.ofString str) (NSString.ofString string) y)
    (hr : r ∈ spans (NSString.ofString str) ys) (hb : OnBoundaries r string i j) :
    substring string r = some (some str) ↔ Aligned string i j := by
  have ⟨y, hy, he⟩ := List.mem_map.mp hr
  subst he
  have ⟨hi, hj⟩ := hb
  have hj' : (y + (NSString.ofString str).length : Int) = offset (clusters string) j := hj
  have ht := text_eq_of_occurs h (ho y hy) (Int.ofNat_inj.mp hi) (by exact_mod_cast hj')
  rw [← substring_eq_iff h hi hj, ht]

-- Characters are counted where code units are meant, in ranges of indices as well as in ranges that are found.
theorem roundTrips_iff (string : String) (h : i ≤ j) :
    (RoundTrips string h ↔ Aligned string i j) ∧
    ∀ str, ∃ found,
      (∀ fuel, (NSString.ofString string).length < fuel → ranges fuel string str = some found) ∧
      ∀ r ∈ found, OnBoundaries r string i j → (substring string r = some (some str) ↔ Aligned string i j) := by
  refine ⟨roundTrips_iff_aligned h, fun str => ?_⟩
  have ⟨ys, hf, hg, hn⟩ := ranges_eq_spans string str
  refine ⟨_, hf, fun r hr hb => substring_found_iff h (fun y hy => ?_) hr hb⟩
  by_cases hw : NSString.ofString str = []
  case pos => exact absurd hy <| hn hw ▸ List.not_mem_nil
  case neg => exact hg hw |>.occurs y hy

end RoundTrip

theorem sample_roundTrips : @RoundTrips Search.Sample.characters 1 2 "aba" (by decide) := by
  have h₁ : @offset unichar (@clusters Search.Sample.characters "aba") 1 = 1 := by decide
  have h₂ : @offset unichar (@clusters Search.Sample.characters "aba") 2 = 2 := by decide
  have ha : @Aligned Search.Sample.characters "aba" 1 2 := by
    refine @Aligned.mk Search.Sample.characters "aba" 1 2 (by decide) fun k hk => ?_
    have hk : k = 0 := by omega
    subst hk
    decide
  exact (@roundTrips_iff Search.Sample.characters 1 2 "aba" <| by decide).left.mpr ha

theorem not_roundTrips :
    ¬@RoundTrips Search.Sample.characters 1 2 "😀a" (by decide) ∧
      ranges 4 "😀a" "a" = some [⟨2, 1⟩] ∧ @OnBoundaries Search.Sample.characters ⟨2, 1⟩ "😀a" 1 2 ∧
      @substring Search.Sample.characters "😀a" ⟨2, 1⟩ = some none := by
  decide

end Strings
