import SwiftProjectKit.Primitives.Positions
import SwiftProjectKit.RichText.Edit
import SwiftProjectKit.RichText.Theorems.Header

namespace RichText

open Segments (offset slice Holds)

namespace NSRange

variable {α β : Type*} {pre post text seg : List α} {segs segs' news : List (List α)} {range : NSRange}
  {location : Int} {i j k : Nat}

theorem getElem?_consecutive :
    (consecutive location segs)[i]? = segs[i]?.map (⟨location + offset segs i, ·.length⟩) := by
  induction segs generalizing location i
  case nil => rfl
  case cons seg segs hi =>
    cases i
    case zero => simp [consecutive]
    case succ i =>
      simp only [consecutive, List.getElem?_cons_succ, hi, Segments.offset_cons_succ, Int.natCast_add,
        Int.add_assoc]

theorem getElem?_consecutive_zero (hi : i < segs.length) : (consecutive 0 segs)[i]? =
    some ⟨offset segs i, offset segs (i + 1) - offset segs i⟩ := by
  have hs := List.getElem?_eq_getElem hi
  rw [getElem?_consecutive, hs, Option.map_some, Segments.offset_succ hs]
  congr 2 <;> omega

theorem getElem?_consecutive_slice (h : i + k < j) :
    (consecutive (offset segs i) (slice segs i j))[k]? = (consecutive 0 segs)[i + k]? := by
  rw [getElem?_consecutive, getElem?_consecutive, Segments.getElem?_slice h,
    ← Segments.offset_slice (Nat.le_of_lt h), Int.natCast_add, Int.zero_add]

theorem findIdx?_consecutive (hn : [] ∉ segs) (hi : i < segs.length) :
    (consecutive 0 segs).findIdx? (some · == (consecutive 0 segs)[i]?) = some i := by
  have hi' : i < (consecutive 0 segs).length := by rwa [consecutive_length]
  refine List.findIdx?_eq_some_iff_getElem.mpr ⟨hi', by simp, fun j hj he => ?_⟩
  rw [← List.getElem?_eq_getElem, beq_iff_eq] at he
  have ho := Segments.offset_lt_of_lt hn hj <| Nat.le_of_lt hi
  have hj := Nat.lt_trans hj hi
  simp only [getElem?_consecutive, List.getElem?_eq_getElem hi, List.getElem?_eq_getElem hj,
    Option.map_some, Option.some.injEq, NSRange.mk.injEq] at he
  omega

theorem consecutive_map {g : List α → List β} (hg : ∀ seg, (g seg).length = seg.length) :
    consecutive location (segs.map g) = consecutive location segs := by
  induction segs generalizing location
  case nil => rfl
  case cons seg segs hi => rw [List.map_cons, consecutive, hg, hi, consecutive]

theorem mapM_consecutive {F : NSRange → Option β} {g : List α → β}
    (hF : ∀ range, ∀ seg ∈ segs, range.substring text = some seg → F range = some (g seg))
    (ht : text = pre ++ segs.flatten ++ post) :
    (consecutive pre.length segs).mapM F = some (segs.map g) := by
  induction segs generalizing pre
  case nil => rfl
  case cons seg segs hi =>
    have he : text = pre ++ seg ++ (segs.flatten ++ post) := by simp [ht]
    have hs : substring ⟨pre.length, seg.length⟩ text = some seg := he ▸ substring_append ..
    have hg := hF _ seg List.mem_cons_self hs
    have ht' : text = (pre ++ seg) ++ segs.flatten ++ post := by simp [ht]
    have hi := hi (fun range _ hm => hF range _ <| List.mem_cons_of_mem _ hm) ht'
    rw [List.length_append, Int.natCast_add] at hi
    simp only [consecutive, List.mapM_cons, hg, hi, Option.bind_eq_bind, Option.bind_some]
    rfl

theorem foldlM_replace_reverse (pre post : List α) (hl : news.length = segs.length) :
    ((consecutive pre.length segs).zip news).reverse.foldlM
        (fun text v => v.fst.replace text v.snd) (pre ++ segs.flatten ++ post) =
      some (pre ++ news.flatten ++ post) := by
  induction segs generalizing pre news
  case nil => simp_all [consecutive]
  case cons seg segs hi =>
    cases news
    case nil => contradiction
    case cons new news =>
      have hi := hi (pre ++ seg) <| Nat.succ.inj hl
      rw [List.length_append, Int.natCast_add] at hi
      have hr := replace_append pre seg (news.flatten ++ post) new
      simp only [consecutive, List.zip_cons_cons, List.reverse_cons, List.foldlM_append,
        List.flatten_cons, ← List.append_assoc] at hi hr ⊢
      simp only [hi, Option.bind_eq_bind, Option.bind_some, List.foldlM_cons, List.foldlM_nil, hr]
      rfl

structure Spans (segs : List (List α)) (range : NSRange) (f l : Nat) : Prop where
  isWithin : range.IsWithin segs.flatten.length
  first    : Holds segs f range.location.toNat
  last     : Holds segs l range.maxLength.toNat

variable {f l : Nat}

theorem exists_spans (hs : segs ≠ []) (h : range.IsWithin segs.flatten.length) :
    ∃ f l, Spans segs range f l := by
  have ⟨h₁, h₂, h₃⟩ : 0 ≤ range.location ∧ 0 ≤ range.length ∧ range.maxLength ≤ _ := h
  have hm : range.maxLength = range.location + range.length := rfl
  have ⟨f, hf⟩ := Holds.exists_of_le hs (x := range.location.toNat) (by omega)
  have ⟨l, hl⟩ := Holds.exists_of_le hs (x := range.maxLength.toNat) (by omega)
  exact ⟨f, l, h, hf, hl⟩

theorem Spans.le (h : Spans segs range f l) : f ≤ l := by
  have ⟨_, h₂, _⟩ : 0 ≤ range.location ∧ 0 ≤ range.length ∧ range.maxLength ≤ _ := h.isWithin
  have hm : range.maxLength = range.location + range.length := rfl
  exact h.first.le_of_le h.last (by omega)

theorem maxLength_sub (x y : Int) : maxLength ⟨x, y - x⟩ = y := by
  simp only [maxLength]
  omega

theorem spans_of_holds {x y : Nat} (h : x ≤ y) (hx : Holds segs f x) (hy : Holds segs l y) :
    Spans segs ⟨x, y - x⟩ f l where
  isWithin := by
    have h₁ := hy.le_offset
    have h₂ : offset segs (l + 1) ≤ segs.flatten.length := Segments.offset_le_length
    simp only [IsWithin, maxLength_sub]
    omega
  first := hx
  last  := by rwa [maxLength_sub]

theorem filter_consecutive {p : NSRange → Bool} (hp : ∀ (i : Nat) (seg : List α), segs[i]? = some seg →
      p ⟨location + offset segs i, seg.length⟩ = decide (f ≤ i ∧ i < l)) :
    (consecutive location segs).filter p =
      consecutive (location + offset segs f) (slice segs f l) := by
  induction segs generalizing location f l
  case nil => simp [consecutive, slice]
  case cons seg segs hi =>
    have h₀ := hp 0 seg rfl
    rw [Segments.offset_zero, Int.natCast_zero, Int.add_zero] at h₀
    have hi (f' l' : Nat) (hd : ∀ i, f ≤ i + 1 ∧ i + 1 < l ↔ f' ≤ i ∧ i < l') :
        (consecutive (location + seg.length) segs).filter p =
          consecutive (location + seg.length + offset segs f') (slice segs f' l') :=
      hi fun i seg' hs => by
        have h := hp (i + 1) seg' hs
        rwa [Segments.offset_cons_succ, Int.natCast_add, ← Int.add_assoc, decide_eq_decide.mpr (hd i)] at h
    rw [consecutive, List.filter_cons, h₀]
    cases f
    case zero =>
      cases l
      case zero   => simp [hi 0 0 (by omega), slice, consecutive]
      case succ l => simp [hi 0 l (by omega), slice, consecutive]
    case succ f =>
      have hs : slice (seg :: segs) (f + 1) l = slice segs f (l - 1) := by
        rw [slice, slice, List.drop_succ_cons, Nat.sub_sub, Nat.add_comm]
      rw [hi f (l - 1) (by omega), hs, Segments.offset_cons_succ, Int.natCast_add, Int.add_assoc]
      simp

end NSRange

namespace NSAttributedString

variable {text : NSAttributedString} {range : NSRange} {f l : Nat}

theorem offset_paragraphs_le {i : Nat} : offset text.paragraphs i ≤ text.length := by
  have h : offset text.paragraphs i ≤ text.paragraphs.flatten.length := Segments.offset_le_length
  rwa [flatten_paragraphs] at h

theorem exists_holds {x : Nat} (hn : text ≠ []) (hx : x ≤ text.length) : ∃ i, Holds text.paragraphs i x :=
  Holds.exists_of_le (paragraphs_ne_nil hn) <| by rwa [flatten_paragraphs]

theorem exists_spans (hn : text ≠ []) (h : range.IsWithin text.length) :
    ∃ f l, range.Spans text.paragraphs f l :=
  NSRange.exists_spans (paragraphs_ne_nil hn) <| by rwa [flatten_paragraphs]

theorem consecutive_paragraphs_string :
    NSRange.consecutive 0 text.string.paragraphs = NSRange.consecutive 0 text.paragraphs := by
  have hl : ∀ p : NSAttributedString, p.string.length = p.length := fun _ => string_length
  rw [paragraphs_string, NSRange.consecutive_map hl]

theorem attributedSubstring_paragraph {i : Nat}
    (h : (NSRange.consecutive 0 text.paragraphs)[i]? = some range) :
    text.attributedSubstring range = text.paragraphs[i]? := by
  rw [NSRange.getElem?_consecutive] at h
  have ⟨p, hp, hr⟩ := Option.map_eq_some_iff.mp h
  have hs := NSRange.substring_append (text.paragraphs.take i).flatten p
    (text.paragraphs.drop (i + 1)).flatten
  rw [Segments.flatten_eq hp, flatten_paragraphs] at hs
  rw [← hr, Int.zero_add, hp]
  exact hs

theorem paragraphRanges_eq (h : range.Spans text.paragraphs f l) : text.paragraphRanges range =
    some (NSRange.consecutive (offset text.paragraphs f) <| slice text.paragraphs f (l + 1)) := by
  have ⟨h₀, h₁, _⟩ : 0 ≤ range.location ∧ 0 ≤ range.length ∧ range.maxLength ≤ _ := h.isWithin
  have hm : range.maxLength = range.location + range.length := rfl
  rw [paragraphRanges, allParapraghRange_eq, Option.bind_eq_bind, Option.bind_some, Option.pure_def,
    ← Int.zero_add (offset text.paragraphs f : Int)]
  refine congrArg some <| NSRange.filter_consecutive fun i seg hi => ?_
  have ⟨hlt, _⟩ := List.getElem?_eq_some_iff.mp hi
  have hl : range.maxLength < offset text.paragraphs i ↔ l < i := by
    rw [← h.last.lt_offset_iff hlt]
    omega
  have hf : (offset text.paragraphs i + seg.length : Int) ≤ range.location ∧
      (offset text.paragraphs i + seg.length : Int) ≠ text.length ↔ i < f := by
    rw [← h.first.offset_succ_le_iff nil_notMem_paragraphs, Segments.offset_succ hi,
      flatten_paragraphs]
    omega
  simp only [NSRange.maxLength, Int.zero_add, Bool.and_eq_true, decide_eq_true_eq, bne_iff_ne, hf] at hl ⊢
  rw [if_congr hl rfl rfl]
  split_ifs
  case pos => exact (decide_eq_false <| by omega).symm
  case pos => exact (decide_eq_false <| by omega).symm
  case neg => exact (decide_eq_true <| by omega).symm

theorem string_eq {p : NSAttributedString} (h : text.paragraphs[f]? = some p) :
    text.string = string (text.paragraphs.take f).flatten ++ p.string ++
      string (text.paragraphs.drop (f + 1)).flatten := by
  rw [← string_append, ← string_append, Segments.flatten_eq h, flatten_paragraphs]

theorem paragraphEnd_eq {x : Nat} (h : Holds text.paragraphs f x) :
    text.string.paragraphEnd x = offset text.paragraphs (f + 1) := by
  by_cases he : x = offset text.paragraphs (f + 1)
  case pos =>
    have hl : x = text.string.length := by
      rw [he, h.last he, Segments.offset_length, flatten_paragraphs, string_length]
    rw [← he, hl, NSString.paragraphEnd_length]
  case neg =>
    have ⟨_, hs⟩ := h.exists_getElem?
    have ⟨_, _, hc, ha⟩ := Segments.splitBy_getElem? (splitBy_paragraphs text) hs
    have h₁ := h.offset_le
    have h₂ := h.le_offset
    have ho := Segments.offset_succ hs
    have hx : x = (string (text.paragraphs.take f).flatten).length +
        (x - offset text.paragraphs f) := by
      rw [string_length, ← offset]
      omega
    rw [string_eq hs, hx, NSString.paragraphEnd_append _ (isChain_string.mpr hc) (apart_string.mpr ha), ho]
    · rw [string_length, string_length, ← offset]
    · rw [string_length]
      omega

theorem paragraphStart_eq {x : Nat} (h : Holds text.paragraphs f x) (hx : x < text.length) :
    text.string.paragraphStart x = offset text.paragraphs f := by
  have ⟨_, hs⟩ := h.exists_getElem?
  have ⟨_, hp, hc, _⟩ := Segments.splitBy_getElem? (splitBy_paragraphs text) hs
  have h₁ := h.offset_le
  have h₂ := h.lt_offset_succ <| by rwa [flatten_paragraphs]
  have ho := Segments.offset_succ hs
  have hx : x = (string (text.paragraphs.take f).flatten).length + (x - offset text.paragraphs f) := by
    rw [string_length, ← offset]
    omega
  rw [string_eq hs, hx, NSString.paragraphStart_append (apart_string.mpr hp) (isChain_string.mpr hc)]
  · rw [string_length, ← offset]
  · rw [string_length]
    omega

theorem parapraghRange_eq {x : Nat} (h : Holds text.paragraphs f x) : ∃ range,
    text.parapraghRange ⟨x, 0⟩ = some range ∧ range.maxLength = offset text.paragraphs (f + 1) := by
  have hw : NSRange.IsWithin ⟨x, 0⟩ text.string.length := by
    have h₁ := h.le_offset
    have h₂ : offset text.paragraphs (f + 1) ≤ text.length := offset_paragraphs_le
    simp only [NSRange.IsWithin, NSRange.maxLength, string_length]
    omega
  have hr : text.parapraghRange ⟨x, 0⟩ = some ⟨text.string.paragraphStart x,
      offset text.paragraphs (f + 1) - text.string.paragraphStart x⟩ := by
    simp only [parapraghRange, NSString.getParagraphStart, if_pos hw, if_true, Int.toNat_natCast,
      paragraphEnd_eq h, Option.bind_eq_bind, Option.bind_some, Option.pure_def]
  refine ⟨_, hr, ?_⟩
  simp only [NSRange.maxLength]
  omega

theorem paragraphAttributedSubString_suffix {p : NSAttributedString}
    (h : text.paragraphAttributedSubString ⟨text.length, 0⟩ = some p) : p <:+ text := by
  have ⟨range, hr, hp⟩ := Option.bind_eq_some_iff.mp h
  have ⟨pre, post, ht, hrange⟩ := NSRange.substring_eq_some hp
  have hm : range.maxLength = text.length := by
    have ⟨(star, e), hg, he⟩ := Option.bind_eq_some_iff.mp hr
    have hw : NSRange.IsWithin ⟨text.length, 0⟩ text.string.length := by
      simp only [NSRange.IsWithin, NSRange.maxLength, string_length]
      omega
    have hend := @NSString.paragraphEnd_length text.string
    rw [string_length] at hend
    simp only [NSString.getParagraphStart, if_pos hw, if_true, Int.toNat_natCast, hend, Option.some.injEq,
      Prod.mk.injEq] at hg
    cases Option.some.inj he
    rw [NSRange.maxLength_sub, hg.right]
  have hpost : post = [] := by
    have hl := congrArg List.length ht
    simp only [hrange, NSRange.maxLength] at hm
    simp only [List.length_append] at hl
    exact List.eq_nil_of_length_eq_zero <| by omega
  exact ⟨pre, by simp [ht, hpost]⟩

theorem head?_paragraphRanges {segs : List NSAttributedString} (hf : f < l) :
    (NSRange.consecutive (offset segs f) <| slice segs f l).head? = (NSRange.consecutive 0 segs)[f]? := by
  rw [List.head?_eq_getElem?, NSRange.getElem?_consecutive_slice hf, Nat.add_zero]

theorem getLast?_paragraphRanges {segs : List NSAttributedString} (hf : f ≤ l) (hl : l < segs.length) :
    (NSRange.consecutive (offset segs f) <| slice segs f (l + 1)).getLast? =
      (NSRange.consecutive 0 segs)[l]? := by
  rw [List.getLast?_eq_getElem?, NSRange.consecutive_length, Segments.slice_length hl,
    NSRange.getElem?_consecutive_slice (by omega)]
  congr 1
  omega

variable {new : NSAttributedString}

def moved (segs segs' : List NSAttributedString) (i : Nat) (x : Int) : Int :=
  max (offset segs' (i + 1) - (offset segs (i + 1) - x)) (offset segs' i)

theorem newRangeFor_eq (h : range.Spans text.paragraphs f l)
    (hlt : l < new.paragraphs.length) :
    text.newRangeFor range new = some ⟨moved text.paragraphs new.paragraphs f range.location,
      moved text.paragraphs new.paragraphs l range.maxLength -
        moved text.paragraphs new.paragraphs f range.location⟩ := by
  have ⟨h₀, h₁, _⟩ : 0 ≤ range.location ∧ 0 ≤ range.length ∧ range.maxLength ≤ _ := h.isWithin
  have hm : range.maxLength = range.location + range.length := rfl
  have hle := h.le
  have hf := h.first.lt_length
  have hl := h.last.lt_length
  have ⟨firstRange, hfr, hfm⟩ := parapraghRange_eq h.first
  have ⟨lastRange, hlr, hlm⟩ := parapraghRange_eq h.last
  rw [Int.toNat_of_nonneg (by omega)] at hfr hlr
  have hff := NSRange.findIdx?_consecutive nil_notMem_paragraphs hf
  have hll := NSRange.findIdx?_consecutive nil_notMem_paragraphs hl
  rw [← head?_paragraphRanges (Nat.lt_succ_of_le hle)] at hff
  rw [← getLast?_paragraphRanges hle hl] at hll
  have hn : (NSRange.consecutive 0 text.paragraphs).length ≠ 0 := by
    rw [NSRange.consecutive_length]
    omega
  have hnf := NSRange.getElem?_consecutive_zero (Nat.lt_of_le_of_lt hle hlt)
  have hnl := NSRange.getElem?_consecutive_zero hlt
  simp only [newRangeFor, allParapraghRange_eq, paragraphRanges_eq h, hff, hll, hfr, hlr, hnf, hnl,
    if_neg hn, Option.bind_eq_bind, Option.bind_some, Option.getD_some, hfm, hlm, Option.pure_def,
    NSRange.maxLength_sub, moved]

theorem lt_of_newRangeFor {newRange : NSRange} (h : range.Spans text.paragraphs f l)
    (hr : text.newRangeFor range new = some newRange) : l < new.paragraphs.length := by
  have hl := h.last.lt_length
  have hll := NSRange.findIdx?_consecutive nil_notMem_paragraphs hl
  rw [← getLast?_paragraphRanges h.le hl] at hll
  have hn : (NSRange.consecutive 0 text.paragraphs).length ≠ 0 := by
    rw [NSRange.consecutive_length]
    omega
  simp only [newRangeFor, allParapraghRange_eq, paragraphRanges_eq h, hll, if_neg hn, Option.bind_eq_bind,
    Option.bind_some, Option.getD_some, Option.bind_eq_some_iff] at hr
  have ⟨_, _, _, _, _, _, _, hnl, _⟩ := hr
  have ⟨hlt, _⟩ := List.getElem?_eq_some_iff.mp hnl
  rwa [NSRange.consecutive_length] at hlt

theorem spans_moved (h : range.Spans text.paragraphs f l)
    (hlen : new.paragraphs.length = text.paragraphs.length)
    (hs : ∀ (i : Nat) (p q : NSAttributedString), f ≤ i ∧ i < l + 1 → text.paragraphs[i]? = some p →
      new.paragraphs[i]? = some q → p.length ≤ q.length) :
    NSRange.Spans new.paragraphs ⟨moved text.paragraphs new.paragraphs f range.location,
      moved text.paragraphs new.paragraphs l range.maxLength -
        moved text.paragraphs new.paragraphs f range.location⟩ f l := by
  have ⟨h₀, h₁, _⟩ : 0 ≤ range.location ∧ 0 ≤ range.length ∧ range.maxLength ≤ _ := h.isWithin
  have hm : range.maxLength = range.location + range.length := rfl
  have hle := h.le
  have hf := List.getElem?_eq_getElem h.first.lt_length
  have hl := List.getElem?_eq_getElem h.last.lt_length
  have hf' := List.getElem?_eq_getElem <| hlen ▸ h.first.lt_length
  have hl' := List.getElem?_eq_getElem <| hlen ▸ h.last.lt_length
  have hsf := hs f _ _ ⟨Nat.le_refl f, Nat.lt_succ_of_le hle⟩ hf hf'
  have hsl := hs l _ _ ⟨hle, Nat.lt_succ_self l⟩ hl hl'
  have hmf := h.first.move hlen hf hf' hsf
  have hml := h.last.move hlen hl hl' hsl
  have hxf := h.first.move_eq_max hf hf' hsf
  have hxl := h.last.move_eq_max hl hl' hsl
  rw [Int.toNat_of_nonneg (by omega)] at hxf hxl
  rw [moved, moved, ← hxf, ← hxl]
  refine NSRange.spans_of_holds ?_ hmf hml
  cases Nat.eq_or_lt_of_le hle
  case inl he => subst he; omega
  case inr hlt =>
    have ho : offset new.paragraphs (f + 1) ≤ offset new.paragraphs l := Segments.offset_mono hlt
    have h₂ := hml.offset_le
    omega

end NSAttributedString
end RichText
