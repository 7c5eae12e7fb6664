import SwiftProjectKit.Primitives.Segments
import SwiftProjectKit.RichText.Tabs

namespace RichText

open Segments (Apart)

namespace NSString

def paragraphs (string : NSString) : List NSString :=
  string.splitBy continues

variable {string l m pre seg post : NSString} {c d : unichar} {i : Nat}

theorem isParagraphStart_append (hl : l.getLast? = some c) (hm : m.head? = some d) :
    isParagraphStart (l ++ m) l.length = !continues c d := by
  have ⟨l', hl⟩ := List.getLast?_eq_some_iff.mp hl
  have ⟨m', hm⟩ := List.head?_eq_some_iff.mp hm
  simp [hl, hm, isParagraphStart]

theorem isParagraphStart_of_apart (h : Apart continues l m) (hm : m ≠ []) :
    isParagraphStart (l ++ m) l.length := by
  cases hl : l.getLast?
  case none => simp [List.getLast?_eq_none_iff.mp hl, isParagraphStart]
  case some c =>
    have hd := List.head?_eq_some_head hm
    simp [isParagraphStart_append hl hd, h c hl _ hd]

theorem isParagraphStart_of_isChain (pre post : NSString) (hc : seg.IsChain fun c d => continues c d)
    (hi : 0 < i) (hs : i < seg.length) :
    isParagraphStart (pre ++ seg ++ post) (pre.length + i) = false := by
  cases i
  case zero => contradiction
  case succ i =>
    have h₁ : (pre ++ seg ++ post)[pre.length + i]? = some seg[i] := by
      rw [List.append_assoc, List.getElem?_append_right (by omega)]
      simp [List.getElem?_append_left (Nat.lt_of_succ_lt hs), Nat.lt_of_succ_lt hs]
    have h₂ : (pre ++ seg ++ post)[pre.length + i + 1]? = some seg[i + 1] := by
      rw [List.append_assoc, List.getElem?_append_right (by omega)]
      simp [Nat.add_assoc, List.getElem?_append_left hs, hs]
    rw [← Nat.add_assoc, isParagraphStart, h₁, h₂]
    simp [hc.getElem i hs]

theorem paragraphStart_eq_self (h : string.isParagraphStart i) : string.paragraphStart i = i := by
  cases i
  case zero => rfl
  case succ => simp [paragraphStart, h]

theorem paragraphStart_append {k : Nat} (hp : Apart continues pre seg)
    (hc : seg.IsChain fun c d => continues c d) (hk : k < seg.length) :
    paragraphStart (pre ++ seg ++ post) (pre.length + k) = pre.length := by
  induction k
  case zero =>
    have hs : seg ≠ [] := List.ne_nil_of_length_pos hk
    have hp : Apart continues pre (seg ++ post) := Segments.apart_append_right hs |>.mpr hp
    have h := isParagraphStart_of_apart hp (by simp [hs])
    rw [← List.append_assoc] at h
    exact paragraphStart_eq_self h
  case succ k hi =>
    have h : isParagraphStart _ (pre.length + k + 1) = false :=
      isParagraphStart_of_isChain pre post hc (Nat.succ_pos k) hk
    rw [← Nat.add_assoc, paragraphStart, h, if_neg Bool.false_ne_true, hi <| Nat.lt_of_succ_lt hk]

theorem paragraphEnd_append {k : Nat} (hk : k < seg.length) (hc : seg.IsChain fun c d => continues c d)
    (ha : Apart continues seg post) :
    paragraphEnd (pre ++ seg ++ post) (pre.length + k) = pre.length + seg.length := by
  have hs : seg ≠ [] := List.ne_nil_of_length_pos <| Nat.zero_lt_of_lt hk
  have hin : ∀ j, pre.length + k + 1 ≤ j → j < pre.length + seg.length →
      !isParagraphStart (pre ++ seg ++ post) j := fun j h₁ h₂ => by
    have hj : pre.length + (j - pre.length) = j := by omega
    have h  := isParagraphStart_of_isChain pre post hc (i := j - pre.length) (by omega) (by omega)
    simpa [hj] using h
  have hlen : (pre ++ seg ++ post).length - (pre.length + k) = seg.length - k + post.length := by
    simp only [List.length_append]
    omega
  by_cases he : isParagraphStart (pre ++ seg ++ post) (pre.length + seg.length)
  case pos =>
    have hf : (List.range' (pre.length + k + 1) (seg.length - k + post.length)).find?
        (pre ++ seg ++ post).isParagraphStart = some (pre.length + seg.length) :=
      List.find?_range'_eq_some.mpr ⟨he, List.mem_range'_1.mpr ⟨by omega, by omega⟩, hin⟩
    rw [paragraphEnd, hlen, hf, Option.getD_some]
  case neg =>
    -- A paragraph that is followed by something ends where the next one starts.
    have hp : post = [] := by
      by_contra hp
      refine he ?_
      simpa using isParagraphStart_of_apart (Segments.apart_append_left hs |>.mpr ha) hp
    subst hp
    have hf : (List.range' (pre.length + k + 1) (seg.length - k + 0)).find?
        (pre ++ seg ++ []).isParagraphStart = none := List.find?_range'_eq_none.mpr fun j h₁ h₂ => by
      by_cases hj : j = pre.length + seg.length
      case pos => simpa [hj] using he
      case neg => exact hin j h₁ (by omega)
    rw [paragraphEnd, hlen, List.length_nil, hf, Option.getD_none]
    simp

theorem paragraphEnd_length : paragraphEnd string string.length = string.length := by
  simp [paragraphEnd]

theorem getParagraphStart_append (hp : Apart continues pre seg) (hs : seg ≠ [])
    (hc : seg.IsChain fun c d => continues c d) (ha : Apart continues seg post) :
    getParagraphStart (pre ++ seg ++ post) ⟨pre.length, 0⟩ =
      some (pre.length, pre.length + seg.length) := by
  have hw : NSRange.IsWithin ⟨pre.length, 0⟩ (pre ++ seg ++ post).length := by
    simp only [NSRange.IsWithin, NSRange.maxLength, List.length_append]
    omega
  have hl := List.length_pos_iff.mpr hs
  have hst : paragraphStart (pre ++ seg ++ post) pre.length = pre.length :=
    paragraphStart_append hp hc hl
  have he : paragraphEnd (pre ++ seg ++ post) pre.length = pre.length + seg.length :=
    paragraphEnd_append hl hc ha
  rw [getParagraphStart, if_pos hw]
  simp only [if_true, Int.toNat_natCast, hst, he]

end NSString

namespace NSRange

variable {α : Type*} (pre seg post new : List α)

theorem consecutive_length {location : Int} {segs : List (List α)} :
    (consecutive location segs).length = segs.length := by
  induction segs generalizing location
  case nil => rfl
  case cons seg segs hi => exact congrArg (· + 1) hi

theorem isWithin_append : IsWithin ⟨pre.length, seg.length⟩ (pre ++ seg ++ post).length := by
  simp only [IsWithin, maxLength, List.length_append]
  omega

theorem substring_append : substring ⟨pre.length, seg.length⟩ (pre ++ seg ++ post) = some seg := by
  rw [substring, if_pos <| isWithin_append pre seg post]
  simp

theorem replace_append :
    replace ⟨pre.length, seg.length⟩ (pre ++ seg ++ post) new = some (pre ++ new ++ post) := by
  have hm : (maxLength ⟨pre.length, seg.length⟩).toNat = pre.length + seg.length := by
    simp only [maxLength]
    omega
  rw [replace, if_pos <| isWithin_append pre seg post, hm]
  simp [List.drop_append]

variable {text part : List α} {range : NSRange} {count : Nat}

theorem exists_append (h : range.IsWithin text.length) : ∃ pre seg post,
    text = pre ++ seg ++ post ∧ range = ⟨pre.length, seg.length⟩ := by
  have ⟨h₀, h₁, h₂⟩ : 0 ≤ range.location ∧ 0 ≤ range.length ∧ range.maxLength ≤ _ := h
  have hm : range.maxLength = range.location + range.length := rfl
  refine ⟨text.take range.location.toNat, (text.drop range.location.toNat).take range.length.toNat,
    (text.drop range.location.toNat).drop range.length.toNat, ?_, ?_⟩
  · rw [List.append_assoc, List.take_append_drop, List.take_append_drop]
  · have hl : ((text.take range.location.toNat).length : Int) = range.location := by
      rw [List.length_take]
      omega
    have hs : (((text.drop range.location.toNat).take range.length.toNat).length : Int) =
        range.length := by
      rw [List.length_take, List.length_drop]
      omega
    rw [hl, hs]

theorem substring_eq_some (h : range.substring text = some part) : ∃ pre post,
    text = pre ++ part ++ post ∧ range = ⟨pre.length, part.length⟩ := by
  by_cases hw : range.IsWithin text.length
  case neg => simp [substring, hw] at h
  case pos =>
    have ⟨pre, seg, post, ht, hr⟩ := exists_append hw
    rw [ht, hr, substring_append, Option.some.injEq] at h
    exact ⟨pre, post, h ▸ ht, h ▸ hr⟩

theorem replace_eq_some {new : List α} (h : range.replace text part = some new) : ∃ pre seg post,
    text = pre ++ seg ++ post ∧ range = ⟨pre.length, seg.length⟩ ∧ new = pre ++ part ++ post := by
  by_cases hw : range.IsWithin text.length
  case neg => simp [replace, hw] at h
  case pos =>
    have ⟨pre, seg, post, ht, hr⟩ := exists_append hw
    rw [ht, hr, replace_append, Option.some.injEq] at h
    exact ⟨pre, seg, post, ht, hr, h.symm⟩

theorem replace_keeps {rest : List α} {a : α} (hl : (pre.length : Int) < range.location)
    (h : range.replace (pre ++ a :: rest) part = some text) : ∃ rest, text = pre ++ a :: rest := by
  have ⟨pre', seg, post, ht, hr, hn⟩ := replace_eq_some h
  have hl : (pre.length : Int) < pre'.length := by rwa [hr] at hl
  have hp : pre ++ [a] <+: pre' := by
    have hlen : (pre ++ [a]).length ≤ pre'.length := by
      rw [List.length_append, List.length_singleton]
      omega
    have h₁ : pre ++ [a] <+: pre ++ a :: rest := ⟨rest, by simp⟩
    have h₂ : pre' <+: pre ++ a :: rest := ⟨seg ++ post, by simp [ht]⟩
    exact List.prefix_of_prefix_length_le h₁ h₂ hlen
  have ⟨rest', hrest⟩ := hp
  exact ⟨rest' ++ part ++ post, by simp [hn, ← hrest]⟩

end NSRange

namespace NSAttributedString

def continues (c d : Character) : Bool :=
  NSString.continues c.char d.char

def paragraphs (text : NSAttributedString) : List NSAttributedString :=
  text.splitBy continues

variable {text pre seg post : NSAttributedString} {segs : List NSAttributedString}

theorem flatten_paragraphs : text.paragraphs.flatten = text :=
  List.flatten_splitBy _ _

theorem splitBy_paragraphs (text : NSAttributedString) :
    text.paragraphs.flatten.splitBy continues = text.paragraphs :=
  congrArg paragraphs flatten_paragraphs

theorem nil_notMem_paragraphs : [] ∉ text.paragraphs :=
  List.nil_notMem_splitBy _ _

theorem paragraphs_ne_nil (h : text ≠ []) : text.paragraphs ≠ [] := fun hp => h <| by
  rw [← text.flatten_paragraphs, hp, List.flatten_nil]

theorem string_append : string (pre ++ post) = string pre ++ string post :=
  List.map_append

@[simp]
theorem string_ofString {string : NSString} {attributes : Attributes} :
    (ofString string attributes).string = string :=
  List.map_map.trans <| List.map_id _

@[simp]
theorem string_length : text.string.length = text.length :=
  List.length_map _

theorem string_ne_nil : text.string ≠ [] ↔ text ≠ [] := by
  simp [string]

theorem apart_string : Apart NSString.continues pre.string post.string ↔ Apart continues pre post :=
  Segments.apart_map

theorem isChain_string :
    (text.string.IsChain fun c d => NSString.continues c d) ↔ text.IsChain fun c d => continues c d :=
  List.isChain_map _

theorem paragraphs_string : text.string.paragraphs = text.paragraphs.map string :=
  Segments.splitBy_map _ _

theorem flatten_map_string : (text.paragraphs.map string).flatten = text.string := by
  rw [← paragraphs_string]
  exact List.flatten_splitBy _ _

theorem parapraghRange_append (hp : Apart continues pre seg) (hs : seg ≠ [])
    (hc : seg.IsChain fun c d => continues c d) (ha : Apart continues seg post) :
    parapraghRange (pre ++ seg ++ post) ⟨pre.length, 0⟩ = some ⟨pre.length, seg.length⟩ := by
  have h := NSString.getParagraphStart_append (apart_string.mpr hp) (string_ne_nil.mpr hs)
    (isChain_string.mpr hc) (apart_string.mpr ha)
  simp only [string_length] at h
  have hl : ((pre.length + seg.length : Nat) : Int) - pre.length = seg.length := by omega
  simp only [parapraghRange, string_append, h, Option.bind_eq_bind, Option.bind_some, hl, Option.pure_def]

theorem allParapraghRange_loop {fuel : Nat} (hp : Apart continues pre segs.flatten)
    (hs : segs.flatten.splitBy continues = segs) (hf : segs.length ≤ fuel) :
    allParapraghRange.loop (pre ++ segs.flatten) fuel pre.length =
      some (NSRange.consecutive pre.length segs) := by
  induction segs generalizing pre fuel
  case nil => simp [allParapraghRange.loop.eq_def, NSRange.consecutive]
  case cons seg segs hi =>
    have ⟨_, hn, hc, ha, hs⟩ := Segments.splitBy_eq_cons hs
    cases fuel
    case zero => simp at hf
    case succ fuel =>
      have hp' := Segments.apart_append_right hn |>.mp hp
      have ha' : Apart continues (pre ++ seg) segs.flatten := Segments.apart_append_left hn |>.mpr ha
      have hi  := hi ha' hs <| Nat.le_of_succ_le_succ hf
      have hl := List.length_pos_iff.mpr hn
      have hlt : (pre.length : Int) < (pre ++ (seg :: segs).flatten).length := by
        simp only [List.flatten_cons, List.length_append]
        omega
      rw [allParapraghRange.loop, if_pos hlt]
      simp only [List.length_append, Int.natCast_add] at hi
      simp only [List.flatten_cons, ← List.append_assoc, parapraghRange_append hp' hn hc ha,
        Option.bind_eq_bind, Option.bind_some, hi, NSRange.consecutive, Option.pure_def]

theorem loop_eq {fuel : Nat} (h : text.length ≤ fuel) :
    allParapraghRange.loop text fuel 0 = some (NSRange.consecutive 0 text.paragraphs) := by
  have hf : text.paragraphs.flatten = text := List.flatten_splitBy _ _
  have hs : text.paragraphs.flatten.splitBy continues = text.paragraphs := congrArg paragraphs hf
  have hl : text.paragraphs.length ≤ text.length :=
    (Segments.length_le_length_flatten <| List.nil_notMem_splitBy _ _).trans_eq <| congrArg _ hf
  have hp := allParapraghRange_loop Segments.apart_nil_left hs <| hl.trans h
  rwa [List.nil_append, hf] at hp

theorem allParapraghRange_eq (text : NSAttributedString) :
    text.allParapraghRange = some (NSRange.consecutive 0 text.paragraphs) :=
  loop_eq <| Nat.le_refl _

end NSAttributedString
end RichText
