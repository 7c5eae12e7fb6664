import Mathlib.Data.List.SplitBy

-- Lists that are split between elements that are not related.
namespace Segments

variable {α β : Type*} {r : α → α → Bool} {l : List α} {seg : List α} {segs : List (List α)}

def Apart (r : α → α → Bool) (l₁ l₂ : List α) : Prop :=
  ∀ a ∈ l₁.getLast?, ∀ b ∈ l₂.head?, r a b = false

variable {l₁ l₂ l₃ : List α}

theorem apart_append_left (h : l₂ ≠ []) : Apart r (l₁ ++ l₂) l₃ ↔ Apart r l₂ l₃ := by
  rw [Apart, List.getLast?_append_of_ne_nil _ h, Apart]

theorem apart_append_right (h : l₂ ≠ []) : Apart r l₁ (l₂ ++ l₃) ↔ Apart r l₁ l₂ := by
  rw [Apart, List.head?_append_of_ne_nil _ h, Apart]

theorem apart_map {f : β → α} {m₁ m₂ : List β} :
    Apart r (m₁.map f) (m₂.map f) ↔ Apart (fun a b => r (f a) (f b)) m₁ m₂ := by
  simp [Apart, List.getLast?_map, List.head?_map]

theorem apart_iff (h₁ : l₁ ≠ []) (h₂ : l₂ ≠ []) :
    Apart r l₁ l₂ ↔ r (l₁.getLast h₁) (l₂.head h₂) = false := by
  simp [Apart, List.getLast?_eq_some_getLast h₁, List.head?_eq_some_head h₂]

theorem apart_prefix (h : l₂ <+: l₃) (ha : Apart r l₁ l₃) : Apart r l₁ l₂ := by
  have ⟨_, hp⟩ := h
  refine fun a hl b hb => ha a hl b ?_
  rw [← hp, List.head?_append_of_ne_nil _ <| List.ne_nil_of_mem <| List.mem_of_head? hb]
  exact hb

theorem apart_nil_left : Apart r [] l :=
  nofun

theorem splitBy_eq_cons (h : l.splitBy r = seg :: segs) :
    l = seg ++ segs.flatten ∧ seg ≠ [] ∧ (seg.IsChain fun a b => r a b) ∧ Apart r seg segs.flatten ∧
      segs.flatten.splitBy r = segs := by
  have ⟨hl, hn, hc, h'⟩ := List.splitBy_eq_iff.mp h
  simp only [List.mem_cons, not_or, forall_eq_or_imp] at hn hc
  have ⟨ha, hs⟩ := List.isChain_cons.mp h'
  refine ⟨hl, Ne.symm hn.left, hc.left, fun a hla b hb => ?_, List.splitBy_flatten hn.right hc.right hs⟩
  cases segs
  case nil => contradiction
  case cons seg' segs =>
    have ⟨hne, hne', hr⟩ := ha seg' rfl
    cases seg'
    case nil => contradiction
    case cons b' seg' =>
      cases Option.some.inj hb
      cases List.getLast?_eq_some_getLast hne ▸ hla
      exact hr

theorem length_le_length_flatten (h : [] ∉ segs) : segs.length ≤ segs.flatten.length := by
  induction segs
  case nil => rfl
  case cons seg segs hi =>
    simp only [List.mem_cons, not_or] at h
    have hl := List.length_pos_iff.mpr <| Ne.symm h.left
    have hi := hi h.right
    simp only [List.length_cons, List.flatten_cons, List.length_append]
    omega

theorem splitBy_map (f : β → α) (l : List β) :
    (l.map f).splitBy r = (l.splitBy fun a b => r (f a) (f b)).map (List.map f) := by
  refine List.splitBy_eq_iff.mpr ⟨?_, ?_, ?_, ?_⟩
  · rw [← List.map_flatten, List.flatten_splitBy]
  · simp
  · simp only [List.mem_map, forall_exists_index, and_imp, forall_apply_eq_imp_iff₂, List.isChain_map]
    exact fun _ => List.isChain_of_mem_splitBy
  · refine List.isChain_map_of_isChain _ (fun a b h => ?_) <| List.isChain_getLast_head_splitBy _ l
    have ⟨ha, hb, hr⟩ := h
    exact ⟨by simpa using ha, by simpa using hb, by simpa [List.getLast_map, List.head_map] using hr⟩

-- Changing the segments of a list gives the segments of another list, if that keeps them in one piece
-- and apart from each other.
theorem splitBy_zipWith {f : List α → β → List α} {bs : List β} (hs : segs.flatten.splitBy r = segs)
    (hn : ∀ {seg b}, seg ≠ [] → f seg b ≠ [])
    (hc : ∀ {seg b}, (seg.IsChain fun a b => r a b) → (f seg b).IsChain fun a b => r a b)
    (ha : ∀ {seg seg' b b'}, seg ≠ [] → seg' ≠ [] → Apart r seg seg' → Apart r (f seg b) (f seg' b')) :
    (List.zipWith f segs bs).flatten.splitBy r = List.zipWith f segs bs := by
  have ⟨_, hsn, hsc, hsa⟩ := List.splitBy_eq_iff.mp hs
  have hsn : ∀ seg ∈ segs, seg ≠ [] := fun _ hm h => hsn <| h ▸ hm
  refine List.splitBy_flatten (fun hm => ?_) (fun m hm => ?_) <|
    List.isChain_iff_getElem.mpr fun i hi => ?_
  · have ⟨i, hi, he⟩ := List.getElem_of_mem hm
    simp only [List.getElem_zipWith] at he
    exact hn (hsn _ <| List.getElem_mem _) he
  · have ⟨i, hi, he⟩ := List.getElem_of_mem hm
    simp only [List.getElem_zipWith] at he
    exact he ▸ hc (hsc _ <| List.getElem_mem _)
  · have hi' : i + 1 < segs.length := by
      simp only [List.length_zipWith] at hi
      omega
    have ⟨hl, hh, hr⟩ := hsa.getElem i hi'
    simp only [List.getElem_zipWith]
    exact ⟨hn hl, hn hh, apart_iff _ _ |>.mp <| ha hl hh <| apart_iff hl hh |>.mpr hr⟩

theorem splitBy_of_suffix {segs' : List (List α)} (hs : segs.flatten.splitBy r = segs)
    (hr : ∀ a ∈ segs.flatten, ∀ b c, r a b = false → r a c = false) (hl : segs'.length = segs.length)
    (h : ∀ (i : Nat) seg seg', segs[i]? = some seg → segs'[i]? = some seg' → seg' ≠ [] ∧ seg' <:+ seg) :
    segs'.flatten.splitBy r = segs' := by
  have ⟨_, _, hsc, hsa⟩ := List.splitBy_eq_iff.mp hs
  have h {i : Nat} (hi : i < segs'.length) : segs'[i] ≠ [] ∧ segs'[i] <:+ segs[i] :=
    h i _ _ (List.getElem?_eq_getElem <| hl ▸ hi) <| List.getElem?_eq_getElem hi
  refine List.splitBy_flatten (fun hm => ?_) (fun m hm => ?_) <|
    List.isChain_iff_getElem.mpr fun i hi => ?_
  · have ⟨i, hi, he⟩ := List.getElem_of_mem hm
    exact (h hi).left he
  · have ⟨i, hi, he⟩ := List.getElem_of_mem hm
    exact he ▸ (hsc _ <| List.getElem_mem _).suffix (h hi).right
  · have hi' : i < segs'.length := Nat.lt_of_succ_lt hi
    have ⟨hn, hp⟩ := h hi'
    have ⟨hn', _⟩ := h hi
    have ⟨hne, _, ha⟩ := hsa.getElem i (hl ▸ hi)
    have hm : segs[i].getLast hne ∈ segs.flatten :=
      List.mem_flatten_of_mem (List.getElem_mem _) <| List.getLast_mem _
    exact ⟨hn, hn', hp.getLast hn ▸ hr _ hm _ _ ha⟩

theorem eq_of_isChain [BEq β] [LawfulBEq β] {f : α → β} {a b : α}
    (h : (a :: l).IsChain fun a b => f a == f b) (hb : b ∈ a :: l) : f b = f a := by
  induction l generalizing a
  case nil => simp_all
  case cons c l hi =>
    have ⟨hc, h⟩ := List.isChain_cons_cons.mp h
    cases hb
    case head => rfl
    case tail hb => exact hi h hb |>.trans (beq_iff_eq.mp hc).symm

theorem mapM_eq_some_map {f : α → Option β} {g : α → β} (h : ∀ a ∈ l, f a = some (g a)) :
    l.mapM f = some (l.map g) := by
  induction l
  case nil => rfl
  case cons a l hi =>
    have ha := h a List.mem_cons_self
    have hl := hi fun b hb => h b <| List.mem_cons_of_mem _ hb
    simp [List.mapM_cons, ha, hl]

theorem mem_of_mapM {f : α → Option β} {m : List β} {b : β} (h : l.mapM f = some m) (hb : b ∈ m) :
    ∃ a ∈ l, f a = some b := by
  induction l generalizing m
  case nil =>
    cases Option.some.inj h
    contradiction
  case cons a l hi =>
    rw [List.mapM_cons] at h
    have ⟨b', ha, h⟩ := Option.bind_eq_some_iff.mp h
    have ⟨m', hm, h⟩ := Option.bind_eq_some_iff.mp h
    cases Option.some.inj h
    cases hb
    case head => exact ⟨a, List.mem_cons_self, ha⟩
    case tail hb =>
      have ⟨a', hl, ha⟩ := hi hm hb
      exact ⟨a', List.mem_cons_of_mem _ hl, ha⟩

end Segments
