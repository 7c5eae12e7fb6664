import Mathlib.Data.List.Basic

-- Lists of pairs of words that are written one after the other. The parts of a pair are separated by `e`,
-- and the pairs are separated by `a`.
namespace Pairs

variable {α : Type*} {e a : α} {p : List α × List α} {ps ps₁ ps₂ : List (List α × List α)}

def pair (e : α) (p : List α × List α) : List α :=
  p.fst ++ e :: p.snd

def joined (e a : α) (ps : List (List α × List α)) : List α :=
  [a].intercalate <| ps.map (pair e)

def separated (e a : α) (ps : List (List α × List α)) : List α :=
  ps.flatMap fun p => a :: pair e p

@[simp]
theorem separated_nil : separated e a [] = [] :=
  rfl

@[simp]
theorem separated_cons : separated e a (p :: ps) = a :: (p.fst ++ e :: (p.snd ++ separated e a ps)) := by
  simp [separated, pair]

theorem joined_cons : joined e a (p :: ps) = pair e p ++ separated e a ps := by
  induction ps generalizing p
  case nil => simp [joined]
  case cons q ps hi =>
    have hi := hi (p := q)
    simp only [joined, List.map_cons, pair] at hi ⊢
    rw [List.intercalate_cons_cons, hi]
    simp

theorem cons_joined (h : ps ≠ []) : a :: joined e a ps = separated e a ps := by
  cases ps
  case nil  => contradiction
  case cons => simp [joined_cons, pair]

theorem joined_eq_nil_iff : joined e a ps = [] ↔ ps = [] := by
  cases ps
  case nil  => simp [joined]
  case cons => simp [joined_cons, pair]

theorem append_cons_inj {v₁ v₂ xs₁ xs₂ : List α} (h₁ : e ∉ v₁) (h₂ : e ∉ v₂)
    (h : v₁ ++ e :: xs₁ = v₂ ++ e :: xs₂) : v₁ = v₂ ∧ xs₁ = xs₂ := by
  induction v₁ generalizing v₂ <;> cases v₂
  case nil.nil  => simpa using h
  case nil.cons => exact absurd (List.cons_eq_cons.mp h).left <| List.ne_of_not_mem_cons h₂
  case cons.nil => exact absurd (List.cons_eq_cons.mp h).left.symm <| List.ne_of_not_mem_cons h₁
  case cons.cons hi _ _ =>
    have ⟨hx, h⟩ := List.cons_eq_cons.mp h
    have ⟨hv, hs⟩ := hi (List.not_mem_of_not_mem_cons h₁) (List.not_mem_of_not_mem_cons h₂) h
    exact ⟨List.cons_eq_cons.mpr ⟨hx, hv⟩, hs⟩

theorem append_separated_inj {v₁ v₂ : List α} (h₁ : a ∉ v₁) (h₂ : a ∉ v₂)
    (h : v₁ ++ separated e a ps₁ = v₂ ++ separated e a ps₂) :
    v₁ = v₂ ∧ separated e a ps₁ = separated e a ps₂ := by
  cases ps₁ <;> cases ps₂
  case nil.nil => simpa using h
  case cons.cons =>
    simp only [separated_cons] at h ⊢
    have ⟨hv, h⟩ := append_cons_inj h₁ h₂ h
    exact ⟨hv, congrArg _ h⟩
  case nil.cons =>
    refine absurd ?_ h₁
    rw [separated_nil, List.append_nil] at h
    simp [h]
  case cons.nil =>
    refine absurd ?_ h₂
    rw [separated_nil, List.append_nil] at h
    simp [← h]

def IsReadable (e a : α) (p : List α × List α) : Prop :=
  e ∉ p.fst ∧ a ∉ p.snd

theorem separated_injective (h₁ : ∀ p ∈ ps₁, IsReadable e a p) (h₂ : ∀ p ∈ ps₂, IsReadable e a p)
    (h : separated e a ps₁ = separated e a ps₂) : ps₁ = ps₂ := by
  induction ps₁ generalizing ps₂ <;> cases ps₂
  case nil.nil  => rfl
  case nil.cons => simp at h
  case cons.nil => simp at h
  case cons.cons p ps₁ hi q ps₂ =>
    rw [List.forall_mem_cons] at h₁ h₂
    simp only [separated_cons, List.cons.injEq, true_and] at h
    have ⟨hf, h⟩ := append_cons_inj h₁.left.left h₂.left.left h
    have ⟨hs, h⟩ := append_separated_inj h₁.left.right h₂.left.right h
    rw [hi h₁.right h₂.right h, Prod.ext hf hs]

theorem joined_injective (h₁ : ∀ p ∈ ps₁, IsReadable e a p) (h₂ : ∀ p ∈ ps₂, IsReadable e a p)
    (h : joined e a ps₁ = joined e a ps₂) : ps₁ = ps₂ := by
  by_cases hn : ps₁ = []
  case pos =>
    rw [hn, joined_eq_nil_iff.mpr rfl] at h
    exact hn.trans (joined_eq_nil_iff.mp h.symm).symm
  case neg =>
    have hn₂ : ps₂ ≠ [] := mt joined_eq_nil_iff.mpr <| h ▸ mt joined_eq_nil_iff.mp hn
    refine separated_injective h₁ h₂ ?_
    rw [← cons_joined hn, ← cons_joined hn₂, h]

def reversed (p : List α × List α) : List α × List α :=
  (p.snd.reverse, p.fst.reverse)

theorem pair_reversed : pair e (reversed p) = (pair e p).reverse := by
  simp [pair, reversed]

theorem joined_concat (h : ps ≠ []) : joined e a (ps ++ [p]) = joined e a ps ++ a :: pair e p := by
  cases ps
  case nil  => contradiction
  case cons => simp [joined_cons, separated, pair]

theorem joined_reversed : joined e a (ps.map reversed).reverse = (joined e a ps).reverse := by
  induction ps
  case nil => rfl
  case cons p ps hi =>
    by_cases hn : ps = []
    case pos => simp [hn, joined, pair_reversed]
    case neg =>
      have hr : (ps.map reversed).reverse ≠ [] := by simpa using hn
      rw [List.map_cons, List.reverse_cons, joined_concat hr, hi, pair_reversed, joined_cons, ← cons_joined hn]
      simp

theorem joined_injective_of_reversed (h₁ : ∀ p ∈ ps₁, IsReadable e a (reversed p))
    (h₂ : ∀ p ∈ ps₂, IsReadable e a (reversed p)) (h : joined e a ps₁ = joined e a ps₂) : ps₁ = ps₂ := by
  have hi : Function.Injective (reversed (α := α)) := fun p q hr => by
    have ⟨hs, hf⟩ := Prod.mk.inj hr
    exact Prod.ext (List.reverse_injective hf) (List.reverse_injective hs)
  refine List.map_injective_iff.mpr hi <| List.reverse_injective ?_
  apply joined_injective (e := e) (a := a)
  case h₁ => exact fun p hp => List.forall_mem_map.mpr h₁ p <| List.mem_reverse.mp hp
  case h₂ => exact fun p hp => List.forall_mem_map.mpr h₂ p <| List.mem_reverse.mp hp
  case h  => rw [joined_reversed, joined_reversed, h]

end Pairs
