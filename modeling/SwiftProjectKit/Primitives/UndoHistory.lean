import Mathlib.Tactic.Common

-- The states of a document that were recorded, of which the last one is the current one, and those
-- that have been undone, of which the last one is the next to be redone.
structure UndoHistory (α : Type*) where
  done   : List α
  undone : List α

structure LongestSuffix {α : Type*} (limit : Nat) (l l' : List α) : Prop where
  isSuffix  : l' <:+ l
  length_le : l'.length ≤ limit
  longest   : ∀ m, m <:+ l → m.length ≤ limit → m.length ≤ l'.length

namespace UndoHistory

variable {α : Type*}

def current (h : UndoHistory α) : Option α :=
  h.done.getLast?

def record (h : UndoHistory α) (limit : Int) (a : α) : UndoHistory α :=
  let done := h.done ++ [a]
  { done := if done.length > limit then done.tail else done, undone := [] }

def undo (h : UndoHistory α) : UndoHistory α :=
  match h.done.getLast? with
  | some a => if 1 < h.done.length then ⟨h.done.dropLast, h.undone ++ [a]⟩ else h
  | none   => h

def redo (h : UndoHistory α) : UndoHistory α :=
  match h.undone.getLast? with
  | some a => ⟨h.done ++ [a], h.undone.dropLast⟩
  | none   => h

variable {h : UndoHistory α} {limit : Int} {a b : α} {done undone : List α}

@[simp]
theorem current_append : current ⟨done ++ [a], undone⟩ = some a :=
  List.getLast?_concat

@[simp]
theorem undo_append : undo ⟨done ++ [a, b], undone⟩ = ⟨done ++ [a], undone ++ [b]⟩ := by
  have hs : done ++ [a, b] = done ++ [a] ++ [b] := by simp
  simp only [undo, hs, List.getLast?_concat, List.dropLast_concat]
  simp

@[simp]
theorem redo_append : redo ⟨done, undone ++ [a]⟩ = ⟨done ++ [a], undone⟩ := by
  simp [redo]

theorem undo_of_length_le (hl : h.done.length ≤ 1) : h.undo = h := by
  rw [undo]
  split
  case h_1 => rw [if_neg (by omega)]
  case h_2 => rfl

theorem exists_append (hl : 1 < h.done.length) : ∃ done a b, h.done = done ++ [a, b] := by
  have ⟨done', b, hb⟩ := List.eq_nil_or_concat h.done |>.resolve_left <| by
    intro hn
    simp [hn] at hl
  have ⟨done, a, ha⟩ := List.eq_nil_or_concat done' |>.resolve_left <| by
    intro hn
    simp [hb, hn] at hl
  exact ⟨done, a, b, by simp [hb, ha]⟩

theorem redo_undo (hl : 1 < h.done.length) : h.undo.redo = h := by
  have ⟨done, a, b, hd⟩ := exists_append hl
  have ⟨_, undone⟩ := h
  cases hd
  simp

theorem current_record (hl : 0 < limit) : (h.record limit a).current = some a := by
  simp only [record, current]
  split
  case isTrue hg =>
    cases hd : h.done
    case nil =>
      simp only [hd, List.nil_append, List.length_singleton] at hg
      omega
    case cons => simp
  case isFalse => exact List.getLast?_concat

theorem longestSuffix_record_iff {limit : Nat} :
    LongestSuffix limit (h.done ++ [a]) (h.record limit a).done ↔ h.done.length ≤ limit := by
  have hl : (h.done ++ [a]).length = h.done.length + 1 := List.length_append
  by_cases hg : limit < h.done.length + 1
  case pos =>
    have hd : (h.record limit a).done = (h.done ++ [a]).tail := by
      rw [record, if_pos (by omega)]
    have ht : (h.done ++ [a]).tail.length = h.done.length := by rw [List.length_tail, hl]; rfl
    rw [hd]
    constructor
    case mp  => exact fun hs => ht ▸ hs.length_le
    case mpr => exact fun hn => ⟨List.tail_suffix _, ht ▸ hn, fun _ _ hm => Nat.le_trans hm <| by omega⟩
  case neg =>
    have hd : (h.record limit a).done = h.done ++ [a] := by rw [record, if_neg (by omega)]
    rw [hd]
    refine iff_of_true ⟨List.suffix_rfl, by omega, fun _ hm _ => hm.length_le⟩ (by omega)

theorem done_record_record (hl : 2 ≤ limit) : ∃ done, ((h.record limit a).record limit b).done = done ++ [a, b] := by
  have ⟨done, hd⟩ := List.getLast?_eq_some_iff.mp <| current_record (h := h) (a := a) (by omega : 0 < limit)
  rw [record, hd]
  by_cases hg : ((done ++ [a] ++ [b]).length : Int) > limit
  case neg => exact ⟨done, by rw [if_neg hg, List.append_assoc]; rfl⟩
  case pos =>
    cases done
    case nil =>
      simp only [List.nil_append, List.length_append, List.length_singleton] at hg
      omega
    case cons _ done => exact ⟨done, by rw [if_pos hg]; simp⟩

theorem done_record_ne_nil (hl : 0 < limit) : (h.record limit a).done ≠ [] := by
  intro hn
  have hc := current_record (h := h) (a := a) hl
  rw [current, hn] at hc
  cases hc

-- Going from one state to another one moves at most one state between those that are done and those
-- that are undone, and the states stay in the order in which they were recorded.
structure Moves (h h' : UndoHistory α) : Prop where
  states : h'.done ++ h'.undone.reverse = h.done ++ h.undone.reverse
  count  : h'.done.length + h'.undone.length = h.done.length + h.undone.length
  moved  : h' = h ∨ h'.done.length + 1 = h.done.length ∨ h'.done.length = h.done.length + 1

theorem moves_undo_append : Moves ⟨done ++ [a, b], undone⟩ ⟨done ++ [a], undone ++ [b]⟩ where
  states := by simp
  count  := by
    simp only [List.length_append, List.length_cons, List.length_nil]
    omega
  moved  := .inr <| .inl <| by simp

theorem moves_redo_append : Moves ⟨done, undone ++ [a]⟩ ⟨done ++ [a], undone⟩ where
  states := by simp
  count  := by
    simp only [List.length_append, List.length_singleton]
    omega
  moved  := .inr <| .inr <| by simp

theorem Moves.refl (h : UndoHistory α) : h.Moves h where
  states := rfl
  count  := rfl
  moved  := .inl rfl

theorem moves_undo (h : UndoHistory α) : h.Moves h.undo ∧ (h.done ≠ [] → h.undo.done ≠ []) := by
  by_cases hl : 1 < h.done.length
  case pos =>
    have ⟨done, a, b, hd⟩ := exists_append hl
    have hh : h = ⟨done ++ [a, b], h.undone⟩ := congrArg (mk · h.undone) hd
    rw [hh, undo_append]
    exact ⟨moves_undo_append, by simp⟩
  case neg =>
    rw [undo_of_length_le <| Nat.le_of_not_lt hl]
    exact ⟨.refl h, id⟩

theorem moves_redo (h : UndoHistory α) : h.Moves h.redo ∧ (h.done ≠ [] → h.redo.done ≠ []) := by
  cases hu : h.undone.getLast?
  case none =>
    have hr : h.redo = h := by simp only [redo, hu]
    exact hr.symm ▸ ⟨.refl h, id⟩
  case some a =>
    have ⟨undone, hu⟩ := List.getLast?_eq_some_iff.mp hu
    have hh : h = ⟨h.done, undone ++ [a]⟩ := congrArg (mk h.done) hu
    rw [hh, redo_append]
    exact ⟨moves_redo_append, by simp⟩

-- All states, in the order in which they were recorded, through which undoing and redoing move.
def timeline (h : UndoHistory α) : List α :=
  h.done ++ h.undone.reverse

theorem done_eq_take (h : UndoHistory α) : h.done = h.timeline.take h.done.length :=
  List.take_left.symm

theorem undone_eq_drop (h : UndoHistory α) : h.undone = (h.timeline.drop h.done.length).reverse := by
  rw [timeline, List.drop_left, List.reverse_reverse]

theorem length_done_undo (h : UndoHistory α) :
    h.undo.done.length = if 1 < h.done.length then h.done.length - 1 else h.done.length := by
  split
  case isTrue hl =>
    have ⟨done, a, b, hd⟩ := exists_append hl
    have hh : h = ⟨done ++ [a, b], h.undone⟩ := congrArg (mk · h.undone) hd
    rw [hh, undo_append]
    simp
  case isFalse hl => rw [undo_of_length_le <| Nat.le_of_not_lt hl]

theorem length_done_redo (h : UndoHistory α) :
    h.redo.done.length = if h.done.length < h.timeline.length then h.done.length + 1 else h.done.length := by
  have hl : h.timeline.length = h.done.length + h.undone.length := by simp [timeline]
  cases hu : h.undone.getLast?
  case none =>
    rw [if_neg (by simp [hl, List.getLast?_eq_none_iff.mp hu]), redo, hu]
  case some a =>
    have hp : 0 < h.undone.length := List.length_pos_iff.mpr <| by
      intro hn
      simp [hn] at hu
    rw [if_pos (by omega), redo, hu]
    simp

end UndoHistory
