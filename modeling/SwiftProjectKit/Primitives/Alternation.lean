import Mathlib.Data.List.Chain

-- Sequences of notifications in which something begins and ends in turn, where `true` stands for its
-- beginning.
structure Alternates (l : List Bool) : Prop where
  starts : l.head? ≠ some false
  chain  : l.IsChain (· ≠ ·)

namespace Alternates

variable {l : List Bool}

theorem nil : Alternates [] where
  starts := nofun
  chain  := .nil

theorem append_singleton_iff {b : Bool} :
    Alternates (l ++ [b]) ↔ Alternates l ∧ (b = true ↔ l.getLast? ≠ some true) := by
  cases h : l.getLast?
  case none =>
    have hl := List.getLast?_eq_none_iff.mp h
    subst hl
    cases b
    case true  => exact ⟨fun _ => ⟨nil, by simp⟩, fun _ => ⟨nofun, .singleton _⟩⟩
    case false => exact ⟨fun h => absurd rfl h.starts, fun h => absurd h.right (by simp)⟩
  case some c =>
    have hn : l ≠ [] := fun hn => by simp [hn] at h
    have hb : (b = true ↔ some c ≠ some true) ↔ c ≠ b := by cases b <;> cases c <;> simp
    rw [hb]
    constructor
    case mp =>
      intro ⟨hs, hc⟩
      have ⟨hl, _, hr⟩ := List.isChain_append.mp hc
      rw [List.head?_append_of_ne_nil _ hn] at hs
      exact ⟨⟨hs, hl⟩, hr c h b rfl⟩
    case mpr =>
      intro ⟨⟨hs, hc⟩, hr⟩
      refine ⟨by rwa [List.head?_append_of_ne_nil _ hn], ?_⟩
      refine List.isChain_append.mpr ⟨hc, .singleton _, fun c' hc' b' hb' => ?_⟩
      cases Option.some.inj <| h.symm.trans hc'
      cases Option.some.inj hb'
      exact hr

theorem begin (h : Alternates l) (hl : l.getLast? ≠ some true) : Alternates (l ++ [true]) :=
  append_singleton_iff.mpr ⟨h, by simp [hl]⟩

theorem «end» (h : Alternates l) (hl : l.getLast? = some true) : Alternates (l ++ [false]) :=
  append_singleton_iff.mpr ⟨h, by simp [hl]⟩

end Alternates
