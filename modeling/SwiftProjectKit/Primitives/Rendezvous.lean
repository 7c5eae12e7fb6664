import Mathlib.Logic.Function.Basic
import SwiftProjectKit.Primitives.Run

-- Two parties that each raise a flag when they are done with their work, test whether the flag of the
-- other one is raised, and act if it is.
namespace Rendezvous

inductive Phase
  | working
  | raised
  | tested
deriving DecidableEq

@[ext]
structure State (ι : Type*) where
  phase : ι → Phase
  acts  : Nat

variable {ι : Type*}

def step [DecidableEq ι] (other : ι → ι) (s : State ι) (p : ι) : Option (State ι) :=
  match s.phase p with
  | .working => some { s with phase := Function.update s.phase p .raised }
  | .raised  => some {
    phase := Function.update s.phase p .tested
    acts  := if s.phase (other p) = .working then s.acts else s.acts + 1 }
  | .tested  => none

structure Opposite (other : ι → ι) : Prop where
  ne    (p : ι)   : other p ≠ p
  cases (p q : ι) : q = p ∨ q = other p

namespace State

variable {s s' : State ι}

def start : State ι where
  phase _ := .working
  acts    := 0

-- Both flags are raised before either has been tested.
def Race (s : State ι) : Prop :=
  ∀ p, s.phase p = .raised

def Done (s : State ι) : Prop :=
  ∀ p, s.phase p = .tested

end State

variable {other : ι → ι} {s s' : State ι} {p : ι} {ps : List ι}

theorem Opposite.other_other (ho : Opposite other) (p : ι) : other (other p) = p :=
  ho.cases p (other (other p)) |>.resolve_right (ho.ne _)

theorem Opposite.forall_iff (ho : Opposite other) (p : ι) {q : ι → Prop} :
    (∀ i, q i) ↔ q p ∧ q (other p) where
  mp  := fun h => ⟨h p, h (other p)⟩
  mpr := fun h i => ho.cases p i |>.elim (· ▸ h.left) (· ▸ h.right)

variable [DecidableEq ι]

theorem step_working (hp : s.phase p = .working) :
    step other s p = some { s with phase := Function.update s.phase p .raised } := by
  simp [step, hp]

theorem step_raised (hp : s.phase p = .raised) : step other s p = some {
    phase := Function.update s.phase p .tested
    acts  := if s.phase (other p) = .working then s.acts else s.acts + 1 } := by
  simp [step, hp]

inductive Effect (other : ι → ι) (s : State ι) (p : ι) : State ι → Prop
  | raise (hp : s.phase p = .working) :
    Effect other s p { s with phase := Function.update s.phase p .raised }
  | leave (hp : s.phase p = .raised) (ho : s.phase (other p) = .working) :
    Effect other s p { s with phase := Function.update s.phase p .tested }
  | act (hp : s.phase p = .raised) (ho : s.phase (other p) ≠ .working) :
    Effect other s p { phase := Function.update s.phase p .tested, acts := s.acts + 1 }

theorem step_effect (hs : step other s p = some s') : Effect other s p s' := by
  cases hp : s.phase p
  case working =>
    cases step_working hp ▸ hs
    exact .raise hp
  case raised =>
    rw [step_raised hp, Option.some.injEq] at hs
    by_cases ho : s.phase (other p) = .working
    case pos => exact hs ▸ if_pos ho ▸ .leave hp ho
    case neg => exact hs ▸ if_neg ho ▸ .act hp ho
  case tested => simp [step, hp] at hs

def Calm (s : State ι) : Prop :=
  (s.Done → s.acts = 1) ∧ (¬s.Done → s.acts = 0)

def Raced (other : ι → ι) (s : State ι) : Prop :=
  (∀ p, s.phase p ≠ .working) ∧
  ∀ p, s.acts = (if s.phase p = .tested then 1 else 0) + if s.phase (other p) = .tested then 1 else 0

theorem Effect.calm (ho : Opposite other) (he : Effect other s p s') (hc : Calm s) (hr : ¬s.Race) :
    Calm s' := by
  have hn := ho.ne p
  simp only [Calm, State.Done, State.Race, ho.forall_iff p] at hc hr ⊢
  cases he
  case raise hp => simp_all
  case leave hp hw => simp_all
  case act hp hw =>
    cases ht : s.phase (other p)
    case working => exact absurd ht hw
    case raised  => exact absurd ⟨hp, ht⟩ hr
    case tested  => simp_all

theorem Effect.raced (ho : Opposite other) (he : Effect other s p s') (hc : Raced other s) :
    Raced other s' := by
  have hn := ho.ne p
  simp only [Raced, ho.forall_iff p, ho.other_other] at hc ⊢
  cases he
  case raise hp    => exact absurd hp hc.left.left
  case leave hp hw => exact absurd hw hc.left.right
  case act hp hw   => simp_all [Nat.add_comm]

theorem exec_calm (ho : Opposite other) (hm : Run.Meets (step other) (fun s _ => ¬s.Race) s ps)
    (hc : Calm s) (h : Run.exec (step other) s ps = some s') : Calm s' :=
  Run.invariant (fun hc hr hs => (step_effect hs).calm ho hc hr) hc hm h

theorem exec_raced (ho : Opposite other) (hc : Raced other s)
    (h : Run.exec (step other) s ps = some s') : Raced other s' :=
  Run.invariant' (fun hc hs => (step_effect hs).raced ho hc) hc h

theorem Effect.acts_eq_zero (he : Effect other s p s') (hi : (∀ q, s.phase q ≠ .tested) → s.acts = 0)
    (ht : ∀ q, s'.phase q ≠ .tested) : s'.acts = 0 := by
  cases he
  case raise hp =>
    refine hi fun q => ?_
    by_cases hq : q = p
    case pos => simp [hq, hp]
    case neg => simpa [hq] using ht q
  case leave => simpa using ht p
  case act   => simpa using ht p

theorem exec_acts_eq_zero (h : Run.exec (step other) .start ps = some s)
    (ht : ∀ q, s.phase q ≠ .tested) : s.acts = 0 :=
  Run.invariant' (fun hi hs => (step_effect hs).acts_eq_zero hi) (fun _ => rfl) h ht

theorem acts_eq (ho : Opposite other) (h : Run.exec (step other) .start ps = some s) (hd : s.Done) (p : ι) :
    (s.acts = 1 ∨ s.acts = 2) ∧ (s.acts = 2 ↔ ¬Run.Always (step other) (¬State.Race ·) .start ps) := by
  by_cases hr : Run.Always (step other) (¬State.Race ·) .start ps
  case pos =>
    have hc : Calm (State.start : State ι) := ⟨fun h => (nomatch h p), fun _ => rfl⟩
    have h₁ := exec_calm ho (Run.meets_of_always hr) hc h |>.left hd
    simp [h₁, hr]
  case neg =>
    have ⟨_, _, s₁, _, h₁, h₂, hr₁⟩ := Run.not_always h |>.mp hr
    rw [not_not] at hr₁
    have h₀ := exec_acts_eq_zero h₁ fun q => by simp [hr₁ q]
    have hc : Raced other s₁ := ⟨fun q => by simp [hr₁ q], fun q => by simp [hr₁ _, h₀]⟩
    have h₂ := exec_raced ho hc h₂ |>.right p
    simp only [hd _, if_true] at h₂
    simp [h₂, hr]

end Rendezvous
