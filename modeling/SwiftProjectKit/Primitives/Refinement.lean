import SwiftProjectKit.Primitives.Run

namespace Run

variable {σ ε τ δ ω : Type*}
variable {step : σ → ε → Option σ} {step' : τ → δ → Option τ} {abs : σ → τ}
variable {obs : ε → Option ω} {obs' : δ → Option ω} {s s' : σ} {es : List ε}

-- A step of one system is a step of another one as seen through `abs`, or is not seen at all. What is
-- observed of the events is the same in both systems.
def Refines (step' : τ → δ → Option τ) (abs : σ → τ) (obs : ε → Option ω) (obs' : δ → Option ω)
    (s : σ) (e : ε) (s' : σ) : Prop :=
  (abs s' = abs s ∧ obs e = none) ∨ ∃ d, step' (abs s) d = some (abs s') ∧ obs' d = obs e

-- Each run of a system that refines another one, is seen as a run of the other one that passes through
-- the same states.
theorem exec_refines {inv : σ → Prop} (hinv : ∀ {s e s'}, inv s → step s e = some s' → inv s')
    (hstep : ∀ {s e s'}, inv s → step s e = some s' → Refines step' abs obs obs' s e s')
    (h₀ : inv s) (h : exec step s es = some s') :
    ∃ ds, exec step' (abs s) ds = some (abs s') ∧ ds.filterMap obs' = es.filterMap obs ∧
      ∀ p, Always step (p <| abs ·) s es ↔ Always step' p (abs s) ds := by
  induction es generalizing s
  case nil =>
    cases Option.some.inj h
    exact ⟨[], rfl, rfl, fun p => by rw [always_nil, always_nil]⟩
  case cons e es hi =>
    have ⟨s₁, hs, h⟩ := exec_cons_eq_some.mp h
    have ⟨ds, hd, ho, ha⟩ := hi (hinv h₀ hs) h
    have hc : ∀ p, Always step (p <| abs ·) s (e :: es) ↔ p (abs s) ∧ Always step' p (abs s₁) ds := by
      intro p
      rw [always_cons, ← ha p]
      simp [hs]
    rcases hstep h₀ hs with ⟨hn, hn'⟩ | ⟨d, hd₁, ho₁⟩
    case inl =>
      refine ⟨ds, hn ▸ hd, by rw [ho, List.filterMap_cons_none hn'], fun p => (hc p).trans ?_⟩
      rw [hn]
      exact and_iff_right_of_imp fun h => h [] _ List.nil_prefix rfl
    case inr =>
      refine ⟨d :: ds, exec_cons_eq_some.mpr ⟨_, hd₁, hd⟩, ?_, fun p => (hc p).trans ?_⟩
      · simp only [List.filterMap_cons, ho₁, ho]
      · rw [always_cons]
        simp [hd₁]

end Run
