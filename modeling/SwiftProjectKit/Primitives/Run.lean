import Mathlib.Data.List.Infix
import Mathlib.Order.Basic

namespace Run

variable {σ ε : Type*}

-- Performs a sequence of events from a given state. An event for which `step` yields `none` cannot
-- happen in that state or stops the program there, so the sequence is not a run of the system.
def exec (step : σ → ε → Option σ) : σ → List ε → Option σ
  | s, []      => some s
  | s, e :: es => step s e |>.bind (exec step · es)

def Meets (step : σ → ε → Option σ) (cond : σ → ε → Prop) : σ → List ε → Prop
  | _, []      => True
  | s, e :: es => match step s e with
    | none    => True
    | some s' => cond s e ∧ Meets step cond s' es

-- A property holds in each state that is passed through.
def Always (step : σ → ε → Option σ) (p : σ → Prop) (s : σ) (es : List ε) : Prop :=
  ∀ pre s', pre <+: es → exec step s pre = some s' → p s'

-- Each event that is performed relates the states before and after it.
def Steps (step : σ → ε → Option σ) (rel : σ → ε → σ → Prop) : σ → List ε → Prop
  | _, []      => True
  | s, e :: es => match step s e with
    | none    => True
    | some s' => rel s e s' ∧ Steps step rel s' es

variable {step : σ → ε → Option σ} {cond cond' : σ → ε → Prop} {rel : σ → ε → σ → Prop}
variable {s s' : σ} {e : ε} {es es' : List ε}

instance Meets.decidable (step : σ → ε → Option σ) (cond : σ → ε → Prop)
    [∀ s e, Decidable (cond s e)] : (s : σ) → (es : List ε) → Decidable (Meets step cond s es)
  | _, []      => .isTrue trivial
  | s, e :: es => match h : step s e with
    | none    => .isTrue <| by simp [Meets, h]
    | some s' =>
      have := Meets.decidable step cond s' es
      decidable_of_iff (cond s e ∧ Meets step cond s' es) <| by simp [Meets, h]

@[simp]
theorem exec_singleton : exec step s [e] = step s e := by
  cases h : step s e <;> simp [exec, h]

theorem exec_append : exec step s (es ++ es') = (exec step s es).bind (exec step · es') := by
  induction es generalizing s
  case nil => rfl
  case cons e es hi =>
    simp only [List.cons_append, exec]
    cases step s e
    case none => rfl
    case some => exact hi

theorem exec_cons_eq_some :
    exec step s (e :: es) = some s' ↔ ∃ s₁, step s e = some s₁ ∧ exec step s₁ es = some s' := by
  simp [exec, Option.bind_eq_some_iff]

@[simp]
theorem meets_nil : Meets step cond s [] :=
  trivial

theorem meets_cons (h : step s e = some s') :
    Meets step cond s (e :: es) ↔ cond s e ∧ Meets step cond s' es := by
  simp [Meets, h]

theorem Meets.mono (hc : ∀ s e, cond s e → cond' s e) (h : Meets step cond s es) :
    Meets step cond' s es := by
  induction es generalizing s
  case nil => trivial
  case cons e es hi =>
    cases hs : step s e
    case none => simp [Meets, hs]
    case some =>
      have h := (meets_cons hs).mp h
      exact (meets_cons hs).mpr ⟨hc _ _ h.left, hi h.right⟩

theorem Meets.and (h : Meets step cond s es) (h' : Meets step cond' s es) :
    Meets step (fun s e => cond s e ∧ cond' s e) s es := by
  induction es generalizing s
  case nil => trivial
  case cons e es hi =>
    cases hs : step s e
    case none => simp [Meets, hs]
    case some =>
      have h  := (meets_cons hs).mp h
      have h' := (meets_cons hs).mp h'
      exact (meets_cons hs).mpr ⟨⟨h.left, h'.left⟩, hi h.right h'.right⟩

-- The rule for invariants: what holds initially and is preserved by each step that meets the
-- condition, holds at the end of each run whose steps all meet the condition.
theorem invariant {inv : σ → Prop}
    (hstep : ∀ {s e s'}, inv s → cond s e → step s e = some s' → inv s')
    (h₀ : inv s) (hc : Meets step cond s es) (h : exec step s es = some s') : inv s' := by
  induction es generalizing s
  case nil => exact Option.some.inj h ▸ h₀
  case cons e es hi =>
    have ⟨_, hs, h⟩ := exec_cons_eq_some.mp h
    have hc := (meets_cons hs).mp hc
    exact hi (hstep h₀ hc.left hs) hc.right h

theorem meets_of_invariant (inv : σ → Prop)
    (hstep : ∀ {s e s'}, inv s → cond s e → step s e = some s' → inv s')
    (himp : ∀ {s e}, inv s → cond s e → cond' s e) (h₀ : inv s) (hc : Meets step cond s es) :
    Meets step cond' s es := by
  induction es generalizing s
  case nil => trivial
  case cons e es hi =>
    cases hs : step s e
    case none => simp [Meets, hs]
    case some =>
      have hc := (meets_cons hs).mp hc
      exact (meets_cons hs).mpr ⟨himp h₀ hc.left, hi (hstep h₀ hc.left hs) hc.right⟩

theorem meets_of_forall (h : ∀ e ∈ es, ∀ s, cond s e) : Meets step cond s es := by
  induction es generalizing s
  case nil => trivial
  case cons e es hi =>
    have ⟨he, h⟩ := List.forall_mem_cons.mp h
    cases hs : step s e
    case none => simp [Meets, hs]
    case some => exact (meets_cons hs).mpr ⟨he _, hi h⟩

theorem invariant' {inv : σ → Prop} (hstep : ∀ {s e s'}, inv s → step s e = some s' → inv s')
    (h₀ : inv s) (h : exec step s es = some s') : inv s' :=
  have hc : Meets step (fun _ _ => True) s es := meets_of_forall fun _ _ _ => trivial
  invariant (fun hi _ => hstep hi) h₀ hc h

theorem invariant_of_events {inv : List ε → σ → Prop}
    (hstep : ∀ {es s e s'}, inv es s → step s e = some s' → inv (es ++ [e]) s')
    (h₀ : inv es s) (h : exec step s es' = some s') : inv (es ++ es') s' := by
  induction es' generalizing s es
  case nil => exact Option.some.inj h ▸ (List.append_nil es).symm ▸ h₀
  case cons e es' hi =>
    have ⟨_, hs, h⟩ := exec_cons_eq_some.mp h
    exact List.append_cons es e es' ▸ hi (hstep h₀ hs) h

theorem relates {r : σ → σ → Prop} {inv : σ → Prop} (hrefl : ∀ s, r s s)
    (htrans : ∀ {s₁ s₂ s₃}, r s₁ s₂ → r s₂ s₃ → r s₁ s₃)
    (hstep : ∀ {s e s'}, inv s → step s e = some s' → inv s' ∧ r s s')
    (h₀ : inv s) (h : exec step s es = some s') : r s s' := by
  induction es generalizing s
  case nil => exact Option.some.inj h ▸ hrefl s
  case cons e es hi =>
    have ⟨_, hs, h⟩ := exec_cons_eq_some.mp h
    have ⟨hi', hr⟩ := hstep h₀ hs
    exact htrans hr <| hi hi' h

theorem always_nil {p : σ → Prop} : Always step p s [] ↔ p s where
  mp  := fun h => h [] s List.nil_prefix rfl
  mpr := by
    rintro h pre s' hp he
    cases List.prefix_nil.mp hp
    exact Option.some.inj he ▸ h

theorem always_cons {p : σ → Prop} :
    Always step p s (e :: es) ↔ p s ∧ ∀ s', step s e = some s' → Always step p s' es := by
  constructor
  case mp =>
    intro h
    refine ⟨h [] s List.nil_prefix rfl, fun s' hs pre s'' hp he => ?_⟩
    exact h (e :: pre) s'' (List.prefix_cons_inj e |>.mpr hp) (by simp [exec, hs, he])
  case mpr =>
    rintro ⟨h₀, h⟩ pre s'' hp he
    rcases List.prefix_cons_iff.mp hp with rfl | ⟨pre, rfl, hp⟩
    · exact Option.some.inj he ▸ h₀
    · have ⟨s', hs, he⟩ := exec_cons_eq_some.mp he
      exact h s' hs pre s'' (List.prefix_cons_inj _ |>.mp hp) he

theorem always_of_invariant (inv : σ → Prop) {p : σ → Prop}
    (hstep : ∀ {s e s'}, inv s → cond s e → step s e = some s' → inv s') (himp : ∀ {s}, inv s → p s)
    (h₀ : inv s) (hc : Meets step cond s es) : Always step p s es := by
  induction es generalizing s
  case nil => exact always_nil.mpr <| himp h₀
  case cons e es hi =>
    refine always_cons.mpr ⟨himp h₀, fun s' hs => ?_⟩
    have hc := (meets_cons hs).mp hc
    exact hi (hstep h₀ hc.left hs) hc.right

-- If a step keeps the property precisely when it meets the condition, then the property holds
-- throughout a run precisely when all steps of the run meet the condition.
theorem always_iff_meets {inv p : σ → Prop} (hinv : ∀ {s e s'}, inv s → step s e = some s' → inv s')
    (hstep : ∀ {s e s'}, inv s → p s → step s e = some s' → (p s' ↔ cond s e))
    (hi₀ : inv s) (hp₀ : p s) : Always step p s es ↔ Meets step cond s es := by
  induction es generalizing s
  case nil => simp [always_nil, hp₀]
  case cons e es hi =>
    rw [always_cons]
    cases hs : step s e
    case none => simp [Meets, hs, hp₀]
    case some s' =>
      have hp' := hstep hi₀ hp₀ hs
      simp only [meets_cons hs, hp₀, Option.some.injEq, forall_eq', true_and]
      constructor
      case mp =>
        intro ha
        have h := ha [] s' List.nil_prefix rfl
        exact ⟨hp'.mp h, hi (hinv hi₀ hs) h |>.mp ha⟩
      case mpr =>
        rintro ⟨hc, hm⟩
        exact hi (hinv hi₀ hs) (hp'.mpr hc) |>.mpr hm

theorem meets_of_always {p : σ → Prop} (h : Always step p s es) :
    Meets step (fun s _ => p s) s es := by
  induction es generalizing s
  case nil => trivial
  case cons e es hi =>
    have ⟨hp, h⟩ := always_cons.mp h
    cases hs : step s e
    case none   => simp [Meets, hs]
    case some s' => exact (meets_cons hs).mpr ⟨hp, hi <| h s' hs⟩

theorem not_always {p : σ → Prop} (h : exec step s es = some s') :
    ¬Always step p s es ↔
      ∃ pre post s₁, pre ++ post = es ∧ exec step s pre = some s₁ ∧ exec step s₁ post = some s' ∧ ¬p s₁ := by
  simp only [Always, not_forall]
  constructor
  case mp =>
    rintro ⟨pre, s₁, ⟨post, rfl⟩, hs, hp⟩
    rw [exec_append, hs] at h
    exact ⟨pre, post, s₁, rfl, hs, h, hp⟩
  case mpr =>
    rintro ⟨pre, post, s₁, rfl, hs, -, hp⟩
    exact ⟨pre, s₁, List.prefix_append _ _, hs, hp⟩

theorem steps_cons (h : step s e = some s') :
    Steps step rel s (e :: es) ↔ rel s e s' ∧ Steps step rel s' es := by
  simp [Steps, h]

theorem steps_append (h : exec step s es = some s') :
    Steps step rel s (es ++ es') ↔ Steps step rel s es ∧ Steps step rel s' es' := by
  induction es generalizing s
  case nil =>
    cases Option.some.inj h
    simp [Steps]
  case cons e es hi =>
    have ⟨s₁, hs, h⟩ := exec_cons_eq_some.mp h
    rw [List.cons_append, steps_cons hs, steps_cons hs, hi h, and_assoc]

theorem Steps.of_exec (h : Steps step rel s (es ++ e :: es')) {s₁ s₂ : σ} (hs : exec step s es = some s₁)
    (he : step s₁ e = some s₂) : rel s₁ e s₂ :=
  steps_append hs |>.mp h |>.right |> (steps_cons he).mp |>.left

-- The rule for steps: an invariant that is preserved by each step that meets the condition, which
-- moreover relates the states before and after it.
theorem steps_of_invariant (inv : σ → Prop)
    (hstep : ∀ {s e s'}, inv s → cond s e → step s e = some s' → inv s' ∧ rel s e s')
    (h₀ : inv s) (hc : Meets step cond s es) : Steps step rel s es := by
  induction es generalizing s
  case nil => trivial
  case cons e es hi =>
    cases hs : step s e
    case none => simp [Steps, hs]
    case some s' =>
      have hc := (meets_cons hs).mp hc
      have ⟨hi', hr⟩ := hstep h₀ hc.left hs
      exact (steps_cons hs).mpr ⟨hr, hi hi' hc.right⟩

theorem steps_iff_meets (inv : σ → Prop)
    (hinv : ∀ {s e s'}, inv s → step s e = some s' → rel s e s' → inv s')
    (hstep : ∀ {s e s'}, inv s → step s e = some s' → (rel s e s' ↔ cond s e)) (h₀ : inv s) :
    Steps step rel s es ↔ Meets step cond s es := by
  induction es generalizing s
  case nil => exact Iff.rfl
  case cons e es hi =>
    cases hs : step s e
    case none => simp [Steps, Meets, hs]
    case some s' =>
      rw [steps_cons hs, meets_cons hs, hstep h₀ hs]
      refine and_congr_right fun hc => hi ?_
      exact hinv h₀ hs <| (hstep h₀ hs).mpr hc

end Run
