import Mathlib.Algebra.Order.Group.Multiset
import SwiftProjectKit.Primitives.Run

-- A value that is settled once, and handlers that are called with it.
namespace Deferred

variable {H R : Type*}

structure State (H R : Type*) where
  value   : Option R := none
  waiting : Multiset H := 0
  calls   : List (H × R) := []

inductive Event (H R : Type*)
  | settle (value : R)
  | attach (handler : H)
  | call   (handler : H)

def Event.attached : Event H R → Option H
  | attach handler => handler
  | _              => none

-- A value cannot be settled again, and a handler is called at any time after the value has been settled
-- and the handler been attached.
def step [DecidableEq H] (s : State H R) : Event H R → Option (State H R)
  | .settle value => match s.value with
    | none   => some { s with value }
    | some _ => none
  | .attach handler => some { s with waiting := handler ::ₘ s.waiting }
  | .call handler => match s.value with
    | none       => none
    | some value =>
      if handler ∈ s.waiting then
        some { s with waiting := s.waiting.erase handler, calls := s.calls ++ [(handler, value)] }
      else
        none

variable [DecidableEq H] {s s' : State H R} {e : Event H R} {es : List (Event H R)}

theorem step_settle {value : R} (h : s.value = none) : step s (.settle value) = some { s with value } := by
  simp [step, h]

theorem step_call {handler : H} {value : R} (hv : s.value = some value) (hw : handler ∈ s.waiting) :
    step s (.call handler) = some {
      s with waiting := s.waiting.erase handler, calls := s.calls ++ [(handler, value)] } := by
  simp [step, hv, hw]

theorem step_call_cons {handler : H} {value : R} {waiting : Multiset H} (hv : s.value = some value)
    (hw : s.waiting = handler ::ₘ waiting) :
    step s (.call handler) = some { s with waiting, calls := s.calls ++ [(handler, value)] } := by
  rw [step_call hv (hw ▸ Multiset.mem_cons_self handler waiting), hw, Multiset.erase_cons_head]

inductive Effect (s : State H R) : Event H R → State H R → Prop
  | settle {value : R} (h : s.value = none) : Effect s (.settle value) { s with value }
  | attach {handler : H} : Effect s (.attach handler) { s with waiting := handler ::ₘ s.waiting }
  | call {handler : H} {value : R} (hv : s.value = some value) (hw : handler ∈ s.waiting) :
    Effect s (.call handler) {
      s with waiting := s.waiting.erase handler, calls := s.calls ++ [(handler, value)] }

theorem step_effect (hs : step s e = some s') : Effect s e s' := by
  cases e
  case settle =>
    cases hv : s.value
    case none   => exact Option.some.inj (step_settle hv ▸ hs) ▸ .settle hv
    case some _ => simp [step, hv] at hs
  case attach => exact Option.some.inj hs ▸ .attach
  case call handler =>
    cases hv : s.value
    case none   => simp [step, hv] at hs
    case some _ =>
      by_cases hw : handler ∈ s.waiting
      case pos => exact Option.some.inj (step_call hv hw ▸ hs) ▸ .call hv hw
      case neg => simp [step, hv, hw] at hs

def State.handlers (s : State H R) : Multiset H :=
  (s.calls.map Prod.fst : Multiset H) + s.waiting

theorem Effect.handlers (he : Effect s e s') : s'.handlers = s.handlers + (e.attached.toList : Multiset H) := by
  cases he
  case settle => simp [State.handlers, Event.attached]
  case attach =>
    rw [State.handlers, Multiset.add_cons, ← Multiset.singleton_add, add_comm]
    rfl
  case call handler _ hv hw =>
    have hc := Multiset.singleton_add handler _ |>.trans <| Multiset.cons_erase hw
    simp only [State.handlers, Event.attached, List.map_append, ← Multiset.coe_add]
    rw [add_assoc]
    simp [hc]

theorem exec_handlers (h : Run.exec step s es = some s') :
    s'.handlers = s.handlers + (es.filterMap Event.attached : Multiset H) := by
  induction es generalizing s
  case nil =>
    cases Option.some.inj h
    simp
  case cons e es hi =>
    have ⟨s₁, hs, h⟩ := Run.exec_cons_eq_some.mp h
    rw [hi h, (step_effect hs).handlers, add_assoc, Multiset.coe_add]
    cases ha : e.attached <;> simp [ha]

theorem Effect.called (he : Effect s e s') (hc : ∀ c ∈ s.calls, s.value = some c.snd) :
    ∀ c ∈ s'.calls, s'.value = some c.snd := by
  cases he
  case settle hv => exact fun c hm => nomatch hv ▸ hc c hm
  case attach    => exact hc
  case call hv _ =>
    intro c hm
    rcases List.mem_append.mp hm with hm | hm
    · exact hc c hm
    · cases List.mem_singleton.mp hm
      exact hv

theorem exec_called (h : Run.exec step s es = some s') (hc : ∀ c ∈ s.calls, s.value = some c.snd) :
    ∀ c ∈ s'.calls, s'.value = some c.snd :=
  Run.invariant' (fun hc hs => (step_effect hs).called hc) hc h

end Deferred
