import SwiftProjectKit.Primitives.Deferred
import SwiftProjectKit.Primitives.Refinement
import SwiftProjectKit.Promise.Theorems.Chain

namespace PromiseKit

variable {R : Type*}

-- A box of a chain and the closure that is piped to it, as far as it has been.
def Pipe.box (pipe : Pipe) (value : Option R) : Deferred.State Unit R where
  value   := value
  waiting := if pipe = .waiting then {()} else 0
  calls   := if pipe = .called then value.toList.map ((), ·) else []

inductive Pipe.Moves : Pipe → Option R → Pipe → Option R → Option Unit → Prop
  | stay {pipe : Pipe} {value : Option R} : Moves pipe value pipe value none
  | settle {pipe : Pipe} {value : R} (h : pipe ≠ .called) : Moves pipe none pipe (some value) none
  | attach {value : Option R} : Moves .absent value .waiting value (some ())
  | call {value : R} : Moves .waiting (some value) .called (some value) none

theorem Pipe.Moves.step {pipe pipe' : Pipe} {value value' : Option R} {o : Option Unit}
    (h : Moves pipe value pipe' value' o) :
    (pipe'.box value' = pipe.box value ∧ o = none) ∨
      ∃ d, Deferred.step (pipe.box value) d = some (pipe'.box value') ∧ d.attached = o := by
  cases h
  case stay            => exact .inl ⟨rfl, rfl⟩
  case settle value hc => exact .inr ⟨.settle value, by simp [Deferred.step, box, hc], rfl⟩
  case attach          => exact .inr ⟨.attach (), by simp [Deferred.step, box], rfl⟩
  case call            => exact .inr ⟨.call (), by simp [Deferred.step, box], rfl⟩

namespace Chain

variable {V E : Type*} {c : Closures V E} {s s' : Chain V E} {e : Event V E} {es : List (Event V E)}

def Event.pipedDone : Event V E → Option Unit
  | .done => some ()
  | _     => none

def Event.pipedCatch : Event V E → Option Unit
  | .catch => some ()
  | _      => none

def Event.pipedFinally : Event V E → Option Unit
  | .finally => some ()
  | _        => none

theorem Effect.moves_promise (he : Effect c s e s') (h : Progress c s) :
    Pipe.Moves s.done s.promise s'.done s'.promise e.pipedDone := by
  cases he
  case resolve result =>
    cases hp : s.promise
    case some => simpa [resolvePromise, hp, Event.pipedDone] using Pipe.Moves.stay
    case none =>
      have hd : s.done ≠ .called := by
        cases h
        case unresolved hd _ _ _ _ _ _ => exact hd
        case resolved hp' _            => simp [hp] at hp'
      simpa [resolvePromise, hp, Event.pipedDone] using Pipe.Moves.settle hd
  case done hd                 => exact hd ▸ .attach
  case «catch» | «finally»     => exact .stay
  case callDone result hp hd   =>
    rw [hp, hd]
    cases result <;> exact hp ▸ .call
  case callCatch result _ _    =>
    cases result
    case fulfilled => exact .stay
    case rejected  => rw [pipeCatch]; split <;> exact .stay
  case callFinally             => exact .stay
  case main call _ _           =>
    cases call
    case done => rw [perform]; split <;> exact .stay
    all_goals exact .stay

theorem Progress.pending_rp (h : Progress c s) (hd : s.done ≠ .called ∨ ∃ value, .done value ∈ s.main) :
    s.rp = none ∧ s.catch ≠ .called := by
  cases h
  case unresolved hr hc _ _ _ _ => exact ⟨hr, hc⟩
  case resolved hg =>
    have ⟨_, hl, _⟩ := hg
    cases hl <;> simp_all

theorem Progress.pending_finalizer (h : Progress c s) (hc : s.catch ≠ .called ∨ ∃ error, .catch error ∈ s.main) :
    s.finalizer = none ∧ s.finally ≠ .called := by
  cases h
  case unresolved hz hf _ _ => exact ⟨hz, hf⟩
  case resolved hg =>
    have ⟨_, hl, _⟩ := hg
    cases hl <;> simp_all

theorem moves_resolveRp {result : Result Unit E} (hr : s.rp = none) (hc : s.catch ≠ .called) :
    Pipe.Moves s.catch s.rp (s.resolveRp result).catch (s.resolveRp result).rp none := by
  rw [resolveRp, hr]
  exact .settle hc

theorem moves_resolveFinalizer (hz : s.finalizer = none) (hf : s.finally ≠ .called) :
    Pipe.Moves s.finally s.finalizer s.resolveFinalizer.finally s.resolveFinalizer.finalizer none := by
  rw [resolveFinalizer, hz]
  exact .settle hf

theorem Effect.moves_rp (he : Effect c s e s') (h : Progress c s) :
    Pipe.Moves s.catch s.rp s'.catch s'.rp e.pipedCatch := by
  cases he
  case «catch» hc                     => exact hc ▸ .attach
  case resolve | done | «finally»     => exact .stay
  case callFinally                    => exact .stay
  case callDone result _ hd           =>
    have ⟨hr, hc⟩ := h.pending_rp <| .inl (by simp [hd])
    cases result
    case fulfilled => exact .stay
    case rejected  => exact moves_resolveRp hr hc
  case callCatch result hr hc         =>
    rw [hr, hc]
    cases result
    case fulfilled => exact hr ▸ .call
    case rejected  => rw [pipeCatch]; split <;> exact hr ▸ .call
  case main call _ hm                 =>
    cases call
    case done =>
      have ⟨hr, hc⟩ := h.pending_rp <| .inr ⟨_, hm ▸ List.mem_cons_self⟩
      rw [perform]
      split <;> exact moves_resolveRp hr hc
    all_goals exact .stay

theorem Effect.moves_finalizer (he : Effect c s e s') (h : Progress c s) :
    Pipe.Moves s.finally s.finalizer s'.finally s'.finalizer e.pipedFinally := by
  cases he
  case «finally» hf              => exact hf ▸ .attach
  case resolve | done | «catch»  => exact .stay
  case callDone result _ _       => cases result <;> exact .stay
  case callFinally hz hf         =>
    rw [hz, hf]
    exact hz ▸ .call
  case callCatch result _ hc     =>
    have ⟨hz, hf⟩ := h.pending_finalizer <| .inl (by simp [hc])
    cases result
    case fulfilled => exact moves_resolveFinalizer hz hf
    case rejected  =>
      rw [pipeCatch]
      split
      · exact .stay
      · exact moves_resolveFinalizer hz hf
  case main call _ hm            =>
    cases call
    case done      => rw [perform]; split <;> exact .stay
    case «catch»   =>
      have ⟨hz, hf⟩ := h.pending_finalizer <| .inr ⟨_, hm ▸ List.mem_cons_self⟩
      exact moves_resolveFinalizer hz hf
    case «finally» => exact .stay

def promiseBox (s : Chain V E) : Deferred.State Unit (Result V E) :=
  s.done.box s.promise

def rpBox (s : Chain V E) : Deferred.State Unit (Result Unit E) :=
  s.catch.box s.rp

def finalizerBox (s : Chain V E) : Deferred.State Unit Unit :=
  s.finally.box s.finalizer

theorem Effect.refines_promise (he : Effect c s e s') (h : Progress c s) :
    Run.Refines Deferred.step promiseBox Event.pipedDone Deferred.Event.attached s e s' :=
  (he.moves_promise h).step

theorem Effect.refines_rp (he : Effect c s e s') (h : Progress c s) :
    Run.Refines Deferred.step rpBox Event.pipedCatch Deferred.Event.attached s e s' :=
  (he.moves_rp h).step

theorem Effect.refines_finalizer (he : Effect c s e s') (h : Progress c s) :
    Run.Refines Deferred.step finalizerBox Event.pipedFinally Deferred.Event.attached s e s' :=
  (he.moves_finalizer h).step

-- Each box of a chain is, throughout a run, a value that is settled once, by which the closure that was piped to it
-- is called once: what the boxes of `Promise` are themselves.
theorem exec_boxes (h : exec c {} es = some s) :
    (∃ ds, Run.exec Deferred.step {} ds = some s.promiseBox ∧
      ds.filterMap Deferred.Event.attached = es.filterMap Event.pipedDone) ∧
    (∃ ds, Run.exec Deferred.step {} ds = some s.rpBox ∧
      ds.filterMap Deferred.Event.attached = es.filterMap Event.pipedCatch) ∧
    ∃ ds, Run.exec Deferred.step {} ds = some s.finalizerBox ∧
      ds.filterMap Deferred.Event.attached = es.filterMap Event.pipedFinally := by
  have hinv : ∀ {s : Chain V E} {e s'}, Progress c s → s.step c e = some s' → Progress c s' :=
    fun hp hs => hp.effect <| step_effect hs
  have h₀ : Progress c {} := .unresolved rfl nofun rfl nofun rfl nofun rfl rfl
  have ⟨_, hd₁, ho₁, _⟩ := Run.exec_refines hinv (fun hp hs => (step_effect hs).refines_promise hp) h₀ h
  have ⟨_, hd₂, ho₂, _⟩ := Run.exec_refines hinv (fun hp hs => (step_effect hs).refines_rp hp) h₀ h
  have ⟨_, hd₃, ho₃, _⟩ := Run.exec_refines hinv (fun hp hs => (step_effect hs).refines_finalizer hp) h₀ h
  exact ⟨⟨_, hd₁, ho₁⟩, ⟨_, hd₂, ho₂⟩, _, hd₃, ho₃⟩

end Chain
end PromiseKit
