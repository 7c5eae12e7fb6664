import SwiftProjectKit.Promise.Chain

namespace PromiseKit

variable {V E : Type*}

-- What a chain is for: it calls its closures like the blocks of a statement that catches errors.
namespace Closures

def catchCalls (c : Closures V E) : Result Unit E → List (Call V E)
  | .fulfilled _    => [.finally]
  | .rejected error =>
    if c.policy = .allErrors ∨ !c.isCancelled error then [.catch error, .finally] else [.finally]

def calls (c : Closures V E) : Result V E → List (Call V E)
  | .rejected error  => c.catchCalls (.rejected error)
  | .fulfilled value => match c.done value with
    | .ok _        => .done value :: c.catchCalls (.fulfilled ())
    | .error error => .done value :: c.catchCalls (.rejected error)

end Closures

def Pipe.work : Pipe → Nat
  | absent  => 3
  | waiting => 2
  | called  => 0

namespace Chain

variable {c : Closures V E} {s s' : Chain V E} {e : Event V E} {es : List (Event V E)}
variable {left : List (Call V E)}

inductive Effect (c : Closures V E) (s : Chain V E) : Event V E → Chain V E → Prop
  | resolve {result : Result V E} : Effect c s (.resolve result) (s.resolvePromise result)
  | done (hd : s.done = .absent) : Effect c s .done { s with done := .waiting }
  | «catch» (hc : s.catch = .absent) : Effect c s .catch { s with «catch» := .waiting }
  | «finally» (hf : s.finally = .absent) : Effect c s .finally { s with «finally» := .waiting }
  | callDone {result : Result V E} (hp : s.promise = some result) (hd : s.done = .waiting) :
    Effect c s .callDone <| { s with done := .called }.pipeDone result
  | callCatch {result : Result Unit E} (hr : s.rp = some result) (hc : s.catch = .waiting) :
    Effect c s .callCatch <| { s with «catch» := .called }.pipeCatch c result
  | callFinally (hz : s.finalizer = some ()) (hf : s.finally = .waiting) :
    Effect c s .callFinally { s with «finally» := .called }.pipeFinally
  | main {call : Call V E} {main : List (Call V E)} (hm : s.main = call :: main) :
    Effect c s .main <| { s with main, calls := s.calls ++ [call] }.perform c call

theorem step_effect (hs : s.step c e = some s') : Effect c s e s' := by
  cases e
  case resolve => exact Option.some.inj hs ▸ .resolve
  case done =>
    simp only [step, Option.ite_none_right_eq_some, Option.some.injEq] at hs
    exact hs.right ▸ .done hs.left
  case «catch» =>
    simp only [step, Option.ite_none_right_eq_some, Option.some.injEq] at hs
    exact hs.right ▸ .catch hs.left.right
  case «finally» =>
    simp only [step, Option.ite_none_right_eq_some, Option.some.injEq] at hs
    exact hs.right ▸ .finally hs.left.right
  case callDone =>
    cases hp : s.promise <;> simp only [step, hp, reduceCtorEq, Option.ite_none_right_eq_some] at hs
    exact Option.some.inj hs.right ▸ hp ▸ .callDone hp hs.left
  case callCatch =>
    cases hr : s.rp <;> simp only [step, hr, reduceCtorEq, Option.ite_none_right_eq_some] at hs
    exact Option.some.inj hs.right ▸ hr ▸ .callCatch hr hs.left
  case callFinally =>
    cases hz : s.finalizer <;> simp only [step, hz, reduceCtorEq, Option.ite_none_right_eq_some] at hs
    exact Option.some.inj hs.right ▸ hz ▸ .callFinally hz hs.left
  case main =>
    cases hm : s.main <;> simp only [step, hm, reduceCtorEq] at hs
    exact Option.some.inj hs ▸ .main hm

inductive Stage (c : Closures V E) (s : Chain V E) : List (Call V E) → Prop
  | promise {result : Result V E} (hp : s.promise = some result) (hd : s.done ≠ .called) (hr : s.rp = none)
    (hc : s.catch ≠ .called) (hz : s.finalizer = none) (hf : s.finally ≠ .called) (hm : s.main = []) :
    Stage c s (c.calls result)
  | done {value : V} (hp : s.promise.isSome) (hd : s.done = .called) (hr : s.rp = none) (hc : s.catch ≠ .called)
    (hz : s.finalizer = none) (hf : s.finally ≠ .called) (hm : s.main = [.done value]) :
    Stage c s (c.calls (.fulfilled value))
  | rp {result : Result Unit E} (hp : s.promise.isSome) (hd : s.done = .called) (hr : s.rp = some result)
    (hc : s.catch ≠ .called) (hz : s.finalizer = none) (hf : s.finally ≠ .called) (hm : s.main = []) :
    Stage c s (c.catchCalls result)
  | «catch» {error : E} (hp : s.promise.isSome) (hd : s.done = .called) (hc : s.catch = .called)
    (hz : s.finalizer = none) (hf : s.finally ≠ .called) (hm : s.main = [.catch error]) :
    Stage c s [.catch error, .finally]
  | finalizer (hp : s.promise.isSome) (hd : s.done = .called) (hc : s.catch = .called)
    (hz : s.finalizer = some ()) (hf : s.finally ≠ .called) (hm : s.main = []) : Stage c s [.finally]
  | «finally» (hp : s.promise.isSome) (hd : s.done = .called) (hc : s.catch = .called)
    (hz : s.finalizer = some ()) (hf : s.finally = .called) (hm : s.main = [.finally]) : Stage c s [.finally]
  | closed (hp : s.promise.isSome) (hd : s.done = .called) (hc : s.catch = .called)
    (hz : s.finalizer = some ()) (hf : s.finally = .called) (hm : s.main = []) : Stage c s []

theorem Stage.congr (h : Stage c s left) (hp : s'.promise = s.promise)
    (hd : s'.done = .called ↔ s.done = .called) (hr : s'.rp = s.rp) (hc : s'.catch = .called ↔ s.catch = .called)
    (hz : s'.finalizer = s.finalizer) (hf : s'.finally = .called ↔ s.finally = .called) (hm : s'.main = s.main) :
    Stage c s' left := by
  cases h
  case promise hp' hd' hr' hc' hz' hf' hm' =>
    exact .promise (hp.trans hp') (mt hd.mp hd') (hr.trans hr') (mt hc.mp hc') (hz.trans hz') (mt hf.mp hf')
      (hm.trans hm')
  case done hp' hd' hr' hc' hz' hf' hm' =>
    exact .done (hp ▸ hp') (hd.mpr hd') (hr.trans hr') (mt hc.mp hc') (hz.trans hz') (mt hf.mp hf') (hm.trans hm')
  case rp hp' hd' hr' hc' hz' hf' hm' =>
    exact .rp (hp ▸ hp') (hd.mpr hd') (hr.trans hr') (mt hc.mp hc') (hz.trans hz') (mt hf.mp hf') (hm.trans hm')
  case «catch» hp' hd' hc' hz' hf' hm' =>
    exact .catch (hp ▸ hp') (hd.mpr hd') (hc.mpr hc') (hz.trans hz') (mt hf.mp hf') (hm.trans hm')
  case finalizer hp' hd' hc' hz' hf' hm' =>
    exact .finalizer (hp ▸ hp') (hd.mpr hd') (hc.mpr hc') (hz.trans hz') (mt hf.mp hf') (hm.trans hm')
  case «finally» hp' hd' hc' hz' hf' hm' =>
    exact .finally (hp ▸ hp') (hd.mpr hd') (hc.mpr hc') (hz.trans hz') (hf.mpr hf') (hm.trans hm')
  case closed hp' hd' hc' hz' hf' hm' =>
    exact .closed (hp ▸ hp') (hd.mpr hd') (hc.mpr hc') (hz.trans hz') (hf.mpr hf') (hm.trans hm')

theorem Stage.promise_isSome (h : Stage c s left) : s.promise.isSome := by
  cases h <;> simp_all

theorem resolvePromise_of_isSome {result : Result V E} (h : s.promise.isSome) : s.resolvePromise result = s := by
  simp [resolvePromise, Option.or_of_isSome h]

def GoesOn (c : Closures V E) (s : Chain V E) (calls : List (Call V E)) : Prop :=
  ∃ left, Stage c s left ∧ s.calls ++ left = calls

theorem Stage.callDone {result : Result V E} (h : Stage c s left) (hp : s.promise = some result)
    (hd : s.done = .waiting) : GoesOn c ({ s with done := .called }.pipeDone result) (s.calls ++ left) := by
  cases h
  case promise hp' hd' hr hc hz hf hm =>
    cases hp ▸ hp'
    cases result
    case fulfilled value =>
      exact ⟨_, .done (Option.isSome_of_eq_some hp) rfl hr hc hz hf (congrArg (· ++ [_]) hm), rfl⟩
    case rejected error =>
      have hr' : s.rp.or (some (.rejected error)) = some (.rejected error) := by rw [hr, Option.none_or]
      exact ⟨_, .rp (Option.isSome_of_eq_some hp) rfl hr' hc hz hf hm, rfl⟩
  all_goals simp_all

theorem Stage.callCatch {result : Result Unit E} (h : Stage c s left) (hr : s.rp = some result)
    (hc : s.catch = .waiting) : GoesOn c ({ s with «catch» := .called }.pipeCatch c result) (s.calls ++ left) := by
  cases h
  case rp hp hd hr' hc' hz hf hm =>
    cases hr ▸ hr'
    cases result
    case fulfilled => exact ⟨_, .finalizer hp hd rfl rfl hf hm, rfl⟩
    case rejected error =>
      by_cases he : c.policy = .allErrors ∨ !c.isCancelled error
      case pos =>
        rw [pipeCatch, if_pos he, Closures.catchCalls, if_pos he]
        exact ⟨_, .catch hp hd rfl hz hf (congrArg (· ++ [_]) hm), rfl⟩
      case neg =>
        rw [pipeCatch, if_neg he, Closures.catchCalls, if_neg he]
        exact ⟨_, .finalizer hp hd rfl rfl hf hm, rfl⟩
  all_goals simp_all

theorem Stage.callFinally (h : Stage c s left) (hz : s.finalizer = some ()) (hf : s.finally = .waiting) :
    GoesOn c { s with «finally» := .called }.pipeFinally (s.calls ++ left) := by
  cases h
  case finalizer hp hd hc hz' hf' hm =>
    exact ⟨_, .finally hp hd hc hz rfl (congrArg (· ++ [_]) hm), rfl⟩
  all_goals simp_all

theorem Stage.main {call : Call V E} {main : List (Call V E)} (h : Stage c s left) (hm : s.main = call :: main) :
    GoesOn c ({ s with main, calls := s.calls ++ [call] }.perform c call) (s.calls ++ left) := by
  cases h
  case done value hp hd hr hc hz hf hm' =>
    cases hm ▸ hm'
    cases hv : c.done value
    case ok =>
      have hr' : s.rp.or (some (.fulfilled ())) = some (.fulfilled ()) := by rw [hr, Option.none_or]
      simp only [perform, hv, Closures.calls]
      exact ⟨_, .rp hp hd hr' hc hz hf rfl, List.append_assoc _ [_] _⟩
    case error error =>
      have hr' : s.rp.or (some (.rejected error)) = some (.rejected error) := by rw [hr, Option.none_or]
      simp only [perform, hv, Closures.calls]
      exact ⟨_, .rp hp hd hr' hc hz hf rfl, List.append_assoc _ [_] _⟩
  case «catch» error hp hd hc hz hf hm' =>
    cases hm ▸ hm'
    exact ⟨_, .finalizer hp hd hc rfl hf rfl, List.append_assoc _ [_] _⟩
  case «finally» hp hd hc hz hf hm' =>
    cases hm ▸ hm'
    exact ⟨_, .closed hp hd hc hz hf rfl, List.append_assoc _ [_] _⟩
  all_goals simp_all

theorem Stage.effect (h : Stage c s left) (he : Effect c s e s') : GoesOn c s' (s.calls ++ left) := by
  cases he
  case resolve => exact (resolvePromise_of_isSome h.promise_isSome).symm ▸ ⟨left, h, rfl⟩
  case done hd => exact ⟨left, h.congr rfl (by simp [hd]) rfl Iff.rfl rfl Iff.rfl rfl, rfl⟩
  case «catch» hc => exact ⟨left, h.congr rfl Iff.rfl rfl (by simp [hc]) rfl Iff.rfl rfl, rfl⟩
  case «finally» hf => exact ⟨left, h.congr rfl Iff.rfl rfl Iff.rfl rfl (by simp [hf]) rfl, rfl⟩
  case callDone hp hd => exact h.callDone hp hd
  case callCatch hr hc => exact h.callCatch hr hc
  case callFinally hz hf => exact h.callFinally hz hf
  case main hm => exact h.main hm

def Event.result : Event V E → Option (Result V E)
  | .resolve result => result
  | .done | .catch | .finally | .callDone | .callCatch | .callFinally | .main => none

theorem Effect.promise (he : Effect c s e s') : s'.promise = s.promise.or e.result := by
  cases he
  case resolve => rfl
  all_goals rw [Event.result, Option.or_none]
  case callDone result _ _ => cases result <;> rfl
  case callCatch result _ _ =>
    cases result
    case fulfilled => rfl
    case rejected  => rw [pipeCatch]; split <;> rfl
  case callFinally => rfl
  case main call _ _ =>
    cases call
    case done => rw [perform]; split <;> rfl
    all_goals rfl

inductive Progress (c : Closures V E) (s : Chain V E) : Prop
  | unresolved (hp : s.promise = none) (hd : s.done ≠ .called) (hr : s.rp = none) (hc : s.catch ≠ .called)
    (hz : s.finalizer = none) (hf : s.finally ≠ .called) (hm : s.main = []) (hn : s.calls = [])
  | resolved {result : Result V E} (hp : s.promise = some result) (hg : GoesOn c s (c.calls result))

theorem Progress.effect (h : Progress c s) (he : Effect c s e s') : Progress c s' := by
  cases h
  case resolved result hp hg =>
    have ⟨left, hl, hc⟩ := hg
    have hp' : s'.promise = some result := by rw [he.promise, hp, Option.some_or]
    exact .resolved hp' <| hc ▸ hl.effect he
  case unresolved hp hd hr hc hz hf hm hn =>
    cases he
    case resolve result =>
      have hp' : s.promise.or (some result) = some result := by rw [hp, Option.none_or]
      exact .resolved hp' ⟨_, .promise hp' hd hr hc hz hf hm, by simp [resolvePromise, hn]⟩
    case done      => exact .unresolved hp nofun hr hc hz hf hm hn
    case «catch»   => exact .unresolved hp hd hr nofun hz hf hm hn
    case «finally» => exact .unresolved hp hd hr hc hz nofun hm hn
    case callDone hp' _    => nomatch hp ▸ hp'
    case callCatch hr' _   => nomatch hr ▸ hr'
    case callFinally hz' _ => nomatch hz ▸ hz'
    case main hm'          => nomatch hm ▸ hm'

def work (s : Chain V E) : Nat :=
  s.done.work + s.catch.work + s.finally.work + s.main.length

theorem work_pipeDone {result : Result V E} : (s.pipeDone result).work ≤ s.work + 1 := by
  cases result
  case fulfilled => simp [pipeDone, async, work, Nat.add_assoc]
  case rejected  => exact Nat.le_add_right _ _

theorem work_pipeCatch {result : Result Unit E} : (s.pipeCatch c result).work ≤ s.work + 1 := by
  cases result
  case fulfilled => exact Nat.le_add_right _ _
  case rejected  =>
    rw [pipeCatch]
    split
    · simp [async, work, Nat.add_assoc]
    · exact Nat.le_add_right _ _

theorem work_perform {call : Call V E} : (s.perform c call).work = s.work := by
  cases call
  case done => rw [perform]; split <;> rfl
  all_goals rfl

theorem Effect.work (he : Effect c s e s') (hn : e.result = none) : s'.work < s.work := by
  cases he
  case resolve      => nomatch hn
  case done hd      => simp [Chain.work, hd, Pipe.work]
  case «catch» hc   => simp [Chain.work, hc, Pipe.work]
  case «finally» hf => simp [Chain.work, hf, Pipe.work]
  case callDone hd =>
    refine work_pipeDone.trans_lt ?_
    simp +arith [Chain.work, hd, Pipe.work]
  case callCatch hc =>
    refine work_pipeCatch.trans_lt ?_
    simp +arith [Chain.work, hc, Pipe.work]
  case callFinally hf => simp +arith [pipeFinally, async, Chain.work, hf, Pipe.work]
  case main hm =>
    rw [work_perform]
    simp [Chain.work, hm]

theorem exec_work (h : exec c s es = some s') : (es.filter (·.result.isNone)).length + s'.work ≤ s.work := by
  induction es generalizing s
  case nil => exact Option.some.inj h ▸ (Nat.zero_add _).le
  case cons e es hi =>
    have ⟨s₁, hs, h⟩ := Run.exec_cons_eq_some.mp h
    have hi := hi h
    have he := step_effect hs
    cases hr : e.result
    case none =>
      have hw := he.work hr
      simp only [List.filter_cons, hr, Option.isNone_none, if_true, List.length_cons]
      omega
    case some result =>
      cases he
      case resolve =>
        rw [List.filter_cons_of_neg (by simp [hr])]
        exact hi
      all_goals nomatch hr

def Rests (c : Closures V E) (s : Chain V E) : Prop :=
  ∀ e, e.result = none → s.step c e = none

theorem Rests.absent (h : s.Rests c) : s.done ≠ .absent ∧ s.catch ≠ .absent ∧ s.finally ≠ .absent := by
  have hd : s.done ≠ .absent := fun hd => by simpa [step, hd] using h .done rfl
  have hc : s.catch ≠ .absent := fun hc => by simpa [step, hd, hc] using h .catch rfl
  have hf : s.finally ≠ .absent := fun hf => by simpa [step, hc, hf] using h .finally rfl
  exact ⟨hd, hc, hf⟩

theorem Pipe.eq_waiting {pipe : Pipe} (ha : pipe ≠ .absent) (hc : pipe ≠ .called) : pipe = .waiting := by
  cases pipe <;> trivial

theorem Stage.eq_nil (h : Stage c s left) (hr : s.Rests c) : left = [] := by
  have ⟨hd, hc, hf⟩ := hr.absent
  cases h
  case promise hp hd' _ _ _ _ _   => simpa [step, hp, Pipe.eq_waiting hd hd'] using hr .callDone rfl
  case rp hr' hc' _ _ _           => simpa [step, hr', Pipe.eq_waiting hc hc'] using hr .callCatch rfl
  case finalizer hz hf' _         => simpa [step, hz, Pipe.eq_waiting hf hf'] using hr .callFinally rfl
  case done hm                    => simpa [step, hm] using hr .main rfl
  case «catch» hm                 => simpa [step, hm] using hr .main rfl
  case «finally» hm               => simpa [step, hm] using hr .main rfl
  case closed                       => rfl

theorem exec_promise (h : exec c s es = some s') :
    s'.promise = s.promise.or (es.filterMap Event.result).head? := by
  induction es generalizing s
  case nil => exact Option.some.inj h ▸ (Option.or_none).symm
  case cons e es hi =>
    have ⟨s₁, hs, h⟩ := Run.exec_cons_eq_some.mp h
    rw [hi h, (step_effect hs).promise, Option.or_assoc]
    cases hr : e.result <;> simp [hr]

theorem exec_progress (h : exec c {} es = some s) : Progress c s :=
  have h₀ : Progress c {} := .unresolved rfl nofun rfl nofun rfl nofun rfl rfl
  Run.invariant' (fun hp hs => Progress.effect hp (step_effect hs)) h₀ h

theorem Progress.calls_prefix (h : Progress c s) : s.calls <+: (s.promise.map c.calls).getD [] := by
  cases h
  case unresolved hn => simp [hn]
  case resolved hp hg =>
    have ⟨left, _, hc⟩ := hg
    exact ⟨left, by simp [hp, hc]⟩

theorem Progress.calls_of_rests (h : Progress c s) (hr : s.Rests c) :
    s.calls = (s.promise.map c.calls).getD [] := by
  cases h
  case unresolved hp _ _ _ _ _ _ hn => simp [hp, hn]
  case resolved hp hg =>
    have ⟨left, hl, hc⟩ := hg
    rw [hl.eq_nil hr, List.append_nil] at hc
    simp [hp, hc]

-- The closures are called in the order of the statement, and all of them have been called once the chain
-- rests, which it does after a few steps.
theorem exec_chain (h : exec c {} es = some s) :
    s.promise = (es.filterMap Event.result).head? ∧ s.calls <+: (s.promise.map c.calls).getD [] ∧
    (s.Rests c → s.calls = (s.promise.map c.calls).getD []) ∧ (es.filter (·.result.isNone)).length ≤ 9 :=
  have hp := exec_progress h
  ⟨exec_promise h, hp.calls_prefix, hp.calls_of_rests, Nat.le_of_add_right_le <| exec_work h⟩

theorem exec_chain_throws :
    let c : Closures Nat String := { done _ := .error "e", isCancelled _ := false }
    ∃ s, exec c {} [.done, .resolve (.fulfilled 1), .catch, .resolve (.rejected "f"), .callDone, .main, .finally,
      .callCatch, .main, .callFinally, .main] = some s ∧ s.calls = [.done 1, .catch "e", .finally] := by
  intro c
  have h : exec c {} [.done, .resolve (.fulfilled 1), .catch, .resolve (.rejected "f"), .callDone, .main, .finally,
    .callCatch, .main, .callFinally, .main] = some _ := rfl
  refine ⟨_, h, (exec_chain h).right.right.left fun e he => ?_⟩
  cases e <;> first | rfl | nomatch he

end Chain
end PromiseKit
