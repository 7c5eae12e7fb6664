import SwiftProjectKit.Primitives.Run

namespace PromiseKit

inductive Result (V E : Type*)
  | fulfilled (value : V)
  | rejected  (error : E)
deriving DecidableEq

inductive CatchPolicy
  | allErrors
  | allErrorsExceptCancellation
deriving DecidableEq

structure Closures (V E : Type*) where
  done        : V → Except E Unit
  policy      : CatchPolicy := .allErrorsExceptCancellation
  isCancelled : E → Bool

inductive Call (V E : Type*)
  | done (value : V)
  | «catch» (error : E)
  | «finally»
deriving DecidableEq

inductive Pipe
  | absent
  | waiting
  | called
deriving DecidableEq

-- The boxes of the promise, of the promise that `done` returns, and of the finalizer that `catch` returns,
-- with the closures that are piped to them. Closures on the main queue are called in their order.
structure Chain (V E : Type*) where
  promise   : Option (Result V E) := none
  done      : Pipe := .absent
  rp        : Option (Result Unit E) := none
  «catch»   : Pipe := .absent
  finalizer : Option Unit := none
  «finally» : Pipe := .absent
  main      : List (Call V E) := []
  calls     : List (Call V E) := []
deriving DecidableEq

namespace Chain

variable {V E : Type*} (c : Closures V E) (s : Chain V E)

-- A box that is resolved already ignores further values.
def resolvePromise (result : Result V E) : Chain V E :=
  { s with promise := s.promise.or (some result) }

def resolveRp (result : Result Unit E) : Chain V E :=
  { s with rp := s.rp.or (some result) }

def resolveFinalizer : Chain V E :=
  { s with finalizer := some () }

def async (call : Call V E) : Chain V E :=
  { s with main := s.main ++ [call] }

def pipeDone : Result V E → Chain V E
  | .fulfilled value => s.async (.done value)
  | .rejected error  => s.resolveRp (.rejected error)

def pipeCatch : Result Unit E → Chain V E
  | .rejected error =>
    if c.policy = .allErrors ∨ !c.isCancelled error then
      s.async (.catch error)
    else
      s.resolveFinalizer
  | .fulfilled _ => s.resolveFinalizer

def pipeFinally : Chain V E :=
  s.async .finally

def perform : Call V E → Chain V E
  | .done value => match c.done value with
    | .ok _        => s.resolveRp (.fulfilled ())
    | .error error => s.resolveRp (.rejected error)
  | .catch _  => s.resolveFinalizer
  | .finally  => s

inductive Event (V E : Type*)
  | resolve (result : Result V E)
  | done
  | «catch»
  | «finally»
  | callDone
  | callCatch
  | callFinally
  | main
deriving DecidableEq

-- The promise is resolved at any time, the methods of the chain are called in their order, and a box calls
-- its closure as soon as both are there.
def step : Event V E → Option (Chain V E)
  | .resolve result => some <| s.resolvePromise result
  | .done           => if s.done = .absent then some { s with done := .waiting } else none
  | .catch          => if s.done ≠ .absent ∧ s.catch = .absent then some { s with «catch» := .waiting } else none
  | .finally        => if s.catch ≠ .absent ∧ s.finally = .absent then some { s with «finally» := .waiting } else none
  | .callDone => match s.promise with
    | some result => if s.done = .waiting then some <| { s with done := .called }.pipeDone result else none
    | none        => none
  | .callCatch => match s.rp with
    | some result => if s.catch = .waiting then some <| { s with «catch» := .called }.pipeCatch c result else none
    | none        => none
  | .callFinally => match s.finalizer with
    | some _ => if s.finally = .waiting then some <| { s with «finally» := .called }.pipeFinally else none
    | none   => none
  | .main => match s.main with
    | []         => none
    | call :: main => some <| { s with main, calls := s.calls ++ [call] }.perform c call

abbrev exec : Chain V E → List (Event V E) → Option (Chain V E) :=
  Run.exec (step c)

end Chain
end PromiseKit
