import SwiftProjectKit.Primitives.Run

namespace PromiseKit

-- Closures are told apart by the elements of `H`, and `R` is the type of the values that they take.
inductive Sealant (H R : Type*)
  | pending (handlers : List H)
  | resolved (value : R)
deriving DecidableEq

-- What a thread still has to do for a call of `seal` or `pipe`. A barrier section is a single action, and
-- so is the call of a closure. What a closure does in turn, are actions of their own.
inductive Activity (H R : Type*)
  | «seal»  (value : R)
  | forEach (bodies : List H) (value : R)
  | pipe    (handler : H)
  | inspect (handler : H)
  | sealed  (handler : H)
  | resolve (handler : H) (value : R)
deriving DecidableEq

-- A box with the activities of all threads, and the calls of closures in their order.
structure EmptyBox (H R : Type*) where
  sealant    : Sealant H R := .pending []
  activities : List (Activity H R) := []
  calls      : List (H × R) := []
deriving DecidableEq

namespace EmptyBox

variable {H R : Type*} (s : EmptyBox H R)

def call (body : H) (value : R) : EmptyBox H R :=
  { s with calls := s.calls ++ [(body, value)] }

def goto (i : Nat) (activity : Activity H R) : EmptyBox H R :=
  { s with activities := s.activities.set i activity }

def leave (i : Nat) : EmptyBox H R :=
  { s with activities := s.activities.eraseIdx i }

-- `Promise.pipe` inspects the box without a barrier at first. A second inspection, with a barrier, calls
-- its body only after the barrier if the box has been resolved meanwhile.
def perform (i : Nat) : Activity H R → EmptyBox H R
  | .seal value => match s.sealant with
    | .pending handlers => { s with sealant := .resolved value } |>.goto i (.forEach handlers value)
    | .resolved _       => s.leave i
  | .forEach [] _ => s.leave i
  | .forEach (body :: bodies) value => s.call body value |>.goto i (.forEach bodies value)
  | .pipe handler => match s.sealant with
    | .pending _      => s.goto i (.inspect handler)
    | .resolved value => s.goto i (.resolve handler value)
  | .inspect handler => match s.sealant with
    | .pending handlers => { s with sealant := .pending (handlers ++ [handler]) } |>.leave i
    | .resolved _       => s.goto i (.sealed handler)
  | .sealed handler => match s.sealant with
    | .pending handlers => { s with sealant := .pending (handlers ++ [handler]) } |>.leave i
    | .resolved value   => s.call handler value |>.leave i
  | .resolve handler value => s.call handler value |>.leave i

inductive Event (H R : Type*)
  | «seal»  (value : R)
  | pipe    (handler : H)
  | perform (i : Nat)
deriving DecidableEq

-- Threads call `seal` and `pipe` at any time, and their activities take turns in any order.
def step : Event H R → Option (EmptyBox H R)
  | .seal value   => some { s with activities := s.activities ++ [.seal value] }
  | .pipe handler => some { s with activities := s.activities ++ [.pipe handler] }
  | .perform i    => s.activities[i]? |>.map (s.perform i)

abbrev exec : EmptyBox H R → List (Event H R) → Option (EmptyBox H R) :=
  Run.exec step

end EmptyBox
end PromiseKit
