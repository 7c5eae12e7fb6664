import SwiftProjectKit.Http.Theorems.Settle
import SwiftProjectKit.Promise.Theorems.Chain

namespace PromiseKit

open Http

-- The calls of the resolver that a request makes for a response.
def Result.ofSettlement {T : Type} : Settlement T → Result (RequestResultModel T) RequestError
  | .fulfill resultModel => .fulfilled resultModel
  | .reject error        => .rejected error

-- The closures by which a view controller awaits a request. They do not throw, and the errors of requests
-- are not errors of a cancellation.
def requestClosures (T : Type) : Closures (RequestResultModel T) RequestError where
  done _        := .ok ()
  isCancelled _ := false

namespace Chain

variable {α ε P T : Type} [ToString α] {conv : Conversions α P T} {u : HttpRequestUntil}
variable {request : Http.Call α P} {result : AFResult ε}
variable {s : Chain (RequestResultModel T) RequestError} {es : List (Event (RequestResultModel T) RequestError)}

theorem calls_ofSettlement (x : Settlement T) :
    (∃ m, (requestClosures T).calls (.ofSettlement x) = [.done m, .finally] ∧ x.isFulfill) ∨
    ∃ error, (requestClosures T).calls (.ofSettlement x) = [.catch error, .finally] ∧ !x.isFulfill := by
  cases x
  case fulfill m    => exact .inl ⟨m, rfl, rfl⟩
  case reject error => exact .inr ⟨error, rfl, rfl⟩

-- What comes of awaiting a request, once its response has arrived and all has been done about it. If the
-- temporary token has timed out, not even the closure of `finally` is called.
theorem exec_request (h : exec (requestClosures T) {} es = some s)
    (hr : es.filterMap Event.result = ((request.perform conv u).fst.responseJSON result).map .ofSettlement)
    (hs : s.Rests (requestClosures T)) :
    (result.TimesOut conv.kj → s.calls = []) ∧
    (result.Succeeds conv.kj → ∃ m, s.calls = [.done m, .finally]) ∧
    (¬result.TimesOut conv.kj → ¬result.Succeeds conv.kj → ∃ error, s.calls = [.catch error, .finally]) := by
  have hc := exec_progress h |>.calls_of_rests hs
  rw [exec_promise h, Option.none_or, hr, Http.Call.perform_responseJSON] at hc
  by_cases ht : result.TimesOut conv.kj
  case pos =>
    rw [HttpRequestUntil.handleResponse_of_timesOut ht] at hc
    exact ⟨fun _ => hc, fun hn => absurd hn ht.not_succeeds, fun hn => absurd ht hn⟩
  case neg =>
    have ⟨x, hx, hi⟩ := HttpRequestUntil.handleResponse_settledOnce_iff.mpr ht
    have hc : s.calls = (requestClosures T).calls (.ofSettlement x) := by simpa [hx] using hc
    refine ⟨fun hn => absurd hn ht, fun hn => ?_, fun _ hn => ?_⟩
    all_goals rcases calls_ofSettlement x with ⟨m, hm, hf⟩ | ⟨error, he, hf⟩
    · exact ⟨m, hc.trans hm⟩
    · simp [hi.mpr hn] at hf
    · exact absurd (hi.mp hf) hn
    · exact ⟨error, hc.trans he⟩

def networkError : RequestError :=
  ⟨RequestErrorType.network.rawValue, "", "网络错误，请稍后重试"⟩

def failedRequest : Http.Call Nat Unit :=
  .request .main "/user/getInfo" none .post

def failureRun : List (Event (RequestResultModel Unit) RequestError) :=
  [.done, .catch, .resolve (.rejected networkError), .finally, .callDone, .callCatch, .main, .callFinally, .main]

theorem exec_request_failure : ∃ s error, exec (requestClosures Unit) {} failureRun = some s ∧
    s.calls = [.catch error, .finally] := by
  have h : exec (requestClosures Unit) {} failureRun = some {
      promise := some (.rejected networkError), done := .called, rp := some (.rejected networkError), «catch» := .called
      finalizer := some (), «finally» := .called, calls := [.catch networkError, .finally] } := rfl
  have hr : ((failedRequest.perform .codeOnly (.share "1.0.0")).fst.responseJSON (.failure () : AFResult Unit)).map
      Result.ofSettlement = [.rejected networkError] := by
    rw [Http.Call.perform_responseJSON]
    rfl
  have ⟨_, _, hc⟩ := exec_request h hr.symm <| by
    intro e he
    cases e <;> first | rfl | nomatch he
  have ⟨error, hc⟩ := hc nofun nofun
  exact ⟨_, error, h, hc⟩

end Chain
end PromiseKit
