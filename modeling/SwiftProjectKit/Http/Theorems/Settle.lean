import SwiftProjectKit.Http.Until

namespace Http

variable {α ε P T : Type} {kj : KakaJSON T} {result : AFResult ε}

namespace AFResult

def resultModel (kj : KakaJSON T) : AFResult ε → Option (RequestResultModel T)
  | success value => value.asDictionary.map (RequestResultModel.parsingJson kj)
  | failure _     => none

def Succeeds (kj : KakaJSON T) (result : AFResult ε) : Prop :=
  ∃ m, result.resultModel kj = some m ∧ m.isSuccess

def TimesOut (kj : KakaJSON T) (result : AFResult ε) : Prop :=
  ∃ m, result.resultModel kj = some m ∧ m.isTokenTimeout

theorem TimesOut.not_succeeds (h : result.TimesOut kj) : ¬result.Succeeds kj := by
  rintro ⟨m, hm, hs⟩
  have ⟨m', hm', ht⟩ := h
  cases hm.symm.trans hm'
  simpa [hs] using RequestResultModel.not_isSuccess_of_isTokenTimeout ht

end AFResult

-- The resolver of a promise is called exactly once, and fulfills the promise precisely when the
-- response succeeds.
def SettledOnce (kj : KakaJSON T) (result : AFResult ε) (calls : List (Settlement T)) : Prop :=
  ∃ x, calls = [x] ∧ (x.isFulfill ↔ result.Succeeds kj)

namespace HttpRequestUntil

theorem handleFail_of_isTokenTimeout {m : RequestResultModel T} (h : m.isTokenTimeout) :
    handleFail m = [] := by
  simp_all [handleFail, RequestResultModel.isTokenTimeout, RequestResultModel.isExit,
    RequestResultModel.isBanRequest]

theorem handleFail_of_not_isTokenTimeout {m : RequestResultModel T} (h : ¬m.isTokenTimeout) :
    handleFail m = [.reject ⟨m.code, m.data, m.msg⟩] := by
  simp [handleFail, h]

theorem handleResponse_of_resultModel_none (h : result.resultModel kj = none) :
    ∃ error, handleResponse kj result = [.reject error] := by
  cases result
  case failure => exact ⟨_, rfl⟩
  case success =>
    have h := Option.map_eq_none_iff.mp h
    simp [handleResponse, h]

theorem handleResponse_of_resultModel_some {m : RequestResultModel T}
    (h : result.resultModel kj = some m) :
    handleResponse kj result = if m.isSuccess then [.fulfill m] else handleFail m := by
  cases result
  case failure => contradiction
  case success =>
    have ⟨_, hj, h⟩ := Option.map_eq_some_iff.mp h
    simp only [handleResponse, hj, h]

theorem handleResponse_of_timesOut (h : result.TimesOut kj) : handleResponse kj result = [] := by
  have ⟨m, hm, ht⟩ := h
  have hs := RequestResultModel.not_isSuccess_of_isTokenTimeout ht
  simp_all [handleResponse_of_resultModel_some hm, handleFail_of_isTokenTimeout ht]

theorem handleResponse_settledOnce_iff :
    SettledOnce kj result (handleResponse kj result) ↔ ¬result.TimesOut kj := by
  constructor
  case mp =>
    rintro ⟨_, h, _⟩ ht
    simp [handleResponse_of_timesOut ht] at h
  case mpr =>
    intro ht
    cases hm : result.resultModel kj
    case none =>
      have ⟨error, h⟩ := handleResponse_of_resultModel_none hm
      exact ⟨_, h, by simp [Settlement.isFulfill, AFResult.Succeeds, hm]⟩
    case some m =>
      have h := handleResponse_of_resultModel_some hm
      cases hs : m.isSuccess
      case true =>
        simp only [hs, if_true] at h
        exact ⟨_, h, by simp [Settlement.isFulfill, AFResult.Succeeds, hm, hs]⟩
      case false =>
        have ht : ¬m.isTokenTimeout := fun h => ht ⟨m, hm, h⟩
        rw [hs, if_neg (by simp), handleFail_of_not_isTokenTimeout ht] at h
        exact ⟨_, h, by simp [Settlement.isFulfill, AFResult.Succeeds, hm, hs]⟩

end HttpRequestUntil

namespace Call

variable [ToString α] {conv : Conversions α P T} {u : HttpRequestUntil}

theorem perform_responseJSON (c : Call α P) :
    (c.perform conv u).fst.responseJSON result = HttpRequestUntil.handleResponse conv.kj result := by
  cases c
  case request =>
    simp only [perform, HttpRequestUntil.request]
    split <;> rfl
  all_goals rfl

def SettlesOnce (conv : Conversions α P T) (u : HttpRequestUntil) (c : Call α P) (result : AFResult ε) :
    Prop :=
  SettledOnce conv.kj result <| (c.perform conv u).fst.responseJSON result

-- Each of the request paths settles its promise exactly once, unless the server reports that the
-- temporary token has timed out.
theorem settlesOnce_iff (conv : Conversions α P T) (u : HttpRequestUntil) (c : Call α P)
    (result : AFResult ε) : c.SettlesOnce conv u result ↔ ¬result.TimesOut conv.kj := by
  rw [SettlesOnce, perform_responseJSON]
  exact HttpRequestUntil.handleResponse_settledOnce_iff

theorem request_not_settlesOnce :
    ¬(request .main "/user/getInfo" none .post).SettlesOnce .codeOnly (.share "1.0.0")
      (.success <| .object [("code", .string "-5")] : AFResult Unit) := by
  rintro ⟨_, h, _⟩
  have : 0 = 1 := congrArg List.length h
  contradiction

end Call
end Http
