import Mathlib.Data.List.Sort
import Mathlib.Data.String.Basic
import SwiftProjectKit.Http.Headers
import SwiftProjectKit.Http.Model

namespace Http

inductive HttpEnvironment
  | production
  | developer
  | «local»

inductive HttpURLType
  | main
  | assets

def HttpURLType.url (environment : HttpEnvironment) : HttpURLType → String
  | main => match environment with
    | .production => "http://chain.1xpocket.net"
    | .developer  => "http://1.14.239.189:7001"
    | .«local»    => "http://192.168.3.29:9001"
  | assets => match environment with
    | .production => "http://process.1xpocket.net"
    | .developer  => "http://1.14.239.189:7002"
    | .«local»    => "http://192.168.3.29:9002"

def EncryptUtil.MD5Key : HttpEnvironment → String
  | .production | .developer | .«local» => "83d6ab63bffd3370c2835bb4d363461d"

structure HTTPMethod where
  rawValue : String
deriving DecidableEq

namespace HTTPMethod

def get    : HTTPMethod := ⟨"GET"⟩
def delete : HTTPMethod := ⟨"DELETE"⟩
def post   : HTTPMethod := ⟨"POST"⟩

def isURLEncoding (method : HTTPMethod) : Bool :=
  method == get || method == delete

end HTTPMethod

-- A value of type `Any`, where values other than strings are those of `α`.
inductive AnyValue (α : Type)
  | string (s : String)
  | other  (a : α)

def AnyValue.description {α : Type} [ToString α] : AnyValue α → String
  | string s => s
  | other a  => toString a

-- A dictionary of type `[String: Any]`. The order of the entries is unspecified.
structure Parameters (α : Type) where
  entries : List (String × AnyValue α)
  nodup   : entries.map Prod.fst |>.Nodup

namespace Parameters

variable {α : Type}

def isEmpty (parameters : Parameters α) : Bool :=
  parameters.entries.isEmpty

def keys (parameters : Parameters α) : List String :=
  parameters.entries.map Prod.fst

def value (parameters : Parameters α) (key : String) : Option (AnyValue α) :=
  parameters.entries.lookup key

end Parameters

def dictIsEmpty {α : Type} (dict : Option (Parameters α)) : Bool :=
  dict.map Parameters.isEmpty |>.getD true

-- What a request transmits besides its headers. JSON bodies are those of the dictionary that
-- `paramsEncrypt` produces.
inductive Body (α : Type)
  | urlEncoded (parameters : Option (Parameters α))
  | json       (parameters : Option (List (String × String)))
  | multipart  (data : List UInt8) (name fileName mimeType : String)

inductive Settlement (T : Type)
  | fulfill (resultModel : RequestResultModel T)
  | reject  (error : RequestError)

def Settlement.isFulfill {T : Type} : Settlement T → Bool
  | fulfill _ => true
  | reject _  => false

inductive AFResult (ε : Type)
  | success (value : JSON)
  | failure (error : ε)

-- What is handed to Alamofire for a call: the request, and the closure for its response. The latter
-- yields all calls of the promise's resolver in order.
structure Exchange (α ε T : Type) where
  url          : String
  method       : HTTPMethod
  body         : Body α
  headers      : HTTPHeaders
  responseJSON : AFResult ε → List (Settlement T)

structure HttpRequestUntil where
  environment : HttpEnvironment := .developer
  headers     : HTTPHeaders

namespace HttpRequestUntil

variable {α ε P T : Type}

def platformVersion (appCurrentVersion : String) : String :=
  let version := appCurrentVersion.toList.filter (· ≠ '.')
  let version := if version.length ≤ 3 then '0' :: version else version
  "0120" ++ String.ofList version ++ "0001"

def share (appCurrentVersion : String) : HttpRequestUntil where
  headers := HTTPHeaders.ofDictionary [
    ("h", platformVersion appCurrentVersion),
    ("Accept", "application/json"),
    ("Content-Type", "application/json")
  ]

def updataHeaders (u : HttpRequestUntil) (name value : String) : HttpRequestUntil :=
  { u with headers := u.headers.update name value }

def deleteHeaders (u : HttpRequestUntil) (name : String) : HttpRequestUntil :=
  { u with headers := u.headers.remove name }

def appendParameter [ToString α] (str key : String) (value : AnyValue α) : String :=
  (if str.isEmpty then str else str ++ "&") ++ key ++ "=" ++ value.description

def encryptKey [ToString α] (parameters : Parameters α) (str key : String) : String :=
  match parameters.value key with
  | none             => str
  | some (.string s) => if s.isEmpty then str else appendParameter str key (.string s : AnyValue α)
  | some value       => appendParameter str key value

def parametersString [ToString α] (parameters : Parameters α) : String :=
  parameters.keys.insertionSort (· ≤ ·) |>.foldl (encryptKey parameters) ""

def parametersEncrypt [ToString α] (u : HttpRequestUntil) (parameters : Option (Parameters α)) :
    HttpRequestUntil :=
  match parameters with
  | none            => u
  | some parameters =>
    if parameters.isEmpty then u
    else u.updataHeaders "sign" (parametersString parameters ++ "&" ++ EncryptUtil.MD5Key u.environment)

def paramsEncrypt (u : HttpRequestUntil) (jsonStr : P → Option String) (parameters : Option P) :
    Option (List (String × String)) × HttpRequestUntil :=
  (parameters.bind jsonStr |>.map fun s => [("sign", s)], u.deleteHeaders "sign")

def handleFail (resultModel : RequestResultModel T) : List (Settlement T) :=
  let rejection := [.reject ⟨resultModel.code, resultModel.data, resultModel.msg⟩]
  if resultModel.isExit then
    rejection
  else if resultModel.isBanRequest then
    rejection
  else if resultModel.isTokenTimeout then
    -- The call of the resolver is commented out, while the `return` is not.
    []
  else
    rejection

-- The closure for responses, of which there is a copy in `request`, `requestEncodable` and `upload`.
def handleResponse (kj : KakaJSON T) : AFResult ε → List (Settlement T)
  | .success value =>
    match value.asDictionary with
    | none      => [.reject ⟨RequestErrorType.parsing.rawValue, "", "数据解析错误"⟩]
    | some json =>
      let resultModel := RequestResultModel.parsingJson kj json
      if resultModel.isSuccess then [.fulfill resultModel] else handleFail resultModel
  | .failure _ => [.reject ⟨RequestErrorType.network.rawValue, "", "网络错误，请稍后重试"⟩]

def request [ToString α] (u : HttpRequestUntil) (kj : KakaJSON T)
    (jsonStr : Parameters α → Option String) (urlType : HttpURLType) (url : String)
    (parameters : Option (Parameters α)) (method : HTTPMethod) :
    Exchange α ε T × HttpRequestUntil :=
  let urlStr := urlType.url u.environment ++ url
  if method.isURLEncoding then
    let u := u.parametersEncrypt parameters
    ({ url := urlStr, method, body := .urlEncoded parameters, headers := u.headers,
       responseJSON := handleResponse kj }, u)
  else
    let (parameters, u) := u.paramsEncrypt jsonStr parameters
    ({ url := urlStr, method, body := .json parameters, headers := u.headers,
       responseJSON := handleResponse kj }, u)

def requestEncodable (u : HttpRequestUntil) (kj : KakaJSON T) (jsonStr : P → Option String)
    (urlType : HttpURLType) (url : String) (parameters : Option P) :
    Exchange α ε T × HttpRequestUntil :=
  let urlStr := urlType.url u.environment ++ url
  let (parameters, u) := u.paramsEncrypt jsonStr parameters
  ({ url := urlStr, method := .post, body := .json parameters, headers := u.headers,
     responseJSON := handleResponse kj }, u)

def upload (u : HttpRequestUntil) (kj : KakaJSON T) (url : String) (data : List UInt8) :
    Exchange α ε T × HttpRequestUntil :=
  let urlStr := HttpURLType.main.url u.environment ++ url
  let uploadHeaders := HTTPHeaders.ofDictionary u.headers.dictionary
    |>.update "Content-Type" "multipart/from-data"
    |>.update "Content-Disposition" "form-data"
  ({ url := urlStr, method := .post, body := .multipart data "file" "xxx.jpeg" "image/jpeg",
     headers := uploadHeaders, responseJSON := handleResponse kj }, u)

end HttpRequestUntil

inductive Call (α P : Type)
  | request          (urlType : HttpURLType) (url : String) (parameters : Option (Parameters α)) (method : HTTPMethod)
  | requestEncodable (urlType : HttpURLType) (url : String) (parameters : Option P)
  | upload           (url : String) (data : List UInt8)

structure Conversions (α P T : Type) where
  kj               : KakaJSON T
  jsonStr          : Parameters α → Option String
  jsonStrEncodable : P → Option String

def Conversions.codeOnly : Conversions Nat Unit Unit where
  kj := {
    resultModel json     := { code := match json.lookup "code" with | some (.string s) => s | _ => "" }
    model _              := none
    modelArray _         := []
    jsonObject _         := none
    isRequestStringModel := false
  }
  jsonStr _          := none
  jsonStrEncodable _ := none

namespace Call

variable {α ε P T : Type} [ToString α]

def perform (conv : Conversions α P T) (u : HttpRequestUntil) :
    Call α P → Exchange α ε T × HttpRequestUntil
  | request urlType url parameters method =>
    u.request conv.kj conv.jsonStr urlType url parameters method
  | requestEncodable urlType url parameters =>
    u.requestEncodable conv.kj conv.jsonStrEncodable urlType url parameters
  | upload url data =>
    u.upload conv.kj url data

def performAll (conv : Conversions α P T) : HttpRequestUntil → List (Call α P) → List (Exchange α ε T)
  | _, []      => []
  | u, c :: cs =>
    let (x, u) := c.perform conv u
    x :: performAll conv u cs

end Call
end Http
