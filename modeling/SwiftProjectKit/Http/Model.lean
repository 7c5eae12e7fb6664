import Mathlib.Data.List.Basic

namespace Http

structure RequestError where
  code    : String
  data    : String
  message : String
deriving DecidableEq

inductive RequestErrorType
  | network
  | parsing
  | timeout

def RequestErrorType.rawValue : RequestErrorType → String
  | network => "300"
  | parsing => "301"
  | timeout => "302"

inductive JSON
  | null
  | bool   (b : Bool)
  | number (literal : String)
  | string (s : String)
  | array  (elements : List JSON)
  | object (members : List (String × JSON))

namespace JSON

def asDictionary : JSON → Option (List (String × JSON))
  | object members => members
  | _              => none

def isDictionaryArray : JSON → Bool
  | array elements => elements.all (·.asDictionary.isSome)
  | _              => false

end JSON

structure RequestResultModel (T : Type) where
  code       : String := ""
  data       : String := ""
  msg        : String := ""
  sign       : String := ""
  model      : Option T := none
  modelArray : Option (List T) := none

-- The conversions of KakaJSON and Foundation. `isRequestStringModel` states whether `T` is the
-- type `RequestStringModel`, whose data is not parsed any further.
structure KakaJSON (T : Type) where
  resultModel          : List (String × JSON) → RequestResultModel T
  model                : String → Option T
  modelArray           : String → List T
  jsonObject           : String → Option JSON
  isRequestStringModel : Bool

namespace RequestResultModel

variable {T : Type}

def isSuccess (resultModel : RequestResultModel T) : Bool :=
  resultModel.code == "200"

def isExit (resultModel : RequestResultModel T) : Bool :=
  resultModel.code == "-6"

def isBanRequest (resultModel : RequestResultModel T) : Bool :=
  resultModel.code == "0"

def isTokenTimeout (resultModel : RequestResultModel T) : Bool :=
  resultModel.code == "-5"

def pasringModel (kj : KakaJSON T) (resultModel : RequestResultModel T) : RequestResultModel T :=
  if !resultModel.data.isEmpty && !kj.isRequestStringModel then
    match kj.jsonObject resultModel.data with
    | none     => resultModel
    | some obj =>
      if obj.asDictionary.isSome then
        { resultModel with model := kj.model resultModel.data }
      else if obj.isDictionaryArray then
        { resultModel with modelArray := kj.modelArray resultModel.data }
      else
        resultModel
  else
    resultModel

def parsingJson (kj : KakaJSON T) (json : List (String × JSON)) : RequestResultModel T :=
  let resultModel := kj.resultModel json
  if resultModel.data.isEmpty then resultModel else resultModel.pasringModel kj

@[simp]
theorem pasringModel_code {kj : KakaJSON T} {resultModel : RequestResultModel T} :
    (resultModel.pasringModel kj).code = resultModel.code := by
  unfold pasringModel
  repeat' split
  all_goals rfl

@[simp]
theorem parsingJson_code {kj : KakaJSON T} {json : List (String × JSON)} :
    (parsingJson kj json).code = (kj.resultModel json).code := by
  simp only [parsingJson]
  split
  · rfl
  · exact pasringModel_code

theorem not_isSuccess_of_isTokenTimeout {resultModel : RequestResultModel T}
    (h : resultModel.isTokenTimeout) : !resultModel.isSuccess := by
  simp_all [isTokenTimeout, isSuccess]

end RequestResultModel
end Http
