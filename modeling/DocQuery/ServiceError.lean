/-!
# DocQuery.ServiceError

Errors a store reports.
-/

namespace DocQuery

inductive ServiceErrorCode where
  | resourceNotFound
  | conditionalCheckFailed
  | throughputExceeded
  | requestLimitExceeded
  | validation
  | accessDenied
  | internalServerError
deriving DecidableEq, Repr

namespace ServiceErrorCode

def all : List ServiceErrorCode :=
  [.resourceNotFound, .conditionalCheckFailed, .throughputExceeded, .requestLimitExceeded,
    .validation, .accessDenied, .internalServerError]

instance : Inhabited ServiceErrorCode := ⟨.validation⟩

def name : ServiceErrorCode → String
  | .resourceNotFound => "ResourceNotFoundException"
  | .conditionalCheckFailed => "ConditionalCheckFailedException"
  | .throughputExceeded => "ProvisionedThroughputExceededException"
  | .requestLimitExceeded => "RequestLimitExceeded"
  | .validation => "ValidationException"
  | .accessDenied => "AccessDeniedException"
  | .internalServerError => "InternalServerError"

/-- The part of an error type after its last number sign; the whole of it if there is none. -/
def shortType (errorType : String) : String :=
  String.ofList (errorType.toList.reverse.takeWhile (· ≠ '#')).reverse

/-- The code of an error type, qualified or not. An unknown type is an internal error. -/
def ofErrorType (errorType : String) : ServiceErrorCode :=
  (all.find? fun code => code.name = shortType errorType).getD .internalServerError

end ServiceErrorCode

structure ServiceError where
  code : ServiceErrorCode
  message : String
  /-- The error of the client underneath, if there is one. -/
  source : Option String := none
deriving DecidableEq, Repr, Inhabited

namespace ServiceError

/-- A write was rejected by its condition. -/
def conditionalCheckFailed (message : String) : ServiceError :=
  { code := .conditionalCheckFailed, message }

/-- There is no such table or index. -/
def resourceNotFound (message : String) : ServiceError :=
  { code := .resourceNotFound, message }

/-- The request was malformed. -/
def validation (message : String) : ServiceError :=
  { code := .validation, message }

def withSource (error : ServiceError) (source : String) : ServiceError :=
  { error with source := some source }

def isConditionalCheckFailed (error : ServiceError) : Bool :=
  error.code = .conditionalCheckFailed

def text (error : ServiceError) : String :=
  error.code.name ++ ": " ++ error.message

end ServiceError

end DocQuery
