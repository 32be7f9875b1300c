import TxPlatform.Lib.Json
import TxPlatform.Dotnet.Decimal

/-!
# HTTP replies and the exceptions of a handler

A reply is its status, media type, body and the two headers the services set. The body is the
JSON value it carries; `none` is a body no JSON reader accepts: an empty one, broken or too deeply
nested text, an unknown character set. A handler that does not reply throws; `Exn` lists the
exceptions the modelled code can raise.
-/

namespace TxPlatform

inductive Exn where
  | operationCanceled
  | json
  | overflow
  | invalidOperation (message : String)
  | keyNotFound
  | nullValue
  | divideByZero
  | argumentOutOfRange (parameter : String)
  deriving DecidableEq

structure HttpResponse where
  statusCode : Int
  mediaType : String := "application/json"
  body : Option Json := none
  retryAfter : Option String := none
  idempotentReplayed : Bool := false

namespace HttpResponse

/-- `HttpResponseMessage.IsSuccessStatusCode`. -/
def isSuccessStatusCode (response : HttpResponse) : Bool :=
  200 ≤ response.statusCode ∧ response.statusCode ≤ 299

end HttpResponse

def problemTypeBase : String := "https://txplatform.local/problems/"

namespace Results

def ok (body : Json) : HttpResponse := { statusCode := 200, body := body }

def created (body : Json) : HttpResponse := { statusCode := 201, body := body }

def notFound : HttpResponse := { statusCode := 404 }

/-- `Results.Problem(statusCode, title, type, detail)`. -/
def problem (statusCode : Int) (title type : String) (detail : Option String) : HttpResponse where
  statusCode := statusCode
  mediaType := "application/problem+json"
  body := some (.obj ([("type", .str type), ("title", .str title), ("status", .int statusCode)]
    ++ (detail.map fun text => ("detail", Json.str text)).toList))

/-- `Results.ValidationProblem` with one message for one field. -/
def validationProblem (field message : String) : HttpResponse where
  statusCode := 400
  mediaType := "application/problem+json"
  body := some (.obj [("type", .str "https://tools.ietf.org/html/rfc9110#section-15.5.1"),
    ("title", .str "One or more validation errors occurred."), ("status", .int 400),
    ("errors", .obj [(field, .arr [.str message])])])

/-- What a handler answers for a fault that fails its request. -/
def injectedFault (statusCode : Int) : HttpResponse :=
  problem statusCode "Injected fault" (problemTypeBase ++ "injected-fault") none

end Results

end TxPlatform
