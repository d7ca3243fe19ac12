import NexaFx.Lib.Json

/-!
# The exception filter

`maskBody` and `GlobalExceptionFilter.catch` of
`common/filters/global-exception.filter.ts`: what is logged and what is answered
for a request and a thrown value.
-/

namespace NexaFx

namespace ExceptionFilter

def SENSITIVE_FIELDS : List String := ["password", "otp", "totpCode", "secretKey"]

def sensitive (key : String) : Bool := key ∈ SENSITIVE_FIELDS

/-- `masked[key] = value` makes no property of this name: it sets the prototype. -/
def PROTO : String := "__proto__"

/-- What a property of the body becomes in the copy. -/
def maskField (field : String × Json) : Option (String × Json) :=
  if field.1 = PROTO then none
  else some (field.1, if sensitive field.1 = true then .str "[REDACTED]" else field.2)

/-- `undefined` is `none`. -/
def maskBody : Option Json → Option Json
  | some (.obj fields) => some (.obj (fields.filterMap maskField))
  | body => body

structure Request where
  method : String
  url : String
  body : Option Json
  /-- The header `x-correlation-id`. -/
  correlationId : Option String
  /-- `user?.id` -/
  userId : Option String

/-- A thrown value. -/
inductive Exception where
  /-- An `HttpException` with the result of `getResponse()`. -/
  | http (status : ℕ) (response : Json)
  /-- Anything else that has properties: its message as a text, and its stack. -/
  | other (message : String) (stack : Option String)
  /-- `null` or `undefined`. -/
  | nullish

structure LogPayload where
  method : String
  path : String
  body : Option Json
  error : Json
  correlationId : Option String
  userId : Option String

inductive LogEntry where
  | text (message : String) (stack : Option String)
  | error (payload : LogPayload)
  | warn (payload : LogPayload)

structure ErrorResponse where
  statusCode : ℕ
  message : Json
  timestamp : ℕ
  path : String

/-- `message.message ?? 'Error'` of what is no string. -/
def loggedError : Json → Json
  | .str s => .str s
  | message =>
    match message.get "message" with
    | none | some .null => .str "Error"
    | some m => m

/-- `message.message || 'Error'` of what is no string. -/
def sentMessage : Json → Json
  | .str s => .str s
  | message =>
    match message.get "message" with
    | none => .str "Error"
    | some m => if m.falsy = true then .str "Error" else m

def Request.logPayload (request : Request) (message : Json) : LogPayload where
  method := request.method
  path := request.url
  body := maskBody request.body
  error := loggedError message
  correlationId := request.correlationId
  userId := request.userId

def Request.report (request : Request) (status : ℕ) (message : Json) : LogEntry :=
  if status ≥ 500 then .error (request.logPayload message) else .warn (request.logPayload message)

def Request.respond (request : Request) (status : ℕ) (message : Json) (now : ℕ) : ErrorResponse :=
  ⟨status, sentMessage message, now, request.url⟩

/-- `catch`: the log entries and the response; reading `.message` of a nullish
exception throws, before anything is logged or sent. -/
def «catch» (exception : Exception) (request : Request) (now : ℕ) :
    Option (List LogEntry × ErrorResponse) :=
  match exception with
  | .http status response =>
    some ([request.report status response], request.respond status response now)
  | .other message stack =>
    let generic := .str "Internal server error"
    some ([.text ("Unexpected exception: " ++ message) stack, request.report 500 generic],
      request.respond 500 generic now)
  | .nullish => none

end ExceptionFilter

end NexaFx
