import HermesOps.Reviewer.Assignments
import HermesOps.Schemes.Raising

/-! `OpenAICompatibleProvider.generate`. The transport is any callable: it returns a value, of which the tests
    of the adapter see a part, or raises. `json.loads` is a parameter; it returns a document or raises one of
    its three exceptions. Texts that a response brings are code points, as an escape may name a lone
    surrogate. -/

namespace HermesOps.ModelProvider

open Schemes Reviewer Schemes.Raising

/-- `ModelProviderErrorKind`. -/
inductive ErrorKind where
  | unavailable
  | timeout
  | requestRejected
  | invalidResponse
  | providerFailed
  deriving DecidableEq

/-- Exceptions, by the first clause that catches them. `isinstance(error.reason, …)` may itself raise. -/
inductive Exn where
  | provider (kind : ErrorKind) (message : String)
  | timeoutError
  | urlError (timedOut : Except Exn Bool)
  | responseTooLarge
  | osError
  | unicodeDecodeError
  | jsonDecodeError
  | recursionError
  | valueError
  | unicodeEncodeError
  | other

/-! ### Requests -/

inductive ModelMessageRole where
  | system
  | user
  | assistant
  deriving DecidableEq

def ModelMessageRole.value : ModelMessageRole → String
  | .system => "system"
  | .user => "user"
  | .assistant => "assistant"

structure ModelMessage where
  role : ModelMessageRole
  content : String

structure ModelRequest where
  model : String
  messages : List ModelMessage
  nonempty : messages ≠ []
  timeoutSeconds : Rat
  positive : 0 < timeoutSeconds
  bounded : timeoutSeconds ≤ 600

/-- `_DEFAULT_MAX_RESPONSE_BYTES`. -/
def defaultMaxResponseBytes : Nat := 8 * 1024 * 1024

/-- `OpenAICompatibleConfig`. -/
structure Config where
  endpointUrl : String
  apiKey : Option String
  maxRequestBytes : Nat
  maxResponseBytes : Nat
  requestPositive : 0 < maxRequestBytes
  responsePositive : 0 < maxResponseBytes
  responseCeiling : maxResponseBytes ≤ defaultMaxResponseBytes

/-- `_EMPTY_REQUEST_SIZE`. -/
def emptyRequestSize : Nat := "\x7b\"model\":\"\",\"messages\":[]\x7d".utf8ByteSize

/-- `_EMPTY_MESSAGE_SIZE`. -/
def emptyMessageSize : Nat := "\x7b\"role\":\"\",\"content\":\"\"\x7d".utf8ByteSize

/-- The loop of `_minimum_request_size`. -/
def minimumSizeFrom (maximum : Nat) : Nat → Nat → List ModelMessage → Nat
  | _, size, [] => size
  | index, size, message :: messages =>
    let size := size + (emptyMessageSize + message.role.value.length + message.content.length +
      if index = 0 then 0 else 1)
    if size > maximum then size else minimumSizeFrom maximum (index + 1) size messages

/-- `_minimum_request_size`. -/
def minimumRequestSize (request : ModelRequest) (maximum : Nat) : Nat :=
  minimumSizeFrom maximum 0 (emptyRequestSize + request.model.length) request.messages

def messageText (message : ModelMessage) : String :=
  "\x7b\"role\":" ++ Controller.quote message.role.value ++ ",\"content\":" ++
    Controller.quote message.content ++ "\x7d"

/-- `json.dumps(document, ensure_ascii=False, separators=(",", ":"))`. -/
def payloadText (request : ModelRequest) : String :=
  "\x7b\"model\":" ++ Controller.quote request.model ++ ",\"messages\":[" ++
    ",".intercalate (request.messages.map messageText) ++ "]\x7d"

/-- `urllib.request.Request`. -/
structure HttpRequest where
  url : String
  data : ByteArray
  headers : List (String × String)
  method : String

def httpRequest (config : Config) (request : ModelRequest) : HttpRequest where
  url := config.endpointUrl
  data := (payloadText request).toUTF8
  headers := [("Accept", "application/json"), ("Content-Type", "application/json; charset=utf-8")] ++
    (config.apiKey.map fun key => ("Authorization", "Bearer " ++ key)).toList
  method := "POST"

/-! ### What a transport returns -/

/-- A header's value: `None`, a string, or something else. -/
inductive HeaderValue where
  | absent
  | text (value : String)
  | other
  deriving DecidableEq

/-- The second entry of a tuple: whether it is a `Mapping`, and its `get`. -/
structure Headers where
  isMapping : Except Exn Bool
  get : String → Except Exn HeaderValue

/-- A `_TransportResponse`, a tuple of three, or something else. An entry that does not have exactly the
    expected type is nothing. -/
inductive Returned where
  | response (status : Option Int) (body : Option ByteArray) (contentLength : HeaderValue)
  | triple (status : Option Int) (headers : Headers) (body : Option ByteArray)
  | other

/-- A `_TransportResponse` whose fields have their types. -/
structure Response where
  status : Int
  body : ByteArray
  contentLength : Option String

abbrev Transport := HttpRequest → Rat → Nat → Raising Exn Returned

def lift {α : Type} (x : Except Exn α) : Raising Exn α := x.mapError fun e => ⟨e, none⟩

/-- `_mapping_content_length`. -/
def mappingContentLength (headers : Headers) : Raising Exn HeaderValue :=
  attempt
    (do
      let rawLength ← lift (headers.get "Content-Length")
      if rawLength = .absent then lift (headers.get "content-length") else return rawLength)
    fun _ => some (raise .responseTooLarge)

/-- The last tests of `_normalize_transport_result`. -/
def checkedResponse : Option Int → Option ByteArray → HeaderValue → Option Response
  | some status, some body, .absent => some ⟨status, body, none⟩
  | some status, some body, .text value => some ⟨status, body, some value⟩
  | _, _, _ => none

/-- `_normalize_transport_result`. -/
def normalizeTransportResult : Returned → Raising Exn (Option Response)
  | .response status body contentLength => return checkedResponse status body contentLength
  | .triple (some status) headers body => do
    if ← lift headers.isMapping then
      match body with
      | none => return none
      | some body =>
        attempt
          (do
            let contentLength ← mappingContentLength headers
            return checkedResponse (some status) (some body) contentLength)
          fun
            | .responseTooLarge => some (return none)
            | _ => none
    else return none
  | _ => return none

/-! ### Checks of a response -/

/-- The most digits that `str` writes for an integer. -/
def maxStrDigits : Nat := 4300

/-- `str` of an integer. -/
def integerText (n : Nat) : Raising Exn String :=
  if maxStrDigits < (toString n).length then raise .valueError else return toString n

/-- `_bounded_content_length_value`. -/
def boundedContentLengthValue (rawLength : Option String) (maximum : Nat) : Raising Exn Unit :=
  match rawLength with
  | none => return ()
  | some rawLength => do
    if rawLength.toList = [] ∨ rawLength.toList.any fun c => c < '0' ∨ '9' < c then
      raise .responseTooLarge
    else
      let stripped := rawLength.toList.dropWhile fun c => c = '0'
      let significant := if stripped = [] then ['0'] else stripped
      let maximumText := (← integerText maximum).toList
      if maximumText.length < significant.length ∨
          significant.length = maximumText.length ∧ maximumText < significant then
        raise .responseTooLarge
      else return ()

/-- What the status alone decides. -/
def statusError (status : Int) : Option Exn :=
  if 300 ≤ status ∧ status < 400 then
    some (.provider .providerFailed "Model provider redirect was refused")
  else if 400 ≤ status ∧ status < 500 then
    some (.provider .requestRejected "Model provider rejected the request")
  else if 500 ≤ status ∧ status < 600 then
    some (.provider .providerFailed "Model provider failed to complete the request")
  else if status ≠ 200 then
    some (.provider .invalidResponse "Model provider returned an unsupported status")
  else none

/-- A parsed document, as far as the adapter looks into it. -/
inductive Document where
  | str (text : PyText)
  | arr (items : List Document)
  | obj (members : List (PyText × Document))
  | scalar

def Document.member (members : List (PyText × Document)) (key : String) : Option Document :=
  (members.find? fun x => x.1 = pyText key).map Prod.snd

/-- How `json.loads` raises: a syntax error, deep nesting, an integer literal above the digit limit. -/
inductive LoadsError where
  | jsonDecodeError
  | recursionError
  | valueError
  deriving DecidableEq

def LoadsError.exn : LoadsError → Exn
  | .jsonDecodeError => .jsonDecodeError
  | .recursionError => .recursionError
  | .valueError => .valueError

abbrev Loads := String → Except LoadsError Document

def responseLimit : Exn := .provider .invalidResponse "Model provider response exceeds the adapter limit"

def structureInvalid : Exn :=
  .provider .invalidResponse "Model provider response structure is invalid"

/-- `document["choices"][0]["message"]["content"]`, each step checked. -/
def messageContent : Document → Raising Exn PyText
  | .obj document =>
    match Document.member document "choices" with
    | some (.arr (.obj choice :: _)) =>
      match Document.member choice "message" with
      | some (.obj message) =>
        match Document.member message "content" with
        | some (.str text) => return text
        | _ => raise structureInvalid
      | _ => raise structureInvalid
    | _ => raise structureInvalid
  | _ => raise structureInvalid

/-! ### The adapter -/

/-- The clauses around the call of the transport. -/
def transportHandler : Exn → Option (Raising Exn Exn)
  | .timeoutError => some (return .provider .timeout "Model provider request timed out")
  | .urlError timedOut => some do
    if ← lift timedOut then return .provider .timeout "Model provider request timed out"
    else return .provider .unavailable "Model provider is unavailable"
  | .responseTooLarge => some (return responseLimit)
  | .osError => some (return .provider .unavailable "Model provider is unavailable")
  | _ => some (return .provider .providerFailed "Model provider transport failed")

def lengthHandler : Exn → Option (Raising Exn Exn)
  | .responseTooLarge => some (return responseLimit)
  | _ => none

def invalidJson : Exn := .provider .invalidResponse "Model provider returned invalid JSON"

def parseHandler : Exn → Option (Raising Exn Exn)
  | .unicodeDecodeError => some (return invalidJson)
  | .jsonDecodeError => some (return invalidJson)
  | .recursionError => some (return invalidJson)
  | _ => none

def encodeHandler : Exn → Option (Raising Exn Exn)
  | .unicodeEncodeError => some (return structureInvalid)
  | _ => none

/-- `json.loads(body.decode("utf-8"))`. -/
def parseBody (loads : Loads) (body : ByteArray) : Raising Exn Document :=
  match String.fromUTF8? body with
  | none => raise .unicodeDecodeError
  | some decoded => lift ((loads decoded).mapError LoadsError.exn)

/-- `output_text.encode("utf-8")`. -/
def encodeText (text : PyText) : Raising Exn Unit :=
  if isStorable text then return () else raise .unicodeEncodeError

def requestLimit : Exn :=
  .provider .requestRejected "Model request exceeds the provider adapter limit"

variable (config : Config) (transport : Transport) (loads : Loads)

/-- What follows a response with status 200. -/
def readResponse (response : Response) : Raising Exn PyText := do
  normalize (boundedContentLengthValue response.contentLength config.maxResponseBytes) lengthHandler
  if response.body.size > config.maxResponseBytes then raise responseLimit
  let document ← normalize (parseBody loads response.body) parseHandler
  let outputText ← messageContent document
  normalize (encodeText outputText) encodeHandler
  return outputText

/-- What follows the call of the transport. -/
def readResult (returned : Returned) : Raising Exn PyText := do
  match ← normalizeTransportResult returned with
  | none => raise (.provider .providerFailed "Model provider transport returned an invalid response")
  | some response =>
    match statusError response.status with
    | some e => raise e
    | none => readResponse config loads response

/-- `OpenAICompatibleProvider.generate`; the result is the `output_text` of the `ModelResult`. -/
def generate (request : ModelRequest) : Raising Exn PyText := do
  if minimumRequestSize request config.maxRequestBytes > config.maxRequestBytes then raise requestLimit
  let http := httpRequest config request
  if http.data.size > config.maxRequestBytes then raise requestLimit
  let returned ←
    normalize (transport http request.timeoutSeconds config.maxResponseBytes) transportHandler
  readResult config loads returned

end HermesOps.ModelProvider
