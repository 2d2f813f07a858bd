import Orchestrator.Models.Floats
import Orchestrator.Probes.Redaction
import Orchestrator.Runtime.Calls

/-!
# Probes — the client

`ProbeClient`: the requests a payload makes to the endpoints it is offered, and what they tell.

* `assertResponse`: the assertions, judged on a response, for a reading of floats as numbers.
* `Request`, `Network`, `Wire`: what is sent, what comes back, and a computation that sends.
* `runHttp`, `reflectionPool`, `runGrpc`: one endpoint.
* `candidates`, `run`: all of them, until one passes.

A network answers with any response, depending on all that has been sent to it.  What the packages
of Protobuf and of gRPC compute is given by `Client`.
-/

namespace Orchestrator.RouteProbes

/-- A file of descriptors; the texts in it take up space. -/
structure Descriptor where
  name : String
  dependency : List String
  size : Nat

/-- What the client is made with, and what it uses of other packages. -/
structure Client (P : Protobuf) where
  maxResponseBytes : Nat
  order : Arrangement
  grpcInstalled : Bool
  reflectionInstalled : Bool
  /-- The message of a method for a JSON body, or nothing where it is not one. -/
  serialize : P.Pool → String → Json → Option (List UInt8)
  /-- The JSON of a response message. -/
  deserialize : P.Pool → String → List UInt8 → Option Json
  /-- `_descriptor_pool`, of files. -/
  poolOf : List Descriptor → Option P.Pool

variable {P : Protobuf}

/-! ### Assertions -/

/-- A number: finite, or not. -/
def numberOf (v : FloatText → ℚ) : Json → Option (ℚ ⊕ NonFinite)
  | .num n => some (.inl n)
  | .float x => some (.inl (v x))
  | .nonfinite x => some (.inr x)
  | _ => none

/-- `==`, of two numbers: NaN is not even itself. -/
def equalNumbers : ℚ ⊕ NonFinite → ℚ ⊕ NonFinite → Bool
  | .inl q, .inl r => decide (q = r)
  | .inr x, .inr y => decide (x = y ∧ x ≠ .nan)
  | _, _ => false

/-- `_json_scalar_equal`. -/
def jsonScalarEqual (v : FloatText → ℚ) (actual expected : Json) : Bool :=
  match numberOf v actual, numberOf v expected with
  | some x, some y => equalNumbers x y
  | _, _ => decide (actual = expected)

mutual

/-- `_json_equal`; each key of an object is there once. -/
def jsonEqual (v : FloatText → ℚ) (actual : Json) : Json → Bool
  | .obj expected =>
      match actual with
      | .obj fields => fields.all (fun e => (expected.lookup e.1).isSome) &&
          fieldsEqual v fields expected
      | _ => false
  | .arr expected =>
      match actual with
      | .arr items => items.length == expected.length && itemsEqual v items expected
      | _ => false
  | expected => jsonScalarEqual v actual expected

def itemsEqual (v : FloatText → ℚ) (actual : List Json) : List Json → Bool
  | [] => true
  | expected :: l =>
      match actual with
      | [] => false
      | item :: items => jsonEqual v item expected && itemsEqual v items l

def fieldsEqual (v : FloatText → ℚ) (actual : JsonFields) : List (String × Json) → Bool
  | [] => true
  | (key, expected) :: l =>
      match actual.lookup key with
      | none => false
      | some item => jsonEqual v item expected && fieldsEqual v actual l

end

mutual

/-- `_json_contains`. -/
def jsonContains (v : FloatText → ℚ) (actual : Json) : Json → Bool
  | .obj expected =>
      match actual with
      | .obj fields => fieldsContained v fields expected
      | _ => false
  | .arr expected =>
      match actual with
      | .arr items => itemsContained v items expected
      | _ => false
  | expected => jsonScalarEqual v actual expected

def itemsContained (v : FloatText → ℚ) (actual : List Json) : List Json → Bool
  | [] => true
  | expected :: l =>
      match actual with
      | [] => false
      | item :: items => jsonContains v item expected && itemsContained v items l

def fieldsContained (v : FloatText → ℚ) (actual : JsonFields) : List (String × Json) → Bool
  | [] => true
  | (key, expected) :: l =>
      match actual.lookup key with
      | none => false
      | some item => jsonContains v item expected && fieldsContained v actual l

end

/-- The value at a path. -/
def follow : List Token → Json → Option Json
  | [], actual => some actual
  | .index n :: tokens, .arr items => (items[n]?).bind (follow tokens)
  | .name key :: tokens, .obj fields => (fields.lookup key).bind (follow tokens)
  | _, _ => none

def listOf : Option Json → List Json
  | some (.arr items) => items
  | _ => []

/-- The texts of an object of texts. -/
def textFields (fields : JsonFields) : List (String × String) :=
  fields.filterMap fun e => match e.2 with
    | .str text => some (e.1, text)
    | _ => none

def failsIf (message : String) (b : Bool) : List String := if b then [message] else []

/-- The value at a path is the one expected. -/
def pathHolds (v : FloatText → ℚ) (json : Option Json) (path : String) (expected : Json) :
    Except Exc Bool :=
  match json with
  | none => .ok false
  | some actual => do
      let tokens ← jsonPathTokens path
      return (follow tokens actual).any fun value => jsonEqual v value expected

def pathErrors (v : FloatText → ℚ) (json : Option Json) : JsonFields → Except Exc (List String)
  | [] => .ok []
  | e :: l => do
      let holds ← pathHolds v json e.1 e.2
      let errors ← pathErrors v json l
      return failsIf "Response JSON path assertion failed" (!holds) ++ errors

/-- `_assert_response`. -/
def assertResponse (v : FloatText → ℚ) (assertions : JsonFields) (body : String) (json : Option Json)
    (headers : List (String × String)) : Except Exc (List String) := do
  let paths ← pathErrors v json (objectOf (assertions.lookup "json_path_equals"))
  let expected := textFields (objectOf (assertions.lookup "expected_headers"))
  return failsIf "Response header assertion failed"
      (expected.any fun e => headers.lookup e.1 != some e.2) ++
    failsIf "Response body equality assertion failed"
      ((assertions.lookup "body_equals").any fun x => x != .str body) ++
    failsIf "Response body content assertion failed"
      ((listOf (assertions.lookup "body_contains")).any fun
        | .str item => !occurs item.toList body.toList
        | _ => false) ++
    failsIf "Response JSON equality assertion failed"
      ((assertions.lookup "json_equals").any fun x => !json.any fun a => jsonEqual v a x) ++
    failsIf "Response JSON subset assertion failed"
      ((assertions.lookup "json_contains").any fun x => !json.any fun a => jsonContains v a x) ++
    paths

/-! ### Requests -/

/-- `ProbeEndpoint.authority`. -/
def authority (endpoint : ProbeEndpoint) : String :=
  (if endpoint.host.toList.contains ':' then "[" ++ endpoint.host ++ "]" else endpoint.host) ++
    ":" ++ toString endpoint.port

inductive HttpBody where
  | empty
  | content (text : String)
  | json (value : Json)

structure HttpRequest where
  method : String
  url : String
  params : Option Json
  headers : List (String × String)
  body : HttpBody

inductive GrpcRequest where
  | unary (route : String) (message : List UInt8)
  /-- The reflection service is asked for the file that defines a symbol, or of a name. -/
  | symbol (name : String)
  | file (name : String)

inductive Message where
  | http (r : HttpRequest)
  | grpc (r : GrpcRequest) (metadata : List (String × String))

/-- A message to an endpoint. -/
structure Request where
  endpoint : ProbeEndpoint
  message : Message

/-- `_ProbeFailure`, or another exception. -/
inductive Failure where
  | probe (kind message : String)
  | other

structure HttpResponse where
  status : Int
  headers : List (String × String)
  text : String
  bytes : Nat
  truncated : Bool
  /-- The JSON the text is, where it is some that can be stored. -/
  json : Option Json

inductive HttpReply where
  | response (r : HttpResponse)
  | timeout
  | httpError
  /-- Content in an encoding that is not supported, invalid, or incomplete. -/
  | unsupported
  | invalid
  | incomplete
  | exception

structure GrpcResponse where
  status : String
  statusCode : Nat
  details : String
  headers : List (String × String)
  data : List UInt8

/-- A network: `late` tells that the deadline has passed. -/
structure Network where
  late : List Request → Bool
  http : List Request → HttpReply
  /-- No response: an exception that is no status. -/
  unary : List Request → Option GrpcResponse
  /-- No files: the reflection service fails. -/
  files : List Request → Option (List Descriptor)
  /-- How many rounds of questions fit before the deadline. -/
  rounds : Nat

/-- A computation that sends requests. -/
def Wire (α : Type) : Type := List Request → Except Failure α × List Request

namespace Wire

variable {α β : Type}

def fail (e : Failure) : Wire α := fun sent => (.error e, sent)

def ofOption (e : Failure) : Option α → Wire α
  | some a => fun sent => (.ok a, sent)
  | none => fail e

def ofExcept : Except Exc α → Wire α
  | .ok a => fun sent => (.ok a, sent)
  | .error _ => fail .other

instance : Monad Wire where
  pure a := fun sent => (.ok a, sent)
  bind p k := fun sent =>
    match p sent with
    | (.ok a, sent) => k a sent
    | (.error e, sent) => (.error e, sent)

theorem bind_of_ok {p : Wire α} {sent sent' : List Request} {a : α} (h : p sent = (.ok a, sent'))
    (k : α → Wire β) : (p >>= k) sent = k a sent' := by
  simp only [Bind.bind, h]

theorem bind_of_error {p : Wire α} {sent sent' : List Request} {e : Failure}
    (h : p sent = (.error e, sent')) (k : α → Wire β) : (p >>= k) sent = (.error e, sent') := by
  simp only [Bind.bind, h]

/-- `r` is sent, and `reply` comes back to all that has been sent. -/
def ask (r : Request) (reply : List Request → α) : Wire α := fun sent =>
  (.ok (reply (sent ++ [r])), sent ++ [r])

/-- What has been sent tells. -/
def look (f : List Request → α) : Wire α := fun sent => (.ok (f sent), sent)

end Wire

/-! ### HTTP -/

/-- `payload["headers"]`. -/
def headersOf (payload : JsonFields) : JsonFields := objectOf (payload.lookup "headers")

def assertionsOf (payload : JsonFields) : JsonFields := objectOf (payload.lookup "assertions")

def httpHeaders (payload : JsonFields) : List (String × String) :=
  textFields (merge [("accept-encoding", .str "identity")] (headersOf payload))

def httpRequest (payload : JsonFields) (route : String) (endpoint : ProbeEndpoint) :
    HttpRequest where
  method := match payload.lookup "method" with
    | some (.str method) => method
    | _ => ""
  url := endpoint.scheme ++ "://" ++ authority endpoint ++ route
  params := payload.lookup "query_params"
  headers := httpHeaders payload
  body := match payload.lookup "body" with
    | none | some .null => .empty
    | some (.str text) => .content text
    | some value => .json value

def httpReply : HttpReply → Wire HttpResponse
  | .response r => return r
  | .timeout => Wire.fail (.probe "timeout" "HTTP probe exceeded its configured timeout")
  | .httpError => Wire.fail (.probe "transport_error" "HTTP probe could not complete the request")
  | .unsupported =>
      Wire.fail (.probe "invalid_response" "HTTP response used unsupported content encoding")
  | .invalid =>
      Wire.fail (.probe "invalid_response" "HTTP response contained invalid compressed data")
  | .incomplete =>
      Wire.fail (.probe "invalid_response" "HTTP response contained incomplete compressed data")
  | .exception => Wire.fail .other

def textsJson (headers : List (String × String)) : Json := .obj (headers.map fun e => (e.1, .str e.2))

def errorFields (kind message : String) : JsonFields :=
  [("error_type", .str kind), ("error", .str message)]

/-- What an HTTP response tells. -/
def httpResult (C : Client P) (payload : JsonFields) (r : HttpResponse) :
    Except Exc JsonFields := do
  let hidden := C.order.arrange (secrets (httpHeaders payload))
  let json := if r.truncated then none else r.json
  let errors ← assertResponse FloatText.value (assertionsOf payload) r.text json r.headers
  let expected := listOf ((assertionsOf payload).lookup "expected_status_list")
  let errors := failsIf "HTTP response status assertion failed" (!expected.contains (.num r.status))
    ++ errors
  let response : JsonFields :=
    [("status_code", .num r.status), ("headers", textsJson (headersForResult hidden r.headers)),
      ("body", .str (redactText hidden r.text)), ("body_bytes", .num r.bytes),
      ("truncated", .bool r.truncated)] ++
    (json.map fun value => ("json", redactJson hidden value)).toList
  let result : JsonFields :=
    [("passed", .bool (errors.isEmpty && !r.truncated)), ("response", .obj response),
      ("assertion_errors", .arr (errors.map .str))]
  return result ++
    (if r.truncated then
      errorFields "response_too_large" "HTTP response exceeded the configured size limit"
    else if !errors.isEmpty then
      errorFields "assertion_failed" "HTTP response did not satisfy probe assertions"
    else [])

/-- `_run_http`. -/
def runHttp (C : Client P) (N : Network) (payload : JsonFields) (route : String)
    (endpoint : ProbeEndpoint) : Wire JsonFields := do
  let reply ← Wire.ask ⟨endpoint, .http (httpRequest payload route endpoint)⟩ N.http
  let r ← httpReply reply
  Wire.ofExcept (httpResult C payload r)

/-! ### gRPC -/

def maxDescriptorFiles : Nat := 128

def reflectionFailed : Failure :=
  .probe "reflection_failed" "gRPC reflection could not resolve the required route"

/-- The files that are known, and the bytes they came in. -/
structure Files where
  known : List (String × Descriptor)
  bytes : Nat

def Files.add (files : Files) (d : Descriptor) : Option Files :=
  let known := (d.name, d) :: files.known.filter (·.1 != d.name)
  if maxDescriptorBytes < files.bytes + d.size ∨ maxDescriptorFiles < known.length then none
  else some ⟨known, files.bytes + d.size⟩

/-- `fetch`. -/
def fetch (N : Network) (endpoint : ProbeEndpoint) (metadata : List (String × String))
    (r : GrpcRequest) (files : Files) : Wire Files := do
  let late ← Wire.look N.late
  if late then Wire.fail (.probe "timeout" "gRPC reflection exceeded its configured timeout")
  else do
    let found ← Wire.ask ⟨endpoint, .grpc r metadata⟩ N.files
    let found ← Wire.ofOption reflectionFailed found
    Wire.ofOption reflectionFailed (found.foldlM Files.add files)

/-- The names that are depended on, and not known. -/
def Files.missing (files : Files) : List String :=
  ((files.known.flatMap fun e => e.2.dependency).filter fun name =>
    !(files.known.map Prod.fst).contains name).dedup

def fetchAll (N : Network) (endpoint : ProbeEndpoint) (metadata : List (String × String)) :
    List String → Files → Wire Files
  | [], files => return files
  | name :: names, files => do
      let files ← fetch N endpoint metadata (.file name) files
      fetchAll N endpoint metadata names files

/-- The loop of `_reflection_pool`, until the deadline. -/
def resolveAll (N : Network) (endpoint : ProbeEndpoint) (metadata : List (String × String)) :
    Nat → List String → Files → Wire Files
  | 0, _, _ => Wire.fail (.probe "timeout" "gRPC reflection exceeded its configured timeout")
  | n + 1, queried, files =>
      if files.missing.isEmpty then return files
      else if files.missing.any queried.contains then
        Wire.fail (.probe "reflection_failed" "gRPC reflection returned incomplete descriptors")
      else do
        let queried := queried ++ files.missing
        let files ← fetchAll N endpoint metadata files.missing files
        resolveAll N endpoint metadata n queried files

/-- `_reflection_pool`. -/
def reflectionPool (C : Client P) (N : Network) (endpoint : ProbeEndpoint) (route : String)
    (metadata : List (String × String)) : Wire P.Pool :=
  if !C.reflectionInstalled then
    Wire.fail (.probe "dependencies_unavailable" "gRPC reflection dependencies are unavailable")
  else do
    let (service, _) ← Wire.ofOption .other (grpcPath route.toList)
    let files ← fetch N endpoint metadata (.symbol (String.ofList service)) ⟨[], 0⟩
    let files ← resolveAll N endpoint metadata N.rounds [] files
    Wire.ofOption
      (.probe "reflection_failed" "gRPC reflection returned invalid descriptors")
      (C.poolOf (files.known.map Prod.snd))

def invalidMethod : Failure :=
  .probe "invalid_payload"
    "gRPC route or JSON body does not match a supported unary Protobuf method"

/-- The full name of the method of a route, where the pool has it. -/
def unaryMethod (pool : P.Pool) (route : String) : Option String :=
  match grpcPath route.toList with
  | some (service, method) =>
      if definesUnary P pool (.str route) then
        some (String.ofList (service ++ '.' :: method))
      else none
  | none => none

/-- The pool of the descriptors of the request. -/
def ownPool (P : Protobuf) (payload : JsonFields) : Wire (Option P.Pool) :=
  match payload.lookup "descriptor_set_base64" with
  | none => return none
  | some value => do
      let bytes ← Wire.ofExcept (decodeBase64 "descriptor_set_base64" maxDescriptorBytes value)
      let pool ← Wire.ofOption .other (P.descriptorPool bytes)
      return some pool

/-- The pool of the descriptors of the request, or else of those of the service. -/
def requestPool (C : Client P) (N : Network) (payload : JsonFields) (route : String)
    (endpoint : ProbeEndpoint) (metadata : List (String × String)) : Wire P.Pool := do
  match ← ownPool P payload with
  | some pool => return pool
  | none => reflectionPool C N endpoint route metadata

/-- The bytes of the request, and the pool and the method its response is read with. -/
def grpcMessage (C : Client P) (N : Network) (payload : JsonFields) (route : String)
    (endpoint : ProbeEndpoint) (metadata : List (String × String)) :
    Wire (List UInt8 × Option (P.Pool × String)) :=
  match payload.lookup "body_base64" with
  | some value => do
      let message ← Wire.ofExcept (decodeBase64 "body_base64" maxPayloadBytes value)
      let pool ← ownPool P payload
      match pool with
      | none => return (message, none)
      | some pool => do
          let method ← Wire.ofOption invalidMethod (unaryMethod pool route)
          return (message, some (pool, method))
  | none => do
      let pool ← requestPool C N payload route endpoint metadata
      let method ← Wire.ofOption invalidMethod (unaryMethod pool route)
      let body := match payload.lookup "body" with
        | none | some .null => .obj []
        | some body => body
      let message ← Wire.ofOption invalidMethod (C.serialize pool method body)
      return (message, some (pool, method))

/-- The JSON of a response. -/
def responseJson (C : Client P) (reader : Option (P.Pool × String)) (truncated : Bool)
    (r : GrpcResponse) (data : List UInt8) : Wire (Option Json) :=
  match reader with
  | none => return none
  | some (pool, method) =>
      if truncated || r.status != "OK" then return none
      else do
        let json ← Wire.ofOption (.probe "invalid_response"
          "gRPC response was not valid for the declared Protobuf output type")
          (C.deserialize pool method data)
        return some json

/-- `data.decode("utf-8", errors="replace")`. -/
def decodeReplacing (data : List UInt8) : String :=
  String.ofList (Percent.decode none (data.map fun b => .byte b.toNat))

/-- What a gRPC response tells. -/
def grpcResult (C : Client P) (payload : JsonFields) (r : GrpcResponse) (details : String)
    (truncated : Bool) (data : List UInt8) (json : Option Json) : Except Exc JsonFields := do
  let hidden := C.order.arrange (secrets (textFields (headersOf payload)))
  let text := match json with
    | some value => String.ofList value.canonical
    | none => decodeReplacing data
  let errors ← assertResponse FloatText.value (assertionsOf payload) text json r.headers
  let expected := listOf ((assertionsOf payload).lookup "expected_grpc_status_list")
  let errors := failsIf "gRPC response status assertion failed" (!expected.contains (.str r.status))
    ++ errors
  let response : JsonFields :=
    [("grpc_status", .str r.status), ("grpc_status_code", .num r.statusCode),
      ("details", .str details), ("headers", textsJson (headersForResult hidden r.headers)),
      ("body_base64", .str (String.ofList (Base64.encode (redactBytes hidden data)))),
      ("body_bytes", .num data.length), ("truncated", .bool truncated)] ++
    (json.map fun value => ("json", redactJson hidden value)).toList
  let result : JsonFields :=
    [("passed", .bool (errors.isEmpty && !truncated)), ("assertion_errors", .arr (errors.map .str)),
      ("response", .obj response)]
  return result ++
    (if truncated then
      errorFields "response_too_large" "gRPC response exceeded the configured size limit"
    else if r.status = "DEADLINE_EXCEEDED" then
      if errors.isEmpty then []
      else errorFields "timeout" "gRPC probe exceeded its configured timeout"
    else if !errors.isEmpty then
      errorFields "assertion_failed" "gRPC response did not satisfy probe assertions"
    else [])

/-- `_run_grpc`. -/
def runGrpc (C : Client P) (N : Network) (payload : JsonFields) (route : String)
    (endpoint : ProbeEndpoint) : Wire JsonFields :=
  let metadata := textFields (headersOf payload)
  let hidden := C.order.arrange (secrets metadata)
  if !C.grpcInstalled then
    Wire.fail (.probe "dependencies_unavailable" "gRPC probe dependencies are unavailable")
  else if metadata.any fun e => "-bin".toList.isSuffixOf e.1.toList then
    Wire.fail (.probe "invalid_payload" "Binary gRPC request metadata is unsupported")
  else do
    let (message, reader) ← grpcMessage C N payload route endpoint metadata
    let late ← Wire.look N.late
    if maxPayloadBytes < message.length then
      Wire.fail (.probe "invalid_payload" "gRPC request exceeded the configured size limit")
    else if late then
      Wire.fail (.probe "timeout" "gRPC probe exceeded its configured timeout")
    else do
      let reply ← Wire.ask ⟨endpoint, .grpc (.unary route message) metadata⟩ N.unary
      let r ← Wire.ofOption .other reply
      let details := clip 4096 (redactText hidden r.details)
      let truncated := decide (C.maxResponseBytes < r.data.length) ||
        (r.status == "RESOURCE_EXHAUSTED" && occurs "larger than max".toList (lowered details))
      let data := r.data.take C.maxResponseBytes
      let json ← responseJson C reader truncated r data
      Wire.ofExcept (grpcResult C payload r details truncated data json)

/-! ### All endpoints -/

/-- The endpoints a normalised payload matches. -/
def candidates (normalized : JsonFields) (endpoints : List ProbeEndpoint) : List ProbeEndpoint :=
  endpoints.filter fun endpoint =>
    (normalized.lookup "service_name").all (· == .str endpoint.serviceName) &&
    (normalized.lookup "target_port").all (fun x =>
      match endpoint.targetPort with
      | some n => x == .num n
      | none => false) &&
    (isGrpc normalized || ["http", "https"].contains endpoint.scheme)

/-- The payload as it is probed, and the endpoints it is probed at. -/
def select (P : Protobuf) (payload : Json) (route : String) (endpoints : List ProbeEndpoint) :
    Except Exc (JsonFields × List ProbeEndpoint) := do
  validateRoute route false
  let normalized ← validateProbePayload P payload (some route)
  return (objectOf (some normalized), candidates (objectOf (some normalized)) endpoints)

/-- The endpoints `run` selects. -/
def selected (P : Protobuf) (payload : Json) (route : String) (endpoints : List ProbeEndpoint) :
    List ProbeEndpoint :=
  match select P payload route endpoints with
  | .ok (_, chosen) => chosen
  | .error _ => []

def failureFields : Failure → JsonFields
  | .probe kind message => ("passed", .bool false) :: errorFields kind message
  | .other => ("passed", .bool false) ::
      errorFields "transport_error" "Probe transport could not complete the request"

def protocolJson (payload : JsonFields) : Json := (payload.lookup "protocol").getD .null

/-- One endpoint. -/
def attempt (C : Client P) (N : Network) (payload : JsonFields) (route : String)
    (endpoint : ProbeEndpoint) (sent : List Request) : JsonFields × List Request :=
  let base : JsonFields :=
    [("protocol", protocolJson payload), ("service_name", .str endpoint.serviceName),
      ("target_port", endpoint.targetPort.elim .null fun n => .num n), ("path", .str route)]
  let execute := if isGrpc payload then runGrpc C N payload route endpoint
    else runHttp C N payload route endpoint
  match execute sent with
  | (.ok result, sent) => (merge base result, sent)
  | (.error e, sent) => (merge base (failureFields e), sent)

def passed (result : JsonFields) : Bool := result.lookup "passed" == some (.bool true)

/-- The loop over the candidates. -/
def attempts (C : Client P) (N : Network) (payload : JsonFields) (route : String) :
    List ProbeEndpoint → List Request → List JsonFields × List Request
  | [], sent => ([], sent)
  | endpoint :: endpoints, sent =>
      let (result, sent) := attempt C N payload route endpoint sent
      if passed result then ([result], sent)
      else
        let (results, sent) := attempts C N payload route endpoints sent
        (result :: results, sent)

/-- `ProbeClient.run`: the result, and what has been sent. -/
def run (C : Client P) (N : Network) (payload : Json) (route : String)
    (endpoints : List ProbeEndpoint) : Json × List Request :=
  match select P payload route endpoints with
  | .error _ =>
      (.obj ([("passed", .bool false)] ++
        errorFields "invalid_payload" "Probe request validation failed" ++
        [("attempts", .arr [])]), [])
  | .ok (normalized, chosen) =>
      let (results, sent) := attempts C N normalized route chosen []
      match results.getLast? with
      | none =>
          (.obj ([("passed", .bool false), ("protocol", protocolJson normalized)] ++
            errorFields "no_endpoint" "No matching deployment-owned probe endpoint is available" ++
            [("attempts", .arr [])]), sent)
      | some last => (.obj (put "attempts" (.arr (results.map .obj)) last), sent)

end Orchestrator.RouteProbes
