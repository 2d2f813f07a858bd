import Orchestrator.Models.Fallible
import Orchestrator.Models.JsonText
import Orchestrator.Probes.JsonPaths
import Orchestrator.Probes.Routes
import Orchestrator.Text.Base64

/-!
# Probes — payloads

`validate_probe_payload`: the normalisation of an agent's request.

* `put`: `result[key] = value`.
* `validateHeaders`, `expectedOf`, `normalizeHttp`, `normalizeGrpc`, `validateAssertions`: its
  parts.
* `validateProbePayload`.
* `retryPayload`: the request the debug agent repairs; the merge, its normalisation, and the
  comparison of the pinned fields.

Of Protobuf, which is another package, it uses `Protobuf`: a serialized set of descriptors may be
loaded, and a method looked up in it.
-/

namespace Orchestrator.RouteProbes

/-! ### Objects -/

abbrev JsonFields := List (String × Json)

/-- `result[key] = value`. -/
def put (key : String) (value : Json) : JsonFields → JsonFields
  | [] => [(key, value)]
  | (k, x) :: l => if k = key then (k, value) :: l else (k, x) :: put key value l

@[simp] theorem lookup_put_self (key : String) (value : Json) (l : JsonFields) :
    (put key value l).lookup key = some value := by
  induction l with
  | nil => exact List.lookup_cons_self
  | cons e l ih =>
      obtain ⟨k, x⟩ := e
      by_cases h : k = key
      · rw [put, if_pos h, h, List.lookup_cons_self]
      · simp only [put, if_neg h, List.lookup_cons, beq_false_of_ne (Ne.symm h), ih]

theorem lookup_put {key key' : String} (h : key' ≠ key) (value : Json) (l : JsonFields) :
    (put key value l).lookup key' = l.lookup key' := by
  induction l with
  | nil => simp only [put, List.lookup_cons, beq_false_of_ne h]
  | cons e l ih =>
      obtain ⟨k, x⟩ := e
      by_cases hk : k = key
      · subst hk
        simp only [put, if_true, List.lookup_cons, beq_false_of_ne h]
      · rw [put, if_neg hk]
        by_cases hj : key' = k
        · rw [hj, List.lookup_cons_self, List.lookup_cons_self]
        · simp only [List.lookup_cons, beq_false_of_ne hj, ih]

/-- Putting what is there changes nothing. -/
theorem put_of_lookup {key : String} {value : Json} {l : JsonFields}
    (h : l.lookup key = some value) : put key value l = l := by
  induction l with
  | nil => cases h
  | cons e l ih =>
      obtain ⟨k, x⟩ := e
      by_cases hk : k = key
      · subst hk
        rw [List.lookup_cons_self] at h
        rw [put, if_pos rfl, Option.some.inj h]
      · simp only [List.lookup_cons, beq_false_of_ne (Ne.symm hk)] at h
        rw [put, if_neg hk, ih h]

theorem mem_keys_put {key k : String} {value : Json} {l : JsonFields} :
    k ∈ (put key value l).map Prod.fst ↔ k = key ∨ k ∈ l.map Prod.fst := by
  induction l with
  | nil => simp [put]
  | cons e l ih =>
      obtain ⟨j, x⟩ := e
      by_cases hj : j = key
      · subst hj
        simp [put]
      · simp only [put, if_neg hj, List.map_cons, List.mem_cons, ih]
        tauto

/-! ### Constants -/

def maxPayloadBytes : Nat := 1024 * 1024

def maxDescriptorBytes : Nat := 1024 * 1024

def grpcCodes : List String :=
  ["OK", "CANCELLED", "UNKNOWN", "INVALID_ARGUMENT", "DEADLINE_EXCEEDED", "NOT_FOUND",
    "ALREADY_EXISTS", "PERMISSION_DENIED", "RESOURCE_EXHAUSTED", "FAILED_PRECONDITION", "ABORTED",
    "OUT_OF_RANGE", "UNIMPLEMENTED", "INTERNAL", "UNAVAILABLE", "DATA_LOSS", "UNAUTHENTICATED"]

def httpMethods : List String := ["GET", "POST", "PUT", "PATCH", "DELETE", "HEAD", "OPTIONS"]

def commonFields : List String :=
  ["protocol", "path", "service_name", "target_port", "headers", "body", "assertions"]

def httpFields : List String := commonFields ++ ["method", "query_params"]

def grpcFields : List String :=
  commonFields ++ ["method", "query_params", "body_base64", "descriptor_set_base64", "reflection"]

def assertionFields : List String :=
  ["expected_headers", "body_equals", "body_contains", "json_equals", "json_contains",
    "json_path_equals"]

def forbiddenHeaders : List String :=
  ["host", "connection", "content-length", "transfer-encoding", "upgrade", "proxy-authorization",
    "proxy-connection", "te", "trailer"]

/-! ### Texts -/

/-- `c.upper()`, where it is ASCII; any other character is kept, and is in no name. -/
def upperChar (c : Char) : List Char :=
  if c = 'ß' then ['S', 'S']
  else if c = 'ı' then ['I']
  else if c = 'ſ' then ['S']
  else if c = 'ﬀ' then ['F', 'F']
  else if c = 'ﬁ' then ['F', 'I']
  else if c = 'ﬂ' then ['F', 'L']
  else if c = 'ﬃ' then ['F', 'F', 'I']
  else if c = 'ﬄ' then ['F', 'F', 'L']
  else if c = 'ﬅ' ∨ c = 'ﬆ' then ['S', 'T']
  else [c.toUpper]

/-- `text.upper()`, as it is compared with ASCII names. -/
def upper (text : String) : String := String.ofList (text.toList.flatMap upperChar)

/-- `_HEADER_NAME.fullmatch(name)`. -/
def isHeaderName (name : String) : Bool :=
  name.toList ≠ [] && name.toList.all fun c =>
    c.isAlphanum || "!#$%&'*+.^_`|~-".toList.contains c

def isHeaderContent (content : String) : Bool :=
  content.length ≤ 8192 && content.toList.all fun c => 32 ≤ c.toNat && c.toNat < 127

/-! ### Parts -/

inductive Protocol where
  | http
  | grpc
  deriving DecidableEq, Repr

def Protocol.text : Protocol → String
  | .http => "http"
  | .grpc => "grpc"

def Protocol.fields : Protocol → List String
  | .http => httpFields
  | .grpc => grpcFields

def Protocol.expectedKey : Protocol → String
  | .http => "expected_status_list"
  | .grpc => "expected_grpc_status_list"

def protocolOf : Option Json → Except Exc Protocol
  | none | some (.str "http") => .ok .http
  | some (.str "grpc") => .ok .grpc
  | _ => .error (invalid "protocol must be http or grpc")

/-- Every key is one of `allowed`. -/
def keysWithin (allowed : List String) (l : JsonFields) : Bool :=
  (l.map Prod.fst).all allowed.contains

/-- `_validate_route`, of a JSON value. -/
def validateRouteValue (grpc : Bool) : Json → Except Exc Unit
  | .str route => validateRoute route grpc
  | _ => .error (invalid "require_route must be an absolute path, not a URL")

/-- `require_route if require_route is not None else result.get("path")`. -/
def routeOf (requireRoute : Option String) (path : Option Json) : Json :=
  match requireRoute with
  | some route => .str route
  | none => path.getD .null

/-- `path != route`, where the route is the path itself if none is required. -/
def otherPath (requireRoute : Option String) (path : Json) : Bool :=
  match requireRoute, path with
  | none, _ => false
  | some route, .str path => path ≠ route
  | some _, _ => true

def validatePath (requireRoute : Option String) (grpc : Bool) (path : Option Json) :
    Except Exc Unit := do
  match routeOf requireRoute path with
  | .null => pure ()
  | route => validateRouteValue grpc route
  match path with
  | none => pure ()
  | some path =>
      if otherPath requireRoute path then throw (invalid "path must equal require_route")
      validateRouteValue grpc path

def validateServiceName : Option Json → Except Exc Unit
  | none => .ok ()
  | some (.str name) =>
      if name = "" ∨ 256 < name.length then .error (invalid "service_name is invalid") else .ok ()
  | _ => .error (invalid "service_name is invalid")

def validateTargetPort : Option Json → Except Exc Unit
  | none => .ok ()
  | some (.num port) =>
      if 1 ≤ port ∧ port ≤ 65535 then .ok () else .error (invalid "target_port is invalid")
  | _ => .error (invalid "target_port is invalid")

/-- One header: its name in lower case, and its content. -/
def headerEntry (request : Bool) (name : String) : Json → Except Exc (String × Json)
  | .str content =>
      if !isHeaderName name || !isHeaderContent content then
        .error (invalid "headers contain an invalid name or value")
      else
        let lowerName := lower name
        if request && (forbiddenHeaders.contains lowerName || startsWith lowerName ":" ||
            startsWith lowerName "grpc-") then
          .error (invalid
            ("header " ++ lowerName ++ " cannot override transport authority or framing"))
        else .ok (lowerName, .str content)
  | _ => .error (invalid "headers contain an invalid name or value")

def headersLoop (request : Bool) : JsonFields → JsonFields → Except Exc JsonFields
  | [], result => .ok result
  | (name, content) :: l, result => do
      let e ← headerEntry request name content
      if (result.map Prod.fst).contains e.1 then
        throw (invalid "headers contain a duplicate name")
      headersLoop request l (result ++ [e])

/-- `_validate_headers`. -/
def validateHeaders (request : Bool) : Json → Except Exc JsonFields
  | .obj fields =>
      if 100 < fields.length then .error (invalid "headers must be a bounded object")
      else headersLoop request fields []
  | _ => .error (invalid "headers must be a bounded object")

/-- The assertions, and the list of expected statuses. -/
def expectedOf (protocol : Protocol) : Option Json → Except Exc (JsonFields × List Json)
  | some (.obj assertions) =>
      if !keysWithin (assertionFields ++ [protocol.expectedKey]) assertions then
        .error (invalid "assertions contain unsupported fields")
      else
        match assertions.lookup protocol.expectedKey with
        | some (.arr expected) =>
            if expected.isEmpty ∨ 500 < expected.length then
              .error (invalid (protocol.expectedKey ++ " must be a nonempty list"))
            else .ok (assertions, expected)
        | _ => .error (invalid (protocol.expectedKey ++ " must be a nonempty list"))
  | _ => .error (invalid "assertions contain unsupported fields")

def isHttpStatus : Json → Bool
  | .num code => 100 ≤ code && code ≤ 599
  | _ => false

/-- A value of a query parameter. -/
def isScalar : Json → Bool
  | .arr _ | .obj _ => false
  | _ => true

/-- `content if isinstance(content, list) else [content]`. -/
def valuesOf : Json → List Json
  | .arr items => items
  | content => [content]

def httpMethod : Json → Except Exc String
  | .str method =>
      if httpMethods.contains (upper method) then .ok (upper method)
      else .error (invalid "HTTP method is unsupported")
  | _ => .error (invalid "HTTP method is unsupported")

def validateParams : Json → Except Exc Unit
  | .obj params =>
      if 200 < params.length then .error (invalid "query_params must be a bounded object")
      else if params.any fun e => (valuesOf e.2).any fun x => !isScalar x then
        .error (invalid "query_params contain unsupported values")
      else .ok ()
  | _ => .error (invalid "query_params must be a bounded object")

/-- An HTTP request: its method in upper case. -/
def normalizeHttp (expected : List Json) (method params body : Option Json) :
    Except Exc String := do
  if !expected.all isHttpStatus then
    throw (invalid "expected_status_list must contain HTTP status integers")
  match method, params, body with
  | some method, some params, some _ =>
      let method ← httpMethod method
      validateParams params
      return method
  | _, _, _ => throw (invalid "HTTP method, query_params and body are required")

/-- A gRPC code, by its name or its number. -/
def normalizeCode : Json → Except Exc Json
  | .num n =>
      match if 0 ≤ n then grpcCodes[n.toNat]? else none with
      | some name => .ok (.str name)
      | none =>
          .error (invalid "expected_grpc_status_list must contain gRPC code names or integers")
  | .str code =>
      if grpcCodes.contains (upper code) then .ok (.str (upper code))
      else .error (invalid "expected_grpc_status_list must contain gRPC code names or integers")
  | _ => .error (invalid "expected_grpc_status_list must contain gRPC code names or integers")

structure MethodDescriptor where
  clientStreaming : Bool
  serverStreaming : Bool

/-- What is used of Protobuf. -/
structure Protobuf where
  Pool : Type
  /-- `_descriptor_pool`, or nothing where it raises. -/
  descriptorPool : List UInt8 → Option Pool
  findMethodByName : Pool → String → Option MethodDescriptor

def decodeBase64 (field : String) (limit : Nat) : Json → Except Exc (List UInt8)
  | .str value =>
      if (limit + 2) / 3 * 4 < value.length then
        .error (invalid (field ++ " is invalid or exceeds the size limit"))
      else
        match Base64.decode value.toList with
        | none => .error (invalid (field ++ " must be valid Base64"))
        | some decoded =>
            if limit < decoded.length then .error (invalid (field ++ " exceeds the size limit"))
            else .ok decoded
  | _ => .error (invalid (field ++ " is invalid or exceeds the size limit"))

/-- The method the route names is in the pool, and takes and returns one message. -/
def definesUnary (P : Protobuf) (pool : P.Pool) : Json → Bool
  | .str route =>
      match grpcPath route.toList with
      | some (service, method) =>
          match P.findMethodByName pool (String.ofList (service ++ '.' :: method)) with
          | some m => !m.clientStreaming && !m.serverStreaming
          | none => false
      | none => false
  | _ => false

def validateDescriptors (P : Protobuf) (route : Json) : Option Json → Except Exc Unit
  | none => .ok ()
  | some value => do
      let bytes ← decodeBase64 "descriptor_set_base64" maxDescriptorBytes value
      match P.descriptorPool bytes with
      | none =>
          throw (invalid "descriptor_set_base64 must contain complete valid Protobuf descriptors")
      | some pool =>
          match route with
          | .null => pure ()
          | route =>
              if !definesUnary P pool route then
                throw (invalid
                  "descriptor_set_base64 must define the required unary gRPC method")

/-- `value is None`. -/
def isNone : Option Json → Bool
  | none | some .null => true
  | _ => false

def isFalse : Option Json → Bool
  | some (.bool false) => true
  | _ => false

def validateGrpcBody (body base64 reflection descriptors : Option Json) : Except Exc Unit :=
  match base64 with
  | some value => do
      if !isNone body then throw (invalid "body and body_base64 are mutually exclusive")
      let _ ← decodeBase64 "body_base64" maxPayloadBytes value
  | none =>
      if body.isNone then .error (invalid "gRPC body or body_base64 is required")
      else if isFalse reflection ∧ descriptors.isNone then
        .error (invalid "gRPC JSON body requires descriptors or reflection")
      else .ok ()

def isPost : Option Json → Bool
  | none => true
  | some (.str method) => method == "POST"
  | _ => false

def isEmptyObject : Option Json → Bool
  | none | some (.obj []) => true
  | _ => false

def validateReflection : Option Json → Except Exc Unit
  | none | some (.bool _) => .ok ()
  | _ => .error (invalid "reflection must be a boolean")

/-- The fields of a gRPC request besides those of any. -/
structure GrpcFields where
  method : Option Json
  queryParams : Option Json
  body : Option Json
  bodyBase64 : Option Json
  descriptors : Option Json
  reflection : Option Json

/-- A gRPC request: the names of its codes. -/
def normalizeGrpc (P : Protobuf) (route : Json) (headers : JsonFields) (expected : List Json)
    (f : GrpcFields) : Except Exc (List Json) := do
  if headers.any fun e => "-bin".toList.isSuffixOf e.1.toList then
    throw (invalid "binary gRPC request metadata is unsupported")
  let normalized ← expected.mapM normalizeCode
  if !isPost f.method || !isEmptyObject f.queryParams then
    throw (invalid "gRPC does not support HTTP method overrides or query parameters")
  validateReflection f.reflection
  validateDescriptors P route f.descriptors
  validateGrpcBody f.body f.bodyBase64 f.reflection f.descriptors
  return normalized

def expectedHeaders (assertions : JsonFields) : Except Exc JsonFields :=
  match assertions.lookup "expected_headers" with
  | none => .ok assertions
  | some value => do
      let headers ← validateHeaders false value
      return put "expected_headers" (.obj headers) assertions

def isText : Json → Bool
  | .str _ => true
  | _ => false

def validateBodyEquals : Option Json → Except Exc Unit
  | none | some (.str _) => .ok ()
  | _ => .error (invalid "body_equals must be a string")

def bodyContains (assertions : JsonFields) : Except Exc JsonFields :=
  match assertions.lookup "body_contains" with
  | none => .ok assertions
  | some (.str item) => .ok (put "body_contains" (.arr [.str item]) assertions)
  | some (.arr items) =>
      if items.all isText then .ok assertions
      else .error (invalid "body_contains must be a string or list of strings")
  | _ => .error (invalid "body_contains must be a string or list of strings")

def validateJsonPaths : Option Json → Except Exc Unit
  | none => .ok ()
  | some (.obj paths) =>
      if 100 < paths.length then .error (invalid "json_path_equals must be a bounded object")
      else checkEach paths fun e => do
        let _ ← jsonPathTokens e.1
  | _ => .error (invalid "json_path_equals must be a bounded object")

/-- The optional assertions. -/
def validateAssertions (assertions : JsonFields) : Except Exc JsonFields := do
  let assertions ← expectedHeaders assertions
  validateBodyEquals (assertions.lookup "body_equals")
  let assertions ← bodyContains assertions
  validateJsonPaths (assertions.lookup "json_path_equals")
  return assertions

/-! ### The whole -/

/-- The request of the protocol: the fields it becomes, and its assertions. -/
def normalizeRequest (P : Protobuf) (route : Json) (protocol : Protocol) (headers : JsonFields)
    (assertions : JsonFields) (expected : List Json) (result : JsonFields) :
    Except Exc (JsonFields × JsonFields) :=
  match protocol with
  | .http => do
      let method ← normalizeHttp expected (result.lookup "method") (result.lookup "query_params")
        (result.lookup "body")
      return (put "method" (.str method) result, assertions)
  | .grpc => do
      let normalized ← normalizeGrpc P route headers expected
        ⟨result.lookup "method", result.lookup "query_params", result.lookup "body",
          result.lookup "body_base64", result.lookup "descriptor_set_base64",
          result.lookup "reflection"⟩
      return (result, put "expected_grpc_status_list" (.arr normalized) assertions)

/-- The payload is written and read back. -/
def boundedObject (payload : Json) : Except Exc JsonFields :=
  match payload with
  | .obj fields =>
      if !payload.dumpable || decide (maxPayloadBytes < payload.bytes) then
        .error (invalid "request must be bounded JSON")
      else .ok fields
  | _ => .error (invalid "request must be an object")

/-- `validate_probe_payload`. -/
def validateProbePayload (P : Protobuf) (payload : Json) (requireRoute : Option String) :
    Except Exc Json := do
  let result ← boundedObject payload
  let protocol ← protocolOf (result.lookup "protocol")
  let result := put "protocol" (.str protocol.text) result
  if !keysWithin protocol.fields result then
    throw (invalid "request contains unsupported fields or an explicit destination")
  validatePath requireRoute (protocol == .grpc) (result.lookup "path")
  validateServiceName (result.lookup "service_name")
  validateTargetPort (result.lookup "target_port")
  let headers ← validateHeaders true ((result.lookup "headers").getD (.obj []))
  let result := put "headers" (.obj headers) result
  let (assertions, expected) ← expectedOf protocol (result.lookup "assertions")
  let (result, assertions) ← normalizeRequest P (routeOf requireRoute (result.lookup "path"))
    protocol headers assertions expected result
  let assertions ← validateAssertions assertions
  return .obj (put "assertions" (.obj assertions) result)

/-! ### Retries -/

def isGrpc (payload : JsonFields) : Bool := payload.lookup "protocol" == some (.str "grpc")

def objectOf : Option Json → JsonFields
  | some (.obj fields) => fields
  | _ => []

/-- `{**l, **changes}`. -/
def merge (l changes : JsonFields) : JsonFields := changes.foldl (fun l e => put e.1 e.2 l) l

def pinnedKeys : List String :=
  ["protocol", "path", "service_name", "target_port", "assertions", "descriptor_set_base64",
    "reflection"]

/-- `json.dumps(value, sort_keys=True, allow_nan=False)`. -/
def encodeJson (value : Json) : Except Exc (List Char) :=
  if value.dumpable then .ok value.canonical
  else .error (exc .valueError "Out of range float values are not JSON compliant")

/-- One turn of the loop over the pinned keys. -/
def pinCheck (candidate original : JsonFields) (key : String) : Except Exc Unit := do
  let new ← encodeJson ((candidate.lookup key).getD .null)
  let old ← encodeJson ((original.lookup key).getD .null)
  if new ≠ old then
    throw (exc .routeCheckInput
      "Debug Agent cannot change the route, target or original assertions")

/-- `_retry_payload`. -/
def retryPayload (P : Protobuf) (original : JsonFields) (retry : Json)
    (requireRoute : Option String) : Except Exc Json :=
  match retry with
  | .obj changes => do
      let candidate ← validateProbePayload P (.obj (merge original changes)) requireRoute
      checkEach pinnedKeys (pinCheck (objectOf (some candidate)) original)
      return candidate
  | _ => .error (exc .routeCheckInput "Debug Agent retry_payload must be an object or null")

end Orchestrator.RouteProbes
