import Nightcore.Gateway.Handlers

/-! The gateway's front door. `RegisterInternalRequestHandlers` fills `request_handlers_`
with three handlers, each with a matcher on the request's method and path: `POST /shutdown`,
`GET /hello`, and `POST /function/<name>` for a name that `func_config_` holds.
`MatchRequest` hands a request to the first handler whose matcher accepts it. The function
handler looks the name up again and calls `OnExternalFuncCall` with the entry's `func_id`.
A gRPC call goes through `OnNewGrpcCall`, which looks up the service `grpc:<service>` and
the method's id, and answers `NOT_FOUND` when either is missing. `FuncConfig` is not in
src/: its lookup by name is a parameter, so what is proved holds for every configuration.
Methods, paths and names are the characters of their `std::string_view`. -/

namespace Nightcore.Gateway

/-- The fields of a `FuncConfig::Entry` that the gateway reads. -/
structure FuncEntry where
  funcId : Int
  /-- `grpc_method_ids`: the id of a method, if the entry has it. -/
  grpcMethodIds : List Char → Option Int

/-- `func_config_`, through `find_by_func_name`. -/
structure FuncConfig where
  findByFuncName : List Char → Option FuncEntry

/-- `gsl::narrow_cast<uint16_t>` of an `int`, and the conversion of an `int` argument to a
`uint16_t` parameter: the value modulo `2^16`. -/
def narrowCastUInt16 (z : Int) : UInt16 := UInt16.ofNat (z % 65536).toNat

/-- `absl::StripPrefix`. -/
def stripPrefix (s pre : List Char) : List Char := if pre.isPrefixOf s then s.drop pre.length else s

def functionPrefix : List Char := "/function/".toList

/-- The handlers `RegisterInternalRequestHandlers` registers. -/
inductive Route
  | shutdown
  | hello
  | function
deriving DecidableEq, Repr

/-- Each handler's `RequestMatcher`. -/
def Route.matcher (fc : FuncConfig) (method path : List Char) : Route → Bool
  | .shutdown => method == "POST".toList && path == "/shutdown".toList
  | .hello => method == "GET".toList && path == "/hello".toList
  | .function =>
    if method != "POST".toList || !functionPrefix.isPrefixOf path then false
    else (fc.findByFuncName (stripPrefix path functionPrefix)).isSome

/-- `request_handlers_` once `RegisterInternalRequestHandlers` has run, in the order of
registration. -/
def requestHandlers : List Route := [.shutdown, .hello, .function]

/-- `MatchRequest`: the first handler whose matcher accepts the request. -/
def matchRequest (fc : FuncConfig) (handlers : List Route) (method path : List Char) : Option Route :=
  handlers.find? (·.matcher fc method path)

/-- What a handler does with the request it was handed. -/
inductive HttpOutcome
  /-- A synchronous handler: the text it appends to the response body, and whether it
  calls `ScheduleStop`. -/
  | sync (text : List Char) (stop : Bool)
  /-- `OnExternalFuncCall`, which starts the handler of an external call. -/
  | external (e : Event)
  /-- `DCHECK(func_entry != nullptr)` fails. -/
  | dcheckFailed
deriving DecidableEq

/-- The handlers' bodies. -/
def Route.handle (fc : FuncConfig) (path : List Char) (body : List UInt8) : Route → HttpOutcome
  | .shutdown => .sync "Server is shutting down\n".toList true
  | .hello => .sync "Hello world\n".toList false
  | .function =>
    match fc.findByFuncName (stripPrefix path functionPrefix) with
    | some e => .external (.httpCall (narrowCastUInt16 e.funcId) body)
    | none => .dcheckFailed

/-- An HTTP request with its body: the outcome of the handler `MatchRequest` picks, or
`none` when no handler matches. -/
def onHttpRequest (fc : FuncConfig) (method path : List Char) (body : List UInt8) : Option HttpOutcome :=
  (matchRequest fc requestHandlers method path).map (·.handle fc path body)

/-- What `OnNewGrpcCall` does. -/
inductive GrpcOutcome
  /-- `set_grpc_status(NOT_FOUND)` and `Finish()` on the call's context, which starts no
  external call. -/
  | notFound (r : Response)
  | external (e : Event)
deriving DecidableEq

def grpcNotFound : Response := ({ grpcStatus := .notFound } : Response).finish

/-- `OnNewGrpcCall` for a call to `method` of `service`. -/
def onNewGrpcCall (fc : FuncConfig) (service method : List Char) (body : List UInt8) : GrpcOutcome :=
  match fc.findByFuncName ("grpc:".toList ++ service) with
  | some e =>
    match e.grpcMethodIds method with
    | some m => .external (.grpcCall (narrowCastUInt16 e.funcId) (narrowCastUInt16 m) body)
    | none => .notFound grpcNotFound
  | none => .notFound grpcNotFound

end Nightcore.Gateway
