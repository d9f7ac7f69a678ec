import PaperBoxing.Common.Schema
import PaperBoxing.Lib.Threads

/-! # The gate of the MCP server

`mcp/auth.py`, and of `mcp/server.py` and `mcp/tools.py` the handlers behind the gate up to the tool
they run. A request's thread checks the transport's rules and the declared length, asks the backend
about the bearer, and either sends one refusal or leaves the confirmation on the request's own state
and hands the request to the transport, which calls the handlers. What the SDK's own validation and
the backend client answer is the world's choice, and so is the request that the SDK hands to a
handler: a request is known by its number, and only the gate writes a confirmation on its state.

* `exec`: what each call does;
* `OwnContext`: the SDK hands a handler no request but the one it was called for. -/

namespace PaperBoxing.Mcp.Auth

open PaperBoxing.Lib PaperBoxing.Lib.Action PaperBoxing.Lib.Program PaperBoxing.Lib.Threads
open PaperBoxing.Lib.Text PaperBoxing.Common.Scopes PaperBoxing.Common.Schema

/-! ### Requests and refusals -/

/-- An ASGI request; header names are in lower case, header values as the server decoded them. -/
structure HttpRequest : Type where
  type : Str
  method : Str
  headers : List (Str × Str)

/-- `Headers.get`. -/
def HttpRequest.get (request : HttpRequest) (name : Str) : Option Str :=
  (request.headers.find? fun h => h.1 == name).map Prod.snd

/-- `AuthRefused`, and the error response made of it. -/
structure Refusal : Type where
  status : ℕ
  code : ErrorCode
  message : Str
  headers : List (Str × Str)
  deriving DecidableEq

/-- What the backend client and the gate raise. -/
inductive GateExn : Type where
  | refused (r : Refusal)
  /-- `BackendUnreachable` -/
  | unreachable
  /-- `BackendError`, with its status -/
  | backend (status : ℕ)
  /-- `json.JSONDecodeError` or `ValidationError` -/
  | decode
  /-- any other exception -/
  | other
  deriving DecidableEq

/-- `Confirmed`: the bearer to forward, and what the backend says it is. -/
structure Confirmed : Type where
  bearer : Str
  token : TokenSelf
  deriving DecidableEq

/-! ### Calls -/

inductive Call : Type where
  /-- `TransportSecurityMiddleware.validate_request`: the status of its refusal, if any -/
  | validate
  /-- the process's backend client -/
  | client
  /-- `BackendClient.token_self` -/
  | token_self (bearer : Str)
  /-- an error response is sent -/
  | send (r : Refusal)
  /-- the confirmation is put on the request's state -/
  | leave (c : Confirmed)
  /-- the transport is invoked with the request -/
  | transport
  /-- `mcp.request_context.request`: the request that the SDK hands to a handler, if any -/
  | context
  /-- what is found under `STATE_KEY` on the state of a request -/
  | state (request : ℕ)
  /-- the tools that a listing answers -/
  | listed (tools : List Str)
  /-- a tool's handler runs -/
  | handler (tool bearer : Str)
  deriving DecidableEq

@[reducible] def Resp : Call → Type
  | .validate => Option ℕ
  | .token_self _ => TokenSelf
  | .context => Option ℕ
  | .state _ => Option Confirmed
  | .client | .send _ | .leave _ | .transport | .listed _ | .handler _ _ => Unit

@[reducible] def sig : Sig := ⟨Call, Resp⟩

abbrev Gate (A : Type) : Type := Prog sig GateExn A

def ask (c : Call) : Gate (Resp c) := .invoke (S := sig) c

def refuse {A : Type} (status : ℕ) (code : ErrorCode) (message : Str) (headers : List (Str × Str)) :
    Gate A := .raise (.refused ⟨status, code, message, headers⟩)

/-! ### The gate -/

def MSG_MISSING : Str :=
  lit "a bearer token is required: send `Authorization: Bearer <agent token>` on every request"

def MSG_NOT_CONFIRMED : Str :=
  lit "the backend does not confirm the token: it is unknown, revoked or expired"

def MSG_WRONG_TYPE : Str :=
  lit "the token is a session token; the MCP server accepts agent tokens only (create one in the UI under Tokens)"

def MSG_UNCONFIRMED : Str :=
  lit "the backend could not be reached to confirm the token, or did not answer as expected"

def CHALLENGE_MISSING : List (Str × Str) :=
  [(lit "WWW-Authenticate", lit "Bearer realm=\"paper-boxing\"")]

def CHALLENGE_INVALID : List (Str × Str) :=
  [(lit "WWW-Authenticate", lit "Bearer realm=\"paper-boxing\", error=\"invalid_token\"")]

/-- `bearer_from`. -/
def bearer_from (request : HttpRequest) : Option Str :=
  let (scheme, value) := partitionAt Text.space ((request.get (lit "authorization")).getD [])
  if scheme.map asciiLower ≠ lit "bearer" ∨ strip isSpace value = [] then none
  else some (strip isSpace value)

/-- `confirm`: a bearer the backend says is an agent token's. -/
def confirm (bearer : Str) : Gate Confirmed :=
  (ask (.token_self bearer)).attempt >>= fun r => match r with
    | .error .unreachable => refuse 503 .backend_unreachable MSG_UNCONFIRMED []
    | .error (.backend status) =>
      if status = 401 then refuse 401 .unauthorized MSG_NOT_CONFIRMED CHALLENGE_INVALID
      else refuse 503 .backend_unreachable MSG_UNCONFIRMED []
    | .error _ => refuse 503 .backend_unreachable MSG_UNCONFIRMED []
    | .ok me =>
      if me.type ≠ .agent then refuse 403 .wrong_token_type MSG_WRONG_TYPE []
      else .ret ⟨bearer, me⟩

/-- `str.isdigit` on the characters a header can hold: the superscripts count. -/
def isdigit (s : Str) : Bool :=
  s ≠ [] && s.all fun c => isDigit c || c.val == 0xB2 || c.val == 0xB3 || c.val == 0xB9

/-- `int(s)` of digits; none is the `ValueError` of a superscript or of more than 4300 digits. -/
def int (s : Str) : Option ℕ :=
  if s ≠ [] ∧ s.all isDigit = true ∧ s.length ≤ 4300 then
    some (s.foldl (fun n c => 10 * n + (c.val - 48)) 0)
  else none

section
variable (rt : Runtime) (max_body_bytes : ℕ)

/-- `repr` of a header that may be missing. -/
def reprHeader (value : Option Str) : Str := (value.map rt.repr).getD (lit "None")

/-- `_check_transport`. -/
def _check_transport (request : HttpRequest) : Gate Unit :=
  if request.method ≠ lit "POST" then
    refuse 405 .method_not_allowed (lit "/mcp accepts POST only") [(lit "Allow", lit "POST")]
  else do
    let refused ← ask .validate
    match refused with
    | none => .ret ()
    | some status =>
      if status = 421 then
        refuse 421 .forbidden (lit "the Host " ++ reprHeader rt (request.get (lit "host")) ++
          lit " is not in PAPER_BOXING_MCP_ALLOWED_HOSTS; add the host and port agents connect with (DNS-rebinding protection)") []
      else if status = 403 then
        refuse 403 .forbidden (lit "the Origin " ++ reprHeader rt (request.get (lit "origin")) ++
          lit " is not in PAPER_BOXING_MCP_ALLOWED_ORIGINS (DNS-rebinding protection)") []
      else
        refuse status .bad_request
          (lit "the Content-Type of a POST to /mcp must be application/json") []

/-- `_check_declared_length`. -/
def _check_declared_length (request : HttpRequest) : Gate Unit :=
  match request.get (lit "content-length") with
  | none => .ret ()
  | some declared =>
    if isdigit declared then
      match int declared with
      | none => .raise .other
      | some n =>
        if max_body_bytes < n then
          refuse 413 .payload_too_large (lit "the request body is above the " ++
            dec max_body_bytes ++ lit " byte limit of the MCP endpoint; a larger file goes through the backend's REST API with the same token") []
        else .ret ()
    else .ret ()

/-- What the gate does before it lets a request through. -/
def check (request : HttpRequest) : Gate Confirmed := do
  _check_transport rt request
  _check_declared_length max_body_bytes request
  match bearer_from request with
  | none => refuse 401 .unauthorized MSG_MISSING CHALLENGE_MISSING
  | some bearer => do
    ask .client
    confirm bearer

/-! ### The handlers -/

/-- A tool: its name and the scope it needs. -/
structure ToolSpec : Type where
  name : Str
  scope : Scope

/-- `tool_specs`. -/
def SPECS : List ToolSpec :=
  [⟨lit "list_sites", .read_only⟩, ⟨lit "create_site", .read_write⟩,
    ⟨lit "list_files", .read_only⟩, ⟨lit "upload_file", .read_write⟩,
    ⟨lit "download_file", .read_only⟩, ⟨lit "delete_file", .remove_destructive⟩,
    ⟨lit "delete_folder", .remove_destructive⟩, ⟨lit "delete_site", .remove_destructive⟩]

/-- `tools.list_tools`, by name. -/
def toolsFor (scope : Scope) : List Str :=
  (SPECS.filter fun spec => scope_allows scope spec.scope).map ToolSpec.name

/-- `confirmed_from`: the confirmation on the state of a request, if there is a request. -/
def confirmed_from : Option ℕ → Gate (Option Confirmed)
  | none => .ret none
  | some request => ask (.state request)

/-- `_confirmed`: the confirmation for the request that is being handled, or a `ToolError`. -/
def _confirmed : Gate Confirmed := do
  let request ← ask .context
  let confirmed ← confirmed_from request
  match confirmed with
  | none => .raise .other
  | some c => .ret c

/-- `list_tools`; without a confirmation nothing is listed. -/
def list_tools : Gate Unit := do
  let confirmed ← _confirmed
  ask (.listed (toolsFor confirmed.token.scope))

/-- `dispatch`, up to the tool's handler: an unknown tool and one above the scope are refused. -/
def dispatch (name bearer : Str) (scope : Scope) : Gate Unit :=
  match SPECS.find? fun spec => spec.name == name with
  | none => .ret ()
  | some spec => if scope_allows scope spec.scope then ask (.handler name bearer) else .ret ()

/-- `call_tool`: every failure is a result. -/
def call_tool (name : Str) : Gate Unit :=
  (_confirmed >>= fun c => dispatch name c.bearer c.token.scope).except fun _ => .ret ()

/-- A message the transport hands to the server. -/
inductive Message : Type where
  | list_tools
  | call_tool (name : Str)

def handle : Message → Gate Unit
  | .list_tools => list_tools.except fun _ => .ret ()
  | .call_tool name => call_tool name

/-- The server's handling of a request's messages, one after another. -/
def handleAll : List Message → Gate Unit
  | [] => .ret ()
  | m :: ms => handle m >>= fun _ => handleAll ms

/-- The transport: it takes the request and hands its messages over. -/
def app (messages : List Message) : Gate Unit := ask .transport >>= fun _ => handleAll messages

/-- `TokenGate.__call__`. -/
def call (request : HttpRequest) (messages : List Message) : Gate Unit :=
  if request.type ≠ lit "http" then app messages
  else
    (check rt max_body_bytes request).attempt >>= fun r => match r with
      | .error (.refused e) => ask (.send e)
      | .error _ => ask (.send ⟨503, .backend_unreachable, MSG_UNCONFIRMED, []⟩)
      | .ok confirmed => ask (.leave confirmed) >>= fun _ => app messages

end

/-! ### The world of the gate -/

/-- What the requests' threads share, and what the surroundings answer. -/
structure World : Type where
  /-- the confirmation on each request's own state -/
  state : ℕ → Option Confirmed
  /-- the request that the SDK hands to a handler, for each request it serves -/
  handed : ℕ → Option ℕ
  /-- the SDK's validation of each request -/
  security : ℕ → Option ℕ
  /-- what it refuses with -/
  security_status : ∀ i status, security i = some status → status = 421 ∨ status = 403 ∨ status = 400
  /-- whether a backend client is open, for each request -/
  client : ℕ → Bool
  /-- what the backend client does with a bearer, by the number of questions before -/
  backend : ℕ → Str → Except GateExn TokenSelf
  asked : ℕ
  /-- how the transport ends, for each request -/
  transport : ℕ → Except GateExn Unit
  /-- how a tool ends, for each request -/
  tool : ℕ → Except GateExn Unit

def exec (i : ℕ) : (c : Call) → Act GateExn World (Resp c)
  | .validate => fun w => (.ok (w.security i), w)
  | .client => fun w => (if w.client i then .ok () else .error .other, w)
  | .token_self bearer => fun w => (w.backend w.asked bearer, { w with asked := w.asked + 1 })
  | .send _ => Act.ret ()
  | .leave c => Act.modify fun w => { w with state := Function.update w.state i (some c) }
  | .transport => fun w => (w.transport i, w)
  | .context => fun w => (.ok (w.handed i), w)
  | .state request => fun w => (.ok (w.state request), w)
  | .listed _ => Act.ret ()
  | .handler _ _ => fun w => (w.tool i, w)

/-- The machine of the gate: nothing waits. -/
def machine : Machine sig GateExn World := ⟨exec, fun _ _ _ => true, fun _ _ _ _ _ => False⟩

/-- The SDK's `request_context` is the one of the message that is handled: a handler gets the request
that carried its message, or none. -/
def OwnContext (w : World) : Prop := ∀ i request, w.handed i = some request → request = i

end PaperBoxing.Mcp.Auth
