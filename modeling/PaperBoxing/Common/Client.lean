import PaperBoxing.Common.RouteTable
import PaperBoxing.Lib.Program

/-! # The REST client of the backend

`common/client.py`: what every method of `BackendClient` sends, what it makes of the answer, and what
it raises. The methods are programs over the transport's calls: to send a request, to read the rest
of a response, and to close it. What the JSON decoder and the models make of a body is the answer's
own (`Content.validate`); the sizes of the chunks are left out.

* `perform`: a method's call, from its request to its result;
* `stream_file`: the one method that hands its response to the caller's block. -/

namespace PaperBoxing.Common.Client

open PaperBoxing.Lib PaperBoxing.Lib.Action PaperBoxing.Lib.Program PaperBoxing.Lib.Text
open PaperBoxing.Lib.Percent PaperBoxing.Lib.IsoTime PaperBoxing.Common.Scopes PaperBoxing.Common.Schema
open PaperBoxing.Common.RouteTable

/-! ### Errors -/

/-- `BackendError`. -/
structure BackendError : Type where
  status : ℕ
  code : Str
  message : Str
  deriving DecidableEq

/-- What reading a body as one of the contract's models raises, or a value that a model refuses. -/
inductive DecodeError : Type where
  /-- `ValueError`: no JSON, no UTF-8, no integer -/
  | value
  /-- `ValidationError` -/
  | validation
  /-- `RecursionError`: the JSON is nested too deeply for the decoder -/
  | recursion
  deriving DecidableEq

/-- What reading a body as text raises: the charset that an answer names need not decode it, whatever
is asked about errors. -/
inductive CodecError : Type where
  /-- `UnicodeError`: `utf-16` and `utf-32` without a byte order mark, `idna`, `undefined` -/
  | unicode
  /-- `AssertionError`: `base64`, `hex`, `zlib`, `bz2`, `uu` -/
  | assertion
  /-- `TypeError`: `rot13` -/
  | type
  /-- whatever else a codec raises -/
  | other
  deriving DecidableEq

/-- What the methods raise, or meet. -/
inductive ClientExn : Type where
  | backend (e : BackendError)
  /-- `BackendUnreachable`, which is a `BackendError` -/
  | unreachable (message : Str)
  /-- `httpx.TransportError`, with its text -/
  | transport (text : Str)
  /-- what `build_path` raises -/
  | url (e : UrlError)
  /-- `UnicodeEncodeError`, of a header or a parameter -/
  | unicode
  | decode (e : DecodeError)
  | codec (e : CodecError)
  /-- whatever else the caller's block raises -/
  | other
  deriving DecidableEq

/-- What an `except BackendError` catches. -/
def ClientExn.backendError : ClientExn → Option BackendError
  | .backend e => some e
  | .unreachable message => some ⟨503, lit "backend_unreachable", message⟩
  | _ => none

/-! ### Requests -/

/-- The JSON body of a request. -/
inductive JsonBody : Type where
  | login (body : LoginRequest)
  | create_site (name : Str)
  | create_token (body : CreateTokenRequest)
  | create_user (body : CreateUserRequest)
  | change_password (body : ChangePasswordRequest)

/-- What a request carries after its headers. -/
inductive Payload : Type where
  | empty
  | json (body : JsonBody)
  | bytes (content : Bytes)
  /-- an iterator of chunks -/
  | chunks (content : List Bytes)

/-- The request that is sent; the parameters stay a list of names and values. -/
structure Outgoing : Type where
  method : Method
  path : Str
  headers : List (Str × Str)
  params : List (Str × Str)
  payload : Payload

/-- `httpx.build_request`: a header is sent in ASCII, a parameter in UTF-8. -/
def build_request (request : Outgoing) : Except ClientExn Outgoing :=
  if (request.headers.all fun h => h.2.all isAscii) ∧
      (request.params.all fun p => (utf8 p.2).isSome) then .ok request
  else .error .unicode

/-- A string of a request's model: it has an encoding, and its length is within the bounds. -/
def field (min_length : ℕ) (max_length : Option ℕ) (s : Str) : Bool :=
  (utf8 s).isSome && min_length ≤ s.length && max_length.all fun n => s.length ≤ n

/-- A request's model, of fields that were checked. -/
def model (valid : Bool) (body : JsonBody) : Except DecodeError Payload :=
  if valid then .ok (.json body) else .error .validation

/-! ### Responses -/

structure Health : Type where
  ok : Bool
  version : Str

structure LoginResponse : Type where
  token : Str
  expires_at : Instant
  user : User

structure TokenCreated : Type where
  token : Token
  secret : Str

/-- The models of the answers. -/
inductive Model : Type where
  | error
  | health
  | login
  | site
  | site_list
  | listing
  | upload
  | token_list
  | token_created
  | token_self
  | user
  | user_list

@[reducible] def Model.Value : Model → Type
  | .error => ErrorCode × Str
  | .health => Health
  | .login => LoginResponse
  | .site => Site
  | .site_list => List Site
  | .listing => FileListing
  | .upload => UploadResult
  | .token_list => List Token
  | .token_created => TokenCreated
  | .token_self => TokenSelf
  | .user => User
  | .user_list => List User

/-- **The body of an answer**, read to its end. -/
structure Content : Type where
  bytes : Bytes
  /-- `response.text`, in the charset that the answer names -/
  text : Except CodecError Str
  /-- `M.model_validate(response.json())`, for each model -/
  validate : (m : Model) → Except DecodeError m.Value

/-- What arrives first; header names are in lower case. -/
structure Head : Type where
  status : ℕ
  reason_phrase : Str
  headers : List (Str × Str)

/-- `response.is_success`. -/
def Head.is_success (head : Head) : Bool := 200 ≤ head.status && head.status ≤ 299

/-- `response.headers.get`: several values of one name are joined. -/
def Head.get (head : Head) (name : Str) : Option Str :=
  match (head.headers.filter fun h => h.1 == name).map Prod.snd with
  | [] => none
  | values => some ((lit ", ").intercalate values)

/-- A response that is open. -/
structure Response : Type where
  id : ℕ
  head : Head

/-- A response that was read to its end. -/
structure Answer : Type where
  head : Head
  content : Content

structure DownloadedFile : Type where
  path : Str
  content : Bytes
  content_type : Str
  sha256 : Str
  deriving DecidableEq

/-- The chunks are those of the open response. -/
structure StreamedFile : Type where
  path : Str
  content_type : Str
  content_length : Option ℕ
  chunks : Response

/-! ### The transport's calls -/

inductive Call : Type where
  /-- connect, send the request and wait for the head of a response -/
  | send (request : Outgoing)
  /-- read the rest of a response -/
  | read (response : Response)
  | close (response : Response)
  /-- the caller's block under `stream_file` -/
  | yield (file : StreamedFile)

@[reducible] def Resp : Call → Type
  | .send _ => Response
  | .read _ => Content
  | .close _ | .yield _ => Unit

@[reducible] def sig : Sig := ⟨Call, Resp⟩

/-- Code over the transport. -/
abbrev Http (A : Type) : Type := Prog sig ClientExn A

def transport (c : Call) : Http (Resp c) := .invoke (S := sig) c

@[simp] theorem run_transport {W : Type} (h : (c : Call) → Act ClientExn W (Resp c)) (c : Call)
    (w : W) : run h (transport c) w = h c w := run_invoke (S := sig) ..

/-- `httpx.AsyncClient.send`: the response is read to its end, and closed whether or not that
succeeds. -/
def fetch (r : Outgoing) : Http Answer := do
  let response ← transport (.send r)
  let content ← (transport (.read response)).finallyDo (transport (.close response))
  .ret ⟨response.head, content⟩

/-- `httpx.AsyncClient.request`. -/
def request (r : Outgoing) : Http Answer := Prog.ofExcept (build_request r) >>= fetch

/-- `except httpx.TransportError as e: raise BackendUnreachable(f"{where}: {e}") from e`. -/
def orUnreachable {A : Type} (place : Str) (p : Http A) : Http A :=
  p.except fun e => match e with
    | .transport text => .raise (.unreachable (place ++ lit ": " ++ text))
    | e => .raise e

/-- **`_error_from`**; a body nested too deeply for the JSON decoder is not answered for, and one
outside the contract only if its text can be read. -/
def _error_from (response : Answer) : Except ClientExn BackendError :=
  match response.content.validate .error with
  | .ok (code, message) => .ok ⟨response.head.status, lit code.value, message⟩
  | .error .recursion => .error (.decode .recursion)
  -- the handler of the `except`: what `response.text` raises there is not caught
  | .error _ => do
    let text ← response.content.text.mapError ClientExn.codec
    let text := (strip isSpace text).take 500
    .ok ⟨response.head.status, lit ErrorCode.internal_error.value,
      if text = [] then response.head.reason_phrase else text⟩

/-- `raise _error_from(response)`. -/
def refused {A : Type} (response : Answer) : Http A :=
  Prog.ofExcept (_error_from response) >>= fun e => .raise (.backend e)

/-! ### The client -/

/-- `BackendClient`, but for its `httpx` client. -/
structure BackendClient : Type where
  via : Option Str

/-- A method's request, and what the method makes of a good answer. -/
structure Exchange (A : Type) : Type where
  method : Method
  path : Except UrlError Str
  token : Option Str := none
  payload : Except DecodeError Payload := .ok .empty
  params : List (Str × Str) := []
  headers : List (Str × Str) := []
  finish : Answer → Except DecodeError A

section
variable (self : BackendClient)

/-- `_headers`. -/
def BackendClient._headers (token : Option Str) : List (Str × Str) :=
  (match token with
    | some token => [(lit "Authorization", lit "Bearer " ++ token)]
    | none => []) ++
  match self.via with
    | some via => if via = [] then [] else [(VIA_HEADER, via)]
    | none => []

/-- `_request`. -/
def BackendClient._request (method : Method) (path : Str) (token : Option Str) (payload : Payload)
    (params headers : List (Str × Str)) : Http Answer := do
  let response ← orUnreachable (lit method.value ++ lit " " ++ path)
    (request ⟨method, path, self._headers token ++ headers, params, payload⟩)
  if response.head.is_success then .ret response else refused response

/-- **The call of a method**: its body and its path are made first. -/
def BackendClient.perform {A : Type} (x : Exchange A) : Http A := do
  let payload ← Prog.ofExcept (x.payload.mapError .decode)
  let path ← Prog.ofExcept (x.path.mapError .url)
  let response ← self._request x.method path x.token payload x.params x.headers
  Prog.ofExcept ((x.finish response).mapError .decode)

/-- The request that a call sends, if it gets that far. -/
def Exchange.outgoing {A : Type} (x : Exchange A) : Except ClientExn Outgoing := do
  let payload ← x.payload.mapError .decode
  let path ← x.path.mapError .url
  build_request ⟨x.method, path, self._headers x.token ++ x.headers, x.params, payload⟩

end

/-- `M.model_validate(response.json())`. -/
def validated (m : Model) (response : Answer) : Except DecodeError m.Value :=
  response.content.validate m

/-- The answer is not read. -/
def ignored (_ : Answer) : Except DecodeError Unit := .ok ()

/-- The parameters of a path. -/
def ofSlug (slug : Str) : List (Str × Str) := [(lit "slug", slug)]

def ofFile (slug path : Str) : List (Str × Str) := [(lit "slug", slug), (lit "path", path)]

/-- `"true" if b else "false"`. -/
def flag (b : Bool) : Str := if b then lit "true" else lit "false"

/-! ### The methods -/

def health : Exchange Health where
  method := .GET
  path := .ok (lit "/health")
  finish := validated .health

def login (username password : Str) : Exchange LoginResponse where
  method := .POST
  path := build_path .login []
  payload := model (field 1 (some 64) username && field 1 none password) (.login ⟨username, password⟩)
  finish := validated .login

def logout (token : Str) : Exchange Unit where
  method := .POST
  path := build_path .logout []
  token := some token
  finish := ignored

def list_sites (token : Str) : Exchange (List Site) where
  method := .GET
  path := build_path .list_sites []
  token := some token
  finish := validated .site_list

def get_site (token slug : Str) : Exchange Site where
  method := .GET
  path := build_path .get_site (ofSlug slug)
  token := some token
  finish := validated .site

def create_site (token name : Str) : Exchange Site where
  method := .POST
  path := build_path .create_site []
  token := some token
  payload := model (field 1 (some 120) name) (.create_site name)
  finish := validated .site

def delete_site (token slug confirm : Str) : Exchange Unit where
  method := .DELETE
  path := build_path .delete_site (ofSlug slug)
  token := some token
  params := [(lit "confirm", confirm)]
  finish := ignored

def list_files (token slug path : Str) : Exchange FileListing where
  method := .GET
  path := build_path .list_files (ofSlug slug)
  token := some token
  params := [(lit "path", path)]
  finish := validated .listing

def upload_file (token slug path : Str) (content : Payload) (overwrite : Bool)
    (content_length : Option ℕ) : Exchange UploadResult where
  method := .PUT
  path := build_path .upload_file (ofFile slug path)
  token := some token
  payload := .ok content
  params := [(lit "overwrite", flag overwrite)]
  headers := (content_length.map fun n => (lit "Content-Length", dec n)).toList
  finish := validated .upload

/-- `response.headers.get("content-type", "application/octet-stream")`. -/
def Head.content_type (head : Head) : Str :=
  (head.get (lit "content-type")).getD (lit "application/octet-stream")

def download_file (rt : Runtime) (token slug path : Str) : Exchange DownloadedFile where
  method := .GET
  path := build_path .download_file (ofFile slug path)
  token := some token
  finish response := .ok ⟨path, response.content.bytes, response.head.content_type,
    rt.sha256 response.content.bytes⟩

def delete_file (token slug path : Str) : Exchange Unit where
  method := .DELETE
  path := build_path .delete_file (ofFile slug path)
  token := some token
  finish := ignored

def delete_folder (token slug path : Str) (recursive : Bool) : Exchange Unit where
  method := .DELETE
  path := build_path .delete_folder (ofFile slug path)
  token := some token
  params := [(lit "recursive", flag recursive)]
  finish := ignored

def list_tokens (token : Str) : Exchange (List Token) where
  method := .GET
  path := build_path .list_tokens []
  token := some token
  finish := validated .token_list

def create_token (token name : Str) (scope : Scope) : Exchange TokenCreated where
  method := .POST
  path := build_path .create_token []
  token := some token
  payload := model (field 1 (some 120) name) (.create_token ⟨name, scope⟩)
  finish := validated .token_created

def revoke_token (token token_id : Str) : Exchange Unit where
  method := .DELETE
  path := build_path .revoke_token [(lit "token_id", token_id)]
  token := some token
  finish := ignored

def token_self (token : Str) : Exchange TokenSelf where
  method := .GET
  path := build_path .token_self []
  token := some token
  finish := validated .token_self

def list_users (token : Str) : Exchange (List User) where
  method := .GET
  path := build_path .list_users []
  token := some token
  finish := validated .user_list

def create_user (token username password : Str) : Exchange User where
  method := .POST
  path := build_path .create_user []
  token := some token
  payload := model (validUser username password && field 8 none password)
    (.create_user ⟨username, password⟩)
  finish := validated .user

def delete_user (token user_id : Str) : Exchange Unit where
  method := .DELETE
  path := build_path .delete_user [(lit "user_id", user_id)]
  token := some token
  finish := ignored

def change_password (token current new : Str) : Exchange Unit where
  method := .POST
  path := build_path .change_password []
  token := some token
  payload := model (field 1 none current && field 8 none new) (.change_password ⟨current, new⟩)
  finish := ignored

/-! ### The run of a call -/

section
variable {W A : Type} {self : BackendClient}

theorem build_request_ok {r r' : Outgoing} (h : build_request r = .ok r') : r' = r := by
  rw [build_request] at h
  split_ifs at h
  exact (Except.ok.inj h).symm

theorem build_request_error {r : Outgoing} {e : ClientExn} (h : build_request r = .error e) :
    e = .unicode := by
  rw [build_request] at h
  split_ifs at h
  exact (Except.error.inj h).symm

/-- The body of a request is that of its method. -/
theorem outgoing_payload {x : Exchange A} {r : Outgoing} (h : x.outgoing self = .ok r) :
    x.payload = .ok r.payload := by
  rw [Exchange.outgoing] at h
  rcases hpayload : x.payload with e | payload
  · rw [hpayload] at h
    cases h
  rcases hpath : x.path with e | path
  · rw [hpayload, hpath] at h
    cases h
  rw [hpayload, hpath] at h
  rw [build_request_ok h]

/-- An answer, or the refusal it is. -/
def judged (a : Answer) : Except ClientExn Answer :=
  if a.head.is_success then .ok a else (_error_from a).bind fun e => .error (.backend e)

theorem run_refused (h : (c : Call) → Act ClientExn W (Resp c)) (a : Answer) (w : W) :
    run h (refused a : Http A) w = ((_error_from a).bind fun e => .error (.backend e), w) := by
  rw [refused]
  cases _error_from a <;> rfl

/-- What `orUnreachable` makes of an exception. -/
def unreached (place : Str) : ClientExn → ClientExn
  | .transport text => .unreachable (place ++ lit ": " ++ text)
  | e => e

theorem run_orUnreachable (h : (c : Call) → Act ClientExn W (Resp c)) (place : Str) (p : Http A)
    (w : W) : run h (orUnreachable place p) w =
      ((run h p w).1.mapError (unreached place), (run h p w).2) := by
  rcases hr : run (S := sig) h p w with ⟨e | a, w'⟩
  · refine (run_except_of_error _ hr).trans ?_
    cases e <;> rfl
  · exact run_except_of_ok _ hr

/-- What a fetched answer comes to, or what kept it away. -/
def verdict (place : Str) (fetched : Except ClientExn Answer) : Except ClientExn Answer :=
  (fetched.mapError (unreached place)).bind judged

/-- `_request`, once the request can be made. -/
theorem run_request (h : (c : Call) → Act ClientExn W (Resp c)) {method : RouteTable.Method}
    {path : Str} {token : Option Str} {payload : Payload} {params headers : List (Str × Str)}
    {r : Outgoing} (hr : build_request
      ⟨method, path, self._headers token ++ headers, params, payload⟩ = .ok r) (w : W) :
    run h (self._request method path token payload params headers) w =
      (verdict (lit method.value ++ lit " " ++ path) (run h (fetch r) w).1, (run h (fetch r) w).2) := by
  have hfetch := run_orUnreachable h (lit method.value ++ lit " " ++ path)
    (request ⟨method, path, self._headers token ++ headers, params, payload⟩) w
  rw [request, hr] at hfetch
  change _ = ((run h (fetch r) w).1.mapError _, (run h (fetch r) w).2) at hfetch
  rw [BackendClient._request, verdict, request, hr]
  rcases hf : (run h (fetch r) w).1 with e | a
  · rw [hf] at hfetch
    refine (run_bind_of_error _ hfetch).trans ?_
    rw [hf]
    rfl
  · rw [hf] at hfetch
    refine (run_bind_of_ok _ hfetch).trans ?_
    rw [hf]
    change _ = (judged a, _)
    rw [judged]
    split_ifs
    · rfl
    · exact run_refused h a _

/-- **A method's run**, once its request can be made. -/
theorem run_perform (h : (c : Call) → Act ClientExn W (Resp c)) {x : Exchange A} {r : Outgoing}
    (hx : x.outgoing self = .ok r) : ∃ place, ∀ w, run h (self.perform x) w =
      ((verdict place (run h (fetch r) w).1).bind fun a => (x.finish a).mapError .decode,
        (run h (fetch r) w).2) := by
  rw [Exchange.outgoing] at hx
  rcases hpayload : x.payload with e | payload
  · rw [hpayload] at hx
    cases hx
  rcases hpath : x.path with e | path
  · rw [hpayload, hpath] at hx
    cases hx
  rw [hpayload, hpath] at hx
  change build_request _ = _ at hx
  refine ⟨lit x.method.value ++ lit " " ++ path, fun w => ?_⟩
  rw [BackendClient.perform, hpayload, hpath]
  have hrun := run_request h hx w
  rcases hv : verdict (lit x.method.value ++ lit " " ++ path) (run h (fetch r) w).1 with e | a
  · rw [hv] at hrun
    refine (run_bind_of_error _ hrun).trans ?_
    rw [hv]
    rfl
  · rw [hv] at hrun
    refine (run_bind_of_ok _ hrun).trans ?_
    rw [hv]
    exact run_ofExcept ..

/-- A method whose request cannot be made does nothing. -/
theorem run_perform_unmade (h : (c : Call) → Act ClientExn W (Resp c)) {x : Exchange A}
    {e : ClientExn} (hx : x.outgoing self = .error e) (w : W) :
    run h (self.perform x) w = (.error e, w) := by
  rw [Exchange.outgoing] at hx
  rw [BackendClient.perform]
  rcases hpayload : x.payload with d | payload
  · rw [hpayload] at hx
    obtain rfl := Except.error.inj hx
    rfl
  rcases hpath : x.path with d | path
  · rw [hpayload, hpath] at hx
    obtain rfl := Except.error.inj hx
    rfl
  rw [hpayload, hpath] at hx
  change build_request _ = _ at hx
  change run h (self._request _ _ _ _ _ _ >>= _) _ = _
  obtain rfl := build_request_error hx
  rw [BackendClient._request, request, hx]
  rfl

/-- What keeps a request from being made is no exception of the transport. -/
theorem outgoing_error {x : Exchange A} {e : ClientExn} (hx : x.outgoing self = .error e)
    (text : Str) : e ≠ .transport text := by
  rw [Exchange.outgoing] at hx
  rcases hpayload : x.payload with d | payload
  · rw [hpayload] at hx
    obtain rfl := Except.error.inj hx
    nofun
  rcases hpath : x.path with d | path
  · rw [hpayload, hpath] at hx
    obtain rfl := Except.error.inj hx
    nofun
  rw [hpayload, hpath] at hx
  rw [build_request_error hx]
  nofun

end

/-! ### The stream -/

/-- `str.isdigit` and `int`, which is none where it raises `ValueError`. -/
structure Numerals : Type where
  isdigit : Str → Bool
  int : Str → Option ℕ

section
variable (digits : Numerals) (self : BackendClient)

/-- The `StreamedFile` of a good response. -/
def streamed (path : Str) (response : Response) : Except DecodeError StreamedFile := do
  let content_length ← match response.head.get (lit "content-length") with
    | none => .ok none
    | some length =>
      if digits.isdigit length then
        match digits.int length with
        | none => .error .value
        | some n => .ok (some n)
      else .ok none
  .ok ⟨path, response.head.content_type, content_length, response⟩

/-- The request of `stream_file`, and what its path is decoded to. -/
def BackendClient.streamRequest (token slug path : Str) : Except ClientExn (Outgoing × Str) := do
  let url ← (build_path .download_file (ofFile slug path)).mapError .url
  let request ← build_request ⟨.GET, url, self._headers (some token), [], .empty⟩
  .ok (request, (unquote url).getD [])

/-- **`stream_file`**, around the caller's block. -/
def BackendClient.stream_file (token slug path : Str) : Http Unit := do
  let (request, place) ← Prog.ofExcept (self.streamRequest token slug path)
  let response ← orUnreachable (lit "GET " ++ place) (transport (.send request))
  (if response.head.is_success then do
      let file ← Prog.ofExcept ((streamed digits path response).mapError ClientExn.decode)
      transport (.yield file)
    else do
      let content ← transport (.read response)
      refused ⟨response.head, content⟩).finallyDo (transport (.close response))

end

end PaperBoxing.Common.Client
