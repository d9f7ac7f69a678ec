import PaperBoxing.Backend.App
import PaperBoxing.Common.Client

/-! # The backend at the client's end of the wire

A client's requests, delivered to the backend: which route a request selects, the answer that the
route's code gives when it runs alone, and the response the client reads. `Wire` holds what lies
between the two: how a body is written, and in which chunks an upload arrives. A JSON body is read
back as it was written.

* `run_fetch`: the response to a request is the answer of its route. -/

namespace PaperBoxing.Backend.Served

open PaperBoxing.Lib PaperBoxing.Lib.Action PaperBoxing.Lib.Program PaperBoxing.Lib.Text
open PaperBoxing.Lib.Percent PaperBoxing.Common PaperBoxing.Common.Scopes PaperBoxing.Common.Schema
open PaperBoxing.Common.RouteTable PaperBoxing.Common.Client PaperBoxing.Backend.Calls
open PaperBoxing.Backend

/-- What lies between the client and the backend. -/
structure Wire : Type where
  /-- the JSON of a body -/
  dumps : Body → Bytes
  /-- `response.text` of a body in JSON, which is read as UTF-8: what that is not, is replaced -/
  decoded : Bytes → Str
  reason_phrase : ℕ → Str
  /-- the chunks that a body arrives in -/
  chunks : Bytes → List Bytes
  chunks_flatten : ∀ bytes, (chunks bytes).flatten = bytes
  /-- the integer that a `Content-Length` denotes -/
  integer : Str → Option ℤ

/-- A wire that brings a body in one chunk; nothing is said of the texts of JSON. -/
def plainWire : Wire where
  dumps _ := []
  decoded _ := []
  reason_phrase _ := []
  chunks bytes := [bytes]
  chunks_flatten bytes := by rw [List.flatten_singleton]
  integer _ := none

/-! ### Requests -/

section
variable (wire : Wire)

/-- The body of an upload, as it arrives. -/
def incoming : Payload → Incoming
  | .bytes content => ⟨wire.chunks content, none⟩
  | .chunks content => ⟨wire.chunks content.flatten, none⟩
  | .empty | .json _ => ⟨[], none⟩

/-- The length an upload declares; `httpx` declares that of a whole body. -/
def declared (r : Outgoing) : Option ℤ :=
  match r.headers.lookup (lit "Content-Length"), r.payload with
  | some length, _ => wire.integer length
  | none, .bytes content => some content.length
  | none, _ => none

/-- The route that a request selects, with its parameters; none where no route takes it. -/
def requested (r : Outgoing) : Option Routes.Request := do
  let path ← unquote r.path
  let (name, params) ← select r.method path
  match name, params, r.payload with
  | .login, [], .json (.login body) => pure (.login body)
  | .logout, [], _ => pure .logout
  | .list_sites, [], _ => pure .list_sites
  | .create_site, [], .json (.create_site name) => pure (.create_site name)
  | .get_site, [(_, slug)], _ => pure (.get_site slug)
  | .delete_site, [(_, slug)], _ => pure (.delete_site slug (r.params.lookup (lit "confirm")))
  | .list_files, [(_, slug)], _ =>
    pure (.list_files slug ((r.params.lookup (lit "path")).getD []))
  | .upload_file, [(_, slug), (_, path)], payload =>
    pure (.upload_file slug path (incoming wire payload) (declared wire r)
      (r.params.lookup (lit "overwrite") == some (lit "true")))
  | .download_file, [(_, slug), (_, path)], _ => pure (.download_file slug path)
  | .delete_file, [(_, slug), (_, path)], _ => pure (.delete_file slug path)
  | .delete_folder, [(_, slug), (_, path)], _ =>
    pure (.delete_folder slug path (r.params.lookup (lit "recursive") == some (lit "true")))
  | .list_tokens, [], _ => pure .list_tokens
  | .create_token, [], .json (.create_token body) => pure (.create_token body)
  | .token_self, [], _ => pure .token_self
  | .revoke_token, [(_, token_id)], _ => pure (.revoke_token token_id)
  | .list_users, [], _ => pure .list_users
  | .create_user, [], .json (.create_user body) => pure (.create_user body)
  | .change_password, [], .json (.change_password body) => pure (.change_password body)
  | .delete_user, [(_, user_id)], _ => pure (.delete_user user_id)
  | _, _, _ => none

/-- The `Authorization` header of a request. -/
def authorization (r : Outgoing) : Option Str := r.headers.lookup (lit "Authorization")

/-! ### Responses -/

/-- A body, read as one of the models. -/
def readAs : Body → (m : Model) → Except DecodeError m.Value
  | .error code message, .error => .ok (code, message)
  | .login token expires_at user, .login => .ok ⟨token, expires_at, user⟩
  | .site site, .site => .ok site
  | .site_list sites, .site_list => .ok sites
  | .listing listing, .listing => .ok listing
  | .upload result, .upload => .ok result
  | .token_list tokens, .token_list => .ok tokens
  | .token_created token secret, .token_created => .ok ⟨token, secret⟩
  | .token_self token, .token_self => .ok token
  | .user user, .user => .ok user
  | .user_list users, .user_list => .ok users
  | .content .., _ | .empty, _ => .error .value
  | _, _ => .error .validation

/-- The bytes of a body. -/
def bytesOf : Body → Bytes
  | .content bytes _ _ => bytes
  | .empty => []
  | body => wire.dumps body

def contentOf (body : Body) : Content :=
  ⟨bytesOf wire body, .ok (wire.decoded (bytesOf wire body)), readAs body⟩

/-- The `Content-Type` of an answer; a text has a charset. -/
def contentType : Body → Option Str
  | .content _ media_type _ =>
    some (if lit "text/" <+: media_type then media_type ++ lit "; charset=utf-8" else media_type)
  | .empty => none
  | _ => some (lit "application/json")

def headOf (response : Schema.Response) : Head :=
  ⟨response.status, wire.reason_phrase response.status,
    (contentType response.body).toList.map fun value => (lit "content-type", value)⟩

/-- The answer of a response. -/
def answerOf (response : Schema.Response) : Answer :=
  ⟨headOf wire response, contentOf wire response.body⟩

end

/-! ### The backend as a transport -/

/-- The backend, and the body of the response that the client has not read yet. -/
structure State : Type where
  backend : World
  pending : Content

section
variable (cfg : Config) (rt : Runtime) (hasher : Hasher) (wire : Wire) (on : Executor)

/-- What the backend answers to a request, when its calls do what `on` says, and what it leaves. -/
def answered (r : Outgoing) (w : World) : Except Schema.Exn Schema.Response × World :=
  match requested wire r with
  | none => (.ok ⟨404, .error .not_found (lit "Not Found")⟩, w)
  | some request => run on (Routes.handle cfg rt hasher (authorization r) request) w

/-- The client's calls, with the backend at the other end. -/
def exec : (c : Client.Call) → Act ClientExn State (Client.Resp c)
  | .send r => fun s => match answered cfg rt hasher wire on r s.backend with
    | (.ok response, w) => (.ok ⟨0, headOf wire response⟩, ⟨w, contentOf wire response.body⟩)
    | (.error _, w) => (.error (.transport (lit "Server disconnected")), ⟨w, s.pending⟩)
  | .read _ => fun s => (.ok s.pending, s)
  | .close _ | .yield _ => Act.ret ()

/-- **The response to a request** is the answer of its route. -/
theorem run_fetch {r : Outgoing} {s : State} {response : Schema.Response} {w : World}
    (h : answered cfg rt hasher wire on r s.backend = (.ok response, w)) :
    run (exec cfg rt hasher wire on) (fetch r) s =
      (.ok (answerOf wire response), ⟨w, contentOf wire response.body⟩) := by
  have hsend : run (exec cfg rt hasher wire on) (transport (.send r)) s =
      (.ok ⟨0, headOf wire response⟩, ⟨w, contentOf wire response.body⟩) := by
    rw [run_transport, exec]
    dsimp only
    rw [h]
  exact (run_bind_of_ok _ hsend).trans rfl

/-- A request that is not answered. -/
theorem run_fetch_unanswered {r : Outgoing} {s : State} {e : Schema.Exn} {w : World}
    (h : answered cfg rt hasher wire on r s.backend = (.error e, w)) :
    run (exec cfg rt hasher wire on) (fetch r) s =
      (.error (.transport (lit "Server disconnected")), ⟨w, s.pending⟩) := by
  refine run_bind_of_error _ ?_
  rw [run_transport, exec]
  dsimp only
  rw [h]

end

end PaperBoxing.Backend.Served
