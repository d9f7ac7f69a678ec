import PaperBoxing.Backend.Storage
import PaperBoxing.Backend.Accounts

/-! # The routes

`backend/routes.py` and the error handlers of `backend/app.py`: what each route does once its
dependency let the caller in, the dependency itself, and the answer to what a route raises. Logging
is left out. A request carries its parameters as the framework reads them: the declared length is
the integer its header denotes, if it denotes one. -/

namespace PaperBoxing.Backend.Routes

open PaperBoxing.Lib PaperBoxing.Lib.Program PaperBoxing.Lib.Text PaperBoxing.Lib.IsoTime
open PaperBoxing.Common.Scopes PaperBoxing.Common.Schema PaperBoxing.Common.Naming
open PaperBoxing.Backend.Db PaperBoxing.Backend.Calls PaperBoxing.Backend.Accounts

/-- **A request**, by its route. -/
inductive Request : Type where
  | login (body : LoginRequest)
  | logout
  | list_sites
  | create_site (name : Str)
  | get_site (slug : Str)
  | delete_site (slug : Str) (confirm : Option Str)
  | list_files (slug path : Str)
  | upload_file (slug path : Str) (body : Incoming) (declared_length : Option ℤ) (overwrite : Bool)
  | download_file (slug path : Str)
  | delete_file (slug path : Str)
  | delete_folder (slug path : Str) (recursive : Bool)
  | list_tokens
  | create_token (body : CreateTokenRequest)
  | token_self
  | revoke_token (token_id : Str)
  | list_users
  | create_user (body : CreateUserRequest)
  | change_password (body : ChangePasswordRequest)
  | delete_user (user_id : Str)

/-- The route of a request. -/
def Request.route : Request → RouteName
  | .login _ => .login
  | .logout => .logout
  | .list_sites => .list_sites
  | .create_site _ => .create_site
  | .get_site _ => .get_site
  | .delete_site _ _ => .delete_site
  | .list_files _ _ => .list_files
  | .upload_file .. => .upload_file
  | .download_file _ _ => .download_file
  | .delete_file _ _ => .delete_file
  | .delete_folder _ _ _ => .delete_folder
  | .list_tokens => .list_tokens
  | .create_token _ => .create_token
  | .token_self => .token_self
  | .revoke_token _ => .revoke_token
  | .list_users => .list_users
  | .create_user _ => .create_user
  | .change_password _ => .change_password
  | .delete_user _ => .delete_user

section
variable (cfg : Config) (rt : Runtime) (hasher : Hasher)

/-- `requires`: the caller of a route, or the refusal of the call. -/
def requires (name : RouteName) (header : Option Str) : Code Actor := do
  let actor ← resolve_bearer cfg rt header
  match actor with
  | none => refuse 401 .unauthorized (lit "a valid bearer token is required")
  | some actor =>
    if access_allows (route_access name) (some (actor.token.type, actor.token.scope)) then .ret actor
    else if route_access name = .session then
      refuse 403 .session_required
        (lit "this route needs a signed-in user's session, not an agent token")
    else
      refuse 403 .forbidden (lit "this route needs the " ++ lit (route_access name).value ++
        lit " scope; the token has " ++ lit actor.token.scope.value)

/-! ### Helpers -/

/-- `_site`. -/
def _site (slug : Str) : Code SiteRow :=
  match validate_slug rt slug with
  | .error _ => refuse 404 .not_found (lit "no site " ++ rt.repr slug)
  | .ok _ => do
    let site ← query (.site_by_slug slug)
    match site with
    | none => refuse 404 .not_found (lit "no site " ++ rt.repr slug)
    | some site => .ret site

/-- `_public_site`. -/
def _public_site (site : SiteRow) : Code Site := do
  let (file_count, size) ← Storage.site_totals site.slug
  .ret ⟨site.slug, site.name, site_url cfg.public_sites_url site.slug, site.created_at, file_count,
    size⟩

/-- `_valid_path`. -/
def _valid_path (raw : Str) (allow_root : Bool) : Code Str :=
  match validate_site_path rt raw allow_root with
  | .ok path => .ret path
  | .error why =>
    refuse 400 .invalid_path (lit "invalid path " ++ rt.repr raw ++ lit ": " ++ why)

/-- The sites of a list, one after another. -/
def publicSites : List SiteRow → Code (List Site)
  | [] => .ret []
  | site :: sites => do
    let first ← _public_site cfg site
    let rest ← publicSites sites
    .ret (first :: rest)

/-! ### The routes, in the table's order -/

def login (body : LoginRequest) : Code Response := do
  let result ← Accounts.login cfg rt hasher body.username body.password
  match result with
  | none => refuse 401 .invalid_credentials (lit "unknown username or wrong password")
  | some (user, session, secret) =>
    match session.expires_at with
    | none => .raise .other
    | some expires_at => .ret ⟨200, .login secret expires_at (public_user user)⟩

def logout (actor : Actor) : Code Response := do
  Accounts.logout actor.token
  .ret ⟨204, .empty⟩

def list_sites : Code Response := do
  let rows ← query .list_sites
  let sites ← publicSites cfg rows
  .ret ⟨200, .site_list sites⟩

def create_site (name : Str) : Code Response :=
  match slug_from_name rt name with
  | .error why => refuse 400 .invalid_name why
  | .ok slug => do
    let created_at ← now
    let site ← Storage.create_site cfg rt slug (strip isSpace name) created_at
    let site ← _public_site cfg site
    .ret ⟨201, .site site⟩

def get_site (slug : Str) : Code Response := do
  let site ← _site rt slug
  let site ← _public_site cfg site
  .ret ⟨200, .site site⟩

def delete_site (slug : Str) (confirm : Option Str) : Code Response := do
  let site ← _site rt slug
  if confirm ≠ some site.slug then
    refuse 400 .confirm_mismatch
      (lit "pass ?confirm=" ++ site.slug ++ lit " to delete the site")
  else do
    Storage.delete_site cfg site.slug
    .ret ⟨204, .empty⟩

def list_files (slug path : Str) : Code Response := do
  let site ← _site rt slug
  let folder ← _valid_path rt path true
  let listing ← Storage.list_folder cfg rt site.slug folder
  .ret ⟨200, .listing listing⟩

def upload_file (slug path : Str) (body : Incoming) (declared_length : Option ℤ)
    (overwrite : Bool) : Code Response := do
  let site ← _site rt slug
  let target ← _valid_path rt path false
  let result ← Storage.write_file cfg rt site.slug target body overwrite declared_length
  .ret ⟨if result.replaced then 200 else 201, .upload result⟩

/-- The media type of a download. -/
def mediaType (path : Str) : Str := (rt.guess_type path).getD (lit "application/octet-stream")

def download_file (slug path : Str) : Code Response := do
  let site ← _site rt slug
  let target ← _valid_path rt path false
  let file ← Storage.file_path cfg rt site.slug target
  let content ← disk (.read file)
  .ret ⟨200, .content content (mediaType rt target) (_attachment (path_name target))⟩

def delete_file (slug path : Str) : Code Response := do
  let site ← _site rt slug
  let target ← _valid_path rt path false
  Storage.delete_file cfg rt site.slug target
  .ret ⟨204, .empty⟩

def delete_folder (slug path : Str) (recursive : Bool) : Code Response := do
  let site ← _site rt slug
  let target ← _valid_path rt path false
  Storage.delete_folder cfg rt site.slug target recursive
  .ret ⟨204, .empty⟩

def list_tokens : Code Response := do
  let tokens ← list_agent_tokens
  .ret ⟨200, .token_list tokens⟩

def create_token (actor : Actor) (body : CreateTokenRequest) : Code Response := do
  let (token, secret) ← create_agent_token rt actor.user (strip isSpace body.name) body.scope
  .ret ⟨201, .token_created (public_token token actor.user.username) secret⟩

def token_self (actor : Actor) : Code Response := .ret ⟨200, .token_self (Accounts.token_self actor)⟩

def revoke_token (token_id : Str) : Code Response := do
  let revoked ← revoke_agent_token token_id
  if !revoked then refuse 404 .not_found (lit "no agent token " ++ rt.repr token_id)
  else .ret ⟨204, .empty⟩

def list_users : Code Response := do
  let users ← query .list_users
  .ret ⟨200, .user_list (users.map public_user)⟩

def create_user (body : CreateUserRequest) : Code Response := do
  let user ← (Accounts.create_user hasher body.username body.password).except fun e => match e with
    | .conflict =>
      refuse 409 .user_exists (lit "the username " ++ rt.repr body.username ++ lit " is taken")
    | e => .raise e
  .ret ⟨201, .user (public_user user)⟩

def change_password (actor : Actor) (body : ChangePasswordRequest) : Code Response := do
  let verified ← verify_password hasher actor.user body.current
  if !verified then refuse 403 .wrong_password (lit "the current password is wrong")
  else do
    Accounts.change_password hasher actor.user body.new
    let _ ← revoke_other_sessions actor.user actor.token
    .ret ⟨204, .empty⟩

def delete_user (user_id : Str) : Code Response := do
  let user ← query (.user_by_id user_id)
  if user = none then refuse 404 .not_found (lit "no user " ++ rt.repr user_id)
  else do
    let count ← query .count_users
    if count ≤ 1 then refuse 409 .last_user (lit "the last account cannot be deleted")
    else do
      let _ ← Accounts.delete_user user_id
      .ret ⟨204, .empty⟩

/-- What a route does for a caller its dependency let in. -/
def serve (actor : Actor) : Request → Code Response
  | .login body => login cfg rt hasher body
  | .logout => logout actor
  | .list_sites => list_sites cfg
  | .create_site name => create_site cfg rt name
  | .get_site slug => get_site cfg rt slug
  | .delete_site slug confirm => delete_site cfg rt slug confirm
  | .list_files slug path => list_files cfg rt slug path
  | .upload_file slug path body declared_length overwrite =>
    upload_file cfg rt slug path body declared_length overwrite
  | .download_file slug path => download_file cfg rt slug path
  | .delete_file slug path => delete_file cfg rt slug path
  | .delete_folder slug path recursive => delete_folder cfg rt slug path recursive
  | .list_tokens => list_tokens
  | .create_token body => create_token rt actor body
  | .token_self => token_self actor
  | .revoke_token token_id => revoke_token rt token_id
  | .list_users => list_users
  | .create_user body => create_user rt hasher body
  | .change_password body => change_password hasher actor body
  | .delete_user user_id => delete_user rt user_id

/-- **A request**, with its `Authorization` header: the public route takes no caller. -/
def route (header : Option Str) (request : Request) : Code Response :=
  match request with
  | .login body => login cfg rt hasher body
  | request => requires cfg rt request.route header >>= fun actor =>
    serve cfg rt hasher actor request

/-- The answer to an exception: an `ApiError` by its own status, a full disk 507, anything else
500. -/
def errorResponse : Exn → Response
  | .api e => error_response e
  | .os .noSpace | .os .quota =>
    ⟨507, .error .insufficient_storage
      (lit "the disk is full or the quota is reached; nothing was written")⟩
  | _ => ⟨500, .error .internal_error (lit "internal error")⟩

/-- The error handlers around a route; a cancelled request is not answered. -/
def answering (p : Code Response) : Code Response :=
  p.except fun e => if e = .cancelled then .raise e else .ret (errorResponse e)

/-- **The answer to a request.** -/
def handle (header : Option Str) (request : Request) : Code Response :=
  answering (route cfg rt hasher header request)

end

end PaperBoxing.Backend.Routes
