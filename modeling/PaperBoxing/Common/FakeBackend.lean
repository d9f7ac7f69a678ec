import PaperBoxing.Backend.Routes

/-! # The fake backend

`common/fake_backend.py`: the in-memory backend the other components are tested against. Its state
is a handful of dictionaries; a site is a dictionary of files and one of folders, by full path. A
request is served in one go, with the time and the random names it draws. The record of requests,
which nothing answers from, is left out. -/

namespace PaperBoxing.Common.FakeBackend

open PaperBoxing.Lib.Action PaperBoxing.Lib.Text PaperBoxing.Lib.IsoTime PaperBoxing.Lib.Tables
open PaperBoxing.Common.Scopes PaperBoxing.Common.Schema PaperBoxing.Common.Naming
open PaperBoxing.Backend.Calls (Config)
open PaperBoxing.Backend.Routes (Request mediaType errorResponse)

structure FakeUser : Type where
  id : Str
  username : Str
  password : Str
  created_at : Instant
  deriving DecidableEq

structure FakeToken : Type where
  id : Str
  name : Str
  type : TokenType
  scope : Scope
  user_id : Str
  created_at : Instant
  last_used_at : Option Instant
  expires_at : Option Instant
  revoked : Bool
  deriving DecidableEq

structure FakeFile : Type where
  content : Bytes
  modified_at : Instant
  deriving DecidableEq

structure FakeSite : Type where
  slug : Str
  name : Str
  created_at : Instant
  files : Table Str FakeFile
  folders : Table Str Instant

/-- **The state behind the fake app.** -/
structure FakeState : Type where
  users : Table Str FakeUser
  tokens : Table Str FakeToken
  /-- bearer secret to token id -/
  secrets : Table Str Str
  sites : Table Str FakeSite

/-- What a request draws. -/
structure Draw : Type where
  now : Instant
  token_hex : Str
  token_urlsafe : Str

/-- The fake's code. -/
abbrev Fake (A : Type) : Type := Act Exn FakeState A

/-- `raise ApiError(status, code, message)`. -/
def refuse {A : Type} (status : ℕ) (code : ErrorCode) (message : Str) : Fake A :=
  Act.raise (.api ⟨status, code, message⟩)

/-! ### A site -/

/-- `f"{folder}/" if folder else ""`. -/
def prefixOf (folder : Str) : Str := if folder = [] then [] else folder ++ lit "/"

def FakeSite.has_folder (site : FakeSite) (path : Str) : Bool :=
  path == [] || site.folders[path]?.isSome

/-- The loop of `add_folders_for`, of at most `fuel` steps. -/
def addFolders (now : Instant) : ℕ → Str → Table Str Instant → Table Str Instant
  | 0, _, folders => folders
  | fuel + 1, parent, folders =>
    if parent ≠ [] ∧ folders[parent]? = none then
      addFolders now fuel (path_parent parent) (folders.insert parent now)
    else folders

/-- `add_folders_for`; a path has fewer parents than code points. -/
def FakeSite.add_folders_for (site : FakeSite) (path : Str) (now : Instant) : FakeSite :=
  { site with folders := addFolders now path.length (path_parent path) site.folders }

/-- `children`: the direct subfolders and files of a folder, as full paths. -/
def FakeSite.children (site : FakeSite) (folder : Str) : List Str × List Str :=
  let direct (paths : List Str) : List Str :=
    (paths.filter fun p => path_parent p == folder).filter fun p => (prefixOf folder).isPrefixOf p
  (direct site.folders.keys, direct site.files.keys)

/-- The files below a folder. -/
def FakeSite.filesBelow (site : FakeSite) (folder : Str) : Table Str FakeFile :=
  site.files.filter fun p _ => (prefixOf folder).isPrefixOf p

/-- The folders below a folder. -/
def FakeSite.foldersBelow (site : FakeSite) (folder : Str) : Table Str Instant :=
  site.folders.filter fun p _ => (prefixOf folder).isPrefixOf p

def FakeSite.folder_bytes (site : FakeSite) (folder : Str) : ℕ :=
  total (fun _ f => f.content.length) (site.filesBelow folder)

/-- The later of two instants. -/
def later (a b : Instant) : Instant := if a.micros ≤ b.micros then b else a

def FakeSite.folder_modified_at (site : FakeSite) (folder : Str) (time : Instant) : Instant :=
  ((site.filesBelow folder).toList.map fun r => r.2.modified_at).foldl later time

section
variable (cfg : Config) (rt : Runtime)

/-- `public_site`; the base address lost its slashes when the fake was made. -/
def public_site (site : FakeSite) : Site :=
  ⟨site.slug, site.name,
    site_url ((cfg.public_sites_url.reverse.dropWhile (· == slash)).reverse) site.slug,
    site.created_at, site.files.size, total (fun _ f => f.content.length) site.files⟩

/-- `_site`. -/
def _site (slug : Str) : Fake FakeSite := fun s =>
  match s.sites[slug]? with
  | none => refuse 404 .not_found (lit "no site " ++ rt.repr slug) s
  | some site => (.ok site, s)

/-- `_valid_path`. -/
def _valid_path (raw : Str) (allow_root : Bool) : Fake Str :=
  match validate_site_path rt raw allow_root with
  | .ok path => Act.ret path
  | .error why =>
    refuse 400 .invalid_path (lit "invalid path " ++ rt.repr raw ++ lit ": " ++ why)

/-- Store a site. -/
def putSite (site : FakeSite) : Fake Unit :=
  Act.modify fun s => { s with sites := s.sites.insert site.slug site }

/-! ### Sites -/

def list_sites : Fake Response := fun s =>
  (.ok ⟨200, .site_list (s.sites.toList.map fun r => public_site cfg r.2)⟩, s)

def create_site (d : Draw) (name : Str) : Fake Response := fun s =>
  match slug_from_name rt name with
  | .error why => refuse 400 .invalid_name why s
  | .ok slug =>
    if s.sites[slug]? ≠ none then
      refuse 409 .site_exists (lit "a site with the slug " ++ rt.repr slug ++ lit " exists") s
    else
      let site : FakeSite := ⟨slug, strip isSpace name, d.now, ∅, ∅⟩
      (.ok ⟨201, .site (public_site cfg site)⟩, { s with sites := s.sites.insert slug site })

def get_site (slug : Str) : Fake Response := do
  let site ← _site rt slug
  Act.ret ⟨200, .site (public_site cfg site)⟩

def delete_site (slug : Str) (confirm : Option Str) : Fake Response := do
  let site ← _site rt slug
  if confirm ≠ some site.slug then
    refuse 400 .confirm_mismatch
      (lit "pass ?confirm=" ++ site.slug ++ lit " to delete the site")
  else do
    Act.modify fun s => { s with sites := s.sites.erase slug }
    Act.ret ⟨204, .empty⟩

/-! ### Files and folders -/

/-- The entry of a subfolder. -/
def folderEntry (site : FakeSite) (p : Str) : FileEntry :=
  ⟨path_name p, .folder, site.folder_bytes p,
    site.folder_modified_at p ((site.folders[p]?).getD site.created_at), none⟩

/-- The entry of a file. -/
def fileEntry (site : FakeSite) (p : Str) : FileEntry :=
  let file := (site.files[p]?).getD ⟨[], site.created_at⟩
  ⟨path_name p, .file, file.content.length, file.modified_at, some (rt.sha256 file.content)⟩

def list_files (slug path : Str) : Fake Response := do
  let site ← _site rt slug
  let folder ← _valid_path rt path true
  if site.files[folder]? ≠ none then
    refuse 409 .not_a_folder (rt.repr folder ++ lit " is a file")
  else if !site.has_folder folder then
    refuse 404 .not_found (lit "no folder " ++ rt.repr folder ++ lit " in site " ++ rt.repr slug)
  else
    let (subfolders, files) := site.children folder
    Act.ret ⟨200, .listing ⟨slug, folder,
      subfolders.map (folderEntry site) ++ files.map (fileEntry rt site)⟩⟩

/-- The first parent that is a file, of at most `fuel` parents. -/
def fileParent (site : FakeSite) : ℕ → Str → Option Str
  | 0, _ => none
  | fuel + 1, parent =>
    if parent = [] then none
    else if site.files[parent]? ≠ none then some parent
    else fileParent site fuel (path_parent parent)

/-- `_check_write_target`. -/
def _check_write_target (site : FakeSite) (path : Str) (overwrite : Bool) : Fake Bool :=
  if site.folders[path]? ≠ none then
    refuse 409 .not_a_file (rt.repr path ++ lit " is a folder")
  else match fileParent site path.length (path_parent path) with
    | some parent =>
      refuse 409 .not_a_folder (rt.repr parent ++ lit " is a file, not a folder")
    | none =>
      if site.files[path]? ≠ none then
        if overwrite then Act.ret true
        else
          refuse 409 .file_exists (rt.repr path ++ lit " exists; pass overwrite=true to replace it")
      else Act.ret false

/-- `_write`. -/
def _write (d : Draw) (site : FakeSite) (path : Str) (content : Bytes) : Fake UploadResult := do
  let replaced := (site.files[path]?).isSome
  let site := site.add_folders_for path d.now
  putSite { site with files := site.files.insert path ⟨content, d.now⟩ }
  Act.ret ⟨path, content.length, rt.sha256 content, replaced⟩

def upload_file (d : Draw) (slug path : Str) (content : Bytes) (overwrite : Bool) :
    Fake Response := do
  let site ← _site rt slug
  let target ← _valid_path rt path false
  if cfg.max_upload_bytes < content.length then
    refuse 413 .payload_too_large
      (lit "the file exceeds the cap of " ++ dec cfg.max_upload_bytes ++ lit " bytes")
  else do
    let replacing ← _check_write_target rt site target overwrite
    let result ← _write rt d site target content
    Act.ret ⟨if replacing then 200 else 201, .upload result⟩

def download_file (slug path : Str) : Fake Response := do
  let site ← _site rt slug
  let target ← _valid_path rt path false
  if site.folders[target]? ≠ none then
    refuse 409 .not_a_file (rt.repr target ++ lit " is a folder, not a file")
  else match site.files[target]? with
    | none =>
      refuse 404 .not_found (lit "no file " ++ rt.repr target ++ lit " in site " ++ rt.repr slug)
    | some entry =>
      Act.ret ⟨200, .content entry.content (mediaType rt target) (_attachment (path_name target))⟩

def delete_file (slug path : Str) : Fake Response := do
  let site ← _site rt slug
  let target ← _valid_path rt path false
  if site.folders[target]? ≠ none then
    refuse 409 .not_a_file (rt.repr target ++ lit " is a folder; use the folders route")
  else if site.files[target]? = none then
    refuse 404 .not_found (lit "no file " ++ rt.repr target ++ lit " in site " ++ rt.repr slug)
  else do
    putSite { site with files := site.files.erase target }
    Act.ret ⟨204, .empty⟩

def delete_folder (slug path : Str) (recursive : Bool) : Fake Response := do
  let site ← _site rt slug
  let target ← _valid_path rt path false
  if site.files[target]? ≠ none then
    refuse 409 .not_a_folder (rt.repr target ++ lit " is a file; use the files route")
  else if site.folders[target]? = none then
    refuse 404 .not_found (lit "no folder " ++ rt.repr target ++ lit " in site " ++ rt.repr slug)
  else if !((site.foldersBelow target).isEmpty && (site.filesBelow target).isEmpty) && !recursive then
    refuse 409 .folder_not_empty (rt.repr target ++
      lit " is not empty; pass recursive=true to delete everything in it")
  else do
    putSite { site with
      files := site.files.filter fun p _ => !(prefixOf target).isPrefixOf p
      folders := (site.folders.filter fun p _ => !(prefixOf target).isPrefixOf p).erase target }
    Act.ret ⟨204, .empty⟩

/-! ### Tokens -/

def FakeUser.public (user : FakeUser) : User := ⟨user.id, user.username, user.created_at⟩

/-- `user_by_name`. -/
def user_by_name (s : FakeState) (username : Str) : Option FakeUser :=
  (s.users.toList.find? fun r => r.2.username == username).map Prod.snd

/-- `state.users[user_id]`; a `KeyError` when it is not there. -/
def userOf (user_id : Str) : Fake FakeUser := fun s =>
  match s.users[user_id]? with
  | some user => (.ok user, s)
  | none => (.error .other, s)

/-- `public_token`. -/
def public_token (token : FakeToken) : Fake Token := do
  let user ← userOf token.user_id
  Act.ret ⟨token.id, token.name, token.type, token.scope, user.username, token.created_at,
    token.last_used_at, token.expires_at⟩

/-- `now + timedelta(days=session_days)`. -/
def slide (now : Instant) : Fake Instant :=
  match now.add (days cfg.session_days) with
  | some expires_at => Act.ret expires_at
  | none => Act.raise .overflow

/-- `_store`. -/
def _store (d : Draw) (token : FakeToken) : Fake Str := do
  let secret := lit "pb_" ++ d.token_urlsafe
  Act.modify fun s => { s with
    tokens := s.tokens.insert token.id token
    secrets := s.secrets.insert secret token.id }
  Act.ret secret

/-- `_bearer`; a missing header reads as the empty one. -/
def _bearer (header : Option Str) : Option Str :=
  let (scheme, value) := partitionAt space (header.getD [])
  if scheme.map asciiLower ≠ lit "bearer" ∨ strip isSpace value = [] then none
  else some (strip isSpace value)

/-- `_resolve_token`: the valid token behind the request's bearer. -/
def _resolve_token (d : Draw) (header : Option Str) : Fake (Option FakeToken) := fun s =>
  match _bearer header with
  | none => (.ok none, s)
  | some secret =>
    match s.secrets[secret]? with
    | none => (.ok none, s)
    | some token_id =>
      match s.tokens[token_id]? with
      | none => (.error .other, s)
      | some token =>
        if token.revoked || token.expires_at.any fun e => e.micros ≤ d.now.micros then (.ok none, s)
        else
          let used := { token with last_used_at := some d.now }
          let s' := { s with tokens := s.tokens.insert token_id used }
          if token.type = .session then
            match d.now.add (days cfg.session_days) with
            | none => (.error .overflow, s')
            | some e =>
              let slid := { used with expires_at := some e }
              (.ok (some slid), { s with tokens := s.tokens.insert token_id slid })
          else (.ok (some used), s')

/-- `_authorize`: the token of a request, also on the public route, where it may be none. -/
def _authorize (d : Draw) (name : RouteName) (header : Option Str) : Fake (Option FakeToken) := do
  let token ← _resolve_token cfg d header
  if route_access name = .public_ then Act.ret token
  else match token with
    | none => refuse 401 .unauthorized (lit "a valid bearer token is required")
    | some token =>
      if access_allows (route_access name) (some (token.type, token.scope)) then
        Act.ret (some token)
      else if route_access name = .session then
        refuse 403 .session_required
          (lit "this route needs a signed-in user's session, not an agent token")
      else
        refuse 403 .forbidden (lit "this route needs the " ++ lit (route_access name).value ++
          lit " scope; the token has " ++ lit token.scope.value)

def login (d : Draw) (body : LoginRequest) : Fake Response := fun s =>
  match user_by_name s body.username with
  | none => refuse 401 .invalid_credentials (lit "unknown username or wrong password") s
  | some user =>
    if user.password ≠ body.password then
      refuse 401 .invalid_credentials (lit "unknown username or wrong password") s
    else
      (do
        let expires_at ← slide cfg d.now
        let token : FakeToken := ⟨lit "tok" ++ lit "_" ++ d.token_hex, lit "session", .session,
          SESSION_SCOPE, user.id, d.now, none, some expires_at, false⟩
        let secret ← _store d token
        Act.ret ⟨200, .login secret expires_at user.public⟩ : Fake Response) s

/-- Change a token. -/
def putToken (token : FakeToken) : Fake Unit :=
  Act.modify fun s => { s with tokens := s.tokens.insert token.id token }

def logout (caller : FakeToken) : Fake Response := do
  putToken { caller with revoked := true }
  Act.ret ⟨204, .empty⟩

/-- The order of `list_tokens`: by creation, then by id. -/
def tokenLE (a b : FakeToken) : Bool :=
  ((compare a.created_at.micros b.created_at.micros).then (compare a.id b.id)).isLE

/-- The tokens of a list, as they are shown. -/
def publicTokens : List FakeToken → Fake (List Token)
  | [] => Act.ret []
  | token :: tokens => do
    let first ← public_token token
    let rest ← publicTokens tokens
    Act.ret (first :: rest)

def list_tokens : Fake Response := do
  let s ← Act.get
  let agents := (s.tokens.toList.map Prod.snd).filter fun t => t.type == .agent && !t.revoked
  let tokens ← publicTokens (agents.insertionSort fun a b => tokenLE a b = true)
  Act.ret ⟨200, .token_list tokens⟩

def create_token (d : Draw) (caller : FakeToken) (body : CreateTokenRequest) : Fake Response := do
  let owner ← userOf caller.user_id
  let s ← Act.get
  match user_by_name s owner.username with
  | none => Act.raise .other
  | some user => do
    let token : FakeToken := ⟨lit "tok" ++ lit "_" ++ d.token_hex, strip isSpace body.name, .agent,
      body.scope, user.id, d.now, none, none, false⟩
    let secret ← _store d token
    let shown ← public_token token
    Act.ret ⟨201, .token_created shown secret⟩

def token_self (caller : FakeToken) : Fake Response := do
  let user ← userOf caller.user_id
  Act.ret ⟨200, .token_self ⟨caller.id, caller.name, caller.type, caller.scope, user.username,
    caller.expires_at⟩⟩

def revoke_token (token_id : Str) : Fake Response := fun s =>
  match s.tokens[token_id]? with
  | none => refuse 404 .not_found (lit "no agent token " ++ rt.repr token_id) s
  | some token =>
    if token.type ≠ .agent ∨ token.revoked = true then
      refuse 404 .not_found (lit "no agent token " ++ rt.repr token_id) s
    else
      (.ok ⟨204, .empty⟩,
        { s with tokens := s.tokens.insert token_id { token with revoked := true } })

/-! ### Users -/

def list_users : Fake Response := fun s =>
  (.ok ⟨200, .user_list (((s.users.toList.map Prod.snd).insertionSort fun a b =>
    (compare a.username b.username).isLE = true).map FakeUser.public)⟩, s)

def create_user (d : Draw) (body : CreateUserRequest) : Fake Response := fun s =>
  if (user_by_name s body.username).isSome then
    refuse 409 .user_exists (lit "the username " ++ rt.repr body.username ++ lit " is taken") s
  else
    let user : FakeUser := ⟨lit "usr" ++ lit "_" ++ d.token_hex, body.username, body.password, d.now⟩
    (.ok ⟨201, .user user.public⟩, { s with users := s.users.insert user.id user })

def change_password (caller : FakeToken) (body : ChangePasswordRequest) : Fake Response := do
  let user ← userOf caller.user_id
  if body.current ≠ user.password then
    refuse 403 .wrong_password (lit "the current password is wrong")
  else do
    Act.modify fun s => { s with
      users := s.users.insert user.id { user with password := body.new }
      tokens := s.tokens.map fun _ t =>
        if t.user_id = user.id ∧ t.type = .session ∧ t.id ≠ caller.id then
          { t with revoked := true }
        else t }
    Act.ret ⟨204, .empty⟩

def delete_user (user_id : Str) : Fake Response := fun s =>
  if s.users[user_id]? = none then
    refuse 404 .not_found (lit "no user " ++ rt.repr user_id) s
  else if s.users.size = 1 then
    refuse 409 .last_user (lit "the last account cannot be deleted") s
  else
    (.ok ⟨204, .empty⟩, { s with
      users := s.users.erase user_id
      tokens := s.tokens.map fun _ t =>
        if t.user_id = user_id then { t with revoked := true } else t })

/-! ### Requests -/

/-- The site and file routes, for a caller that was let in. -/
def serveSites (d : Draw) : Request → Fake Response
  | .list_sites => list_sites cfg
  | .create_site name => create_site cfg rt d name
  | .get_site slug => get_site cfg rt slug
  | .delete_site slug confirm => delete_site rt slug confirm
  | .list_files slug path => list_files rt slug path
  | .upload_file slug path body _ overwrite =>
    upload_file cfg rt d slug path body.chunks.flatten overwrite
  | .download_file slug path => download_file rt slug path
  | .delete_file slug path => delete_file rt slug path
  | .delete_folder slug path recursive => delete_folder rt slug path recursive
  | _ => Act.raise .other

/-- The token and account routes, for the token that calls. -/
def serveAccounts (d : Draw) (caller : FakeToken) : Request → Fake Response
  | .logout => logout caller
  | .list_tokens => list_tokens
  | .create_token body => create_token d caller body
  | .token_self => token_self caller
  | .revoke_token token_id => revoke_token rt token_id
  | .list_users => list_users
  | .create_user body => create_user rt d body
  | .change_password body => change_password caller body
  | .delete_user user_id => delete_user rt user_id
  | request => serveSites cfg rt d request

/-- **A request**, with its `Authorization` header: every route authorises, the public one too. -/
def route (d : Draw) (header : Option Str) (request : Request) : Fake Response := do
  let token ← _authorize cfg d request.route header
  match request, token with
  | .login body, _ => login cfg d body
  | request, some caller => serveAccounts cfg rt d caller request
  | _, none => Act.raise .other

/-- The answer of an action, errors included. -/
def answer (p : Fake Response) (s : FakeState) : Response × FakeState :=
  match p s with
  | (.ok r, s') => (r, s')
  | (.error e, s') => (errorResponse e, s')

end

end PaperBoxing.Common.FakeBackend
