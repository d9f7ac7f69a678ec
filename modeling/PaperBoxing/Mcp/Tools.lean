import PaperBoxing.Backend.Served
import PaperBoxing.Lib.Base64
import PaperBoxing.Mcp.Auth

/-! # The tools of the MCP server

`mcp/tools.py`: the handlers of the eight tools and their dispatch, as programs over the methods of
the backend client. The arguments are those that the input models let through; titles, descriptions
and annotations are left out. `exec` gives the client the backend at its other end.

* `run_ask`: a method's result is what the client makes of the answer of its route. -/

namespace PaperBoxing.Mcp.Tools

open PaperBoxing.Lib PaperBoxing.Lib.Action PaperBoxing.Lib.Program PaperBoxing.Lib.Text
open PaperBoxing.Lib.Base64 PaperBoxing.Lib.Percent PaperBoxing.Lib.Templates PaperBoxing.Common
open PaperBoxing.Common.Scopes PaperBoxing.Common.Schema
open PaperBoxing.Common.Naming PaperBoxing.Common.RouteTable
open PaperBoxing.Common.Client (BackendClient BackendError ClientExn Exchange)
open PaperBoxing.Backend PaperBoxing.Backend.Calls PaperBoxing.Backend.Served
open PaperBoxing.Mcp.Auth (ToolSpec SPECS)

/-- The client of the MCP server. -/
def client : BackendClient := ⟨some VIA_MCP⟩

theorem headers_client (bearer : Str) : client._headers (some bearer) =
    [(lit "Authorization", lit "Bearer " ++ bearer), (VIA_HEADER, VIA_MCP)] := rfl

/-! ### Errors -/

/-- What a handler raises. -/
inductive ToolExn : Type where
  /-- `ToolError` -/
  | tool (code : ErrorCode) (message : Str)
  /-- what the backend client raises -/
  | client (e : ClientExn)
  /-- the `ValueError` of a code that the contract does not have -/
  | value
  deriving DecidableEq

/-- `ToolError.from_backend`. -/
def from_backend (e : BackendError) : ToolExn :=
  match errorCode e.code with
  | some code => .tool code e.message
  | none => .value

/-! ### The calls -/

/-- The methods of the client that the handlers call. -/
inductive Call : Type where
  | list_sites (token : Str)
  | create_site (token name : Str)
  | list_files (token slug path : Str)
  | upload_file (token slug path : Str) (content : Bytes) (overwrite : Bool)
  | download_file (token slug path : Str)
  | delete_file (token slug path : Str)
  | delete_folder (token slug path : Str) (recursive : Bool)
  | delete_site (token slug confirm : Str)

@[reducible] def Resp : Call → Type
  | .list_sites _ => List Site
  | .create_site .. => Site
  | .list_files .. => FileListing
  | .upload_file .. => UploadResult
  | .download_file .. => Client.DownloadedFile
  | .delete_file .. | .delete_folder .. | .delete_site .. => Unit

@[reducible] def sig : Sig := ⟨Call, Resp⟩

abbrev Tool (A : Type) : Type := Prog sig ToolExn A

def ask (c : Call) : Tool (Resp c) := .invoke (S := sig) c

/-- The method of a call. -/
def exchange (rt : Runtime) : (c : Call) → Exchange (Resp c)
  | .list_sites token => Client.list_sites token
  | .create_site token name => Client.create_site token name
  | .list_files token slug path => Client.list_files token slug path
  | .upload_file token slug path content overwrite =>
    Client.upload_file token slug path (.bytes content) overwrite none
  | .download_file token slug path => Client.download_file rt token slug path
  | .delete_file token slug path => Client.delete_file token slug path
  | .delete_folder token slug path recursive => Client.delete_folder token slug path recursive
  | .delete_site token slug confirm => Client.delete_site token slug confirm

/-! ### Arguments and results -/

/-- The arguments of a tool. -/
inductive Input : Type where
  | list_sites
  | create_site (name : Str)
  | list_files (site path : Str)
  | upload_file (site path content_base64 : Str) (overwrite : Bool)
  | download_file (site path : Str)
  | delete_file (site path : Str)
  | delete_folder (site path : Str) (recursive : Bool)
  | delete_site (site confirm : Str)

/-- The tool that takes the arguments. -/
def Input.name : Input → Str
  | .list_sites => lit "list_sites"
  | .create_site _ => lit "create_site"
  | .list_files .. => lit "list_files"
  | .upload_file .. => lit "upload_file"
  | .download_file .. => lit "download_file"
  | .delete_file .. => lit "delete_file"
  | .delete_folder .. => lit "delete_folder"
  | .delete_site .. => lit "delete_site"

structure DownloadFileOutput : Type where
  site : Str
  path : Str
  bytes : ℕ
  sha256 : Str
  content_type : Str
  content_base64 : Str

structure DeletedFileOutput : Type where
  site : Str
  path : Str

structure DeletedSiteOutput : Type where
  slug : Str

/-- What a tool returns. -/
inductive Output : Type where
  | sites (sites : List Site)
  | site (site : Site)
  | listing (listing : FileListing)
  | upload (result : UploadResult)
  | download (file : DownloadFileOutput)
  | deleted_file (file : DeletedFileOutput)
  | deleted_site (site : DeletedSiteOutput)

/-- `ToolContext`, but for its client. -/
structure ToolContext : Type where
  bearer : Str
  max_file_bytes : ℕ

def ToolContext.max_file_mb (ctx : ToolContext) : ℕ := ctx.max_file_bytes / (1024 * 1024)

/-! ### The handlers -/

section
variable (rt : Runtime) (binascii : Str → Str) (ctx : ToolContext)

/-- `_slug`. -/
def _slug (site : Str) : Tool Str :=
  match validate_slug rt site with
  | .ok slug => .ret slug
  | .error why => .raise (.tool .not_found (lit "no site " ++ rt.repr site ++ lit ": " ++ why))

/-- `_path`. -/
def _path (path : Str) (allow_root : Bool) : Tool Str :=
  match validate_site_path rt path allow_root with
  | .ok path => .ret path
  | .error why =>
    .raise (.tool .invalid_path (lit "invalid path " ++ rt.repr path ++ lit ": " ++ why))

/-- `_decode`; `binascii` is the text of what the decoder raises. -/
def _decode (content_base64 : Str) : Tool Bytes :=
  let compact := content_base64.filter fun c => !isSpace c
  match decode compact with
  | some bytes => .ret bytes
  | none => .raise (.tool .validation_error
      (lit "content_base64 is not valid standard base64: " ++ binascii compact))

/-- `_too_large`. -/
def _too_large (size : ℕ) (verb site path : Str) : ToolExn :=
  .tool .payload_too_large
    (lit "the file is " ++ dec size ++ lit " bytes; a tool call carries at most " ++
      dec ctx.max_file_mb ++ lit " MiB (" ++ dec ctx.max_file_bytes ++ lit " bytes). " ++ verb ++
      lit " it with " ++ (if verb = lit "Upload" then lit "PUT" else lit "GET") ++
      lit " /api/v1/sites/" ++ site ++ lit "/files/" ++ path ++
      lit " on the backend's REST API, with the same token" ++
      if verb = lit "Upload" then lit " as the raw request body." else lit ".")

def list_sites : Tool (List Site) := ask (.list_sites ctx.bearer)

def create_site (name : Str) : Tool Site := ask (.create_site ctx.bearer name)

def list_files (site path : Str) : Tool FileListing := do
  let site ← _slug rt site
  let path ← _path rt path true
  ask (.list_files ctx.bearer site path)

def upload_file (site path content_base64 : Str) (overwrite : Bool) : Tool UploadResult := do
  let site ← _slug rt site
  let path ← _path rt path false
  let content ← _decode binascii content_base64
  if ctx.max_file_bytes < content.length then
    .raise (_too_large ctx content.length (lit "Upload") site path)
  else ask (.upload_file ctx.bearer site path content overwrite)

/-- The size of a file that its folder's listing already shows to be above the cap. -/
def oversize (listing : FileListing) (name : Str) : Option ℕ :=
  match listing.entries.find? fun e => e.name == name with
  | some entry =>
    if entry.type = .file ∧ ctx.max_file_bytes < entry.bytes then some entry.bytes else none
  | none => none

/-- `download_file`, once the listing let it pass. -/
def fetchFile (site path : Str) : Tool DownloadFileOutput := do
  let downloaded ← ask (.download_file ctx.bearer site path)
  if ctx.max_file_bytes < downloaded.content.length then
    .raise (_too_large ctx downloaded.content.length (lit "Download") site path)
  else .ret ⟨site, path, downloaded.content.length, downloaded.sha256, downloaded.content_type,
    encode downloaded.content⟩

def download_file (site path : Str) : Tool DownloadFileOutput := do
  let site ← _slug rt site
  let path ← _path rt path false
  let listing ← ask (.list_files ctx.bearer site (path_parent path))
  match oversize ctx listing (path_name path) with
  | some bytes => .raise (_too_large ctx bytes (lit "Download") site path)
  | none => fetchFile ctx site path

def delete_file (site path : Str) : Tool DeletedFileOutput := do
  let site ← _slug rt site
  let path ← _path rt path false
  ask (.delete_file ctx.bearer site path)
  .ret ⟨site, path⟩

def delete_folder (site path : Str) (recursive : Bool) : Tool DeletedFileOutput := do
  let site ← _slug rt site
  let path ← _path rt path false
  ask (.delete_folder ctx.bearer site path recursive)
  .ret ⟨site, path⟩

def delete_site (site confirm : Str) : Tool DeletedSiteOutput := do
  let site ← _slug rt site
  ask (.delete_site ctx.bearer site confirm)
  .ret ⟨site⟩

/-- The handler of a tool, on its arguments. -/
def handler : Input → Tool Output
  | .list_sites => Output.sites <$> list_sites ctx
  | .create_site name => Output.site <$> create_site ctx name
  | .list_files site path => Output.listing <$> list_files rt ctx site path
  | .upload_file site path content_base64 overwrite =>
    Output.upload <$> upload_file rt binascii ctx site path content_base64 overwrite
  | .download_file site path => Output.download <$> download_file rt ctx site path
  | .delete_file site path => Output.deleted_file <$> delete_file rt ctx site path
  | .delete_folder site path recursive =>
    Output.deleted_file <$> delete_folder rt ctx site path recursive
  | .delete_site site confirm => Output.deleted_site <$> delete_site rt ctx site confirm

/-- `spec_for`. -/
def spec_for (name : Str) : Option ToolSpec := SPECS.find? fun spec => spec.name == name

/-- `except BackendError as e: raise ToolError.from_backend(e)`. -/
def fromBackend (e : ToolExn) : ToolExn :=
  match e with
  | .client c =>
    match c.backendError with
    | some e => from_backend e
    | none => .client c
  | e => e

/-- **`dispatch`**, for a token of `scope`. -/
def dispatch (scope : Scope) (args : Input) : Tool Output :=
  match spec_for args.name with
  | none => .raise (.tool .bad_request (lit "no tool named " ++ rt.repr args.name ++
      lit "; the tools are " ++ (lit ", ").intercalate (SPECS.map ToolSpec.name)))
  | some spec =>
    if scope_allows scope spec.scope then
      (handler rt binascii ctx args).except fun e => .raise (fromBackend e)
    else .raise (.tool .forbidden (lit "the tool " ++ args.name ++ lit " needs the " ++
      lit spec.scope.value ++ lit " scope; the token has " ++ lit scope.value))

end

/-! ### The backend behind the tools -/

section
variable (cfg : Config) (rt : Runtime) (hasher : Hasher) (wire : Wire) (on : Executor)

/-- The handlers' calls, with the client and the backend behind it. -/
def exec (c : Call) : Act ToolExn State (Resp c) := fun s =>
  let r := run (Served.exec cfg rt hasher wire on) (client.perform (exchange rt c)) s
  (r.1.mapError .client, r.2)

/-- What the client makes of the answer to a call. -/
def told (c : Call) (response : Schema.Response) : Except ToolExn (Resp c) :=
  ((Client.judged (answerOf wire response)).bind fun a =>
    ((exchange rt c).finish a).mapError .decode).mapError .client

end

variable {cfg : Config} {rt : Runtime} {hasher : Hasher} {wire : Wire} {on : Executor} {A : Type}
  {bearer slug path : Str} {s : State}

/-- **The requests that reach a route**: what a call sends is made, carries the bearer, and selects the
route with its parameters. -/
def Reaches (rt : Runtime) (wire : Wire) (bearer : Str) (c : Call) (request : Routes.Request) : Prop :=
  ∃ r, (exchange rt c).outgoing client = .ok r ∧ authorization r = some (lit "Bearer " ++ bearer) ∧
    requested wire r = some request

/-- **The result of a call** is what the client makes of the answer of its route. -/
theorem run_ask {c : Call} {request : Routes.Request} (h : Reaches rt wire bearer c request)
    {response : Schema.Response} {w : World} (hans : run on
      (Routes.handle cfg rt hasher (some (lit "Bearer " ++ bearer)) request) s.backend =
        (.ok response, w)) :
    run (exec cfg rt hasher wire on) (ask c) s =
      (told rt wire c response, ⟨w, contentOf wire response.body⟩) := by
  obtain ⟨r, hout, hauth, hreq⟩ := h
  have hanswered : answered cfg rt hasher wire on r s.backend = (.ok response, w) := by
    rw [answered, hreq, hauth]
    exact hans
  obtain ⟨place, hrun⟩ := Client.run_perform (Served.exec cfg rt hasher wire on) hout
  refine (run_invoke (S := sig) ..).trans ?_
  rw [exec, hrun, run_fetch cfg rt hasher wire on hanswered]
  rfl

/-- **A call that returned** was answered, and told what the client makes of the answer. -/
theorem run_ask_inv {c : Call} {request : Routes.Request} (h : Reaches rt wire bearer c request)
    {a : Resp c} {s' : State} (hrun : run (exec cfg rt hasher wire on) (ask c) s = (.ok a, s')) :
    ∃ response, run on (Routes.handle cfg rt hasher (some (lit "Bearer " ++ bearer))
        request) s.backend = (.ok response, s'.backend) ∧ told rt wire c response = .ok a := by
  rcases hans : run on (Routes.handle cfg rt hasher (some (lit "Bearer " ++ bearer))
    request) s.backend with ⟨e | response, w⟩
  · -- a request that is not answered raises
    obtain ⟨r, hout, hauth, hreq⟩ := h
    have hanswered : answered cfg rt hasher wire on r s.backend = (.error e, w) := by
      rw [answered, hreq, hauth]
      exact hans
    obtain ⟨place, hperform⟩ := Client.run_perform (Served.exec cfg rt hasher wire on) hout
    have hexec := (run_invoke (S := sig) ..).symm.trans hrun
    rw [exec, hperform, run_fetch_unanswered cfg rt hasher wire on hanswered] at hexec
    cases (Prod.mk.inj hexec).1
  · obtain ⟨htold, rfl⟩ := Prod.mk.inj ((run_ask h hans).symm.trans hrun)
    exact ⟨response, rfl, htold⟩

/-- **A refusal of the API** is told as what it says. -/
theorem told_refused (wire : Wire) (c : Call) {a : ApiError} (ha : 400 ≤ a.status) :
    told rt wire c (error_response a) =
      .error (.client (.backend ⟨a.status, lit a.code.value, a.message⟩)) := by
  have hsuccess : (answerOf wire (error_response a)).head.is_success = false := by
    rw [Client.Head.is_success]
    refine Bool.and_eq_false_iff.2 (Or.inr (decide_eq_false ?_))
    change ¬ a.status ≤ 299
    omega
  rw [told, Client.judged, if_neg (Bool.eq_false_iff.1 hsuccess)]
  rfl

theorem fromBackend_refused (a : ApiError) :
    fromBackend (.client (.backend ⟨a.status, lit a.code.value, a.message⟩)) =
      .tool a.code a.message := by
  rw [fromBackend]
  change from_backend ⟨a.status, lit a.code.value, a.message⟩ = _
  rw [from_backend, errorCode_value]

/-- A good answer is read. -/
theorem told_ok (wire : Wire) (c : Call) (body : Body) : told rt wire c ⟨200, body⟩ =
    (((exchange rt c).finish (answerOf wire ⟨200, body⟩)).mapError .decode).mapError .client := rfl

/-- An upload that was told as a success was answered by its result. -/
theorem told_upload {token : Str} {content : Bytes} {overwrite : Bool} {response : Schema.Response}
    {result : UploadResult}
    (h : told rt wire (.upload_file token slug path content overwrite) response = .ok result) :
    response.body = .upload result := by
  rw [told, Client.judged] at h
  split_ifs at h
  · have hread : ((readAs response.body .upload).mapError ClientExn.decode).mapError ToolExn.client =
      .ok result := h
    rcases response with ⟨_, body⟩
    cases body <;> cases hread
    rfl
  · rcases he : Client._error_from (answerOf wire response) with _ | _ <;> rw [he] at h <;> cases h

/-! ### The handlers -/

theorem run_map {W B : Type} {h : (c : Call) → Act ToolExn W (Resp c)} {p : Tool A} {f : A → B}
    {w : W} : run h (f <$> p) w = ((run h p w).1.map f, (run h p w).2) := by
  change run h (p >>= fun a => .ret (f a)) w = _
  rcases hp : run (S := sig) h p w with ⟨e | a, w'⟩
  · exact run_bind_of_error _ hp
  · exact run_bind_of_ok _ hp

/-- **A tool within the token's scope** raises what its handler does, or the code of the backend. -/
theorem run_dispatch {W : Type} {h : (c : Call) → Act ToolExn W (Resp c)} {binascii : Str → Str}
    {ctx : ToolContext} {scope : Scope} {args : Input} {spec : ToolSpec} {w : W}
    (hspec : spec_for args.name = some spec) (hscope : scope_allows scope spec.scope = true) :
    run h (dispatch rt binascii ctx scope args) w =
      ((run h (handler rt binascii ctx args) w).1.mapError fromBackend,
        (run h (handler rt binascii ctx args) w).2) := by
  rw [dispatch, hspec]
  dsimp only
  rw [if_pos hscope]
  rcases hr : run (S := sig) h (handler rt binascii ctx args) w with ⟨e | a, w'⟩
  · exact run_except_of_error _ hr
  · exact run_except_of_ok _ hr

theorem slug_valid (hslug : validate_slug rt slug = .ok slug) : _slug rt slug = .ret slug := by
  rw [_slug, hslug]

theorem path_valid {raw : Str} {allow_root : Bool}
    (hpath : validate_site_path rt raw allow_root = .ok path) :
    _path rt raw allow_root = .ret path := by
  rw [_path, hpath]

/-! ### The requests of the calls -/

theorem outgoing_ascii {x : Exchange A} {url : Str} {payload : Client.Payload}
    (hascii : ∀ c ∈ bearer, isAscii c = true) (htoken : x.token = some bearer)
    (hurl : x.path = .ok url) (hpayload : x.payload = .ok payload) (hheaders : x.headers = [])
    (hparams : ∀ p ∈ x.params, ∃ b, utf8 p.2 = some b) : x.outgoing client = .ok ⟨x.method, url,
      [(lit "Authorization", lit "Bearer " ++ bearer), (VIA_HEADER, VIA_MCP)], x.params, payload⟩ := by
  have hlit : (lit "Bearer ").all isAscii = true := by decide
  have hvia : VIA_MCP.all isAscii = true := by decide
  have hall : (x.params.all fun p => (utf8 p.2).isSome) = true := List.all_eq_true.2 fun p hp => by
    obtain ⟨b, hb⟩ := hparams p hp
    rw [hb]
    rfl
  rw [Exchange.outgoing, hpayload, hurl, htoken, hheaders, headers_client, List.append_nil]
  refine if_pos ⟨?_, hall⟩
  simp only [List.all_cons, List.all_nil, List.all_append, hlit, hvia, List.all_eq_true.2 hascii]
  rfl

/-- The URL of a site's folders. -/
theorem site_url_selects (name : RouteName) (hkeys : keys (parts (route name).path) = [lit "slug"])
    (hslug : validate_slug rt slug = .ok slug) :
    ∃ url place, build_path name (Client.ofSlug slug) = .ok url ∧ unquote url = some place ∧
      select (route name).method place = some (name, Client.ofSlug slug) := by
  obtain ⟨hne, hslash, hutf⟩ := valid_slug_plain hslug
  have hsuited : Parameters name (Client.ofSlug slug) := hkeys.symm
  refine suited_selects hsuited (fun v hv => ?_)
    (fun kv hkv _ => ?_) fun kv hkv => ?_
  · have hkey : lit "path" = lit "slug" := congrArg Prod.fst (List.mem_singleton.1 hv)
    exact absurd hkey (by decide)
  · rw [List.mem_singleton.1 hkv]
    exact ⟨hne, hslash⟩
  · rw [List.mem_singleton.1 hkv]
    exact hutf

/-- The URL of a site's files. -/
theorem file_url_selects (name : RouteName)
    (hkeys : keys (parts (route name).path) = [lit "slug", lit "path"])
    (hslug : validate_slug rt slug = .ok slug) (hpath : validate_site_path rt path false = .ok path) :
    ∃ url place, build_path name (Client.ofFile slug path) = .ok url ∧ unquote url = some place ∧
      select (route name).method place = some (name, Client.ofFile slug path) := by
  obtain ⟨hne, hslash, hutf⟩ := valid_slug_plain hslug
  obtain ⟨hline, hutf'⟩ := path_plain hpath
  have hmem : ∀ kv ∈ Client.ofFile slug path, kv = (lit "slug", slug) ∨ kv = (lit "path", path) :=
    fun kv hkv => by simpa [Client.ofFile] using hkv
  have hsuited : Parameters name (Client.ofFile slug path) := hkeys.symm
  refine suited_selects hsuited (fun v hv => ?_)
    (fun kv hkv hkey => ?_) fun kv hkv => ?_
  · rcases hmem _ hv with h | h
    · have hkey : lit "path" = lit "slug" := congrArg Prod.fst h
      exact absurd hkey (by decide)
    · obtain rfl : v = path := congrArg Prod.snd h
      exact hline
  · rcases hmem _ hkv with rfl | rfl
    · exact ⟨hne, hslash⟩
    · exact absurd rfl hkey
  · rcases hmem _ hkv with rfl | rfl
    · exact hutf
    · exact hutf'

section
variable (wire) (hascii : ∀ c ∈ bearer, isAscii c = true) (hslug : validate_slug rt slug = .ok slug)
include hascii hslug

theorem reaches_list_files (hutf : ∃ b, utf8 path = some b) :
    Reaches rt wire bearer (.list_files bearer slug path) (.list_files slug path) := by
  obtain ⟨url, place, hurl, hread, hselect⟩ := site_url_selects .list_files (by decide) hslug
  refine ⟨_, outgoing_ascii hascii rfl hurl rfl rfl fun p hp => ?_, List.lookup_cons_self, ?_⟩
  · rw [List.mem_singleton.1 hp]
    exact hutf
  · rw [requested]
    refine (congrArg (Option.bind · _) hread).trans ?_
    exact (congrArg (Option.bind · _) hselect).trans rfl

theorem reaches_download_file (hpath : validate_site_path rt path false = .ok path) :
    Reaches rt wire bearer (.download_file bearer slug path) (.download_file slug path) := by
  obtain ⟨url, place, hurl, hread, hselect⟩ :=
    file_url_selects .download_file (by decide) hslug hpath
  refine ⟨_, outgoing_ascii hascii rfl hurl rfl rfl nofun, List.lookup_cons_self, ?_⟩
  rw [requested]
  refine (congrArg (Option.bind · _) hread).trans ?_
  exact (congrArg (Option.bind · _) hselect).trans rfl

/-- **What an upload sends**: its bytes, in some chunks, with their number declared. -/
theorem reaches_upload_file (hpath : validate_site_path rt path false = .ok path) (content : Bytes)
    (overwrite : Bool) :
    Reaches rt wire bearer (.upload_file bearer slug path content overwrite)
      (.upload_file slug path ⟨wire.chunks content, none⟩ (some content.length) overwrite) := by
  obtain ⟨url, place, hurl, hread, hselect⟩ := file_url_selects .upload_file (by decide) hslug hpath
  refine ⟨_, outgoing_ascii hascii rfl hurl rfl rfl fun p hp => ?_, List.lookup_cons_self, ?_⟩
  · rw [List.mem_singleton.1 hp]
    cases overwrite <;> exact ⟨_, rfl⟩
  · rw [requested]
    refine (congrArg (Option.bind · _) hread).trans ?_
    refine (congrArg (Option.bind · _) hselect).trans ?_
    cases overwrite <;> rfl

end

end PaperBoxing.Mcp.Tools
