import PaperBoxing.Backend.Shown
import PaperBoxing.Mcp.Tools

/-! # Downloads by the tool and by the route

`download_file` of the tools against the backend, beside a direct download with the same token, on any
tree and under any limits. The tool lists the parent of the path first. A parent that is a file or a
device refuses the listing in its own way, where the download itself finds nothing; the listing can
stop at an entry that the download never looks at; and of a missing folder and the path below it, one
can have a name that is refused and the other not.

* `run_fetchFile`: the tool, once the listing let it pass;
* `unhindered`: when the listing does not come in between; `same_verdict_iff`: exactly then the tool's
  verdict is the route's. -/

namespace PaperBoxing.Mcp.Downloads

open PaperBoxing.Lib PaperBoxing.Lib.Action PaperBoxing.Lib.Program PaperBoxing.Lib.Text
open PaperBoxing.Lib.Base64 PaperBoxing.Lib.Trees PaperBoxing.Lib.Disk PaperBoxing.Common
open PaperBoxing.Common.Scopes PaperBoxing.Common.Schema PaperBoxing.Common.Naming
open PaperBoxing.Backend PaperBoxing.Backend.Db PaperBoxing.Backend.Calls PaperBoxing.Backend.Storage
open PaperBoxing.Backend.Alone PaperBoxing.Backend.Bearer PaperBoxing.Backend.Frames
open PaperBoxing.Backend.Shown PaperBoxing.Backend.App PaperBoxing.Backend.Served
open PaperBoxing.Mcp.Tools

/-! ### The two verdicts -/

/-- **A bearer that the gate forwards**: an agent's, stripped and in ASCII. -/
structure Forwarded (rt : Runtime) (d : Database) (bearer id : Str) (r : TokenRec) : Prop
    extends AgentBearer rt d bearer id r where
  ascii : ∀ c ∈ bearer, isAscii c = true
  stripped : strip isSpace bearer = bearer
  ne : bearer ≠ []

section
variable (l : Limits) (cfg : Config) (rt : Runtime) (hasher : Hasher) (wire : Wire) (i : ℕ)
  (binascii : Str → Str)

/-- **The direct download**: what the route answers. -/
def direct (bearer slug path : Str) (w : World) : Except Exn Response :=
  (run (l.exec i) (Routes.handle cfg rt hasher (some (lit "Bearer " ++ bearer))
    (.download_file slug path)) w).1

/-- **The tool's download**: what the tool comes to. -/
def viaTool (ctx : ToolContext) (scope : Scope) (slug path : Str) (s : State) :
    Except ToolExn Output :=
  (run (Tools.exec cfg rt hasher wire (l.exec i))
    (dispatch rt binascii ctx scope (.download_file slug path)) s).1

/-- **The tool's verdict is the route's**: the same error, or the same bytes, or the file is above the
cap. -/
structure SameVerdict (cap : ℕ) (answer : Except Exn Response) (outcome : Except ToolExn Output) :
    Prop where
  refused : ∀ response code, answer = .ok response → response.code = some code →
    ∃ message, outcome = .error (.tool code message)
  within : ∀ response bytes media disposition, answer = .ok response →
    response.body = .content bytes media disposition → bytes.length ≤ cap →
    ∃ file, outcome = .ok (.download file) ∧ file.content_base64 = encode bytes ∧
      file.bytes = bytes.length ∧ file.sha256 = rt.sha256 bytes
  exceeding : ∀ response bytes media disposition, answer = .ok response →
    response.body = .content bytes media disposition → cap < bytes.length →
    ∃ message, outcome = .error (.tool .payload_too_large message)

/-- What the route answers to a download that is let in. -/
def fetched (w : World) (slug path : Str) : Response :=
  match downloaded l cfg rt (w.db.sites[slug]?).isSome w.disk slug path with
  | .ok response => response
  | .error e => Routes.errorResponse e

end

variable {l : Limits} {cfg : Config} {rt : Runtime} {hasher : Hasher} {wire : Wire} {i : ℕ}
  {binascii : Str → Str} {ctx : ToolContext} {w w' : World} {s : State} {bearer id slug path : Str}
  {r : TokenRec}

/-- **What a download is refused with**, or the file it finds. -/
theorem fetched_cases (l : Limits) (cfg : Config) (rt : Runtime) (w : World) (slug path : Str) :
    (∃ a : ApiError, fetched l cfg rt w slug path = error_response a ∧ 400 ≤ a.status) ∨
    ∃ target d, (w.db.sites[slug]?).isSome = true ∧ located l cfg rt w.disk slug path = .ok target ∧
      w.disk.get target = some (.file d) ∧ fetched l cfg rt w slug path = ⟨200,
        .content d.content (Routes.mediaType rt path) (_attachment (path_name path))⟩ := by
  rw [fetched]
  rcases downloaded_cases l cfg rt (w.db.sites[slug]?).isSome w.disk slug path with
    ⟨e, a, he, ha, h⟩ | ⟨target, d, hr, hloc, hd, h⟩
  · exact Or.inl ⟨a, by rw [h]; exact he.response, ha⟩
  · exact Or.inr ⟨target, d, hr, hloc, hd, by rw [h]⟩

theorem fetched_congr (h : SameSites w w') :
    fetched l cfg rt w' slug path = fetched l cfg rt w slug path := by
  rw [fetched, fetched, h.sites, h.disk]

/-- What lets in a caller is refused nothing. -/
theorem run_requires_limits (l : Limits) (cfg : Config) (rt : Runtime) (i : ℕ) (w : World)
    (name : RouteName) (header : Option Str) : run (l.exec i) (Routes.requires cfg rt name header) w =
      run (Calls.exec i) (Routes.requires cfg rt name header) w :=
  Limits.run_of_uses ((uses_requires cfg rt name header).mono fun _ => Limits.lets_accounts) w

section
variable (hf : Forwarded rt w.db bearer id r) (hslug : validate_slug rt slug = .ok slug)
  (hpath : validate_site_path rt path false = .ok path)
  (hopen : l.sealed (site_dir cfg slug ++ segments path) = false)
include hslug hpath hopen

/-- The route of a download is answered as it is fetched. -/
theorem run_answering_download :
    run (l.exec i) (Routes.answering (Routes.download_file cfg rt slug path)) w =
      (.ok (fetched l cfg rt w slug path), w) := by
  have hrun := run_route_download (i := i) (w := w) l cfg hslug hpath hopen
  rw [fetched]
  rcases downloaded_cases l cfg rt (w.db.sites[slug]?).isSome w.disk slug path with
    ⟨e, a, he, -, h⟩ | ⟨target, d, -, -, -, h⟩
  · rw [h] at hrun ⊢
    exact run_answering_error he.answered hrun
  · rw [h] at hrun ⊢
    exact run_answering_ok hrun

include hf

/-- **What an agent is answered**, directly. -/
theorem run_handle_download (hasher : Hasher) :
    ∃ w', run (l.exec i) (Routes.handle cfg rt hasher (some (lit "Bearer " ++ bearer))
      (.download_file slug path)) w = (.ok (fetched l cfg rt w slug path), w') := by
  have hacc : access_allows (route_access .download_file) (some (.agent, r.scope)) = true := by
    cases r.scope <;> rfl
  obtain ⟨actor, w', r', hsame, -, -, hrun⟩ := run_handle_agent (i := i) cfg hasher
    (.download_file slug path) (run_requires_limits l cfg rt i w _) (by rintro _ ⟨⟩) hf.stripped hf.ne
    hf.toAgentBearer hacc
  refine ⟨w', hrun.trans ?_⟩
  rw [← fetched_congr hsame]
  exact run_answering_download hslug hpath hopen

theorem direct_eq :
    direct l cfg rt hasher i bearer slug path w = .ok (fetched l cfg rt w slug path) := by
  obtain ⟨w', h⟩ := run_handle_download (i := i) hf hslug hpath hopen hasher
  rw [direct, h]

end

/-! ### The tool after the listing -/

/-- What `fetchFile` makes of an answer. -/
def finished (rt : Runtime) (wire : Wire) (ctx : ToolContext) (slug path : Str) (response : Response) :
    Except ToolExn DownloadFileOutput :=
  (told rt wire (.download_file ctx.bearer slug path) response).bind fun downloaded =>
    if ctx.max_file_bytes < downloaded.content.length then
      .error (_too_large ctx downloaded.content.length (lit "Download") slug path)
    else .ok ⟨slug, path, downloaded.content.length, downloaded.sha256, downloaded.content_type,
      encode downloaded.content⟩

theorem run_fetchFile (hf : Forwarded rt s.backend.db ctx.bearer id r)
    (hslug : validate_slug rt slug = .ok slug) (hpath : validate_site_path rt path false = .ok path)
    (hopen : l.sealed (site_dir cfg slug ++ segments path) = false) :
    (run (Tools.exec cfg rt hasher wire (l.exec i)) (fetchFile ctx slug path) s).1 =
      finished rt wire ctx slug path (fetched l cfg rt s.backend slug path) := by
  obtain ⟨w', h⟩ := run_handle_download (i := i) hf hslug hpath hopen hasher
  have hask := run_ask (reaches_download_file wire hf.ascii hslug hpath) h
  rw [fetchFile, finished, run_bind, hask]
  rcases told rt wire _ (fetched l cfg rt s.backend slug path) with e | file
  · rfl
  · change (run _ (if _ then _ else _) _).1 = if _ then _ else _
    split_ifs <;> rfl

section
variable {o : Except ToolExn DownloadFileOutput}

/-- What the dispatch makes of the outcome of the handler. -/
def dispatched (o : Except ToolExn DownloadFileOutput) : Except ToolExn Output :=
  (o.map .download).mapError fromBackend

theorem viaTool_eq (scope : Scope) : viaTool l cfg rt hasher wire i binascii ctx scope slug path s =
    dispatched (run (Tools.exec cfg rt hasher wire (l.exec i)) (download_file rt ctx slug path) s).1 := by
  have hspec : spec_for (Input.download_file slug path).name =
      some ⟨lit "download_file", .read_only⟩ := rfl
  have hscope : scope_allows scope .read_only = true := by cases scope <;> rfl
  rw [viaTool, run_dispatch hspec hscope, handler, run_map, dispatched]

/-- The same refusal, in other words. -/
theorem SameVerdict.of_refused {cap : ℕ} {a a' : ApiError} (hcode : a'.code = a.code) :
    SameVerdict rt cap (.ok (error_response a))
      (dispatched (.error (.client (.backend ⟨a'.status, lit a'.code.value, a'.message⟩)))) where
  refused response code h hcode' := by
    obtain rfl := Except.ok.inj h
    obtain rfl := Option.some.inj hcode'
    exact ⟨a'.message, by rw [← hcode]; exact congrArg Except.error (fromBackend_refused a')⟩
  within response _ _ _ h hbody := by
    obtain rfl := Except.ok.inj h
    cases hbody
  exceeding response _ _ _ h hbody := by
    obtain rfl := Except.ok.inj h
    cases hbody

/-- A file within the cap is delivered, and one above it refused. -/
theorem SameVerdict.of_content {cap : ℕ} {bytes : Bytes} {media disposition : Str}
    (hwithin : bytes.length ≤ cap → ∃ file, o = .ok file ∧ file.content_base64 = encode bytes ∧
      file.bytes = bytes.length ∧ file.sha256 = rt.sha256 bytes)
    (hexceeding : cap < bytes.length → ∃ message, o = .error (.tool .payload_too_large message)) :
    SameVerdict rt cap (.ok ⟨200, .content bytes media disposition⟩) (dispatched o) where
  refused response code h hcode := by
    obtain rfl := Except.ok.inj h
    cases hcode
  within response bytes' _ _ h hbody hle := by
    obtain rfl := Except.ok.inj h
    obtain ⟨rfl, -, -⟩ := Body.content.inj hbody
    obtain ⟨file, rfl, hfile⟩ := hwithin hle
    exact ⟨file, rfl, hfile⟩
  exceeding response bytes' _ _ h hbody hlt := by
    obtain rfl := Except.ok.inj h
    obtain ⟨rfl, -, -⟩ := Body.content.inj hbody
    obtain ⟨message, rfl⟩ := hexceeding hlt
    exact ⟨message, rfl⟩

/-- **The tool gives the verdict of the download** that it makes. -/
theorem verdict_finished (l : Limits) (cfg : Config) (wire : Wire) (ctx : ToolContext) (w : World)
    (slug path : Str) : SameVerdict rt ctx.max_file_bytes (.ok (fetched l cfg rt w slug path))
      (dispatched (finished rt wire ctx slug path (fetched l cfg rt w slug path))) := by
  rcases fetched_cases l cfg rt w slug path with ⟨a, h, ha⟩ | ⟨target, d, -, -, -, h⟩
  · rw [h, finished, told_refused wire _ ha]
    exact SameVerdict.of_refused rfl
  · rw [h, finished, told_ok]
    refine SameVerdict.of_content (fun hle => ?_) fun hlt => ?_
    · exact ⟨_, if_neg (not_lt.2 hle), rfl, rfl, rfl⟩
    · exact ⟨_, if_pos hlt⟩

end

/-! ### The listing -/

/-- The parent of a path that is accepted is accepted. -/
theorem parent_accepted (hpath : validate_site_path rt path false = .ok path) :
    ∃ up name, path = join (up ++ [name]) ∧ (∀ t ∈ up ++ [name], Segment t) ∧
      path_parent path = join up ∧ path_name path = name ∧
      validate_site_path rt (join up) true = .ok (join up) ∧ ∃ b, utf8 (join up) = some b := by
  obtain ⟨segs, hne, hsegs, rfl, hlen⟩ := SitePaths.accepted_iff.1 hpath
  obtain ⟨up, name, rfl⟩ := (List.eq_nil_or_concat segs).resolve_left hne
  rw [List.concat_eq_append] at hsegs hlen ⊢
  have hseg : ∀ t ∈ up ++ [name], Segment t := fun t ht => (hsegs t ht).toSegment
  have hname := hseg name (by simp)
  refine ⟨up, name, rfl, hseg, path_parent_join hname, path_name_join hname, ?_⟩
  rcases (SitePaths.accepted_parts rt hsegs hlen).1 with hnil | hup
  · rw [hnil]
    exact ⟨rfl, [], rfl⟩
  · have hgrammar := ((SitePaths.path_grammar rt (join up) (join up)).1).1 hup
    exact ⟨((SitePaths.path_grammar rt (join up) (join up)).2.1).2 (Or.inl hgrammar),
      (RouteTable.path_plain hup).2⟩

theorem Forwarded.congr {d d' : Database} (h : Forwarded rt d bearer id r) (ht : d'.tokens = d.tokens) :
    Forwarded rt d' bearer id r := ⟨h.toAgentBearer.congr ht, h.ascii, h.stripped, h.ne⟩

/-- The answer to a listing. -/
def listed (o : Except Exn FileListing) : Response :=
  match o with
  | .ok listing => ⟨200, .listing listing⟩
  | .error e => Routes.errorResponse e

/-- **The tool's listing**: what the site's folder lists, for an agent. -/
theorem run_ask_listing (l : Limits) (cfg : Config) (hasher : Hasher) (wire : Wire) (i : ℕ)
    {folder : Str} (hf : Forwarded rt s.backend.db bearer id r) (hslug : validate_slug rt slug = .ok slug)
    (hutf : ∃ b, utf8 folder = some b) :
    ∃ w' r', SameSites s.backend w' ∧ Forwarded rt w'.db bearer id r' ∧ ∀ o w'',
      run (l.exec i) (Routes.list_files cfg rt slug folder) w' =
        (o.map fun listing => ⟨200, .listing listing⟩, w'') → o ≠ .error .cancelled →
      ∃ s', run (Tools.exec cfg rt hasher wire (l.exec i)) (ask (.list_files bearer slug folder)) s =
          (told rt wire (.list_files bearer slug folder) (listed o), s') ∧ s'.backend = w'' ∧
        Forwarded rt w''.db bearer id r' := by
  have hacc : access_allows (route_access .list_files) (some (.agent, r.scope)) = true := by
    cases r.scope <;> rfl
  obtain ⟨actor, w', r', hsame, hagent, -, hrun⟩ := run_handle_agent (i := i) cfg hasher
    (.list_files slug folder) (run_requires_limits l cfg rt i s.backend _) (by rintro _ ⟨⟩) hf.stripped
    hf.ne hf.toAgentBearer hacc
  have hf' : Forwarded rt w'.db bearer id r' := ⟨hagent, hf.ascii, hf.stripped, hf.ne⟩
  refine ⟨w', r', hsame, hf', fun o w'' ho hcancel => ?_⟩
  have hsites : Uses ofSites (Routes.serve cfg rt hasher actor (.list_files slug folder)) :=
    uses_serve_sites actor rfl
  have htokens := (Limits.run_sameAccounts (l := l) (i := i) hsites w').tokens
  have hserve : run (l.exec i) (Routes.serve cfg rt hasher actor (.list_files slug folder)) w' =
    (o.map fun listing => ⟨200, .listing listing⟩, w'') := ho
  rw [hserve] at htokens
  have hanswer : run (l.exec i)
      (Routes.answering (Routes.serve cfg rt hasher actor (.list_files slug folder))) w' =
      (.ok (listed o), w'') := by
    rcases o with e | listing
    · exact run_answering_error (fun h => hcancel (congrArg _ h)) hserve
    · exact run_answering_ok hserve
  exact ⟨_, run_ask (reaches_list_files wire hf.ascii hslug hutf) (hrun.trans hanswer), rfl,
    hf'.congr htokens⟩

section
variable (l : Limits) (cfg : Config) (hasher : Hasher) (wire : Wire) (i : ℕ)
  (hf : Forwarded rt s.backend.db ctx.bearer id r) (hslug : validate_slug rt slug = .ok slug)
  (hpath : validate_site_path rt path false = .ok path)
include hf hslug hpath

/-- **A listing that is refused** is the tool's refusal. -/
theorem outcome_unlisted {a : ApiError} (ha : 400 ≤ a.status)
    (h : ∀ w', SameSites s.backend w' → ∃ e w'', AnsweredAs e a ∧ run (l.exec i)
      (Routes.list_files cfg rt slug (path_parent path)) w' = (.error e, w'')) :
    (run (Tools.exec cfg rt hasher wire (l.exec i)) (download_file rt ctx slug path) s).1 =
      .error (.client (.backend ⟨a.status, lit a.code.value, a.message⟩)) := by
  obtain ⟨up, name, -, -, hup, -, -, hutf⟩ := parent_accepted hpath
  rw [← hup] at hutf
  obtain ⟨w', r', hsame, -, hrun⟩ := run_ask_listing l cfg hasher wire i hf hslug hutf
  obtain ⟨e, w'', he, hlist⟩ := h w' hsame
  obtain ⟨s', hask, -⟩ := hrun (.error e) w'' hlist fun hc => he.answered (Except.error.inj hc)
  have htold : told rt wire (.list_files ctx.bearer slug (path_parent path)) (listed (.error e)) =
      .error (.client (.backend ⟨a.status, lit a.code.value, a.message⟩)) :=
    (congrArg _ he.response).trans (told_refused wire _ ha)
  rw [download_file, slug_valid hslug, path_valid hpath]
  exact congrArg Prod.fst (run_bind_of_error _ (hask.trans (congrArg (·, s') htold)))

/-- **Once the folder is listed**, the tool is at the file's size, and then at the download. -/
theorem outcome_listed (hopen : l.sealed (site_dir cfg slug ++ segments path) = false)
    {P : FileListing → Prop}
    (h : ∀ w', SameSites s.backend w' → ∃ listing w'', P listing ∧ run (l.exec i)
      (Routes.list_files cfg rt slug (path_parent path)) w' = (.ok ⟨200, .listing listing⟩, w'') ∧
        w''.disk = w'.disk ∧ (w''.db.sites[slug]?).isSome = (w'.db.sites[slug]?).isSome) :
    ∃ listing, P listing ∧
      (run (Tools.exec cfg rt hasher wire (l.exec i)) (download_file rt ctx slug path) s).1 =
        match oversize ctx listing (path_name path) with
        | some bytes => .error (_too_large ctx bytes (lit "Download") slug path)
        | none => finished rt wire ctx slug path (fetched l cfg rt s.backend slug path) := by
  obtain ⟨up, name, -, -, hup, -, -, hutf⟩ := parent_accepted hpath
  rw [← hup] at hutf
  obtain ⟨w', r', hsame, -, hrun⟩ := run_ask_listing l cfg hasher wire i hf hslug hutf
  obtain ⟨listing, w'', hP, hroute, hdisk, hthere⟩ := h w' hsame
  obtain ⟨s', hask, hs', hf'⟩ := hrun (.ok listing) w'' hroute (by rintro ⟨⟩)
  have htold : told rt wire (.list_files ctx.bearer slug (path_parent path)) (listed (.ok listing)) =
      .ok listing := rfl
  have hsite : fetched l cfg rt s'.backend slug path = fetched l cfg rt s.backend slug path := by
    rw [fetched, fetched, hs', hdisk, hthere, hsame.disk, hsame.sites]
  refine ⟨listing, hP, ?_⟩
  rw [download_file, slug_valid hslug, path_valid hpath]
  refine (congrArg Prod.fst (run_bind_of_ok _ (hask.trans (congrArg (·, s') htold)))).trans ?_
  rcases oversize ctx listing (path_name path) with _ | bytes
  · rw [← hsite]
    rw [← hs'] at hf'
    exact run_fetchFile hf' hslug hpath hopen
  · rfl

end

/-! ### Listings that are refused -/

/-- **The listing of the parent is refused** as `a`. -/
def Unlisted (l : Limits) (cfg : Config) (rt : Runtime) (i : ℕ) (slug path : Str) (w : World)
    (a : ApiError) : Prop :=
  ∀ w', SameSites w w' → ∃ e w'', AnsweredAs e a ∧
    run (l.exec i) (list_folder cfg rt slug (path_parent path)) w' = (.error e, w'')

section
variable {target : Path Str} {a : ApiError}

theorem unlisted_unresolved {e : Exn} (he : AnsweredAs e a)
    (h : l.resolved cfg rt w.disk slug (path_parent path) = .error e) :
    Unlisted l cfg rt i slug path w a := fun w' hsame =>
  ⟨e, w', he, run_list_folder_error (by rw [hsame.disk, h])⟩

variable (h : l.resolved cfg rt w.disk slug (path_parent path) = .ok target)
include h

theorem unlisted_barred (hb : l.barred target = true) :
    Unlisted l cfg rt i slug path w internalError := fun w' hsame =>
  ⟨_, w', answeredAs_barred, run_list_folder_barred (by rw [hsame.disk, h]) hb⟩

variable (hb : l.barred target = false)
include hb

theorem unlisted_kind (hkind : kindAt w.disk target ≠ .folder)
    (hno : noFolder rt slug (path_parent path) (kindAt w.disk target) = .error (.api a)) :
    Unlisted l cfg rt i slug path w a := fun w' hsame => by
  refine ⟨_, w', answeredAs_api a, ?_⟩
  rw [run_list_folder_refused (by rw [hsame.disk, h]) hb (by rwa [hsame.disk]), hsame.disk, hno]

theorem unlisted_stopped (hr : (w.db.sites[slug]?).isSome = true)
    (hfolder : w.disk.get target = some .folder)
    (hl : l.listable w.disk (path_parent path) target
      (folderRows (w.db.files slug) slug (path_parent path)) = false) :
    Unlisted l cfg rt i slug path w internalError := fun w' hsame => by
  have hfiles : w'.db.files slug = w.db.files slug := by rw [Database.files, Database.files, hsame.sites]
  obtain ⟨e, w'', he, hrun⟩ := run_list_folder_stopped (l := l) (i := i) (w := w')
    (by rw [hsame.disk, h]) hb (by rw [hsame.disk, hfolder]) (by rw [hsame.sites, hr])
    (by rw [hsame.disk, hfiles, hl])
  exact ⟨e, w'', he, hrun⟩

end

/-! ### The verdicts, by what the parent is -/

theorem fetched_refused {e : Exn} {a : ApiError} (hthere : (w.db.sites[slug]?).isSome = true)
    (he : AnsweredAs e a) (h : located l cfg rt w.disk slug path = .error e) :
    fetched l cfg rt w slug path = error_response a := by
  rw [fetched, downloaded, if_pos hthere, h]
  exact he.response

theorem fetched_missing (l : Limits) (cfg : Config) (rt : Runtime) (path : Str)
    (h : w.db.sites[slug]? = none) :
    fetched l cfg rt w slug path = error_response (noSite rt slug) := by
  rw [fetched, downloaded, h]
  rfl

theorem fetched_found {target : Path Str} {d : FileData} (hthere : (w.db.sites[slug]?).isSome = true)
    (h : located l cfg rt w.disk slug path = .ok target) (hd : w.disk.get target = some (.file d)) :
    fetched l cfg rt w slug path = ⟨200, .content d.content (Routes.mediaType rt path)
      (_attachment (path_name path))⟩ := by
  rw [fetched, hthere, downloaded_found h hd]

/-- The tool's verdict, on what its handler comes to. -/
def Agrees (l : Limits) (cfg : Config) (rt : Runtime) (hasher : Hasher) (wire : Wire) (i : ℕ)
    (ctx : ToolContext) (slug path : Str) (s : State) : Prop :=
  SameVerdict rt ctx.max_file_bytes (.ok (fetched l cfg rt s.backend slug path))
    (dispatched (run (Tools.exec cfg rt hasher wire (l.exec i)) (download_file rt ctx slug path) s).1)

section
variable (hf : Forwarded rt s.backend.db ctx.bearer id r) (hslug : validate_slug rt slug = .ok slug)
  (hpath : validate_site_path rt path false = .ok path)
include hf hslug hpath

theorem agrees_no_site (hr : s.backend.db.sites[slug]? = none) :
    Agrees l cfg rt hasher wire i ctx slug path s := by
  rw [Agrees, fetched_missing l cfg rt path hr, outcome_unlisted l cfg hasher wire i hf hslug hpath
    (a := noSite rt slug) (by decide : 400 ≤ 404) fun w' hsame => ⟨_, w', answeredAs_api _, ?_⟩]
  · exact SameVerdict.of_refused rfl
  · refine run_bind_of_error _ ((run_site_limits ..).trans (run_site_missing hslug ?_))
    rw [hsame.sites, hr]

variable {rec : SiteRec} (hr : s.backend.db.sites[slug]? = some rec)
include hr

theorem outcome_refused {a : ApiError} (ha : 400 ≤ a.status)
    (hlist : Unlisted l cfg rt i slug path s.backend a) :
    (run (Tools.exec cfg rt hasher wire (l.exec i)) (download_file rt ctx slug path) s).1 =
      .error (.client (.backend ⟨a.status, lit a.code.value, a.message⟩)) := by
  obtain ⟨up, name, -, -, hup, -, haccepted, -⟩ := parent_accepted hpath
  rw [← hup] at haccepted
  refine outcome_unlisted l cfg hasher wire i hf hslug hpath ha fun w' hsame => ?_
  obtain ⟨e, w'', he, hrun⟩ := hlist w' hsame
  exact ⟨e, w'', he, run_route_list_files hslug cfg (by rw [hsame.sites, hr]) haccepted hrun⟩

/-- **A listing that is refused as the download is.** -/
theorem agrees_refused {a b : ApiError} {e : Exn} (hcode : a.code = b.code) (ha : 400 ≤ a.status)
    (hlist : Unlisted l cfg rt i slug path s.backend a) (he : AnsweredAs e b)
    (hloc : located l cfg rt s.backend.disk slug path = .error e) :
    Agrees l cfg rt hasher wire i ctx slug path s := by
  rw [Agrees, fetched_refused (by rw [hr]; rfl) he hloc, outcome_refused hf hslug hpath hr ha hlist]
  exact SameVerdict.of_refused hcode

/-- **A listing that is refused in its own way.** -/
theorem differs_refused {a : ApiError} (ha : 400 ≤ a.status) (hcap : a.code ≠ .payload_too_large)
    (hlist : Unlisted l cfg rt i slug path s.backend a)
    (hcode : ∀ code, (fetched l cfg rt s.backend slug path).code = some code → code ≠ a.code) :
    ¬ Agrees l cfg rt hasher wire i ctx slug path s := by
  intro h
  have htold : dispatched (.error (.client (.backend ⟨a.status, lit a.code.value, a.message⟩))) =
      .error (.tool a.code a.message) := congrArg Except.error (fromBackend_refused a)
  rw [Agrees, outcome_refused hf hslug hpath hr ha hlist, htold] at h
  rcases fetched_cases l cfg rt s.backend slug path with ⟨b, hb, -⟩ | ⟨target, d, -, -, -, hd⟩
  · rw [hb] at h hcode
    obtain ⟨message, hm⟩ := h.refused _ _ rfl rfl
    exact hcode b.code rfl (ToolExn.tool.inj (Except.error.inj hm)).1.symm
  · rw [hd] at h
    rcases le_or_gt d.content.length ctx.max_file_bytes with hle | hlt
    · obtain ⟨file, hfile, -⟩ := h.within _ _ _ _ rfl rfl hle
      cases hfile
    · obtain ⟨message, hm⟩ := h.exceeding _ _ _ _ rfl rfl hlt
      exact hcap (ToolExn.tool.inj (Except.error.inj hm)).1

end

/-! ### The way to the parent -/

/-- **When the listing of the parent does not come between the tool and the file**, in a site that is
there. Where the parent cannot be reached, neither can the file. Where it is missing, it depends on
which of the two names can be looked up. Where it is there, it has to be a folder that is listed, or
the file's own name refused too; where it is the site's folder and missing, it lists as empty. -/
def unhindered (l : Limits) (cfg : Config) (w : World) (slug path : Str) : Bool :=
  let root := site_dir cfg slug
  let parent := root ++ segments (path_parent path)
  let target := root ++ segments path
  match l.wayTo w.disk root (segments (path_parent path)) with
  | .barred | .linked _ => true
  | .missing => l.barred parent == l.barred target
  | .clear => match w.disk.get parent with
    | none => true
    | some .folder => l.barred target || l.listable w.disk (path_parent path) parent
        (folderRows (w.db.files slug) slug (path_parent path))
    | some _ => false

/-- A name at which a way ends is not refused unless it cannot be looked up. -/
theorem way_name_open {t : Files Str} {parent : Path Str} {name : Str}
    (hb : l.barred (parent ++ [name]) = false) : l.way t parent [name] ≠ .barred := by
  rw [Limits.way, hb, if_neg Bool.false_ne_true]
  rcases t.get (parent ++ [name]) with _ | _ | _ | _ | _ <;> rintro ⟨⟩

theorem way_name_barred {t : Files Str} {parent : Path Str} {name : Str}
    (hb : l.barred (parent ++ [name]) = true) : l.way t parent [name] = .barred := by
  rw [Limits.way, if_pos hb]

theorem way_name_missing {t : Files Str} {parent : Path Str} {name : Str}
    (hb : l.barred (parent ++ [name]) = false) (hn : t.get (parent ++ [name]) = none) :
    l.way t parent [name] = .missing := by
  rw [Limits.way, hb, if_neg Bool.false_ne_true, hn]

/-- **What can be looked up is not answered by an internal error.** -/
theorem fetched_code_open (hway : l.wayTo w.disk (site_dir cfg slug) (segments path) ≠ .barred)
    (hb : l.barred (site_dir cfg slug ++ segments path) = false) {code : ErrorCode}
    (hcode : (fetched l cfg rt w slug path).code = some code) : code ≠ .internal_error := by
  rcases hthere : (w.db.sites[slug]?).isSome with _ | _
  · rw [fetched, downloaded, hthere, if_neg Bool.false_ne_true] at hcode
    obtain rfl := Option.some.inj hcode
    rintro ⟨⟩
  have hrefused : ∀ a : ApiError, a.code ≠ .internal_error →
      located l cfg rt w.disk slug path = .error (.api a) → code ≠ .internal_error := by
    intro a ha hloc
    rw [fetched_refused hthere (answeredAs_api a) hloc] at hcode
    obtain rfl := Option.some.inj hcode
    exact ha
  rcases hres : l.resolved cfg rt w.disk slug path with e | target
  · rcases resolved_error hres with ⟨why, rfl⟩ | rfl
    · exact hrefused _ (by rintro ⟨⟩) (located_unresolved hres)
    · rw [Limits.resolved] at hres
      rcases hw : l.wayTo w.disk (site_dir cfg slug) (segments path) with _ | _ | _ | _ <;>
        rw [hw] at hres <;> try cases hres
      exact absurd hw hway
  obtain rfl := Limits.resolved_ok hres
  have hloc := located_open hres hb
  rcases hk : kindAt w.disk (site_dir cfg slug ++ segments path) with _ | _ | _ | _ <;>
    rw [hk] at hloc
  · exact hrefused _ (by rintro ⟨⟩) hloc
  · obtain ⟨-, -, d, hd⟩ := located_file hloc
    rw [fetched_found hthere hloc hd] at hcode
    cases hcode
  · exact hrefused _ (by rintro ⟨⟩) hloc
  · exact hrefused _ (by rintro ⟨⟩) hloc

section
variable {up : List Str} {name : Str} (hp : path = join (up ++ [name]))
  (hseg : ∀ s ∈ up ++ [name], Segment s)
include hp hseg

theorem path_parts : segments path = up ++ [name] ∧ path_parent path = join up ∧
    segments (path_parent path) = up ∧ path_name path = name := by
  have hname := hseg name (by simp)
  rw [hp, path_parent_join hname, path_name_join hname, segments_join hseg,
    segments_join fun s hs => hseg s (List.mem_append_left _ hs)]
  exact ⟨rfl, rfl, rfl, rfl⟩

/-- The parent resolves as far as the way to it goes, -/
theorem resolved_parent (l : Limits) (cfg : Config) (rt : Runtime) (t : Files Str) (slug : Str) :
    l.resolved cfg rt t slug (path_parent path) = (l.wayTo t (site_dir cfg slug) up).answer rt
      (path_parent path) (site_dir cfg slug ++ up) := by
  rw [Limits.resolved, (path_parts hp hseg).2.2.1]

/-- and the path one name further. -/
theorem resolved_path (l : Limits) (cfg : Config) (rt : Runtime) (t : Files Str) (slug : Str) :
    l.resolved cfg rt t slug path = ((l.wayTo t (site_dir cfg slug) up).next
      (l.way t (site_dir cfg slug ++ up) [name])).answer rt path (site_dir cfg slug ++ (up ++ [name])) := by
  rw [Limits.resolved, (path_parts hp hseg).1, Limits.wayTo_append]

section
variable (hf : Forwarded rt s.backend.db ctx.bearer id r) (hslug : validate_slug rt slug = .ok slug)
  (hpath : validate_site_path rt path false = .ok path) {rec : SiteRec}
  (hr : s.backend.db.sites[slug]? = some rec)
include hf hslug hpath hr

/-- **A way that ends before the parent**, at a link or a name that cannot be looked up, refuses both. -/
theorem agrees_blocked (h : l.wayTo s.backend.disk (site_dir cfg slug) up = .barred ∨
      ∃ why, l.wayTo s.backend.disk (site_dir cfg slug) up = .linked why) :
    Agrees l cfg rt hasher wire i ctx slug path s := by
  have hparent := resolved_parent hp hseg l cfg rt s.backend.disk slug
  have hchild := resolved_path hp hseg l cfg rt s.backend.disk slug
  rcases h with h | ⟨why, h⟩ <;> rw [h] at hparent hchild
  · exact agrees_refused hf hslug hpath hr rfl (by decide : 400 ≤ 500)
      (unlisted_unresolved answeredAs_barred hparent) answeredAs_barred (located_unresolved hchild)
  · exact agrees_refused hf hslug hpath hr (a := _invalid_path rt (path_parent path) why)
      (b := _invalid_path rt path why) rfl le_rfl (unlisted_unresolved (answeredAs_api _) hparent)
      (answeredAs_api _) (located_unresolved hchild)

/-- **A parent that is missing** has nothing below it, for both; each says so of the names that can be
looked up. -/
theorem missing_iff (h : l.wayTo s.backend.disk (site_dir cfg slug) up = .missing) :
    Agrees l cfg rt hasher wire i ctx slug path s ↔
      l.barred (site_dir cfg slug ++ up) = l.barred (site_dir cfg slug ++ (up ++ [name])) := by
  obtain ⟨hne, hnone⟩ := Limits.wayTo_missing h
  have hthere : (s.backend.db.sites[slug]?).isSome = true := by rw [hr]; rfl
  have hparent := resolved_parent hp hseg l cfg rt s.backend.disk slug
  have hchild := resolved_path hp hseg l cfg rt s.backend.disk slug
  rw [h] at hparent hchild
  have hchildnone : s.backend.disk.get (site_dir cfg slug ++ (up ++ [name])) = none := by
    rw [← List.append_assoc]
    exact Tree.get_below_none (by rw [hnone]; rintro ⟨⟩) (by simp)
  have hkind : kindAt s.backend.disk (site_dir cfg slug ++ up) = .missing := by
    rw [kindAt, hnone]
    rfl
  have hfolder : path_parent path ≠ [] := by
    rw [(path_parts hp hseg).2.1]
    exact join_ne_nil (fun s hs => hseg s (List.mem_append_left _ hs)) hne
  have hopen : l.barred (site_dir cfg slug ++ up) = false → Unlisted l cfg rt i slug path s.backend
      ⟨404, .not_found, lit "no folder " ++ rt.repr (path_parent path) ++ lit " in site " ++
        rt.repr slug⟩ := fun hb =>
    unlisted_kind hparent hb (by rw [hkind]; rintro ⟨⟩) (by rw [hkind, noFolder, if_neg hfolder])
  rcases hP : l.barred (site_dir cfg slug ++ up) with _ | _ <;>
    rcases hT : l.barred (site_dir cfg slug ++ (up ++ [name])) with _ | _
  · refine iff_of_true (agrees_refused hf hslug hpath hr ?_ (by decide : 400 ≤ 404) (hopen hP)
      (answeredAs_api _) (located_missing hchild hT hchildnone)) rfl
    rfl
  · refine iff_of_false (differs_refused hf hslug hpath hr (by decide : 400 ≤ 404) (by rintro ⟨⟩)
      (hopen hP) fun code hcode => ?_) (by decide)
    rw [fetched_refused hthere answeredAs_barred (located_barred hchild hT)] at hcode
    obtain rfl := Option.some.inj hcode
    rintro ⟨⟩
  · refine iff_of_false (differs_refused hf hslug hpath hr (by decide : 400 ≤ 500) (by rintro ⟨⟩)
      (unlisted_barred hparent hP) fun code hcode => ?_) (by decide)
    rw [fetched_refused hthere (answeredAs_api _) (located_missing hchild hT hchildnone)] at hcode
    obtain rfl := Option.some.inj hcode
    rintro ⟨⟩
  · exact iff_of_true (agrees_refused hf hslug hpath hr rfl (by decide : 400 ≤ 500)
      (unlisted_barred hparent hP) answeredAs_barred (located_barred hchild hT)) rfl

/-- **A site whose folder is missing** lists as empty, and the download follows. -/
theorem agrees_rootless (hopen : l.sealed (site_dir cfg slug ++ segments path) = false)
    (h : l.wayTo s.backend.disk (site_dir cfg slug) up = .clear)
    (hnone : s.backend.disk.get (site_dir cfg slug ++ up) = none) :
    Agrees l cfg rt hasher wire i ctx slug path s := by
  obtain ⟨hb, -, hthere⟩ := Limits.wayTo_clear h
  have hnil : up = [] := by
    by_contra hne
    exact hthere hne hnone
  have hparent := resolved_parent hp hseg l cfg rt s.backend.disk slug
  rw [h] at hparent
  obtain ⟨_, _, _, _, hup', -, haccepted, -⟩ := parent_accepted hpath
  rw [← hup'] at haccepted
  have hroot : path_parent path = [] := by rw [(path_parts hp hseg).2.1, hnil, join_nil]
  have hkind : kindAt s.backend.disk (site_dir cfg slug ++ up) = .missing := by
    rw [kindAt, hnone]
    rfl
  obtain ⟨listing, rfl, hout⟩ := outcome_listed l cfg hasher wire i
    (P := fun listing => listing = ⟨slug, [], []⟩) hf hslug hpath hopen fun w' hsame => by
      refine ⟨_, w', rfl, ?_, rfl, rfl⟩
      have hk : kindAt w'.disk (site_dir cfg slug ++ up) = .missing := by rw [hsame.disk, hkind]
      have hlist := run_list_folder_refused (i := i) (w := w') (by rw [hsame.disk, hparent]; rfl) hb
        (by rw [hk]; rintro ⟨⟩)
      rw [hk, noFolder, if_pos hroot] at hlist
      exact run_route_list_files hslug cfg (by rw [hsame.sites, hr]) haccepted hlist
  rw [Agrees, hout]
  exact verdict_finished ..

/-- **A parent that is listed** shows the size of the file, and the download follows. -/
theorem agrees_listed (hopen : l.sealed (site_dir cfg slug ++ segments path) = false)
    (h : l.wayTo s.backend.disk (site_dir cfg slug) up = .clear)
    (hfolder : s.backend.disk.get (site_dir cfg slug ++ up) = some .folder)
    (hl : l.listable s.backend.disk (path_parent path) (site_dir cfg slug ++ up)
      (folderRows (s.backend.db.files slug) slug (path_parent path)) = true) :
    Agrees l cfg rt hasher wire i ctx slug path s := by
  obtain ⟨hb, -, -⟩ := Limits.wayTo_clear h
  have hparent := resolved_parent hp hseg l cfg rt s.backend.disk slug
  have hchild := resolved_path hp hseg l cfg rt s.backend.disk slug
  rw [h] at hparent hchild
  obtain ⟨_, _, _, _, hup', -, haccepted, -⟩ := parent_accepted hpath
  obtain ⟨-, -, -, hname⟩ := path_parts hp hseg
  rw [← hup'] at haccepted
  obtain ⟨listing, hshows, hout⟩ := outcome_listed l cfg hasher wire i
    (P := fun listing => Shows l s.backend.disk (site_dir cfg slug ++ up)
      (s.backend.disk.children (site_dir cfg slug ++ up)) listing.entries) hf hslug hpath hopen
    fun w' hsame => by
      have hthere : (w'.db.sites[slug]?).isSome := by rw [hsame.sites, hr]; rfl
      have hfiles : w'.db.files slug = s.backend.db.files slug := by
        rw [Database.files, Database.files, hsame.sites]
      obtain ⟨entries, w'', hrun, hshows, hdisk, hthere'⟩ := run_list_folder_shown (l := l) (i := i)
        (w := w') (by rw [hsame.disk, hparent]; rfl) hb (by rw [hsame.disk]; exact hfolder) hthere
        (by rw [hsame.disk, hfiles]; exact hl)
      rw [hsame.disk] at hshows
      exact ⟨_, w'', hshows, run_route_list_files hslug cfg (by rw [hsame.sites, hr]) haccepted hrun,
        hdisk, by rw [hthere', hthere]⟩
  rw [Agrees, hout, hname]
  rcases hover : oversize ctx listing name with _ | bytes
  · exact verdict_finished ..
  · -- the entry is that of the file, and shows its size
    rw [oversize] at hover
    rcases hfind : listing.entries.find? fun e => e.name == name with _ | entry <;> rw [hfind] at hover
    · cases hover
    dsimp only at hover
    split_ifs at hover with hfile
    obtain ⟨hbarred, d, hd⟩ := hshows.find.2 entry hfind hfile.1
    have hmem : name ∈ s.backend.disk.children (site_dir cfg slug ++ up) :=
      Tree.mem_children.2 (by rw [hd]; rintro ⟨⟩)
    obtain ⟨e, he, -, hbytes⟩ := hshows.find.1 d hmem hbarred hd
    obtain rfl := Option.some.inj (hfind.symm.trans he)
    rw [List.append_assoc] at hbarred hd
    have hclear : l.way s.backend.disk (site_dir cfg slug ++ up) [name] = .clear := by
      rw [Limits.way, List.append_assoc, hbarred, if_neg Bool.false_ne_true, hd]
      rfl
    rw [hclear] at hchild
    rw [fetched_found (by rw [hr]; rfl) (located_found hchild hbarred hd) hd]
    refine SameVerdict.of_content (fun hle => ?_) fun _ => ⟨_, rfl⟩
    have hlt := hfile.2
    omega

/-- **A parent that is not listed** raises, and so does the download of what cannot be looked up. -/
theorem unlisted_iff (h : l.wayTo s.backend.disk (site_dir cfg slug) up = .clear)
    (hfolder : s.backend.disk.get (site_dir cfg slug ++ up) = some .folder)
    (hl : l.listable s.backend.disk (path_parent path) (site_dir cfg slug ++ up)
      (folderRows (s.backend.db.files slug) slug (path_parent path)) = false) :
    Agrees l cfg rt hasher wire i ctx slug path s ↔
      l.barred (site_dir cfg slug ++ (up ++ [name])) = true := by
  obtain ⟨hb, -, -⟩ := Limits.wayTo_clear h
  have hthere : (s.backend.db.sites[slug]?).isSome = true := by rw [hr]; rfl
  have hparent := resolved_parent hp hseg l cfg rt s.backend.disk slug
  have hchild := resolved_path hp hseg l cfg rt s.backend.disk slug
  rw [h] at hparent hchild
  have hlist : Unlisted l cfg rt i slug path s.backend internalError :=
    unlisted_stopped hparent hb hthere hfolder hl
  rcases hT : l.barred (site_dir cfg slug ++ (up ++ [name])) with _ | _
  · refine iff_of_false (differs_refused hf hslug hpath hr (by decide : 400 ≤ 500) (by rintro ⟨⟩) hlist
      fun code hcode => ?_) Bool.false_ne_true
    refine fetched_code_open ?_ (by rw [(path_parts hp hseg).1, hT]) hcode
    rw [(path_parts hp hseg).1, Limits.wayTo_append, h]
    exact way_name_open (by rw [List.append_assoc, hT])
  · rw [show l.way s.backend.disk (site_dir cfg slug ++ up) [name] = .barred from
      way_name_barred (by rw [List.append_assoc, hT])] at hchild
    exact iff_of_true (agrees_refused hf hslug hpath hr rfl (by decide : 400 ≤ 500) hlist
      answeredAs_barred (located_unresolved hchild)) rfl

/-- **A parent that is no folder but stands in its place** refuses the listing in its own way. -/
theorem differs_standing (h : l.wayTo s.backend.disk (site_dir cfg slug) up = .clear)
    (hkind : kindAt s.backend.disk (site_dir cfg slug ++ up) = .file ∨
      kindAt s.backend.disk (site_dir cfg slug ++ up) = .special) :
    ¬ Agrees l cfg rt hasher wire i ctx slug path s := by
  obtain ⟨hb, -, -⟩ := Limits.wayTo_clear h
  have hthere : (s.backend.db.sites[slug]?).isSome = true := by rw [hr]; rfl
  have hparent := resolved_parent hp hseg l cfg rt s.backend.disk slug
  have hchild := resolved_path hp hseg l cfg rt s.backend.disk slug
  rw [h] at hparent hchild
  have hnone : s.backend.disk.get (site_dir cfg slug ++ (up ++ [name])) = none := by
    rw [← List.append_assoc]
    refine Tree.get_below_none (fun hc => ?_) (by simp)
    rw [kindAt, hc] at hkind
    rcases hkind with hk | hk <;> cases hk
  -- the download finds nothing, or cannot look
  have hcodes : ∀ code, (fetched l cfg rt s.backend slug path).code = some code →
      code = .not_found ∨ code = .internal_error := by
    intro code hcode
    rcases hT : l.barred (site_dir cfg slug ++ (up ++ [name])) with _ | _
    · rw [show l.way s.backend.disk (site_dir cfg slug ++ up) [name] = .missing from
        way_name_missing (by rw [List.append_assoc, hT]) (by rw [List.append_assoc, hnone])] at hchild
      rw [fetched_refused hthere (answeredAs_api _) (located_missing hchild hT hnone)] at hcode
      exact Or.inl (Option.some.inj hcode).symm
    · rw [show l.way s.backend.disk (site_dir cfg slug ++ up) [name] = .barred from
        way_name_barred (by rw [List.append_assoc, hT])] at hchild
      rw [fetched_refused hthere answeredAs_barred (located_unresolved hchild)] at hcode
      exact Or.inr (Option.some.inj hcode).symm
  rcases hkind with hk | hk
  · refine differs_refused hf hslug hpath hr (a := ⟨409, .not_a_folder,
      rt.repr (path_parent path) ++ lit " is a file"⟩) (by decide : 400 ≤ 409) (by rintro ⟨⟩)
      (unlisted_kind hparent hb (by rw [hk]; rintro ⟨⟩) (by rw [hk]; rfl)) fun code hcode => ?_
    rcases hcodes code hcode with rfl | rfl <;> rintro ⟨⟩
  · refine differs_refused hf hslug hpath hr (a := _invalid_path rt (path_parent path)
      (lit "not a regular file or a folder")) le_rfl (by rintro ⟨⟩)
      (unlisted_kind hparent hb (by rw [hk]; rintro ⟨⟩) (by rw [hk]; rfl)) fun code hcode => ?_
    rcases hcodes code hcode with rfl | rfl <;> rintro ⟨⟩

end
end

/-- **The tool's download gives the route's verdict** exactly where the listing of the parent does not
come in between. -/
theorem same_verdict_iff (l : Limits) (cfg : Config) (rt : Runtime) (hasher : Hasher) (wire : Wire)
    (i : ℕ) (binascii : Str → Str) (ctx : ToolContext) (slug path : Str) (s : State) (id : Str)
    (r : TokenRec) (hf : Forwarded rt s.backend.db ctx.bearer id r)
    (hslug : validate_slug rt slug = .ok slug) (hpath : validate_site_path rt path false = .ok path)
    (hopen : l.sealed (site_dir cfg slug ++ segments path) = false) :
    SameVerdict rt ctx.max_file_bytes (direct l cfg rt hasher i ctx.bearer slug path s.backend)
        (viaTool l cfg rt hasher wire i binascii ctx r.scope slug path s) ↔
      (s.backend.db.sites[slug]? = none ∨ unhindered l cfg s.backend slug path = true) := by
  rw [direct_eq hf hslug hpath hopen, viaTool_eq]
  change Agrees l cfg rt hasher wire i ctx slug path s ↔ _
  rcases hr : s.backend.db.sites[slug]? with _ | rec
  · exact iff_of_true (agrees_no_site hf hslug hpath hr) (Or.inl rfl)
  obtain ⟨up, name, hp, hseg, -, -, -, -⟩ := parent_accepted hpath
  obtain ⟨hsegs, -, hup, -⟩ := path_parts hp hseg
  have hsite : ¬ some rec = none := Option.some_ne_none rec
  rw [or_iff_right hsite, unhindered, hsegs, hup]
  rcases hway : l.wayTo s.backend.disk (site_dir cfg slug) up with _ | _ | why | _
  · rcases hg : s.backend.disk.get (site_dir cfg slug ++ up) with _ | d | _ | _ | _
    · exact iff_of_true (agrees_rootless hp hseg hf hslug hpath hr hopen hway hg) rfl
    · exact iff_of_false (differs_standing hp hseg hf hslug hpath hr hway
        (Or.inl (by rw [kindAt, hg]; rfl))) Bool.false_ne_true
    · rcases hl : l.listable s.backend.disk (path_parent path) (site_dir cfg slug ++ up)
        (folderRows (s.backend.db.files slug) slug (path_parent path)) with _ | _
      · exact (unlisted_iff hp hseg hf hslug hpath hr hway hg hl).trans
          (by dsimp only; rw [Bool.or_false])
      · exact iff_of_true (agrees_listed hp hseg hf hslug hpath hr hopen hway hg hl)
          (by dsimp only; rw [Bool.or_true])
    · have hlink := (Limits.wayTo_clear hway).2.1
      rw [hg] at hlink
      cases hlink
    · exact iff_of_false (differs_standing hp hseg hf hslug hpath hr hway
        (Or.inr (by rw [kindAt, hg]; rfl))) Bool.false_ne_true
  · exact (missing_iff hp hseg hf hslug hpath hr hway).trans beq_iff_eq.symm
  · exact iff_of_true (agrees_blocked hp hseg hf hslug hpath hr (Or.inr ⟨why, hway⟩)) rfl
  · exact iff_of_true (agrees_blocked hp hseg hf hslug hpath hr (Or.inl hway)) rfl

/-! ### A path below a file -/

/-- The site `a` of a small backend, with the file `f`, and an agent whose bearer is `pb_s`. -/
def withFile : World :=
  let w := smallWorld (insert_site ⟨lit "a", lit "a", ⟨62135596800000000, IsoTime.unixStart_lt⟩⟩
    (smallDb .read_only)).2
  let root := site_dir smallConfig (lit "a")
  { w with disk := (w.disk.put root .folder).put (root ++ [lit "f"]) (.file ⟨[1], 0⟩) }

theorem withFile_forwarded : Forwarded plainRuntime withFile.db (lit "pb_s") (lit "tok_0")
    ⟨plainRuntime.sha256 ((utf8 (lit "pb_s")).getD []), lit "t", .agent, .read_only, lit "usr_0",
      .ofInstant ⟨62135596800000000, IsoTime.unixStart_lt⟩, none, none, none⟩ where
  row := by decide +kernel
  secret := by decide +kernel
  type := rfl
  unrevoked := rfl
  unexpiring := rfl
  ascii := List.all_eq_true.1 (by decide)
  stripped := by decide
  ne := by decide

/-- Below a file the route finds nothing, and the tool reports that the file is no folder. -/
theorem same_verdict_below_file :
    ¬ SameVerdict plainRuntime 1 (direct (.os 4096) smallConfig plainRuntime plainHasher 0 (lit "pb_s")
        (lit "a") (lit "f/b") withFile)
      (viaTool (.os 4096) smallConfig plainRuntime plainHasher plainWire 0 (fun _ => [])
        ⟨lit "pb_s", 1⟩ .read_only (lit "a") (lit "f/b")
          ⟨withFile, ⟨[], .ok [], fun _ => .error .value⟩⟩) := by
  have hslug : validate_slug plainRuntime (lit "a") = .ok (lit "a") := by decide +kernel
  have hpath : validate_site_path plainRuntime (lit "f/b") false = .ok (lit "f/b") := by decide +kernel
  have hseg : ∀ s ∈ [lit "f"] ++ [lit "b"], Segment s := by
    obtain ⟨up, name, hjoin, hseg, -⟩ := parent_accepted hpath
    have hsegs := segments_join hseg
    rw [← hjoin] at hsegs
    rw [show [lit "f"] ++ [lit "b"] = up ++ [name] from Eq.trans (by decide) hsegs]
    exact hseg
  have hrow : ∃ rec, withFile.db.sites[lit "a"]? = some rec :=
    Option.isSome_iff_exists.1 (by decide +kernel)
  obtain ⟨rec, hr⟩ := hrow
  have hjoin : lit "f/b" = join ([lit "f"] ++ [lit "b"]) := by decide
  rw [direct_eq withFile_forwarded hslug hpath rfl, viaTool_eq]
  change ¬ Agrees (.os 4096) smallConfig plainRuntime plainHasher plainWire 0 ⟨lit "pb_s", 1⟩ (lit "a")
    (lit "f/b") ⟨withFile, _⟩
  exact differs_standing hjoin hseg withFile_forwarded hslug hpath hr (by decide +kernel)
    (Or.inl (by decide +kernel))

/-- The file itself is delivered. -/
theorem same_verdict_file :
    SameVerdict plainRuntime 1 (direct (.os 4096) smallConfig plainRuntime plainHasher 0 (lit "pb_s")
        (lit "a") (lit "f") withFile)
      (viaTool (.os 4096) smallConfig plainRuntime plainHasher plainWire 0 (fun _ => [])
        ⟨lit "pb_s", 1⟩ .read_only (lit "a") (lit "f") ⟨withFile, ⟨[], .ok [], fun _ => .error .value⟩⟩) :=
  (same_verdict_iff (.os 4096) smallConfig plainRuntime plainHasher plainWire 0 (fun _ => [])
    ⟨lit "pb_s", 1⟩ (lit "a") (lit "f") ⟨withFile, ⟨[], .ok [], fun _ => .error .value⟩⟩ _ _
    withFile_forwarded (by decide +kernel) (by decide +kernel) rfl).2 (Or.inr (by decide +kernel))

end PaperBoxing.Mcp.Downloads
