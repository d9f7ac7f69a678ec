import PaperBoxing.Backend.Calls
import PaperBoxing.Common.Naming

/-! # The storage

`backend/storage.py`: the served tree, `sites/<slug>/…`, the staging area beside it, and the
operations on both, as programs over the calls of `Backend.Calls`. A `kind_of`, a `resolve`, a
staging and a critical section are programs of their own, under the source's names. What a body has
yielded so far stands for both the size and the state of its digest. -/

namespace PaperBoxing.Backend.Storage

open PaperBoxing.Lib PaperBoxing.Lib.Program PaperBoxing.Lib.Text PaperBoxing.Lib.IsoTime
open PaperBoxing.Lib.Trees PaperBoxing.Lib.Disk PaperBoxing.Common.Schema PaperBoxing.Common.Naming
open PaperBoxing.Backend.Db PaperBoxing.Backend.Calls

/-- What `lstat` finds at a path; `special` covers links, devices, FIFOs and sockets. -/
inductive Kind : Type where
  | missing
  | file
  | folder
  | special
  deriving DecidableEq

/-- `except (FileNotFoundError, NotADirectoryError)`. -/
def isAbsent : Exn → Bool
  | .os .notFound | .os .notADirectory => true
  | _ => false

/-- `os.lstat(path).st_mode`; none where nothing is there. -/
def lstat (path : Path Str) : Code (Option Mode) :=
  (disk (.lstat path)).attempt >>= fun r => match r with
    | .ok mode => .ret (some mode)
    | .error e => if isAbsent e then .ret none else .raise e

/-- The kind of a mode. -/
def Kind.ofMode : Option Mode → Kind
  | none => .missing
  | some .regular => .file
  | some .directory => .folder
  | some _ => .special

/-- `kind_of`. -/
def kind_of (path : Path Str) : Code Kind := lstat path >>= fun mode => .ret (.ofMode mode)

/-- `_unlink`. -/
def _unlink (path : Path Str) : Code Unit := suppressOs (disk (.unlink path))

/-- The `os.mkdir` of a folder whose parent is not made. -/
def mkdirOnce (exist_ok : Bool) (path : Path Str) : Code Unit :=
  (disk (.mkdir path)).except fun e => match e with
    | .os .notFound => .raise (.os .notFound)
    | .os e =>
      if exist_ok then disk (.isDir path) >>= fun is_dir => if is_dir then .ret () else .raise (.os e)
      else .raise (.os e)
    | e => .raise e

/-- `Path.mkdir(parents=True, exist_ok=…)`, on the names from the last one up: a parent is made when
it is found missing, and then the folder is tried again. -/
def mkdirParents (exist_ok : Bool) : List Str → Code Unit
  | [] => mkdirOnce exist_ok []
  | name :: up =>
    let path := (name :: up).reverse
    (disk (.mkdir path)).except fun e => match e with
      | .os .notFound => mkdirParents true up >>= fun _ => mkdirOnce exist_ok path
      | .os e =>
        if exist_ok then
          disk (.isDir path) >>= fun is_dir => if is_dir then .ret () else .raise (.os e)
        else .raise (.os e)
      | e => .raise e

/-- Remove the entries of a walk one by one. -/
def removeAll (ignore_errors : Bool) : List (Path Str × Bool) → Code Unit
  | [] => .ret ()
  | (path, is_dir) :: rest =>
    let remove := if is_dir then disk (.rmdir path) else disk (.unlink path)
    (if ignore_errors then suppressOs remove else remove) >>= fun _ => removeAll ignore_errors rest

/-- `shutil.rmtree`: what is held goes before what holds it. -/
def rmtree (ignore_errors : Bool) (path : Path Str) : Code Unit :=
  (disk (.walk path)).attempt >>= fun r => match r with
    | .ok entries => removeAll ignore_errors entries
    | .error (.os e) => if ignore_errors then .ret () else .raise (.os e)
    | .error e => .raise e

/-- What was learnt of a body received whole into staging. -/
structure Staged : Type where
  path : Path Str
  sha256 : Str
  bytes : ℕ

section
variable (cfg : Config) (rt : Runtime)

/-- `_invalid_path`. -/
def _invalid_path (path : Str) (why : Str) : ApiError :=
  ⟨400, .invalid_path, lit "invalid path " ++ rt.repr path ++ lit ": " ++ why⟩

/-- `_too_large`. -/
def _too_large : ApiError :=
  ⟨413, .payload_too_large, lit "the file exceeds the cap of " ++ dec cfg.max_upload_bytes ++
    lit " bytes (" ++ dec (cfg.max_upload_bytes / (1024 * 1024)) ++ lit " MiB)"⟩

/-! ### Paths -/

/-- `site_dir`. -/
def site_dir (slug : Str) : Path Str := cfg.sites_dir ++ [slug]

/-- The loop of `resolve`: it ends at the first component that does not exist. -/
def checkLinks (path : Str) : Path Str → List Str → Code Unit
  | _, [] => .ret ()
  | current, segment :: rest => do
    let mode ← lstat (current ++ [segment])
    match mode with
    | none => .ret ()
    | some .symlink =>
      .raise (.api (_invalid_path rt path (lit "the path passes through a symbolic link")))
    | some _ => checkLinks path (current ++ [segment]) rest

/-- `resolve`: the location of a canonical path inside the site. -/
def resolve (slug path : Str) : Code (Path Str) := do
  let root := site_dir cfg slug
  let mode ← lstat root
  if mode = some .symlink then
    .raise (.api (_invalid_path rt path (lit "the site folder is a symbolic link")))
  else do
    checkLinks rt path root (segments path)
    let target := root ++ segments path
    let real ← disk (.realpath target)
    let real_root ← disk (.realpath root)
    if real_root <+: real then .ret target
    else .raise (.api (_invalid_path rt path (lit "the path escapes the site")))

/-- `_relative`. -/
def _relative (slug : Str) (target : Path Str) : Str := join (target.drop (site_dir cfg slug).length)

/-! ### Sites -/

/-- `create_site`: the folder, then the row. -/
def create_site (slug name : Str) (created_at : Instant) : Code SiteRow :=
  hold slug do
    let existing ← query (.site_by_slug slug)
    if existing ≠ none then
      refuse 409 .site_exists (lit "a site with the slug " ++ rt.repr slug ++ lit " exists")
    else do
      let root := site_dir cfg slug
      (mkdirParents false root.reverse).except fun e => match e with
        | .os .exists =>
          refuse 409 .site_exists (lit "a site with the slug " ++ rt.repr slug ++
            lit " exists: its directory is already on the volume")
        | e => .raise e
      let site : SiteRow := ⟨slug, name, created_at⟩
      (query (.insert_site site)).except fun e => do
        suppressOs (disk (.rmdir root))
        match e with
        | .conflict =>
          refuse 409 .site_exists (lit "a site with the slug " ++ rt.repr slug ++ lit " exists")
        | e => .raise e
      .ret site

/-- `site_totals`. -/
def site_totals (slug : Str) : Code (ℕ × ℕ) := do
  let totals ← query (.folder_totals slug [])
  .ret (totals.file_count, totals.bytes)

/-- Where `delete_site` parks a site's folder. -/
def parkedPath (slug hex : Str) : Path Str :=
  cfg.staging_dir ++ [slug ++ lit ".deleting-" ++ hex]

/-- The critical section of `delete_site`: the folder goes into staging, and the row goes. -/
def parkSite (slug : Str) : Code (Option (Path Str)) := do
  let root := site_dir cfg slug
  let kind ← kind_of root
  let parked ← (if kind ≠ .missing then do
      let hex ← token_hex 4
      disk (.replace root (parkedPath cfg slug hex))
      .ret (some (parkedPath cfg slug hex))
    else .ret none)
  let _ ← query (.delete_site slug)
  .ret parked

/-- `delete_site`. -/
def delete_site (slug : Str) : Code Unit := do
  let parked ← hold slug (parkSite cfg slug)
  match parked with
  | none => .ret ()
  | some parked => do
    let kind ← kind_of parked
    if kind = .folder then rmtree true parked else _unlink parked

/-! ### Listing -/

/-- What `list_folder` has gathered. -/
structure Gathered : Type where
  seen : List Str
  folders : List FileEntry
  files : List FileEntry

/-- The path of an entry of a folder, relative to the site. -/
def entryPath (folder name : Str) : Str := if folder = [] then name else folder ++ lit "/" ++ name

/-- The row of a file that is there: as indexed while its size and time match, otherwise hashed and
written. -/
def reconcile (slug rel : Str) (path : Path Str) (st : Stat) (indexed : List FileRow) :
    Code FileRow :=
  match indexed.find? fun row => row.path == rel with
  | some row =>
    if row.bytes ≠ st.size ∨ row.mtime_ns ≠ st.mtime then rewrite else .ret row
  | none => rewrite
where
  rewrite : Code FileRow := do
    let content ← disk (.read path)
    let row : FileRow := ⟨slug, rel, st.size, st.mtime, rt.sha256 content⟩
    query (.upsert_file row)
    .ret row

/-- One entry of the folder. -/
def gather (slug folder : Str) (target : Path Str) (indexed : List FileRow) (name : Str)
    (g : Gathered) : Code Gathered :=
  (disk (.stat (target ++ [name]))).attempt >>= fun r => match r with
    | .error (.os _) => .ret g
    | .error e => .raise e
    | .ok st =>
      let rel := entryPath folder name
      match st.mode with
      | .directory => do
        let totals ← query (.folder_totals slug rel)
        let newest := max st.mtime (totals.newest_mtime_ns.getD 0)
        .ret { g with
          folders := g.folders ++ [⟨name, .folder, totals.bytes, rt.fromtimestamp newest, none⟩] }
      | .regular => do
        let row ← reconcile rt slug rel (target ++ [name]) st indexed
        .ret { g with
          seen := g.seen ++ [rel]
          files := g.files ++
            [⟨name, .file, row.bytes, rt.fromtimestamp row.mtime_ns, some row.sha256⟩] }
      | _ => .ret g

/-- The entries of the folder, one after another. -/
def gatherAll (slug folder : Str) (target : Path Str) (indexed : List FileRow) :
    List Str → Gathered → Code Gathered
  | [], g => .ret g
  | name :: names, g =>
    gather rt slug folder target indexed name g >>= gatherAll slug folder target indexed names

/-- Drop the rows of files that are gone. -/
def dropStale (slug : Str) : List Str → Code Unit
  | [] => .ret ()
  | stale :: rest => query (.delete_file_row slug stale) >>= fun _ => dropStale slug rest

/-- `sort(key=lambda e: e.name)`. -/
def sortByName (entries : List FileEntry) : List FileEntry :=
  entries.insertionSort fun a b => (compare a.name b.name).isLE = true

/-- `list_folder`. -/
def list_folder (slug folder : Str) : Code FileListing := do
  let target ← resolve cfg rt slug folder
  let kind ← kind_of target
  match kind with
  | .file => refuse 409 .not_a_folder (rt.repr folder ++ lit " is a file")
  | .special => .raise (.api (_invalid_path rt folder (lit "not a regular file or a folder")))
  | .missing =>
    if folder = [] then .ret ⟨slug, [], []⟩
    else
      refuse 404 .not_found
        (lit "no folder " ++ rt.repr folder ++ lit " in site " ++ rt.repr slug)
  | .folder => do
    let indexed ← query (.files_in_folder slug folder)
    let names ← disk (.scandir target)
    let g ← gatherAll rt slug folder target indexed names ⟨[], [], []⟩
    dropStale slug ((indexed.map FileRow.path).filter fun path => !g.seen.contains path)
    .ret ⟨slug, folder, sortByName g.folders ++ sortByName g.files⟩

/-! ### Files -/

/-- `file_path`: the file to download. -/
def file_path (slug path : Str) : Code (Path Str) := do
  let target ← resolve cfg rt slug path
  let kind ← kind_of target
  match kind with
  | .folder => refuse 409 .not_a_file (rt.repr path ++ lit " is a folder, not a file")
  | .special => .raise (.api (_invalid_path rt path (lit "not a regular file")))
  | .missing =>
    refuse 404 .not_found (lit "no file " ++ rt.repr path ++ lit " in site " ++ rt.repr slug)
  | .file => .ret target

/-- The loop of `_check_write_target` over the parents below the site's folder, from the last one
up. -/
def checkParents (slug path : Str) : List Str → Code Unit
  | [] => .ret ()
  | name :: up => do
    let parent := site_dir cfg slug ++ (name :: up).reverse
    let kind ← kind_of parent
    match kind with
    | .file =>
      refuse 409 .not_a_folder
        (rt.repr (_relative cfg slug parent) ++ lit " is a file, not a folder")
    | .special =>
      .raise (.api (_invalid_path rt path
        (rt.repr (_relative cfg slug parent) ++ lit " is not a folder")))
    | _ => checkParents slug path up

/-- `_check_write_target`: whether the write replaces a file. -/
def _check_write_target (slug : Str) (target : Path Str) (path : Str) (overwrite : Bool) :
    Code Bool := do
  checkParents cfg rt slug path (target.drop (site_dir cfg slug).length).dropLast.reverse
  let kind ← kind_of target
  match kind with
  | .folder => refuse 409 .not_a_file (rt.repr path ++ lit " is a folder")
  | .special => .raise (.api (_invalid_path rt path (lit "not a regular file")))
  | .file =>
    if overwrite then .ret true
    else refuse 409 .file_exists (rt.repr path ++ lit " exists; pass overwrite=true to replace it")
  | .missing => .ret false

/-- The loop of `_stage` over the body's chunks; `received` is what came before them. -/
def stageChunks (staging : Path Str) (ending : Option Exn) : List Bytes → Bytes → Code Bytes
  | [], received =>
    match ending with
    | none => receive none >>= fun _ => .ret received
    | some e => .raise e
  | chunk :: chunks, received => do
    receive (some chunk)
    if chunk = [] then stageChunks staging ending chunks received
    else if cfg.max_upload_bytes < (received ++ chunk).length then .raise (.api (_too_large cfg))
    else do
      disk (.write staging chunk)
      stageChunks staging ending chunks (received ++ chunk)

/-- Where `_stage` receives a body. -/
def stagingPath (hex : Str) : Path Str := cfg.staging_dir ++ [hex ++ lit ".part"]

/-- What `_stage` does between opening the staging file and closing it. -/
def fillStaging (staging : Path Str) (body : Incoming) : Code Bytes := do
  disk (.create staging)
  let received ← stageChunks cfg staging body.ending body.chunks []
  disk (.sync staging)
  .ret received

/-- `_stage`. -/
def _stage (body : Incoming) : Code Staged := do
  let hex ← token_hex 8
  let received ← (fillStaging cfg (stagingPath cfg hex) body).except fun e =>
    _unlink (stagingPath cfg hex) >>= fun _ => .raise e
  .ret ⟨stagingPath cfg hex, rt.sha256 received, received.length⟩

/-- The critical section of `write_file`: whether a file was replaced. -/
def landFile (slug path : Str) (overwrite : Bool) (staged : Staged) : Code Bool := do
  let site ← query (.site_by_slug slug)
  if site = none then
    refuse 404 .not_found
      (lit "site " ++ rt.repr slug ++ lit " was deleted while the file was being received")
  else do
    let target ← resolve cfg rt slug path
    let replaced ← _check_write_target cfg rt slug target path overwrite
    mkdirParents true target.dropLast.reverse
    disk (.replace staged.path target)
    let mtime_ns ← disk (.mtime target)
    query (.upsert_file ⟨slug, path, staged.bytes, mtime_ns, staged.sha256⟩)
    .ret replaced

/-- `write_file`. -/
def write_file (slug path : Str) (body : Incoming) (overwrite : Bool)
    (declared_length : Option ℤ) : Code UploadResult := do
  let _ ← resolve cfg rt slug path
  if declared_length.any fun n => (cfg.max_upload_bytes : ℤ) < n then
    .raise (.api (_too_large cfg))
  else do
    let staged ← _stage cfg rt body
    let replaced ← (hold slug (landFile cfg rt slug path overwrite staged)).except fun e =>
      _unlink staged.path >>= fun _ => .raise e
    .ret ⟨path, staged.bytes, staged.sha256, replaced⟩

/-- The critical section of `delete_file`. -/
def removeFile (slug path : Str) : Code Unit := do
  let target ← resolve cfg rt slug path
  let kind ← kind_of target
  match kind with
  | .folder => refuse 409 .not_a_file (rt.repr path ++ lit " is a folder; use the folders route")
  | .special => .raise (.api (_invalid_path rt path (lit "not a regular file")))
  | .missing =>
    refuse 404 .not_found (lit "no file " ++ rt.repr path ++ lit " in site " ++ rt.repr slug)
  | .file => do
    disk (.unlink target)
    query (.delete_file_row slug path)

/-- `delete_file`. -/
def delete_file (slug path : Str) : Code Unit := hold slug (removeFile cfg rt slug path)

/-- The critical section of `delete_folder`. -/
def removeFolder (slug path : Str) (recursive : Bool) : Code Unit := do
  let target ← resolve cfg rt slug path
  let kind ← kind_of target
  match kind with
  | .file => refuse 409 .not_a_folder (rt.repr path ++ lit " is a file; use the files route")
  | .special => .raise (.api (_invalid_path rt path (lit "not a folder")))
  | .missing =>
    refuse 404 .not_found (lit "no folder " ++ rt.repr path ++ lit " in site " ++ rt.repr slug)
  | .folder => do
    let entries ← disk (.scandir target)
    if !entries.isEmpty && !recursive then
      refuse 409 .folder_not_empty (rt.repr path ++
        lit " is not empty; pass recursive=true to delete everything in it")
    else do
      rmtree false target
      let _ ← query (.delete_files_under slug path)
      .ret ()

/-- `delete_folder`. -/
def delete_folder (slug path : Str) (recursive : Bool) : Code Unit :=
  hold slug (removeFolder cfg rt slug path recursive)

/-! ### Staging -/

/-- One leftover of a previous run. -/
def cleanEntry (entry : Path Str) : Code Unit := do
  let is_dir ← disk (.isDir entry)
  let mode ← lstat entry
  if is_dir ∧ mode ≠ some .symlink then rmtree true entry else _unlink entry

/-- The loop of `clean_staging`. -/
def cleanAll : List Str → Code Unit
  | [] => .ret ()
  | name :: names => cleanEntry (cfg.staging_dir ++ [name]) >>= fun _ => cleanAll names

/-- `clean_staging`: how many entries it found. -/
def clean_staging : Code ℕ := do
  let names ← disk (.scandir cfg.staging_dir)
  cleanAll cfg names
  .ret names.length

end

end PaperBoxing.Backend.Storage
