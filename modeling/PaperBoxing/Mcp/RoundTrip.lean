import PaperBoxing.Backend.Stored
import PaperBoxing.Mcp.Downloads

/-! # A file's trip through the tools

`upload_file` and `download_file` of the tools, one after the other, against the backend: a file that
went in within the cap comes out as it went in, however its base64 was broken into lines.

* `Spaced`: a text with whitespace inserted into it;
* `upload_stored`: what a successful upload left behind;
* `file_survives`: the whole trip. -/

namespace PaperBoxing.Mcp.RoundTrip

open PaperBoxing.Lib PaperBoxing.Lib.Action PaperBoxing.Lib.Program PaperBoxing.Lib.Text
open PaperBoxing.Lib.Base64 PaperBoxing.Lib.Trees PaperBoxing.Lib.Disk PaperBoxing.Common
open PaperBoxing.Common.Scopes PaperBoxing.Common.Schema PaperBoxing.Common.Naming
open PaperBoxing.Backend PaperBoxing.Backend.Db PaperBoxing.Backend.Calls PaperBoxing.Backend.Storage
open PaperBoxing.Backend.Alone PaperBoxing.Backend.Bearer PaperBoxing.Backend.Frames
open PaperBoxing.Backend.Shown PaperBoxing.Backend.Stored PaperBoxing.Backend.App
open PaperBoxing.Backend.Served PaperBoxing.Mcp.Tools PaperBoxing.Mcp.Downloads

/-! ### The text of a file -/

/-- **A text with whitespace inserted**, of any kind and at any places. -/
inductive Spaced : Str → Str → Prop where
  | nil : Spaced [] []
  | keep (c : CodePoint) {s t : Str} (h : Spaced s t) : Spaced (c :: s) (c :: t)
  | insert {c : CodePoint} (hc : isSpace c = true) {s t : Str} (h : Spaced s t) : Spaced s (c :: t)

/-- Without its whitespace the text is as it was, if it had none. -/
theorem Spaced.compact {s t : Str} (h : Spaced s t) (hs : ∀ c ∈ s, isSpace c = false) :
    t.filter (fun c => !isSpace c) = s := by
  induction h with
  | nil => rfl
  | keep c _ ih =>
    rw [List.filter_cons_of_pos (by rw [hs c List.mem_cons_self]; rfl),
      ih fun c hc => hs c (List.mem_cons_of_mem _ hc)]
  | insert hc _ ih => rw [List.filter_cons_of_neg (by rw [hc]; rintro ⟨⟩), ih hs]

variable {cfg : Config} {rt : Runtime} {hasher : Hasher} {wire : Wire} {i : ℕ} {binascii : Str → Str}
  {ctx : ToolContext} {s s' : State} {id slug path : Str} {r : TokenRec} {content : Bytes}
  {text : Str} {overwrite : Bool}

theorem decode_spaced (h : Spaced (encode content) text) : _decode binascii text = .ret content := by
  rw [_decode, h.compact fun c hc => (mem_encode hc).1]
  rw [decode_encode]

section
variable (hslug : validate_slug rt slug = .ok slug) (hpath : validate_site_path rt path false = .ok path)
  (htext : Spaced (encode content) text)
include hslug hpath htext

/-- Within the cap the handler calls the backend with the bytes of the file. -/
theorem upload_within (hle : content.length ≤ ctx.max_file_bytes) :
    upload_file rt binascii ctx slug path text overwrite =
      ask (.upload_file ctx.bearer slug path content overwrite) := by
  rw [upload_file, slug_valid hslug, path_valid hpath, decode_spaced htext]
  exact if_neg (not_lt.2 hle)

/-- Above the cap it calls nothing. -/
theorem upload_exceeding (hlt : ctx.max_file_bytes < content.length) :
    upload_file rt binascii ctx slug path text overwrite =
      .raise (Tools._too_large ctx content.length (lit "Upload") slug path) := by
  rw [upload_file, slug_valid hslug, path_valid hpath, decode_spaced htext]
  exact if_pos hlt

end

/-! ### The upload -/

/-- **What the backend is sent**: a request of the upload route, whose body brings the bytes. -/
def Sends (rt : Runtime) (wire : Wire) (bearer slug path : Str) (overwrite : Bool) (content : Bytes) :
    Prop :=
  ∃ request chunks, (exchange rt (.upload_file bearer slug path content overwrite)).outgoing client =
      .ok request ∧ request.payload = .bytes content ∧
    requested wire request = some (.upload_file slug path ⟨chunks, none⟩ (some content.length)
      overwrite) ∧ chunks.flatten = content

theorem sends (wire : Wire) {bearer : Str} (hascii : ∀ c ∈ bearer, isAscii c = true)
    (hslug : validate_slug rt slug = .ok slug) (hpath : validate_site_path rt path false = .ok path)
    (content : Bytes) (overwrite : Bool) : Sends rt wire bearer slug path overwrite content := by
  obtain ⟨request, hout, -, hreq⟩ := reaches_upload_file wire hascii hslug hpath content overwrite
  exact ⟨request, _, hout, (Except.ok.inj (Client.outgoing_payload hout)).symm, hreq,
    wire.chunks_flatten content⟩

/-- **What a successful upload left behind**: its bytes at its path, the row of the site, and a bearer
that is still an agent's. -/
theorem upload_stored {result : UploadResult} (hf : Forwarded rt s.backend.db ctx.bearer id r)
    (hslug : validate_slug rt slug = .ok slug) (hpath : validate_site_path rt path false = .ok path)
    (h : run (Tools.exec cfg rt hasher wire (Calls.exec i))
      (ask (.upload_file ctx.bearer slug path content overwrite)) s = (.ok result, s')) :
    result.sha256 = rt.sha256 content ∧
      (∃ d, d.content = content ∧ Holds slug (site_dir cfg slug ++ segments path) d s'.backend) ∧
      ∃ r', Forwarded rt s'.backend.db ctx.bearer id r' := by
  obtain ⟨response, hhandle, htold⟩ :=
    run_ask_inv (reaches_upload_file wire hf.ascii hslug hpath content overwrite) h
  have hbody := told_upload htold
  have hcode : response.code = none := by rw [Response.code, hbody]
  obtain ⟨actor, w1, r', hagent, hserve⟩ :=
    handle_agent_inv (by rintro _ ⟨⟩) hf.stripped hf.ne hf.toAgentBearer hcode hhandle
  obtain ⟨-, hsha, hstored⟩ := route_stored hslug hpath hbody hserve
  rw [wire.chunks_flatten] at hsha hstored
  -- the route leaves the accounts alone
  have hsites : Uses ofSites (Routes.serve cfg rt hasher actor (.upload_file slug path
    ⟨wire.chunks content, none⟩ (some content.length) overwrite)) := uses_serve_sites actor rfl
  have htokens := (run_sameAccounts (i := i) hsites w1).tokens
  rw [hserve] at htokens
  exact ⟨hsha, hstored, r', hagent.congr htokens, hf.ascii, hf.stripped, hf.ne⟩

/-! ### The download -/

/-- **A stored file within the cap is delivered.** -/
theorem download_stored (hasher : Hasher) (wire : Wire) (i : ℕ)
    (hf : Forwarded rt s.backend.db ctx.bearer id r)
    (hslug : validate_slug rt slug = .ok slug) (hpath : validate_site_path rt path false = .ok path)
    {d : FileData} (hd : Holds slug (site_dir cfg slug ++ segments path) d s.backend)
    (hle : d.content.length ≤ ctx.max_file_bytes) :
    ∃ file, (run (Tools.exec cfg rt hasher wire (Calls.exec i)) (download_file rt ctx slug path) s).1
        = .ok file ∧
      file.content_base64 = encode d.content ∧ file.bytes = d.content.length ∧
      file.sha256 = rt.sha256 d.content := by
  obtain ⟨rec, hr⟩ := Option.isSome_iff_exists.1 hd.row
  obtain ⟨up, name, rfl, hseg, -, -, -, -⟩ := parent_accepted hpath
  have hget := hd.get
  rw [segments_join hseg, ← List.append_assoc] at hget
  have hfolder := Tree.get_ancestor (q := [name]) (by rw [hget]; rintro ⟨⟩) (List.cons_ne_nil _ _)
  have hagrees : Agrees .free cfg rt hasher wire i ctx slug (join (up ++ [name])) s :=
    agrees_listed rfl hseg hf hslug hpath hr rfl
      (Limits.wayTo_of_get (fun _ _ => rfl) hfolder rfl) hfolder (Limits.listable_free ..)
  have hfetched : fetched .free cfg rt s.backend slug (join (up ++ [name])) = ⟨200, _⟩ :=
    fetched_found hd.row (located_of_get rfl (fun _ _ => rfl) hd.get) hd.get
  rw [← Limits.exec_free]
  rw [Agrees, hfetched] at hagrees
  obtain ⟨file, hfile, hrest⟩ := hagrees.within _ _ _ _ rfl rfl hle
  rcases ho : (run (Tools.exec cfg rt hasher wire (Limits.free.exec i))
    (download_file rt ctx slug (join (up ++ [name]))) s).1 with e | file'
  · rw [ho] at hfile
    cases hfile
  · rw [ho] at hfile
    obtain rfl := Output.download.inj (Except.ok.inj hfile)
    exact ⟨_, rfl, hrest⟩

/-! ### The trip -/

/-- An outcome that is no error is a result. -/
theorem returned_of_isOk {A W : Type} {x : Except ToolExn A × W} (h : x.1.isOk = true) :
    ∃ a w, x = (.ok a, w) := by
  rcases x with ⟨_ | a, w⟩
  · cases h
  · exact ⟨a, w, rfl⟩

/-- A backend with the row of the site `a`, and an agent that may write, whose bearer is `pb_s`. -/
def writable : State :=
  ⟨smallWorld (insert_site ⟨lit "a", lit "a", ⟨62135596800000000, IsoTime.unixStart_lt⟩⟩
    (smallDb .read_write)).2, ⟨[], .ok [], fun _ => .error .value⟩⟩

theorem writable_forwarded : Forwarded plainRuntime writable.backend.db (lit "pb_s") (lit "tok_0")
    ⟨plainRuntime.sha256 ((utf8 (lit "pb_s")).getD []), lit "t", .agent, .read_write, lit "usr_0",
      .ofInstant ⟨62135596800000000, IsoTime.unixStart_lt⟩, none, none, none⟩ where
  row := by decide +kernel
  secret := by decide +kernel
  type := rfl
  unrevoked := rfl
  unexpiring := rfl
  ascii := List.all_eq_true.1 (by decide)
  stripped := by decide
  ne := by decide

/-- The base64 of one byte, broken into two lines. -/
theorem spaced_wrapped : Spaced (encode [1]) (lit "AQ\n==") :=
  .keep _ (.keep _ (.insert (by decide) (.keep _ (.keep _ .nil))))

/-- **A file survives the trip through the tools.** -/
theorem file_survives (cfg : Config) (rt : Runtime) (hasher : Hasher) (wire : Wire) (i j : ℕ)
    (binascii : Str → Str) (ctx : ToolContext) (slug path text : Str) (content : Bytes)
    (overwrite : Bool) (s : State) (id : Str) (r : TokenRec)
    (hf : Forwarded rt s.backend.db ctx.bearer id r) (hslug : validate_slug rt slug = .ok slug)
    (hpath : validate_site_path rt path false = .ok path) (htext : Spaced (encode content) text) :
    (content.length ≤ ctx.max_file_bytes →
      upload_file rt binascii ctx slug path text overwrite =
        ask (.upload_file ctx.bearer slug path content overwrite) ∧
      Sends rt wire ctx.bearer slug path overwrite content ∧
      ∀ result s', run (Tools.exec cfg rt hasher wire (Calls.exec i))
          (upload_file rt binascii ctx slug path text overwrite) s = (.ok result, s') →
        ∃ file, (run (Tools.exec cfg rt hasher wire (Calls.exec j)) (download_file rt ctx slug path) s').1 =
            .ok file ∧
          decode file.content_base64 = some content ∧ file.bytes = content.length ∧
          file.sha256 = result.sha256) ∧
    (ctx.max_file_bytes < content.length → ∃ message,
      upload_file rt binascii ctx slug path text overwrite =
        .raise (.tool .payload_too_large message)) := by
  refine ⟨fun hle => ⟨upload_within hslug hpath htext hle,
    sends wire hf.ascii hslug hpath content overwrite, fun result s' h => ?_⟩,
    fun hlt => ⟨_, upload_exceeding hslug hpath htext hlt⟩⟩
  rw [upload_within hslug hpath htext hle] at h
  obtain ⟨hsha, ⟨d, rfl, hd⟩, r', hf'⟩ := upload_stored hf hslug hpath h
  obtain ⟨file, hfile, htext', hbytes, hdigest⟩ :=
    download_stored hasher wire j hf' hslug hpath hd hle
  exact ⟨file, hfile, by rw [htext', decode_encode], hbytes, by rw [hdigest, hsha]⟩

/-- A file whose text was broken into two lines. -/
theorem file_survives_wrapped : ∃ result s' file,
    run (Tools.exec smallConfig plainRuntime plainHasher plainWire (Calls.exec 0)) (upload_file plainRuntime
      (fun _ => []) ⟨lit "pb_s", 1⟩ (lit "a") (lit "f/b") (lit "AQ\n==") false) writable =
        (.ok result, s') ∧
    (run (Tools.exec smallConfig plainRuntime plainHasher plainWire (Calls.exec 1))
      (download_file plainRuntime
      ⟨lit "pb_s", 1⟩ (lit "a") (lit "f/b")) s').1 = .ok file ∧
    decode file.content_base64 = some [1] := by
  have hok : (run (Tools.exec smallConfig plainRuntime plainHasher plainWire (Calls.exec 0)) (upload_file
      plainRuntime (fun _ => []) ⟨lit "pb_s", 1⟩ (lit "a") (lit "f/b") (lit "AQ\n==") false)
      writable).1.isOk = true := by decide +kernel
  obtain ⟨result, s', h⟩ := returned_of_isOk hok
  obtain ⟨file, hfile, hdecode, -, -⟩ := ((file_survives smallConfig plainRuntime plainHasher
    plainWire 0 1 (fun _ => []) ⟨lit "pb_s", 1⟩ (lit "a") (lit "f/b") (lit "AQ\n==") [1] false
    writable _ _ writable_forwarded (by decide +kernel) (by decide +kernel) spaced_wrapped).1
      le_rfl).2.2 result s' h
  exact ⟨result, s', file, h, hfile, hdecode⟩

end PaperBoxing.Mcp.RoundTrip
