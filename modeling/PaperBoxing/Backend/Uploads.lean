import PaperBoxing.Backend.Alone
import PaperBoxing.Backend.Frames
import PaperBoxing.Lib.Faults

/-! # What an upload comes to

`write_file` on a volume that only the API has changed, run alone: its outcome depends on the bytes of
its body, not on how they were cut into chunks.

* `Received`: what the staging leaves of a body within the cap;
* `writeTarget_conflict`: the check of the target is the conflict the tree shows;
* `run_write_file_whole`: the outcome, and what is left of the tree and the index;
* `ByBytes`, `upload_by_bytes`: all of it, the bound on the staging file included. -/

namespace PaperBoxing.Backend.Uploads

open PaperBoxing.Lib PaperBoxing.Lib.Action PaperBoxing.Lib.Program PaperBoxing.Lib.Faults
open PaperBoxing.Lib.Text PaperBoxing.Lib.Tables PaperBoxing.Lib.Trees PaperBoxing.Lib.Disk
open PaperBoxing.Common.Schema PaperBoxing.Common.Naming PaperBoxing.Backend.Db
open PaperBoxing.Backend.Calls PaperBoxing.Backend.Storage PaperBoxing.Backend.Alone

variable {cfg : Config} {rt : Runtime} {i : ℕ} {w w' w1 : World} {slug path : Str}

/-! ### The parts of an upload -/

/-- A held section that raises, in a program that cleans up after it. -/
theorem run_held_except {A : Type} {p : Code A} {f : Exn → Code A} {e : Exn}
    (hp : run (exec i) p (taken w i slug) = (.error e, w')) :
    run (exec i) ((hold slug p).except f) w = run (exec i) (f e) (freed w' slug) := by
  rw [run_except, run_held _ _ hp]

theorem run_held_except_ok {A : Type} {p : Code A} {f : Exn → Code A} {a : A}
    (hp : run (exec i) p (taken w i slug) = (.ok a, w')) :
    run (exec i) ((hold slug p).except f) w = (.ok a, freed w' slug) := by
  rw [run_except, run_held _ _ hp]

/-- The world of an upload after its body was received whole, before its critical section. -/
structure Received (cfg : Config) (rt : Runtime) (i : ℕ) (w w1 : World) (content : Bytes)
    (staged : Staged) (data : FileData) : Prop where
  kept : Kept w w1
  path : staged.path = nextStaging cfg w i
  bytes : staged.bytes = content.length
  sha256 : staged.sha256 = rt.sha256 content
  content : data.content = content
  stamped : Stamped i w data
  fresh : w.disk.get staged.path = none
  get : ∀ q, w1.disk.get q = if q = staged.path then some (.file data) else w.disk.get q

/-- **A body is received whole when it is within the cap**, and leaves no trace when it exceeds it. -/
theorem run_stage_whole (rt : Runtime) (hdir : w.disk.get cfg.staging_dir = some .folder)
    (hfresh : w.disk.get (nextStaging cfg w i) = none) {body : Incoming} (hbody : body.ending = none) :
    (cfg.max_upload_bytes < body.chunks.flatten.length ∧ ∃ w1, Kept w w1 ∧
      (∀ q, w1.disk.get q = w.disk.get q) ∧
      run (exec i) (_stage cfg rt body) w = (.error (.api (_too_large cfg)), w1)) ∨
    (¬ cfg.max_upload_bytes < body.chunks.flatten.length ∧ ∃ w1 staged data,
      Received cfg rt i w w1 body.chunks.flatten staged data ∧
      run (exec i) (_stage cfg rt body) w = (.ok staged, w1)) := by
  have hcol := collected_none cfg body.chunks [] (Nat.zero_le _)
  rw [List.nil_append, ← hbody] at hcol
  obtain ⟨data, w1, hstage, hk, hw1, hdata, hst⟩ := run_stage (i := i) rt body hdir hfresh
  by_cases hcap : cfg.max_upload_bytes < body.chunks.flatten.length
  · rw [if_pos hcap] at hcol
    refine Or.inl ⟨hcap, w1, hk, fun q => ?_, hstage.trans (by rw [stagedAs, hcol]; rfl)⟩
    rw [hw1, hcol, if_neg (by simp [Except.toOption])]
  · rw [if_neg hcap] at hcol
    refine Or.inr ⟨hcap, w1, _, data, ⟨hk, rfl, rfl, rfl, hdata _ hcol, hst, hfresh, fun q => ?_⟩,
      hstage.trans (by rw [stagedAs, hcol]; rfl)⟩
    rw [hw1, hcol]
    simp only [Except.toOption, Option.isSome_some, and_true]
    rfl

/-- `write_file` once the body was received. -/
theorem run_write_file {body : Incoming} {overwrite : Bool} {declared_length : Option ℤ}
    {target : Path Str} {staged : Staged} {w1 w2 : World} {o : Except Exn Bool}
    (hres : resolved cfg rt w.disk slug path = .ok target)
    (hdecl : (declared_length.any fun n => (cfg.max_upload_bytes : ℤ) < n) = false)
    (hstage : run (exec i) (_stage cfg rt body) w = (.ok staged, w1))
    (hland : run (exec i) ((hold slug (landFile cfg rt slug path overwrite staged)).except fun e =>
      _unlink staged.path >>= fun _ => .raise e) w1 = (o, w2)) :
    run (exec i) (Storage.write_file cfg rt slug path body overwrite declared_length) w =
      (o.map fun replaced => ⟨path, staged.bytes, staged.sha256, replaced⟩, w2) := by
  rw [Storage.write_file]
  refine (run_bind_of_ok _ ((run_resolve ..).trans (by rw [hres]))).trans ?_
  rw [hdecl, if_neg (by simp)]
  refine (run_bind_of_ok _ hstage).trans ?_
  rcases o with e | replaced
  · exact run_bind_of_error _ hland
  · exact run_bind_of_ok _ hland

section
variable {content : Bytes} {staged : Staged} {data : FileData} {r : SiteRec} {target : Path Str}
variable {overwrite : Bool}

/-- A refused upload: what was received goes again. -/
theorem run_land_refused (hrec : Received cfg rt i w w1 content staged data) {e : Exn}
    (hr : w.db.sites[slug]? = some r) (hres : resolved cfg rt w1.disk slug path = .ok target)
    (hchk : writeTarget cfg rt w1.disk slug target path overwrite = .error e) :
    ∃ w2, run (exec i) ((hold slug (landFile cfg rt slug path overwrite staged)).except
        fun e => _unlink staged.path >>= fun _ => .raise e) w1 = (.error e, w2) ∧
      w2.db = w.db ∧ ∀ q, w2.disk.get q = w.disk.get q := by
  have hpne : staged.path ≠ [] := by simp [hrec.path, nextStaging, stagingPath]
  have hland : run (exec i) (landFile cfg rt slug path overwrite staged)
      (taken w1 i slug) = (.error e, taken w1 i slug) := by
    rw [landFile]
    refine (run_bind_of_ok _ (run_site_by_slug slug)).trans ?_
    rw [show (taken w1 i slug).db = w.db from hrec.kept.db, hr, if_neg (by simp)]
    refine (run_bind_of_ok _ ((run_resolve ..).trans (by
      rw [show (taken w1 i slug).disk = w1.disk from rfl, hres]))).trans ?_
    exact run_bind_of_error _ ((run_check_write_target ..).trans (by
      rw [show (taken w1 i slug).disk = w1.disk from rfl, hchk]))
  have hclean : run (exec i) (_unlink staged.path) (freed (taken w1 i slug) slug) =
      (.ok (), { freed (taken w1 i slug) slug with disk := w1.disk.prune staged.path }) :=
    run_suppressOs_ok _ _ (run_unlink (w := freed (taken w1 i slug) slug) (n := .file data)
      ((hrec.get _).trans (if_pos rfl)) (by simp))
  refine ⟨_, (run_held_except hland).trans (run_bind_of_ok _ hclean), hrec.kept.db, fun q => ?_⟩
  have hp1 := (hrec.get staged.path).trans (if_pos rfl)
  refine (Tree.get_prune_leaf hpne (by rw [hp1]; simp) q).trans ?_
  rw [hrec.get]
  split_ifs with hq
  · rw [hq, hrec.fresh]
  · rfl

/-- An upload that passes: the file is at its place and has its row. -/
theorem run_land_landed {segs : List Str} (hrec : Received cfg rt i w w1 content staged data)
    {replaced : Bool} (hr : w.db.sites[slug]? = some r)
    (hres : resolved cfg rt w1.disk slug path = .ok (site_dir cfg slug ++ segs)) (hne : segs ≠ [])
    (hchk : writeTarget cfg rt w1.disk slug (site_dir cfg slug ++ segs) path overwrite = .ok replaced)
    (habove : ∀ q, q <+: site_dir cfg slug ++ segs.dropLast → w1.disk.get q = none ∨
      w1.disk.get q = some .folder) :
    ∃ w2, run (exec i) ((hold slug (landFile cfg rt slug path overwrite staged)).except
        fun e => _unlink staged.path >>= fun _ => .raise e) w1 = (.ok replaced, w2) ∧
      w2.db = w.db.set_files slug (fun f =>
        f.insert path ⟨data.content.length, data.mtime, rt.sha256 data.content⟩) ∧
      ∀ q, w2.disk.get q = if q = site_dir cfg slug ++ segs then some (.file data)
        else if q <+: site_dir cfg slug ++ segs.dropLast then some .folder else w.disk.get q := by
  have hst : staged.path = cfg.staging_dir ++ [(w.oracle i).token_hex 8 (w.drawn i) ++ lit ".part"] :=
    hrec.path
  have hdrop : (site_dir cfg slug ++ segs).dropLast = site_dir cfg slug ++ segs.dropLast :=
    List.dropLast_append_of_ne_nil hne
  have hdb : (taken w1 i slug).db = w.db := hrec.kept.db
  have hr1 : (taken w1 i slug).db.sites[slug]? = some r := by rw [hdb, hr]
  have hapart : ¬ staged.path <+: site_dir cfg slug ++ segs := by
    rw [hst]
    exact not_staging_prefix cfg slug _ _
  obtain ⟨t, hrun, ht⟩ := run_landFile (i := i) (w := taken w1 i slug) hr1 hres
    hchk ((hrec.get _).trans (if_pos rfl)) (by simp [hne]) (by rw [hdrop]; exact habove) hapart
  refine ⟨_, run_held_except_ok hrun, ?_, fun q => ?_⟩
  · simp only [freed, hdb, hrec.bytes, hrec.sha256, hrec.content]
  · refine (ht q).trans ?_
    rw [hdrop]
    by_cases h1 : q = site_dir cfg slug ++ segs
    · rw [if_pos h1, if_pos h1]
    rw [if_neg h1, if_neg h1]
    by_cases h2 : q = staged.path
    · have hnot : ¬ q <+: site_dir cfg slug ++ segs.dropLast := by
        rw [h2, hst]
        exact not_staging_prefix cfg slug _ _
      rw [if_pos h2, if_neg hnot, h2, hrec.fresh]
    · rw [if_neg h2]
      split_ifs
      · rfl
      · exact (hrec.get q).trans (if_neg h2)

end

/-! ### A volume only the API changed -/

/-- A tree in which a site's folder, if it is there, holds files and folders only. -/
structure PlainSite (cfg : Config) (t : Files Str) (slug : Str) : Prop where
  sites_dir : t.get cfg.sites_dir = some .folder
  root : t.get (site_dir cfg slug) = none ∨ t.get (site_dir cfg slug) = some .folder
  plain : ∀ q n, t.get (site_dir cfg slug ++ q) = some n → n = .folder ∨ ∃ d, n = .file d

/-- **A volume that only the API has changed**, as an upload of the thread `i` to a site finds it: the
two folders are there, the site's holds files and folders only, and the name that the staging will
draw is new. -/
structure ApiVolume (cfg : Config) (i : ℕ) (w : World) (slug : Str) : Prop
    extends PlainSite cfg w.disk slug where
  staging_dir : w.disk.get cfg.staging_dir = some .folder
  fresh : w.disk.get (nextStaging cfg w i) = none

/-- Whether an entry is a regular file. -/
def isFile : Option (Node Str FileData) → Bool
  | some (.file _) => true
  | _ => false

/-- Whether a file is above `segs`. -/
def fileAbove (t : Files Str) (root : Path Str) (segs : List Str) : Bool :=
  segs.dropLast.inits.any fun q => isFile (t.get (root ++ q))

theorem fileAbove_iff {t : Files Str} {root : Path Str} {segs : List Str} :
    fileAbove t root segs = true ↔ ∃ q, q <+: segs.dropLast ∧ isFile (t.get (root ++ q)) = true := by
  simp only [fileAbove, List.any_eq_true, List.mem_inits]

/-- **The conflict a tree has with a file at `segs`**: a file above it, a folder in its place, or a file
in its place that is not to be replaced. -/
def conflict (t : Files Str) (root : Path Str) (segs : List Str) (overwrite : Bool) :
    Option ErrorCode :=
  if fileAbove t root segs then some .not_a_folder
  else match t.get (root ++ segs) with
    | some .folder => some .not_a_file
    | some (.file _) => if overwrite then none else some .file_exists
    | _ => none

/-- **What an upload of the bytes `b` comes to.** -/
def verdict (cfg : Config) (rt : Runtime) (t : Files Str) (slug path : Str) (overwrite : Bool)
    (b : Bytes) : Except Exn UploadResult :=
  if cfg.max_upload_bytes < b.length then .error (.api (_too_large cfg))
  else (writeTarget cfg rt t slug (site_dir cfg slug ++ segments path) path overwrite).map
    fun replaced => ⟨path, b.length, rt.sha256 b, replaced⟩

section
variable {t : Files Str} {segs : List Str}

theorem kindAt_plain (h : PlainSite cfg t slug) (q : Path Str) :
    kindAt t (site_dir cfg slug ++ q) = .missing ∧ t.get (site_dir cfg slug ++ q) = none ∨
    kindAt t (site_dir cfg slug ++ q) = .folder ∧ t.get (site_dir cfg slug ++ q) = some .folder ∨
    kindAt t (site_dir cfg slug ++ q) = .file ∧
      ∃ d, t.get (site_dir cfg slug ++ q) = some (.file d) := by
  rw [kindAt]
  rcases hg : t.get (site_dir cfg slug ++ q) with _ | n
  · exact Or.inl ⟨rfl, rfl⟩
  · rcases h.plain q n hg with rfl | ⟨d, rfl⟩
    · exact Or.inr (Or.inl ⟨rfl, rfl⟩)
    · exact Or.inr (Or.inr ⟨rfl, d, rfl⟩)

/-- **The parents of a target**: one of them is a file, or the loop lets them pass. -/
theorem parentsChecked_plain (rt : Runtime) (path : Str) (h : PlainSite cfg t slug) (pre : List Str) :
    ((∃ q, q <+: pre ∧ isFile (t.get (site_dir cfg slug ++ q)) = true) ∧
      ∃ m, parentsChecked cfg rt t slug path pre.reverse = .error (.api ⟨409, .not_a_folder, m⟩)) ∨
    ((∀ q, q <+: pre → isFile (t.get (site_dir cfg slug ++ q)) = false) ∧
      parentsChecked cfg rt t slug path pre.reverse = .ok ()) := by
  induction pre using List.reverseRecOn with
  | nil =>
    refine Or.inr ⟨fun q hq => ?_, rfl⟩
    rw [List.prefix_nil.1 hq, List.append_nil]
    rcases h.root with hr | hr <;> rw [hr] <;> rfl
  | append_singleton pre s ih =>
    have hrev : (s :: pre.reverse).reverse = pre ++ [s] := by simp
    rw [List.reverse_append, List.reverse_singleton, List.singleton_append, parentsChecked, hrev]
    have hpass : isFile (t.get (site_dir cfg slug ++ (pre ++ [s]))) = false →
        ((∃ q, q <+: pre ++ [s] ∧ isFile (t.get (site_dir cfg slug ++ q)) = true) ∧ ∃ m,
          parentsChecked cfg rt t slug path pre.reverse = .error (.api ⟨409, .not_a_folder, m⟩)) ∨
        ((∀ q, q <+: pre ++ [s] → isFile (t.get (site_dir cfg slug ++ q)) = false) ∧
          parentsChecked cfg rt t slug path pre.reverse = .ok ()) := by
      intro hs
      rcases ih with ⟨⟨q, hq, hf⟩, hm⟩ | ⟨hall, hok⟩
      · exact Or.inl ⟨⟨q, hq.trans (List.prefix_append _ _), hf⟩, hm⟩
      · refine Or.inr ⟨fun q hq => ?_, hok⟩
        rcases List.prefix_concat_iff.1 hq with rfl | hq
        · exact hs
        · exact hall q hq
    rcases kindAt_plain h (pre ++ [s]) with ⟨hk, hg⟩ | ⟨hk, hg⟩ | ⟨hk, d, hg⟩
    · rw [hk]
      exact hpass (by rw [hg]; rfl)
    · rw [hk]
      exact hpass (by rw [hg]; rfl)
    · rw [hk]
      exact Or.inl ⟨⟨_, List.prefix_rfl, by rw [hg]; rfl⟩, _, rfl⟩

/-- **The check of a target is the conflict that the tree shows**; where it lets a write pass, all above
the target are folders or missing. -/
theorem writeTarget_conflict (rt : Runtime) (path : Str) (h : PlainSite cfg t slug) (segs : List Str)
    (overwrite : Bool) :
    (∃ code m, conflict t (site_dir cfg slug) segs overwrite = some code ∧
      writeTarget cfg rt t slug (site_dir cfg slug ++ segs) path overwrite =
        .error (.api ⟨409, code, m⟩)) ∨
    (conflict t (site_dir cfg slug) segs overwrite = none ∧
      writeTarget cfg rt t slug (site_dir cfg slug ++ segs) path overwrite =
        .ok (isFile (t.get (site_dir cfg slug ++ segs))) ∧
      ∀ q, q <+: segs.dropLast → isFile (t.get (site_dir cfg slug ++ q)) = false) := by
  rw [conflict, writeTarget, List.drop_left]
  rcases parentsChecked_plain rt path h segs.dropLast with ⟨hfile, m, hm⟩ | ⟨hall, hok⟩
  · rw [if_pos (fileAbove_iff.2 hfile), hm]
    exact Or.inl ⟨_, m, rfl, rfl⟩
  · rw [if_neg fun hc => ?_, hok]
    · rcases kindAt_plain h segs with ⟨hk, hg⟩ | ⟨hk, hg⟩ | ⟨hk, d, hg⟩
      · rw [hg, hk]
        exact Or.inr ⟨rfl, rfl, hall⟩
      · rw [hg, hk]
        exact Or.inl ⟨_, _, rfl, rfl⟩
      · rw [hg, hk]
        cases overwrite with
        | true => exact Or.inr ⟨rfl, rfl, hall⟩
        | false => exact Or.inl ⟨_, _, rfl, rfl⟩
    · obtain ⟨q, hq, hf⟩ := fileAbove_iff.1 hc
      rw [hall q hq] at hf
      cases hf

theorem PlainSite.clear (h : PlainSite cfg t slug) (q : Path Str) :
    isLink (t.get (site_dir cfg slug ++ q)) = false := by
  rcases hg : t.get (site_dir cfg slug ++ q) with _ | n
  · rfl
  · rcases h.plain q n hg with rfl | ⟨d, rfl⟩ <;> rfl

/-- No path of the site passes through a link. -/
theorem PlainSite.resolved (h : PlainSite cfg t slug) (rt : Runtime) (path : Str) :
    resolved cfg rt t slug path = .ok (site_dir cfg slug ++ segments path) := by
  have hroot := h.clear []
  rw [List.append_nil] at hroot
  exact resolved_of_clear hroot (linked_of_clear h.clear _)

/-- All above a target is a folder or missing, where no file is above it below the site's folder. -/
theorem PlainSite.above (h : PlainSite cfg t slug)
    (hall : ∀ q, q <+: segs → isFile (t.get (site_dir cfg slug ++ q)) = false) (q : Path Str)
    (hq : q <+: site_dir cfg slug ++ segs) : t.get q = none ∨ t.get q = some .folder := by
  rcases List.prefix_or_prefix_of_prefix hq (List.prefix_append _ _) with hx | ⟨x, rfl⟩
  · rcases List.prefix_concat_iff.1 hx with rfl | ⟨x, hx⟩
    · exact h.root
    · -- a folder above the sites' own
      right
      rcases eq_or_ne x [] with rfl | hx0
      · rw [List.append_nil] at hx
        rw [hx]
        exact h.sites_dir
      · refine Tree.get_ancestor (q := x) ?_ hx0
        rw [hx, h.sites_dir]
        simp
  · have hx := hall x ((List.prefix_append_right_inj _).1 hq)
    rcases hg : t.get (site_dir cfg slug ++ x) with _ | n
    · exact Or.inl rfl
    · rcases h.plain x n hg with rfl | ⟨d, rfl⟩
      · exact Or.inr rfl
      · rw [hg] at hx
        cases hx

/-- A tree that is the same outside the staging folder. -/
theorem PlainSite.congr {t' : Files Str} (h : PlainSite cfg t slug)
    (hout : ∀ q, ¬ cfg.staging_dir <+: q → t'.get q = t.get q) : PlainSite cfg t' slug := by
  have hsite : ∀ q, t'.get (site_dir cfg slug ++ q) = t.get (site_dir cfg slug ++ q) := fun q => by
    have := not_staging_prefix cfg slug [] q
    rw [List.append_nil] at this
    exact hout _ this
  have hroot := hsite []
  rw [List.append_nil] at hroot
  refine ⟨?_, by rw [hroot]; exact h.root, fun q n hn => h.plain q n (by rw [← hsite, hn])⟩
  rw [hout _ fun hc => ?_, h.sites_dir]
  have := not_staging_prefix cfg slug [] []
  rw [List.append_nil, List.append_nil] at this
  exact this (hc.trans (List.prefix_append _ _))

/-- The check of a target looks below the site's folder only. -/
theorem writeTarget_congr {t' : Files Str}
    (h : ∀ q, t'.get (site_dir cfg slug ++ q) = t.get (site_dir cfg slug ++ q)) (segs : List Str)
    (overwrite : Bool) :
    writeTarget cfg rt t' slug (site_dir cfg slug ++ segs) path overwrite =
      writeTarget cfg rt t slug (site_dir cfg slug ++ segs) path overwrite := by
  have hkind : ∀ q, kindAt t' (site_dir cfg slug ++ q) = kindAt t (site_dir cfg slug ++ q) :=
    fun q => by rw [kindAt, kindAt, h]
  have hparents : ∀ up, parentsChecked cfg rt t' slug path up = parentsChecked cfg rt t slug path up := by
    intro up
    induction up with
    | nil => rfl
    | cons name up ih => rw [parentsChecked, parentsChecked, hkind, ih]
  rw [writeTarget, writeTarget, hparents, hkind]

end

/-- The staging of a body leaves a site as it was. -/
theorem Received.below {content : Bytes} {staged : Staged} {data : FileData}
    (hrec : Received cfg rt i w w1 content staged data) (slug : Str) (q : Path Str) :
    w1.disk.get (site_dir cfg slug ++ q) = w.disk.get (site_dir cfg slug ++ q) := by
  rw [hrec.get, if_neg]
  intro hq
  have := not_staging_prefix cfg slug [] q
  rw [List.append_nil, hq, hrec.path, nextStaging, stagingPath] at this
  exact this (List.prefix_append _ _)

theorem Received.plain {content : Bytes} {staged : Staged} {data : FileData}
    (hrec : Received cfg rt i w w1 content staged data) (h : PlainSite cfg w.disk slug) :
    PlainSite cfg w1.disk slug :=
  h.congr fun q hq => by
    rw [hrec.get, if_neg]
    rintro rfl
    rw [hrec.path, nextStaging, stagingPath] at hq
    exact hq (List.prefix_append _ _)

/-! ### The outcome -/

/-- **What is left after an upload of the bytes `b`**: on success its target and the folders above it,
and the row of the target; otherwise what was there. -/
def Left (cfg : Config) (rt : Runtime) (w w' : World) (slug path : Str) (b : Bytes) :
    Except Exn UploadResult → Prop
  | .ok _ => ∃ d : FileData, d.content = b ∧
      (∀ q, w'.disk.get q = if q = site_dir cfg slug ++ segments path then some (.file d)
        else if q <+: (site_dir cfg slug ++ segments path).dropLast then some .folder
        else w.disk.get q) ∧
      w'.db = w.db.set_files slug fun f => f.insert path ⟨b.length, d.mtime, rt.sha256 b⟩
  | .error _ => (∀ q, w'.disk.get q = w.disk.get q) ∧ w'.db = w.db

/-- A length within the cap, declared or not, is not refused. -/
theorem declared_within {declared_length : Option ℤ} {n cap : ℕ}
    (hdecl : ∀ m, declared_length = some m → m = n) (hcap : ¬ cap < n) :
    (declared_length.any fun m => (cap : ℤ) < m) = false := by
  rcases hd : declared_length with _ | m
  · rfl
  · rw [hdecl m hd, Option.any_some, decide_eq_false_iff_not, Int.ofNat_lt]
    exact hcap

/-- **The outcome of `write_file`** on a body that arrives whole. -/
theorem run_write_file_whole (h : ApiVolume cfg i w slug) {r : SiteRec}
    (hr : w.db.sites[slug]? = some r) (hpath : validate_site_path rt path false = .ok path)
    (chunks : List Bytes) (overwrite : Bool) {declared_length : Option ℤ}
    (hdecl : ∀ n, declared_length = some n → n = chunks.flatten.length) :
    (run (exec i) (write_file cfg rt slug path ⟨chunks, none⟩ overwrite declared_length) w).1 =
        verdict cfg rt w.disk slug path overwrite chunks.flatten ∧
      Left cfg rt w
        (run (exec i) (write_file cfg rt slug path ⟨chunks, none⟩ overwrite declared_length) w).2
        slug path chunks.flatten (verdict cfg rt w.disk slug path overwrite chunks.flatten) := by
  obtain ⟨⟨segs, hsegs, rfl⟩, hroot⟩ := validate_site_path_ok hpath
  have hne : segs ≠ [] := by
    rintro rfl
    exact absurd (hroot rfl) (by simp)
  have hres := h.resolved rt (join segs)
  rw [verdict]
  have hbody : (⟨chunks, none⟩ : Incoming).ending = none := rfl
  rcases run_stage_whole (i := i) rt h.staging_dir h.fresh hbody with
    ⟨hcap, w1, hk, hget, hstage⟩ | ⟨hcap, w1, staged, data, hrec, hstage⟩
  · -- the body exceeds the cap, as its header said or as it arrives
    have hrun : ∃ w2, w2.db = w.db ∧ (∀ q, w2.disk.get q = w.disk.get q) ∧
        run (exec i) (write_file cfg rt slug (join segs) ⟨chunks, none⟩ overwrite declared_length) w =
          (.error (.api (_too_large cfg)), w2) := by
      rw [write_file, run_bind_of_ok _ ((run_resolve ..).trans (by rw [hres]))]
      cases declared_length.any fun n => (cfg.max_upload_bytes : ℤ) < n with
      | true => exact ⟨w, rfl, fun q => rfl, rfl⟩
      | false => exact ⟨w1, hk.db, hget, run_bind_of_error _ hstage⟩
    obtain ⟨w2, hdb, hget2, hrun⟩ := hrun
    rw [if_pos hcap, hrun]
    exact ⟨rfl, hget2, hdb⟩
  · have hdeclared := declared_within hdecl hcap
    have hplain := hrec.plain h.toPlainSite
    have hres1 := hplain.resolved rt (join segs)
    rw [if_neg hcap]
    rw [segments_join hsegs] at hres hres1 ⊢
    rw [← writeTarget_congr (hrec.below slug)]
    rcases writeTarget_conflict rt (join segs) hplain segs overwrite with
      ⟨code, m, -, hwt⟩ | ⟨-, hwt, hall⟩
    · obtain ⟨w2, hland, hdb, hget⟩ := run_land_refused hrec hr hres1 hwt
      rw [run_write_file hres hdeclared hstage hland, hwt]
      exact ⟨rfl, hget, hdb⟩
    · obtain ⟨w2, hland, hdb, hget⟩ := run_land_landed hrec hr hres1 hne hwt (hplain.above hall)
      rw [run_write_file hres hdeclared hstage hland, hwt, hrec.bytes, hrec.sha256]
      refine ⟨rfl, data, hrec.content, fun q => ?_, by rw [hdb, hrec.content]⟩
      rw [hget, segments_join hsegs, List.dropLast_append_of_ne_nil hne]

/-! ### The staging file -/

/-- What is at `p`, if it is a file, holds at most `cap` bytes. -/
def Bounded (cap : ℕ) (p : Path Str) (w : World) : Prop :=
  ∀ d, w.disk.get p = some (.file d) → d.content.length ≤ cap

/-- The calls that put no file at `p`. -/
def putsNothing (p : Path Str) : Calls.Call → Prop
  | .disk (.mkdir q) | .disk (.create q) | .disk (.write q _) => q ≠ p
  | .disk (.replace _ dst) => ¬ dst <+: p
  | _ => True

variable {cap : ℕ} {p : Path Str}

theorem putsNothing_of_looks {c : Calls.Call} (h : Frames.looks c) : putsNothing p c := by
  cases c with
  | disk c => cases c <;> first | exact absurd h (List.cons_ne_nil _ _) | trivial
  | _ => trivial

/-- What is at `p` after a call that puts no file there was there before. -/
theorem exec_get_of_putsNothing (env : Env Str) {c : Disk.Call Str} (hc : putsNothing p (.disk c))
    {t : Files Str} {d : FileData} (h : (Disk.exec env c t).2.get p = some (.file d)) :
    t.get p = some (.file d) := by
  have hput : ∀ {q}, writes c = [q] → q ≠ p → t.get p = some (.file d) := by
    intro q hw hq
    rcases exec_tree env c t with ht | ⟨q', m, hq', hf, ht⟩ | ⟨q', hq', hne, ht⟩ | ⟨src, dst, rfl, -⟩
    · rwa [ht] at h
    · rw [hw, List.mem_singleton] at hq'
      rwa [ht, Tree.get_put hf, if_neg (hq' ▸ hq.symm)] at h
    · rw [ht, Tree.get_prune hne] at h
      split_ifs at h
      exact h
    · cases hw
  have hremove : ∀ {q}, (Disk.exec env c t).2 = t ∨ (Disk.exec env c t).2 = t.prune q →
      t.get p = some (.file d) := by
    rintro q (ht | ht)
    · rwa [ht] at h
    · rcases eq_or_ne q [] with rfl | hne
      · rwa [ht, Tree.prune, dif_pos rfl] at h
      · rw [ht, Tree.get_prune hne] at h
        split_ifs at h
        exact h
  cases c with
  | mkdir q => exact hput rfl hc
  | create q => exact hput rfl hc
  | write q bytes => exact hput rfl hc
  | rmdir q =>
    refine hremove (q := q) ?_
    simp only [Disk.exec, Disk.rmdir]
    split
    · split_ifs <;> simp
    · exact Or.inl rfl
    · exact Or.inl rfl
  | unlink q =>
    refine hremove (q := q) ?_
    simp only [Disk.exec, Disk.unlink]
    split <;> simp
  | replace src dst =>
    rcases replace_cases src dst t with ht | ⟨hm, ht⟩
    · rwa [Disk.exec, ht] at h
    · rw [Disk.exec, ht, Tree.get_move hm, if_neg hc] at h
      split_ifs at h
      exact h
  | _ => rwa [exec_get_of_not_writes env (by simp [writes])] at h

theorem bounded_call {c : Calls.Call} (hc : putsNothing p c) (w : World) (hw : Bounded cap p w) :
    Bounded cap p (Calls.exec i c w).2 := by
  cases c with
  | disk c => exact fun d hd => hw d (exec_get_of_putsNothing _ hc hd)
  | _ => exact hw

/-- The bound at every moment of a run. -/
theorem bounded_of_uses {A : Type} {q : Code A} (hq : Uses (putsNothing p) q) (hw : Bounded cap p w) :
    Throughout (exec i) (Bounded cap p) q w :=
  throughout_of_uses (fun _ hc w hw => bounded_call hc w hw) hq hw

theorem bounded_of_looks {A : Type} {q : Code A} (hq : Uses Frames.looks q) (hw : Bounded cap p w) :
    Throughout (exec i) (Bounded cap p) q w :=
  bounded_of_uses (hq.mono fun _ => putsNothing_of_looks) hw

/-- **The loop of `_stage`** writes a chunk only when it stays within the cap. -/
theorem bounded_stageChunks (ending : Option Exn) (chunks : List Bytes) (received : Bytes) (w : World)
    {d : FileData} (h : w.disk.get p = some (.file d)) (hd : d.content = received)
    (hcap : received.length ≤ cfg.max_upload_bytes) :
    Throughout (exec i) (Bounded cfg.max_upload_bytes p) (stageChunks cfg p ending chunks received) w := by
  have hw : ∀ {w : World} {d : FileData} {b : Bytes}, w.disk.get p = some (.file d) → d.content = b →
      b.length ≤ cfg.max_upload_bytes → Bounded cfg.max_upload_bytes p w := by
    intro w d b h hd hb d' hd'
    obtain rfl : d = d' := by simpa using h.symm.trans hd'
    rwa [hd]
  induction chunks generalizing received w d with
  | nil =>
    rcases ending with _ | e
    · exact (throughout_invoke (hw h hd hcap) (hw h hd hcap)).bind fun _ _ _ hlast => hlast
    · exact hw h hd hcap
  | cons chunk chunks ih =>
    rw [stageChunks]
    refine (throughout_invoke (hw h hd hcap) (hw h hd hcap)).bind fun _ w1 hr _ => ?_
    obtain ⟨-, rfl⟩ := Prod.mk.inj ((run_receive _ w).symm.trans hr)
    split_ifs with h1 h2
    · exact ih received w h hd hcap
    · exact hw h hd hcap
    · obtain ⟨d1, w1, hrun, -, hd1, -, hw1⟩ := run_write (i := i) h chunk
      have h1' : w1.disk.get p = some (.file d1) := by rw [hw1, if_pos rfl]
      have hd1' : d1.content = received ++ chunk := by rw [hd1, hd]
      refine Throughout.bind (throughout_invoke (hw h hd hcap) ?_) fun _ w2 hr _ => ?_
      · rw [← run_invoke (S := sig) (exec i)]
        exact (congrArg (fun r => Bounded cfg.max_upload_bytes p r.2) hrun).mpr
          (hw h1' hd1' (not_lt.1 h2))
      · obtain ⟨-, rfl⟩ := Prod.mk.inj (hrun.symm.trans hr)
        exact ih _ _ h1' hd1' (not_lt.1 h2)

theorem bounded_of_none {w : World} (h : w.disk.get p = none) : Bounded cap p w := by
  intro d hd
  rw [h] at hd
  cases hd

/-- **A staging never holds more than the cap**, whatever the body is. -/
theorem bounded_stage (rt : Runtime) (body : Incoming) (hdir : w.disk.get cfg.staging_dir = some .folder)
    (hfresh : w.disk.get (nextStaging cfg w i) = none) :
    Throughout (exec i) (Bounded cfg.max_upload_bytes (nextStaging cfg w i)) (_stage cfg rt body) w := by
  set q := nextStaging cfg w i with hq
  have hlast : q.dropLast = cfg.staging_dir := by
    rw [hq, nextStaging, stagingPath, List.dropLast_concat]
  have hfits : w.disk.Fits q := Tree.fits_iff.2 ⟨by simp [hq, nextStaging, stagingPath],
    by rw [hlast]; exact hdir, by rw [hfresh]; simp⟩
  have hdraw : run (exec i) (token_hex 8) w =
    (.ok ((w.oracle i).token_hex 8 (w.drawn i)), drew w i) := rfl
  refine (bounded_of_uses (Frames.uses_token_hex (P := putsNothing q) trivial)
    (bounded_of_none hfresh)).bind fun hex w1 hr _ => ?_
  obtain ⟨hhex, rfl⟩ := Prod.mk.inj (hdraw.symm.trans hr)
  obtain rfl := Except.ok.inj hhex
  have hclean : Uses (putsNothing q) (_unlink q) := Frames.uses_unlink (P := putsNothing q) trivial
  refine Throughout.bind (Throughout.except ?_ fun e w2 _ hw2 => ?_) fun _ _ _ hw2 => hw2
  · -- the file is opened, filled and synced
    obtain ⟨m, hcreate⟩ : ∃ m, run (exec i) (disk (.create q)) (drew w i) =
        (.ok (), { drew (drew w i) i with disk := w.disk.put q (.file ⟨[], m⟩) }) :=
      ⟨_, (run_disk ..).trans (onDisk_timed rfl (create_of_none hfresh hfits))⟩
    have hopened : (w.disk.put q (.file ⟨[], m⟩)).get q = some (.file ⟨[], m⟩) :=
      (Tree.get_put hfits _ q).trans (if_pos rfl)
    refine Throughout.bind (throughout_invoke (bounded_of_none hfresh) ?_) fun _ w2 hr2 _ => ?_
    · rw [← run_invoke (S := sig) (exec i)]
      refine (congrArg (fun r => Bounded cfg.max_upload_bytes q r.2) hcreate).mpr fun d hd => ?_
      obtain rfl : (⟨[], m⟩ : FileData) = d := by simpa using hopened.symm.trans hd
      exact Nat.zero_le _
    · obtain ⟨-, rfl⟩ := Prod.mk.inj (hcreate.symm.trans hr2)
      refine (bounded_stageChunks body.ending body.chunks [] { drew (drew w i) i with
        disk := w.disk.put q (.file ⟨[], m⟩) } hopened rfl (Nat.zero_le _)).bind fun _ _ _ hw3 => ?_
      exact (bounded_of_looks (Frames.uses_look rfl) hw3).bind fun _ _ _ hw4 => hw4
  · exact (bounded_of_uses hclean hw2).bind fun _ _ _ hw3 => hw3

/-- A critical section puts nothing into the staging folder. -/
theorem bounded_landFile (rt : Runtime) (slug path : Str) (overwrite : Bool) (staged : Staged)
    {hex : Str} {w : World} (hw : Bounded cap (stagingPath cfg hex) w) :
    Throughout (exec i) (Bounded cap (stagingPath cfg hex))
      (landFile cfg rt slug path overwrite staged) w := by
  refine (bounded_of_looks (Frames.uses_index rfl) hw).bind fun site w1 _ hw1 => ?_
  split_ifs
  · exact hw1
  refine (bounded_of_looks (Frames.uses_resolve ..) hw1).bind fun target w2 hres hw2 => ?_
  have htarget : target = site_dir cfg slug ++ segments path := by
    have hok := congrArg Prod.fst ((run_resolve ..).symm.trans hres)
    unfold resolved at hok
    split_ifs at hok
    exact (Except.ok.inj hok).symm
  subst htarget
  refine bounded_of_uses (((Frames.uses_check_write_target ..).mono fun _ =>
    putsNothing_of_looks).bind fun replaced => ?_) hw2
  refine Uses.bind (Frames.uses_mkdirParents (P := putsNothing (stagingPath cfg hex)) _ _ fun q hq =>
    ⟨?_, trivial⟩) fun _ => ?_
  · rintro rfl
    rw [List.reverse_reverse] at hq
    exact not_staging_prefix cfg slug [hex ++ lit ".part"] _ (hq.trans (List.dropLast_prefix _))
  · refine (Frames.uses_disk (P := putsNothing (stagingPath cfg hex)) ?_).bind fun _ => ?_
    · exact not_site_prefix_staging cfg slug _ [hex ++ lit ".part"]
    · exact ((Frames.uses_look rfl).mono fun _ => putsNothing_of_looks).bind fun _ =>
        ((Frames.uses_index rfl).mono fun _ => putsNothing_of_looks).bind fun _ => uses_ret _

/-- **At no moment of an upload does its staging file hold more than the cap.** -/
theorem bounded_write_file (body : Incoming) (overwrite : Bool) (declared_length : Option ℤ)
    (hdir : w.disk.get cfg.staging_dir = some .folder)
    (hfresh : w.disk.get (nextStaging cfg w i) = none) :
    Throughout (exec i) (Bounded cfg.max_upload_bytes (nextStaging cfg w i))
      (write_file cfg rt slug path body overwrite declared_length) w := by
  refine (bounded_of_looks (Frames.uses_resolve ..) (bounded_of_none hfresh)).bind
    fun _ w1 hres hw1 => ?_
  obtain rfl : w = w1 := congrArg Prod.snd ((run_resolve ..).symm.trans hres)
  split_ifs
  · exact hw1
  refine (bounded_stage rt body hdir hfresh).bind fun staged w2 hrun hw2 => ?_
  have hunlink : Uses (putsNothing (nextStaging cfg w i)) (_unlink staged.path) :=
    Frames.uses_unlink (P := putsNothing _) trivial
  refine Throughout.bind (Throughout.except ?_ fun e w3 _ hw3 => ?_) fun _ _ _ hw3 => hw3
  · refine Throughout.bind (throughout_invoke (S := sig) hw2 hw2) fun _ w3 _ hw3 => ?_
    have hland := bounded_landFile (i := i) rt slug path overwrite staged hw3
    exact hland.finallyDo (throughout_invoke (S := sig) hland.last hland.last)
  · exact (bounded_of_uses hunlink hw3).bind fun _ _ _ hw4 => hw4

/-! ### All of it -/

/-- **An upload whose outcome depends on its bytes only**: however they are cut into chunks, and whether
or not their length is declared, `write_file` comes to the verdict on the bytes: over the cap, or a
conflict the tree shows, or stored as they are with their length and digest. A success changes the
target, the missing folders above it and the target's row, and nothing else; a refusal changes
nothing; and the staging file never holds more than the cap. -/
structure ByBytes (cfg : Config) (rt : Runtime) (on : Executor) (i : ℕ) (w : World) (slug path : Str)
    (overwrite : Bool) (chunks : List Bytes) (declared_length : Option ℤ) : Prop where
  outcome : (run on (write_file cfg rt slug path ⟨chunks, none⟩ overwrite declared_length) w).1 =
    verdict cfg rt w.disk slug path overwrite chunks.flatten
  verdict_is : if cfg.max_upload_bytes < chunks.flatten.length then
      verdict cfg rt w.disk slug path overwrite chunks.flatten = .error (.api (_too_large cfg))
    else match conflict w.disk (site_dir cfg slug) (segments path) overwrite with
      | some code => ∃ m, verdict cfg rt w.disk slug path overwrite chunks.flatten =
          .error (.api ⟨409, code, m⟩)
      | none => verdict cfg rt w.disk slug path overwrite chunks.flatten =
          .ok ⟨path, chunks.flatten.length, rt.sha256 chunks.flatten,
            isFile (w.disk.get (site_dir cfg slug ++ segments path))⟩
  left : Left cfg rt w
    (run on (write_file cfg rt slug path ⟨chunks, none⟩ overwrite declared_length) w).2
    slug path chunks.flatten (verdict cfg rt w.disk slug path overwrite chunks.flatten)
  bounded : Throughout on (Bounded cfg.max_upload_bytes (nextStaging cfg w i))
    (write_file cfg rt slug path ⟨chunks, none⟩ overwrite declared_length) w

/-- **Where nothing is refused**, an upload's outcome depends on its bytes only. -/
theorem upload_by_bytes (h : ApiVolume cfg i w slug) {r : SiteRec} (hr : w.db.sites[slug]? = some r)
    (hpath : validate_site_path rt path false = .ok path) (overwrite : Bool) (chunks : List Bytes)
    {declared_length : Option ℤ} (hdecl : ∀ n, declared_length = some n → n = chunks.flatten.length) :
    ByBytes cfg rt (exec i) i w slug path overwrite chunks declared_length := by
  obtain ⟨h1, h2⟩ := run_write_file_whole h hr hpath chunks overwrite hdecl
  refine ⟨h1, ?_, h2, bounded_write_file _ _ _ h.staging_dir h.fresh⟩
  rw [verdict]
  split_ifs
  · rfl
  rcases writeTarget_conflict rt path h.toPlainSite (segments path) overwrite with
    ⟨code, m, hc, hwt⟩ | ⟨hc, hwt, -⟩
  · rw [hc, hwt]
    exact ⟨m, rfl⟩
  · rw [hc, hwt]
    rfl

/-- A volume with the row of one site and no folder of it yet; the disk's clock stands still. -/
def oneSite (slug : Str) : World :=
  { smallWorld (insert_site ⟨slug, slug, ⟨62135596800000000, IsoTime.unixStart_lt⟩⟩ .empty).2 with
    oracle := fun i => { counting i with stamp := fun _ => 0 } }

theorem oneSite_volume (slug : Str) : ApiVolume smallConfig 0 (oneSite slug) slug where
  sites_dir := rfl
  root := Or.inl rfl
  plain q n hn := by
    have hroot : (oneSite slug).disk.get (site_dir smallConfig slug) = none := rfl
    have hq : q = [] := by
      by_contra hne
      rw [Tree.get_below_none (by rw [hroot]; simp) hne] at hn
      cases hn
    rw [hq, List.append_nil, hroot] at hn
    cases hn
  staging_dir := rfl
  fresh := rfl

theorem oneSite_row (slug : Str) : ∃ r, (oneSite slug).db.sites[slug]? = some r := by
  have hnone : Database.empty.sites[slug]? = none := get_empty slug
  refine ⟨⟨slug, .ofInstant ⟨62135596800000000, IsoTime.unixStart_lt⟩, ∅⟩, ?_⟩
  change (insert_site _ .empty).2.sites[slug]? = _
  rw [insert_site, hnone]
  exact get_insert_self ..

end PaperBoxing.Backend.Uploads
