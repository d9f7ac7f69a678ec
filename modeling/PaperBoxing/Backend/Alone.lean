import PaperBoxing.Backend.Routes

/-! # The storage, run alone

What the programs of `Backend.Storage` do when one of them runs by itself on the plain disk, each
described by its answer and by what it leaves of the tree and the index. -/

namespace PaperBoxing.Backend.Alone

open PaperBoxing.Lib PaperBoxing.Lib.Action PaperBoxing.Lib.Program PaperBoxing.Lib.Text
open PaperBoxing.Lib.Tables PaperBoxing.Lib.Trees PaperBoxing.Lib.Disk PaperBoxing.Common.Schema
open PaperBoxing.Common.Naming PaperBoxing.Backend.Db PaperBoxing.Backend.Calls PaperBoxing.Backend.Storage

variable {cfg : Config} {rt : Runtime} {i : ℕ} {w : World}

/-- The kind of what is at a path. -/
def kindAt (t : Files Str) (p : Path Str) : Kind := .ofMode ((t.get p).map modeOf)

/-! ### Places -/

theorem sites_ne_staging (cfg : Config) (slug : Str) (p q : Path Str) :
    cfg.staging_dir ++ p ≠ site_dir cfg slug ++ q := by
  intro h
  simp only [Config.staging_dir, site_dir, Config.sites_dir, List.append_assoc,
    List.append_cancel_left_eq, List.cons_append, List.cons.injEq] at h
  exact absurd h.1 (by decide)

theorem not_staging_prefix (cfg : Config) (slug : Str) (p q : Path Str) :
    ¬ cfg.staging_dir ++ p <+: site_dir cfg slug ++ q := by
  rintro ⟨r, hr⟩
  rw [List.append_assoc] at hr
  exact sites_ne_staging cfg slug _ _ hr

theorem not_site_prefix_staging (cfg : Config) (slug : Str) (p q : Path Str) :
    ¬ site_dir cfg slug ++ p <+: cfg.staging_dir ++ q := by
  rintro ⟨r, hr⟩
  rw [List.append_assoc] at hr
  exact sites_ne_staging cfg slug _ _ hr.symm

theorem not_site_prefix_site (cfg : Config) {slug slug' : Str} (h : slug ≠ slug') (p q : Path Str) :
    ¬ site_dir cfg slug ++ p <+: site_dir cfg slug' ++ q := by
  rintro ⟨r, hr⟩
  simp only [site_dir, List.append_assoc, List.append_cancel_left_eq, List.cons_append,
    List.cons.injEq] at hr
  exact h hr.1

theorem not_site_prefix_sites_dir (cfg : Config) (slug : Str) :
    ¬ site_dir cfg slug <+: cfg.sites_dir := by
  intro h
  have := h.length_le
  rw [site_dir, List.length_append, List.length_singleton] at this
  omega

/-- What is in the staging folder is not above anything below `sites/`. -/
theorem staged_apart {p q : Path Str} (hp : cfg.staging_dir <+: p) (hq : cfg.sites_dir <+: q) :
    ¬ p <+: q := by
  intro hpq
  have h := List.prefix_of_prefix_length_le (hp.trans hpq) hq
    (by simp [Config.staging_dir, Config.sites_dir])
  have heq : cfg.staging_dir = cfg.sites_dir :=
    h.eq_of_length (by simp [Config.staging_dir, Config.sites_dir])
  rw [Config.staging_dir, Config.sites_dir, List.append_cancel_left_eq] at heq
  exact absurd heq (by decide)

/-! ### Looking -/

theorem onDisk_of_ok {c : Disk.Call Str} {r : Disk.Resp Str c} {t : Files Str}
    (hc : isTimed c = false)
    (h : Disk.exec ⟨(w.oracle i).stamp (w.drawn i), w.scan⟩ c w.disk = (.ok r, t)) :
    onDisk i c w = (.ok r, { w with disk := t }) := by
  simp only [onDisk, h, hc]
  rfl

theorem onDisk_of_error {c : Disk.Call Str} {e : OsError} {t : Files Str}
    (hc : isTimed c = false)
    (h : Disk.exec ⟨(w.oracle i).stamp (w.drawn i), w.scan⟩ c w.disk = (.error e, t)) :
    onDisk i c w = (.error (.os e), { w with disk := t }) := by
  simp only [onDisk, h, hc]
  rfl

/-- The world after one more draw of a thread. -/
def drew (w : World) (i : ℕ) : World :=
  { w with drawn := Function.update w.drawn i (w.drawn i + 1) }

theorem onDisk_timed {c : Disk.Call Str} {r : Disk.Resp Str c} {t : Files Str}
    (hc : isTimed c = true)
    (h : Disk.exec ⟨(w.oracle i).stamp (w.drawn i), w.scan⟩ c w.disk = (.ok r, t)) :
    onDisk i c w = (.ok r, { drew w i with disk := t }) := by
  simp only [onDisk, h, hc]
  rfl

/-- **`lstat` answers what is there**, or that nothing is. -/
theorem run_lstat (p : Path Str) :
    run (exec i) (lstat p) w = (.ok ((w.disk.get p).map modeOf), w) := by
  rw [lstat, run_bind, run_attempt, run_disk]
  rcases h : w.disk.get p with _ | n
  · rw [onDisk_of_error (e := absent w.disk p) (t := w.disk) rfl]
    · rcases absent_cases w.disk p with ha | ha <;> rw [ha] <;> rfl
    · rw [Disk.exec, Act.bind_of_error (lookup_absent h)]
  · rw [onDisk_of_ok (r := modeOf n) (t := w.disk) rfl]
    · rfl
    · rw [Disk.exec, Act.bind_of_ok (lookup_of_get h)]
      rfl

theorem run_kind_of (p : Path Str) : run (exec i) (kind_of p) w = (.ok (kindAt w.disk p), w) := by
  rw [kind_of, run_bind_of_ok _ (run_lstat p)]
  rfl

theorem run_kind_none {p : Path Str} (h : w.disk.get p = none) :
    run (exec i) (kind_of p) w = (.ok .missing, w) := by
  rw [run_kind_of, kindAt, h]
  rfl

theorem run_kind_file {p : Path Str} {d : FileData} (h : w.disk.get p = some (.file d)) :
    run (exec i) (kind_of p) w = (.ok .file, w) := by
  rw [run_kind_of, kindAt, h]
  rfl

theorem run_kind_folder {p : Path Str} (h : w.disk.get p = some .folder) :
    run (exec i) (kind_of p) w = (.ok .folder, w) := by
  rw [run_kind_of, kindAt, h]
  rfl

theorem run_realpath (p : Path Str) : run (exec i) (disk (.realpath p)) w = (.ok p, w) :=
  (run_disk ..).trans (onDisk_of_ok rfl rfl)

theorem run_isDir (p : Path Str) :
    run (exec i) (disk (.isDir p)) w = (.ok (isFolder (w.disk.get p)), w) :=
  (run_disk ..).trans (onDisk_of_ok rfl rfl)

/-- Whether an entry is a link. -/
def isLink : Option (Node Str FileData) → Bool
  | some (.link _ _) => true
  | _ => false

theorem isLink_iff {n : Option (Node Str FileData)} :
    n.map modeOf = some .symlink ↔ isLink n = true := by
  rcases n with _ | _ | _ | _ | _ <;> simp [isLink, modeOf]

/-- Whether a component of a path below `root` is a link. -/
def linked (t : Files Str) (root : Path Str) : List Str → Bool
  | [] => false
  | segment :: rest => isLink (t.get (root ++ [segment])) || linked t (root ++ [segment]) rest

theorem linked_of_missing {t : Files Str} {root : Path Str} (h : t.get root = none)
    (segs : List Str) : linked t root segs = false := by
  induction segs generalizing root with
  | nil => rfl
  | cons s segs ih =>
    have hs : t.get (root ++ [s]) = none := Tree.get_below_none (by rw [h]; simp) (by simp)
    rw [linked, hs, ih hs]
    rfl

theorem linked_of_clear {t : Files Str} {root : Path Str}
    (h : ∀ q, isLink (t.get (root ++ q)) = false) (segs : List Str) : linked t root segs = false := by
  induction segs generalizing root with
  | nil => rfl
  | cons s segs ih =>
    rw [linked, h, ih fun q => by rw [List.append_assoc]; exact h _]
    rfl

/-- **The loop of `resolve` refuses exactly the paths with a link on the way.** -/
theorem run_checkLinks (path : Str) : ∀ (root : Path Str) (segs : List Str),
    run (exec i) (checkLinks rt path root segs) w =
      (if linked w.disk root segs then
        .error (.api (_invalid_path rt path (lit "the path passes through a symbolic link")))
      else .ok (), w)
  | _, [] => rfl
  | root, segment :: rest => by
    rw [checkLinks, run_bind_of_ok _ (run_lstat _), linked]
    rcases h : w.disk.get (root ++ [segment]) with _ | n
    · rw [linked_of_missing h]
      rfl
    · rcases n with _ | _ | _ | _
      · exact run_checkLinks path _ rest
      · exact run_checkLinks path _ rest
      · rfl
      · exact run_checkLinks path _ rest

/-- What `resolve` answers. -/
def resolved (cfg : Config) (rt : Runtime) (t : Files Str) (slug path : Str) :
    Except Exn (Path Str) :=
  if isLink (t.get (site_dir cfg slug)) then
    .error (.api (_invalid_path rt path (lit "the site folder is a symbolic link")))
  else if linked t (site_dir cfg slug) (segments path) then
    .error (.api (_invalid_path rt path (lit "the path passes through a symbolic link")))
  else .ok (site_dir cfg slug ++ segments path)

/-- **`resolve` only looks**, and answers the literal location when no link is on the way. -/
theorem run_resolve (cfg : Config) (rt : Runtime) (slug path : Str) :
    run (exec i) (resolve cfg rt slug path) w = (resolved cfg rt w.disk slug path, w) := by
  rw [resolve, run_bind_of_ok _ (run_lstat _), resolved]
  by_cases h : isLink (w.disk.get (site_dir cfg slug)) = true
  · rw [if_pos (isLink_iff.2 h), if_pos h]
    rfl
  · rw [if_neg fun hc => h (isLink_iff.1 hc), if_neg h, run_bind, run_checkLinks]
    split_ifs with hl
    · rfl
    · refine (run_bind_of_ok _ (run_realpath _)).trans ?_
      refine (run_bind_of_ok _ (run_realpath _)).trans ?_
      rw [if_pos (List.prefix_append _ _)]
      rfl

theorem resolved_of_clear {t : Files Str} {slug path : Str}
    (hroot : isLink (t.get (site_dir cfg slug)) = false)
    (h : linked t (site_dir cfg slug) (segments path) = false) :
    resolved cfg rt t slug path = .ok (site_dir cfg slug ++ segments path) := by
  rw [resolved, hroot, h]
  rfl

theorem resolved_ok {t : Files Str} {slug path : Str} {target : Path Str}
    (h : resolved cfg rt t slug path = .ok target) : target = site_dir cfg slug ++ segments path := by
  unfold resolved at h
  split_ifs at h
  exact (Except.ok.inj h).symm

theorem run_stat {p : Path Str} {n : Node Str FileData} (h : w.disk.get p = some n) :
    ∃ env, run (exec i) (disk (.stat p)) w = (.ok (statOf env n), drew w i) := by
  have hexec : ∀ env, Disk.exec env (.stat p) w.disk = (.ok (statOf env n), w.disk) := by
    intro env
    rw [Disk.exec, Act.bind_of_ok (lookup_of_get h)]
    rfl
  exact ⟨_, (run_disk ..).trans (onDisk_timed rfl (hexec _))⟩

theorem run_scandir {p : Path Str} (h : w.disk.get p = some .folder) :
    run (exec i) (disk (.scandir p)) w = (.ok (w.scan.order (w.disk.children p)), w) :=
  (run_disk ..).trans (onDisk_of_ok rfl (scandir_of_folder h))

/-! ### The rows of a folder -/

/-- What of a path follows the path of a folder and a slash. -/
def afterFolder (folder path : Str) : Str :=
  path.drop ((if folder = [] then 1 else folder.length + 2) - 1)

/-- **The index's test of a folder's own files.** -/
def inFolder (folder path : Str) : Bool :=
  _below folder path && !(afterFolder folder path).contains slash

/-- **A path passes the test** when it goes on from the folder's by one name. -/
theorem inFolder_iff {folder path : Str} :
    inFolder folder path = true ↔ ∃ name, slash ∉ name ∧ path = entryPath folder name := by
  rw [inFolder, _below, afterFolder, Bool.and_eq_true, Bool.not_eq_true', ← Bool.not_eq_true,
    List.contains_iff_mem]
  rcases eq_or_ne folder [] with rfl | hne
  · simp [entryPath]
  · simp only [if_neg hne, beq_iff_eq, entryPath]
    constructor
    · rintro ⟨htake, hslash⟩
      refine ⟨_, hslash, ?_⟩
      rw [show lit "/" = [slash] from rfl, ← htake]
      exact (List.take_append_drop _ path).symm
    · rintro ⟨name, hslash, rfl⟩
      have hlen : (folder ++ lit "/").length = folder.length + 1 := by simp [lit]
      refine ⟨List.take_left' hlen, ?_⟩
      rwa [show folder.length + 2 - 1 = folder.length + 1 from rfl, List.drop_left' hlen]

theorem entryPath_injective {folder a b : Str} (h : entryPath folder a = entryPath folder b) : a = b := by
  unfold entryPath at h
  split_ifs at h
  · exact h
  · exact List.append_cancel_left h

/-- The paths of a folder's entries are the joins of their names. -/
theorem entryPath_join {segs : List Str} (h : Plain segs) (name : Str) :
    entryPath (join segs) name = join (segs ++ [name]) := by
  rw [entryPath]
  rcases eq_or_ne segs [] with rfl | hne
  · rw [join_nil, if_pos rfl, List.nil_append, join_singleton]
  · rw [if_neg (h.join_ne_nil hne), join_append_singleton hne]
    simp [lit, slash]

/-- The rows of the files of a folder. -/
def folderRows (idx : Index) (slug folder : Str) : List FileRow :=
  (idx.filter fun path _ => inFolder folder path).toList.map fun r => _file slug r.1 r.2

theorem run_files_in_folder (slug folder : Str) :
    run (exec i) (query (.files_in_folder slug folder)) w =
      (.ok (folderRows (w.db.files slug) slug folder), w) := run_query ..

/-- The row of a file of the folder is found among them. -/
theorem find_folderRows {idx : Index} (slug : Str) {folder path : Str} (h : inFolder folder path = true) :
    (folderRows idx slug folder).find? (fun row => row.path == path) =
      idx[path]?.map (_file slug path) := by
  have hfind : (idx.filter fun path _ => inFolder folder path).toList.find? (fun r => r.1 == path) =
      idx[path]?.map fun rec => (path, rec) := by
    rcases hrec : idx[path]? with _ | rec
    · refine find_eq_none.2 fun k v hv => beq_eq_false_iff_ne.2 ?_
      rintro rfl
      rw [get_filter_key, hrec] at hv
      simp at hv
    · refine (find_eq_some (p := fun r : Str × FileRec => r.1 == path) ?_).2 ⟨?_, beq_self_eq_true _⟩
      · intro k k' v v' _ _ h1 h2
        exact (beq_iff_eq.1 h1).trans (beq_iff_eq.1 h2).symm
      · rw [get_filter_key, if_pos h, hrec]
  rw [folderRows, List.find?_map]
  refine (congrArg (Option.map fun r : Str × FileRec => _file slug r.1 r.2) hfind).trans ?_
  rw [Option.map_map]
  rfl

/-- The paths of these rows. -/
theorem mem_folderRows_path {idx : Index} {slug folder path : Str} :
    path ∈ (folderRows idx slug folder).map FileRow.path ↔
      inFolder folder path = true ∧ idx[path]? ≠ none := by
  rw [folderRows, List.map_map, List.mem_map]
  constructor
  · rintro ⟨⟨p, rec⟩, hm, rfl⟩
    rw [mem_toList, get_filter_key] at hm
    split_ifs at hm with hp
    exact ⟨hp, by rw [Function.comp_apply]; exact hm ▸ Option.some_ne_none _⟩
  · rintro ⟨hp, hne⟩
    obtain ⟨rec, hrec⟩ := Option.ne_none_iff_exists'.1 hne
    exact ⟨(path, rec), mem_toList.2 (by rw [get_filter_key, if_pos hp, hrec]), rfl⟩

/-! ### Making and removing folders -/

/-- A call on the disk that succeeds. -/
theorem run_disk_ok {c : Disk.Call Str} {r : Disk.Resp Str c} {t : Files Str}
    (hc : isTimed c = false) (h : ∀ env, Disk.exec env c w.disk = (.ok r, t)) :
    run (exec i) (disk c) w = (.ok r, { w with disk := t }) :=
  (run_disk ..).trans (onDisk_of_ok hc (h _))

theorem run_disk_error {c : Disk.Call Str} {e : OsError} (hc : isTimed c = false)
    (h : ∀ env, Disk.exec env c w.disk = (.error e, w.disk)) :
    run (exec i) (disk c) w = (.error (.os e), w) :=
  (run_disk ..).trans (onDisk_of_error hc (h _))

theorem run_unlink {p : Path Str} {n : Node Str FileData} (h : w.disk.get p = some n)
    (hn : n ≠ .folder) :
    run (exec i) (disk (.unlink p)) w = (.ok (), { w with disk := w.disk.prune p }) :=
  run_disk_ok rfl fun _ => unlink_of_leaf h hn

/-- What is absent below folders alone is not found. -/
theorem absent_of_folders {t : Files Str} {p : Path Str}
    (h : ∀ q, q <+: p → t.get q = none ∨ t.get q = some .folder) : absent t p = .notFound := by
  rw [absent, if_neg]
  rw [List.any_eq_true]
  rintro ⟨q, hq, hb⟩
  have hqp : q <+: p := (List.mem_inits q p).1 (List.dropLast_subset _ hq)
  rcases h q hqp with hn | hf
  · simp [hn] at hb
  · simp [hf, isFolder] at hb

/-- **`mkdir(parents=True, exist_ok=True)`** leaves every prefix of the path a folder, where each was
a folder or missing. -/
theorem run_mkdirParents (up : List Str) (w : World)
    (h : ∀ q, q <+: up.reverse → w.disk.get q = none ∨ w.disk.get q = some .folder) :
    ∃ t, run (exec i) (mkdirParents true up) w = (.ok (), { w with disk := t }) ∧
      ∀ q, t.get q = if q <+: up.reverse then some .folder else w.disk.get q := by
  induction up generalizing w with
  | nil =>
    have hd : run (exec i) (disk (.mkdir [])) w = (.error (.os .exists), w) :=
      run_disk_error rfl fun _ => mkdir_exists w.disk.get_root
    refine ⟨w.disk, ?_, fun q => ?_⟩
    · rw [mkdirParents, mkdirOnce, run_except, hd]
      exact (run_bind_of_ok _ (run_isDir _)).trans (by simp [isFolder])
    · split_ifs with hq
      · rw [List.prefix_nil.1 hq]
        exact w.disk.get_root
      · rfl
  | cons name up ih =>
    set p := (name :: up).reverse with hp
    have hpar : p.dropLast = up.reverse := by simp [hp]
    have hpre : ∀ q, q <+: p ↔ q = p ∨ q <+: up.reverse := fun q => by
      rw [hp, List.reverse_cons, List.prefix_concat_iff]
    -- the folder is put where its parent is one
    have hput : ∀ t : Files Str, t.get p = none → t.get up.reverse = some .folder →
        (∀ q, q <+: up.reverse → t.get q = some .folder) →
        Disk.mkdir p t = (.ok (), t.put p .folder) ∧
          ∀ q, (t.put p .folder).get q = if q <+: p then some .folder else t.get q := by
      intro t hn hf hall
      have hfits : t.Fits p := Tree.fits_iff.2 ⟨by simp [hp], hpar ▸ hf, by simp [hn]⟩
      refine ⟨mkdir_of_none hn hfits, fun q => ?_⟩
      rw [Tree.get_put hfits]
      by_cases hq : q = p
      · rw [if_pos hq, if_pos ((hpre q).2 (Or.inl hq))]
      · rw [if_neg hq]
        split_ifs with hq'
        · exact hall q (((hpre q).1 hq').resolve_left hq)
        · rfl
    rcases h p List.prefix_rfl with hn | hf
    · rcases h up.reverse ((hpre _).2 (Or.inr List.prefix_rfl)) with hpn | hpf
      · -- the parent is missing: it is made first
        have hd : run (exec i) (disk (.mkdir p)) w = (.error (.os .notFound), w) := by
          refine run_disk_error rfl fun _ => ?_
          rw [← absent_of_folders h]
          refine mkdir_absent hn fun hfits => ?_
          rw [Tree.fits_iff, hpar, hpn] at hfits
          exact absurd hfits.2.1 (by simp)
        obtain ⟨t1, hrun, ht1⟩ := ih w fun q hq => h q ((hpre q).2 (Or.inr hq))
        have hn1 : t1.get p = none := by
          rw [ht1, if_neg, hn]
          intro hc
          have := hc.length_le
          simp only [hp, List.length_reverse, List.length_cons] at this
          omega
        obtain ⟨hm, hg⟩ := hput t1 hn1 (by rw [ht1, if_pos List.prefix_rfl])
          fun q hq => by rw [ht1, if_pos hq]
        refine ⟨t1.put p .folder, ?_, fun q => ?_⟩
        · have hm1 : run (exec i) (disk (.mkdir p)) { w with disk := t1 } =
              (.ok (), { w with disk := t1.put p .folder }) := run_disk_ok rfl fun _ => hm
          rw [mkdirParents, ← hp, run_except, hd]
          refine (run_bind_of_ok _ hrun).trans ?_
          rw [mkdirOnce, run_except, hm1]
        · rw [hg, ht1]
          simp only [hpre]
          split_ifs <;> first | rfl | tauto
      · have hall : ∀ q, q <+: up.reverse → w.disk.get q = some .folder := by
          rintro q ⟨r, hr⟩
          rcases eq_or_ne r [] with rfl | hne
          · rw [List.append_nil] at hr
            rw [hr, hpf]
          · exact Tree.get_ancestor (q := r) (by rw [hr, hpf]; simp) hne
        obtain ⟨hm, hg⟩ := hput w.disk hn hpf hall
        have hm1 : run (exec i) (disk (.mkdir p)) w =
            (.ok (), { w with disk := w.disk.put p .folder }) := run_disk_ok rfl fun _ => hm
        refine ⟨_, ?_, hg⟩
        rw [mkdirParents, ← hp, run_except, hm1]
    · -- the folder is there already
      have hd : run (exec i) (disk (.mkdir p)) w = (.error (.os .exists), w) :=
        run_disk_error rfl fun _ => mkdir_exists hf
      refine ⟨w.disk, ?_, fun q => ?_⟩
      · rw [mkdirParents, ← hp, run_except, hd]
        refine (run_bind_of_ok _ (run_isDir _)).trans ?_
        rw [isFolder_iff.2 hf]
        rfl
      · split_ifs with hq
        · obtain ⟨r, hr⟩ := hq
          rcases eq_or_ne r [] with rfl | hne
          · rw [List.append_nil] at hr
            rw [hr, hf]
          · exact Tree.get_ancestor (q := r) (by rw [hr, hf]; simp) hne
        · rfl

/-- **Entries removed one by one, held before holder,** are gone, and nothing else is. -/
theorem run_removeAll (ignore_errors : Bool) (entries : List (Path Str × Bool)) (w : World)
    (hget : ∀ q b, (q, b) ∈ entries → q ≠ [] ∧ ∃ n, w.disk.get q = some n ∧ isFolder (some n) = b)
    (hpair : entries.Pairwise fun a b => ¬ a.1 <+: b.1)
    (hall : ∀ q r, q ∈ entries.map Prod.fst → q <+: r → w.disk.get r ≠ none →
      r ∈ entries.map Prod.fst) :
    ∃ t, run (exec i) (removeAll ignore_errors entries) w = (.ok (), { w with disk := t }) ∧
      ∀ q, t.get q = if q ∈ entries.map Prod.fst then none else w.disk.get q := by
  induction entries generalizing w with
  | nil => exact ⟨w.disk, rfl, fun q => by simp⟩
  | cons e rest ih =>
    obtain ⟨p, b⟩ := e
    obtain ⟨hne, n, hn, hb⟩ := hget p b List.mem_cons_self
    rw [List.pairwise_cons] at hpair
    have hbelow : ∀ r, p <+: r → r ≠ p → w.disk.get r = none := by
      intro r hr hrp
      by_contra hc
      have hm := hall p r (by simp) hr hc
      rw [List.map_cons, List.mem_cons] at hm
      obtain ⟨e, he, rfl⟩ := List.mem_map.1 (hm.resolve_left hrp)
      exact hpair.1 e he hr
    have hempty : w.disk.children p = [] := by
      rw [List.eq_nil_iff_forall_not_mem]
      intro s hs
      exact Tree.mem_children.1 hs (hbelow _ (List.prefix_append p [s]) (by simp))
    have hremove : run (exec i) (if b then disk (.rmdir p) else disk (.unlink p)) w =
        (.ok (), { w with disk := w.disk.prune p }) := by
      rcases eq_or_ne n .folder with rfl | hf
      · obtain rfl : true = b := hb
        exact run_disk_ok rfl fun _ => rmdir_of_empty hn hne hempty
      · obtain rfl : false = b := by
          rw [← hb, eq_comm, ← Bool.not_eq_true, isFolder_iff]
          exact fun h => hf (Option.some.inj h)
        exact run_unlink hn hf
    have hstep : run (exec i) (if ignore_errors then
          suppressOs (if b then disk (.rmdir p) else disk (.unlink p))
        else if b then disk (.rmdir p) else disk (.unlink p)) w =
        (.ok (), { w with disk := w.disk.prune p }) := by
      cases ignore_errors with
      | true => exact run_suppressOs_ok _ _ hremove
      | false => exact hremove
    have hprune : ∀ q, (w.disk.prune p).get q = if q = p then none else w.disk.get q := by
      intro q
      rw [Tree.get_prune hne]
      split_ifs with h1 h2 h2
      · rfl
      · exact (hbelow q h1 h2).symm
      · exact absurd (h2 ▸ List.prefix_rfl) h1
      · rfl
    have hp : p ∉ rest.map Prod.fst := by
      intro hm
      obtain ⟨e, he, h⟩ := List.mem_map.1 hm
      exact hpair.1 e he (by rw [h])
    obtain ⟨t, hrun, ht⟩ := ih { w with disk := w.disk.prune p }
      (by
        intro q b' hq
        obtain ⟨hq0, n', hn', hb'⟩ := hget q b' (List.mem_cons_of_mem _ hq)
        have hqp : q ≠ p := by
          rintro rfl
          exact hp (List.mem_map_of_mem hq)
        refine ⟨hq0, n', ?_, hb'⟩
        rw [hprune, if_neg hqp]
        exact hn')
      hpair.2
      (by
        intro q r hq hqr hr
        rw [hprune] at hr
        split_ifs at hr with hrp
        · exact absurd rfl hr
        · have := hall q r (List.mem_cons_of_mem _ hq) hqr hr
          rw [List.map_cons, List.mem_cons] at this
          exact this.resolve_left hrp)
    refine ⟨t, ?_, fun q => ?_⟩
    · rw [removeAll]
      exact (run_bind_of_ok _ hstep).trans hrun
    · rw [ht, hprune, List.map_cons]
      simp only [List.mem_cons]
      split_ifs <;> first | rfl | tauto

/-- **`rmtree` of a folder** removes it and all below it. -/
theorem run_rmtree (ignore_errors : Bool) {p : Path Str} (hp : p ≠ [])
    (h : w.disk.get p = some .folder) :
    run (exec i) (rmtree ignore_errors p) w = (.ok (), { w with disk := w.disk.prune p }) := by
  have hwalk : run (exec i) (disk (.walk p)) w =
      (.ok ((w.disk.below p).map fun r => (r.1, isFolder (some r.2))), w) :=
    run_disk_ok rfl fun _ => walk_of_folder h
  have hmem : ∀ q, q ∈ ((w.disk.below p).map fun r => (r.1, isFolder (some r.2))).map Prod.fst ↔
      p <+: q ∧ w.disk.get q ≠ none := by
    intro q
    rw [List.map_map, List.mem_map]
    constructor
    · rintro ⟨⟨r, n⟩, hr, rfl⟩
      obtain ⟨h1, h2⟩ := Tree.mem_below.1 hr
      exact ⟨h1, by rw [Function.comp_apply, h2]; simp⟩
    · rintro ⟨h1, h2⟩
      obtain ⟨n, hn⟩ := Option.ne_none_iff_exists'.1 h2
      exact ⟨(q, n), Tree.mem_below.2 ⟨h1, hn⟩, rfl⟩
  obtain ⟨t, hrun, ht⟩ := run_removeAll (i := i) ignore_errors
    ((w.disk.below p).map fun r => (r.1, isFolder (some r.2))) w
    (by
      intro q b hq
      obtain ⟨⟨r, n⟩, hr, he⟩ := List.mem_map.1 hq
      obtain ⟨rfl, rfl⟩ := Prod.mk.inj he
      obtain ⟨h1, h2⟩ := Tree.mem_below.1 hr
      refine ⟨fun h0 => hp (List.prefix_nil.1 (h0 ▸ h1)), n, h2, rfl⟩)
    (List.pairwise_map.2 (w.disk.below_pairwise p))
    (fun q r hq hqr hr => (hmem r).2 ⟨((hmem q).1 hq).1.trans hqr, hr⟩)
  have htree : t = w.disk.prune p := Tree.ext_get fun q => by
    rw [ht, Tree.get_prune hp]
    simp only [hmem]
    split_ifs with h1 h2 h2
    · rfl
    · exact absurd h1.1 h2
    · exact not_not.1 fun hc => h1 ⟨h2, hc⟩
    · rfl
  rw [rmtree, run_bind, run_attempt, hwalk]
  rw [← htree]
  exact hrun

/-! ### Receiving a body -/

/-- Two worlds that differ in the disk and the draws only. -/
structure Kept (w w' : World) : Prop where
  db : w'.db = w.db
  locks : w'.locks = w.locks
  oracle : w'.oracle = w.oracle
  scan : w'.scan = w.scan

theorem Kept.refl (w : World) : Kept w w := ⟨rfl, rfl, rfl, rfl⟩

theorem Kept.trans {w w' w'' : World} (h : Kept w w') (h' : Kept w' w'') : Kept w w'' :=
  ⟨h'.db.trans h.db, h'.locks.trans h.locks, h'.oracle.trans h.oracle, h'.scan.trans h.scan⟩

theorem Kept.disk (w : World) (t : Files Str) : Kept w { w with disk := t } := ⟨rfl, rfl, rfl, rfl⟩

theorem Kept.drew (w : World) (i : ℕ) (t : Files Str) : Kept w { drew w i with disk := t } :=
  ⟨rfl, rfl, rfl, rfl⟩

/-- What the loop of `_stage` answers: the body received so far with the chunks that follow it, unless
a chunk exceeds the cap or the body ends by an exception. -/
def collected (cfg : Config) (ending : Option Exn) : List Bytes → Bytes → Except Exn Bytes
  | [], received => ending.elim (.ok received) .error
  | chunk :: chunks, received =>
    if chunk = [] then collected cfg ending chunks received
    else if cfg.max_upload_bytes < (received ++ chunk).length then .error (.api (_too_large cfg))
    else collected cfg ending chunks (received ++ chunk)

/-- **A body that ends well is received whole, or exceeds the cap.** -/
theorem collected_none (cfg : Config) (chunks : List Bytes) (received : Bytes)
    (h : received.length ≤ cfg.max_upload_bytes) :
    collected cfg none chunks received =
      if cfg.max_upload_bytes < (received ++ chunks.flatten).length then
        .error (.api (_too_large cfg))
      else .ok (received ++ chunks.flatten) := by
  induction chunks generalizing received with
  | nil =>
    rw [List.flatten_nil, List.append_nil, if_neg (not_lt.2 h)]
    rfl
  | cons chunk chunks ih =>
    rw [collected, List.flatten_cons]
    by_cases h1 : chunk = []
    · subst h1
      rw [if_pos rfl, ih received h, List.nil_append]
    rw [if_neg h1]
    by_cases h2 : cfg.max_upload_bytes < (received ++ chunk).length
    · rw [if_pos h2, if_pos]
      simp only [List.length_append] at h2 ⊢
      omega
    · rw [if_neg h2, ih _ (not_lt.1 h2), List.append_assoc]

/-- A file whose time the disk's clock gave to a call of the thread `i`. -/
def Stamped (i : ℕ) (w : World) (d : FileData) : Prop := ∃ k, d.mtime = (w.oracle i).stamp k

theorem Stamped.congr {w w' : World} {d : FileData} (h : Stamped i w' d) (hk : Kept w w') :
    Stamped i w d := by
  rwa [Stamped, hk.oracle] at h

/-- What is written to a file goes to its end. -/
theorem run_write {p : Path Str} {d : FileData} (h : w.disk.get p = some (.file d)) (bytes : Bytes) :
    ∃ d' w', run (exec i) (disk (.write p bytes)) w = (.ok (), w') ∧ Kept w w' ∧
      d'.content = d.content ++ bytes ∧ Stamped i w d' ∧
      ∀ q, w'.disk.get q = if q = p then some (.file d') else w.disk.get q := by
  have hp : p ≠ [] := by
    rintro rfl
    simp at h
  have hfits : w.disk.Fits p := Tree.fits_iff.2 ⟨hp, Tree.get_dropLast (by simp [h]), by simp [h]⟩
  exact ⟨_, _, (run_disk ..).trans (onDisk_timed rfl (write_of_file h)), Kept.drew .., rfl, ⟨_, rfl⟩,
    fun q => Tree.get_put hfits _ q⟩

theorem run_receive (chunk : Option Bytes) (w : World) :
    run (exec i) (receive chunk) w = (.ok (), w) := rfl

/-- **The loop of `_stage`** appends the body to the staging file and changes nothing else. -/
theorem run_stageChunks (cfg : Config) {staging : Path Str} (ending : Option Exn) (chunks : List Bytes)
    (received : Bytes) (w : World) (d : FileData) (h : w.disk.get staging = some (.file d)) :
    ∃ d' w', run (exec i) (stageChunks cfg staging ending chunks received) w =
        (collected cfg ending chunks received, w') ∧ Kept w w' ∧
      (∀ q, w'.disk.get q = if q = staging then some (.file d') else w.disk.get q) ∧
      (d.content = received → ∀ b, collected cfg ending chunks received = .ok b →
        d'.content = b) ∧ (Stamped i w d → Stamped i w d') := by
  have hsame : ∀ q, w.disk.get q = if q = staging then some (.file d) else w.disk.get q := by
    intro q
    split_ifs with hq
    · rw [hq, h]
    · rfl
  induction chunks generalizing received w d with
  | nil =>
    rcases ending with _ | e
    · refine ⟨d, w, rfl, Kept.refl w, hsame, fun hd b hb => ?_, id⟩
      rw [hd]
      exact Except.ok.inj hb
    · exact ⟨d, w, rfl, Kept.refl w, hsame, fun _ b hb => (by cases hb), id⟩
  | cons chunk chunks ih =>
    rw [stageChunks, collected, run_bind_of_ok _ (run_receive _ w)]
    split_ifs with h1 h2
    · exact ih received w d h hsame
    · exact ⟨d, w, rfl, Kept.refl w, hsame, fun _ b hb => (by cases hb), id⟩
    · obtain ⟨d1, w1, hrun, hk, hd1, hst1, hw1⟩ := run_write (i := i) h chunk
      have h1' : w1.disk.get staging = some (.file d1) := by rw [hw1, if_pos rfl]
      obtain ⟨d2, w2, hrun2, hk2, hw2, hc, hst2⟩ := ih (received ++ chunk) w1 d1 h1' fun q => by
        split_ifs with hq
        · rw [hq, h1']
        · rfl
      refine ⟨d2, w2, (run_bind_of_ok _ hrun).trans hrun2, hk.trans hk2, fun q => ?_, fun hd => ?_,
        fun _ => (hst2 (by rwa [Stamped, hk.oracle])).congr hk⟩
      · rw [hw2, hw1]
        split_ifs <;> rfl
      · exact hc (by rw [hd1, hd])

/-- What `_stage` answers. -/
def stagedAs (cfg : Config) (rt : Runtime) (hex : Str) (body : Incoming) : Except Exn Staged :=
  (collected cfg body.ending body.chunks []).map fun b => ⟨stagingPath cfg hex, rt.sha256 b, b.length⟩

/-- The staging name the next draw of a thread gives. -/
def nextStaging (cfg : Config) (w : World) (i : ℕ) : Path Str :=
  stagingPath cfg ((w.oracle i).token_hex 8 (w.drawn i))

/-- **`_stage`** leaves a body that was received whole in staging, and otherwise nothing. -/
theorem run_stage (rt : Runtime) (body : Incoming) (hdir : w.disk.get cfg.staging_dir = some .folder)
    (hfresh : w.disk.get (nextStaging cfg w i) = none) :
    ∃ d w', run (exec i) (_stage cfg rt body) w =
        (stagedAs cfg rt ((w.oracle i).token_hex 8 (w.drawn i)) body, w') ∧ Kept w w' ∧
      (∀ q, w'.disk.get q = if q = nextStaging cfg w i ∧
          (collected cfg body.ending body.chunks []).toOption.isSome then some (.file d)
        else w.disk.get q) ∧
      (∀ b, collected cfg body.ending body.chunks [] = .ok b → d.content = b) ∧ Stamped i w d := by
  set p := nextStaging cfg w i with hp
  set w1 := drew w i with hw1
  have hlast : p.dropLast = cfg.staging_dir := by
    rw [hp, nextStaging, stagingPath, List.dropLast_concat]
  have hne : p ≠ [] := by simp [hp, nextStaging, stagingPath]
  have hfits : w1.disk.Fits p :=
    Tree.fits_iff.2 ⟨hne, by rw [hlast]; exact hdir, by rw [show w1.disk = w.disk from rfl, hfresh]; simp⟩
  -- the file is opened
  obtain ⟨m, hm, hcreate⟩ : ∃ m, Stamped i w ⟨[], m⟩ ∧ run (exec i) (disk (.create p)) w1 =
      (.ok (), { drew w1 i with disk := w1.disk.put p (.file ⟨[], m⟩) }) :=
    ⟨_, ⟨_, rfl⟩, (run_disk ..).trans (onDisk_timed rfl (create_of_none hfresh hfits))⟩
  set w2 : World := { drew w1 i with disk := w1.disk.put p (.file ⟨[], m⟩) } with hw2
  have hg2 : ∀ q, w2.disk.get q = if q = p then some (.file ⟨[], m⟩) else w.disk.get q :=
    fun q => Tree.get_put hfits _ q
  -- the body is written to it
  obtain ⟨d, w3, hrun, hk, hg3, hcont, hst⟩ := run_stageChunks (i := i) cfg body.ending body.chunks [] w2 _
    ((hg2 p).trans (if_pos rfl))
  have hp3 : w3.disk.get p = some (.file d) := by rw [hg3, if_pos rfl]
  have hfill : run (exec i) (fillStaging cfg p body) w1 =
      (collected cfg body.ending body.chunks [], w3) := by
    rw [fillStaging]
    refine (run_bind_of_ok _ hcreate).trans ?_
    rw [run_bind, hrun]
    rcases collected cfg body.ending body.chunks [] with e | b
    · rfl
    · refine run_bind_of_ok _ (a := ()) (run_disk_ok rfl fun _ => ?_)
      rw [Disk.exec, Act.bind_of_ok (lookup_of_get hp3)]
      rfl
  have hkept : Kept w w3 := Kept.trans (Kept.drew w i w.disk)
    (Kept.trans (Kept.drew w1 i _) hk)
  have hrun0 : run (exec i) (token_hex 8) w = (.ok ((w.oracle i).token_hex 8 (w.drawn i)), w1) := rfl
  rcases hcol : collected cfg body.ending body.chunks [] with e | b
  · -- what was received is removed
    have hunlink : run (exec i) (_unlink p) w3 = (.ok (), { w3 with disk := w3.disk.prune p }) :=
      run_suppressOs_ok _ _ (run_unlink hp3 (by simp))
    refine ⟨d, { w3 with disk := w3.disk.prune p }, ?_, hkept.trans (Kept.disk ..), fun q => ?_,
      fun b hb => (by cases hb), hst hm⟩
    · rw [_stage, stagedAs, hcol]
      refine (run_bind_of_ok _ hrun0).trans ?_
      refine run_bind_of_error (e := e) _ ?_
      rw [run_except]
      rw [show stagingPath cfg ((w.oracle i).token_hex 8 (w.drawn i)) = p from rfl, hfill, hcol]
      exact run_bind_of_ok _ hunlink
    · rw [if_neg (by simp [Except.toOption])]
      refine (Tree.get_prune_leaf hne (by rw [hp3]; simp) q).trans ?_
      rw [hg3, hg2]
      split_ifs with hq
      · rw [hq, hfresh]
      · rfl
  · refine ⟨d, w3, ?_, hkept, fun q => ?_, fun b' hb' => hcont rfl b' (hcol.trans hb'), hst hm⟩
    · rw [_stage, stagedAs, hcol]
      refine (run_bind_of_ok _ hrun0).trans ?_
      refine run_bind_of_ok (a := b) _ ?_
      rw [run_except]
      rw [show stagingPath cfg ((w.oracle i).token_hex 8 (w.drawn i)) = p from rfl, hfill, hcol]
    · rw [hg3, hg2]
      simp only [Except.toOption, Option.isSome_some, and_true]
      split_ifs <;> rfl

/-! ### Landing a file -/

/-- What the loop of `_check_write_target` answers. -/
def parentsChecked (cfg : Config) (rt : Runtime) (t : Files Str) (slug path : Str) :
    List Str → Except Exn Unit
  | [] => .ok ()
  | name :: up =>
    let parent := site_dir cfg slug ++ (name :: up).reverse
    match kindAt t parent with
    | .file => .error (.api ⟨409, .not_a_folder,
        rt.repr (_relative cfg slug parent) ++ lit " is a file, not a folder"⟩)
    | .special => .error (.api (_invalid_path rt path
        (rt.repr (_relative cfg slug parent) ++ lit " is not a folder")))
    | _ => parentsChecked cfg rt t slug path up

/-- What `_check_write_target` answers. -/
def writeTarget (cfg : Config) (rt : Runtime) (t : Files Str) (slug : Str) (target : Path Str)
    (path : Str) (overwrite : Bool) : Except Exn Bool :=
  parentsChecked cfg rt t slug path (target.drop (site_dir cfg slug).length).dropLast.reverse >>=
    fun _ => match kindAt t target with
      | .folder => .error (.api ⟨409, .not_a_file, rt.repr path ++ lit " is a folder"⟩)
      | .special => .error (.api (_invalid_path rt path (lit "not a regular file")))
      | .file =>
        if overwrite then .ok true
        else .error (.api ⟨409, .file_exists,
          rt.repr path ++ lit " exists; pass overwrite=true to replace it"⟩)
      | .missing => .ok false

theorem run_checkParents (slug path : Str) (up : List Str) :
    run (exec i) (checkParents cfg rt slug path up) w =
      (parentsChecked cfg rt w.disk slug path up, w) := by
  induction up with
  | nil => rfl
  | cons name up ih =>
    rw [checkParents, parentsChecked]
    refine (run_bind_of_ok _ (run_kind_of _)).trans ?_
    rcases kindAt w.disk (site_dir cfg slug ++ (name :: up).reverse) with _ | _ | _ | _
    · exact ih
    · rfl
    · exact ih
    · rfl

/-- **`_check_write_target` only looks.** -/
theorem run_check_write_target (slug : Str) (target : Path Str) (path : Str) (overwrite : Bool) :
    run (exec i) (_check_write_target cfg rt slug target path overwrite) w =
      (writeTarget cfg rt w.disk slug target path overwrite, w) := by
  rw [_check_write_target, writeTarget, run_bind, run_checkParents]
  rcases parentsChecked cfg rt w.disk slug path _ with e | u
  · rfl
  · refine (run_bind_of_ok _ (run_kind_of _)).trans ?_
    change run _ (match kindAt w.disk target with
      | .folder => _
      | .special => _
      | .file => _
      | .missing => _) w = (match kindAt w.disk target with
      | .folder => _
      | .special => _
      | .file => _
      | .missing => _, w)
    rcases kindAt w.disk target with _ | _ | _ | _
    · rfl
    · cases overwrite <;> rfl
    · rfl
    · rfl

/-- The loop over the parents of a path refuses by an error of the API. -/
theorem parentsChecked_error {t : Files Str} {slug path : Str} {up : List Str} {e : Exn}
    (h : parentsChecked cfg rt t slug path up = .error e) : ∃ a, e = .api a := by
  induction up with
  | nil => cases h
  | cons name up ih =>
    rw [parentsChecked] at h
    split at h
    · exact ⟨_, (Except.error.inj h).symm⟩
    · exact ⟨_, (Except.error.inj h).symm⟩
    · exact ih h

theorem writeTarget_error {t : Files Str} {slug : Str} {target : Path Str} {path : Str}
    {overwrite : Bool} {e : Exn} (h : writeTarget cfg rt t slug target path overwrite = .error e) :
    ∃ a, e = .api a := by
  unfold writeTarget at h
  rcases hp : parentsChecked cfg rt t slug path _ with e' | u
  · rw [hp] at h
    obtain rfl := Except.error.inj h
    exact parentsChecked_error hp
  · rw [hp] at h
    change (match kindAt t target with
      | .folder => _
      | .special => _
      | .file => _
      | .missing => _) = _ at h
    split at h
    · exact ⟨_, (Except.error.inj h).symm⟩
    · exact ⟨_, (Except.error.inj h).symm⟩
    · split_ifs at h
      exact ⟨_, (Except.error.inj h).symm⟩
    · cases h

/-- A file is moved to a place that holds no folder and has a folder to go to. -/
theorem run_replace_file {src dst : Path Str} {d : FileData} (hsrc : w.disk.get src = some (.file d))
    (hne : dst ≠ []) (hpar : w.disk.get dst.dropLast = some .folder)
    (hdst : w.disk.get dst ≠ some .folder) (h1 : ¬ src <+: dst) :
    ∃ t, run (exec i) (disk (.replace src dst)) w = (.ok (), { w with disk := t }) ∧
      ∀ q, t.get q = if q = dst then some (.file d) else if q = src then none else w.disk.get q := by
  have hsne : src ≠ [] := by
    rintro rfl
    simp at hsrc
  have hchild : w.disk.children dst = [] := by
    rw [List.eq_nil_iff_forall_not_mem]
    intro s hs
    exact Tree.mem_children.1 hs (Tree.get_below_none hdst (by simp))
  have hm : w.disk.Movable src dst :=
    ⟨hsne, hne, by rw [hsrc]; rfl, h1, isFolder_iff.2 hpar, hchild⟩
  refine ⟨w.disk.move src dst, run_disk_ok rfl fun _ => replace_of_leaf hsrc (by simp) hdst
    (fun h => h1 (h ▸ List.prefix_rfl)) hm, fun q => ?_⟩
  rw [Tree.get_move hm]
  by_cases hq : dst <+: q
  · obtain ⟨r, rfl⟩ := hq
    rw [if_pos (List.prefix_append _ _), List.drop_left]
    rcases eq_or_ne r [] with rfl | hr
    · rw [List.append_nil, List.append_nil, if_pos rfl, hsrc]
    · rw [if_neg (by simpa using hr), Tree.get_below_none (by rw [hsrc]; simp) hr,
        Tree.get_below_none hdst hr]
      split_ifs <;> rfl
  · have hqd : q ≠ dst := by
      rintro rfl
      exact hq List.prefix_rfl
    rw [if_neg hq, if_neg hqd]
    by_cases hs : src <+: q
    · obtain ⟨r, rfl⟩ := hs
      rw [if_pos (List.prefix_append _ _)]
      rcases eq_or_ne r [] with rfl | hr
      · rw [List.append_nil, if_pos rfl]
      · rw [if_neg (by simpa using hr), Tree.get_below_none (by rw [hsrc]; simp) hr]
    · have hqs : q ≠ src := by
        rintro rfl
        exact hs List.prefix_rfl
      rw [if_neg hs, if_neg hqs]

/-- A folder is moved, with all below it, to a place where nothing is and that has a folder to go
to. -/
theorem run_replace_folder {src dst : Path Str} (hsrc : w.disk.get src = some .folder)
    (hsne : src ≠ []) (hne : dst ≠ []) (hpar : w.disk.get dst.dropLast = some .folder)
    (hdst : w.disk.get dst = none) (h1 : ¬ src <+: dst) :
    ∃ t, run (exec i) (disk (.replace src dst)) w = (.ok (), { w with disk := t }) ∧
      ∀ q, t.get q = if dst <+: q then w.disk.get (src ++ q.drop dst.length)
        else if src <+: q then none else w.disk.get q := by
  have hchild : w.disk.children dst = [] := by
    rw [List.eq_nil_iff_forall_not_mem]
    intro s hs
    exact Tree.mem_children.1 hs (Tree.get_below_none (by rw [hdst]; simp) (by simp))
  have hm : w.disk.Movable src dst :=
    ⟨hsne, hne, by rw [hsrc]; rfl, h1, isFolder_iff.2 hpar, hchild⟩
  exact ⟨w.disk.move src dst, run_disk_ok rfl fun _ => replace_of_missing hsrc hdst
    (fun h => h1 (h ▸ List.prefix_rfl)) hm, fun q => Tree.get_move hm q⟩

theorem run_mtime {p : Path Str} {d : FileData} (h : w.disk.get p = some (.file d)) :
    run (exec i) (disk (.mtime p)) w = (.ok d.mtime, w) :=
  run_disk_ok rfl fun _ => by
    rw [Disk.exec, Act.bind_of_ok (lookup_of_get h)]
    rfl

theorem run_site_by_slug (slug : Str) :
    run (exec i) (query (.site_by_slug slug)) w = (.ok (w.db.sites[slug]?.map (_site slug)), w) :=
  run_query ..

/-- What `_check_write_target` lets pass is not a folder. -/
theorem writeTarget_ok {t : Files Str} {slug : Str} {target : Path Str} {path : Str}
    {overwrite replaced : Bool}
    (h : writeTarget cfg rt t slug target path overwrite = .ok replaced) :
    (t.get target = none ∧ replaced = false) ∨
      ∃ d, t.get target = some (.file d) ∧ replaced = true ∧ overwrite = true := by
  unfold writeTarget at h
  rcases hp : parentsChecked cfg rt t slug path _ with e | u
  · rw [hp] at h
    cases h
  · rw [hp] at h
    change (match kindAt t target with
      | .folder => _
      | .special => _
      | .file => _
      | .missing => _) = _ at h
    unfold kindAt at h
    rcases hg : t.get target with _ | _ | _ | _ | _ <;> rw [hg] at h
    · exact Or.inl ⟨rfl, (Except.ok.inj h).symm⟩
    · rcases overwrite with _ | _
      · cases h
      · exact Or.inr ⟨_, rfl, (Except.ok.inj h).symm, rfl⟩
    · cases h
    · cases h
    · cases h

/-- **The move of a staged file into its place**, below folders that are made where they were
missing. -/
theorem run_place {src target : Path Str} {d : FileData} (hstaged : w.disk.get src = some (.file d))
    (hne : target ≠ []) (htarget : w.disk.get target = none ∨ ∃ d', w.disk.get target = some (.file d'))
    (hpar : ∀ q, q <+: target.dropLast → w.disk.get q = none ∨ w.disk.get q = some .folder)
    (h1 : ¬ src <+: target) :
    ∃ t1 t2, run (exec i) (mkdirParents true target.dropLast.reverse) w = (.ok (), { w with disk := t1 }) ∧
      run (exec i) (disk (.replace src target)) { w with disk := t1 } = (.ok (), { w with disk := t2 }) ∧
      run (exec i) (disk (.mtime target)) { w with disk := t2 } = (.ok d.mtime, { w with disk := t2 }) ∧
      ∀ q, t2.get q = if q = target then some (.file d) else if q = src then none
        else if q <+: target.dropLast then some .folder else w.disk.get q := by
  obtain ⟨t1, hrun1, ht1⟩ := run_mkdirParents (i := i) target.dropLast.reverse w
    (by rwa [List.reverse_reverse])
  rw [List.reverse_reverse] at ht1
  have htd : ¬ target <+: target.dropLast := by
    intro h
    have := h.length_le
    rw [List.length_dropLast] at this
    have := List.length_pos_iff.2 hne
    omega
  have hs1 : t1.get src = some (.file d) := by
    rw [ht1, if_neg]
    · exact hstaged
    · intro h
      rcases hpar _ h with hn | hn <;> rw [hstaged] at hn <;> cases hn
  have htgt1 : t1.get target = w.disk.get target := by rw [ht1, if_neg htd]
  obtain ⟨t2, hrun2, ht2⟩ := run_replace_file (i := i) (w := { w with disk := t1 }) hs1 hne
    (by rw [ht1, if_pos List.prefix_rfl])
    (by
      rw [htgt1]
      rcases htarget with hn | ⟨d', hn⟩ <;> rw [hn] <;> simp) h1
  refine ⟨t1, t2, hrun1, hrun2, run_mtime (w := { w with disk := t2 }) (by rw [ht2, if_pos rfl]),
    fun q => ?_⟩
  rw [ht2]
  dsimp only
  rw [ht1]

/-- **The critical section of `write_file`**, when it lets the write pass: the staged file is at its
place and has its row. -/
theorem run_landFile {slug path : Str} {overwrite replaced : Bool} {staged : Staged}
    {target : Path Str} {r : SiteRec} {d : FileData} (hrow : w.db.sites[slug]? = some r)
    (hres : resolved cfg rt w.disk slug path = .ok target)
    (hchk : writeTarget cfg rt w.disk slug target path overwrite = .ok replaced)
    (hstaged : w.disk.get staged.path = some (.file d)) (hne : target ≠ [])
    (hpar : ∀ q, q <+: target.dropLast → w.disk.get q = none ∨ w.disk.get q = some .folder)
    (h1 : ¬ staged.path <+: target) :
    ∃ t, run (exec i) (landFile cfg rt slug path overwrite staged) w = (.ok replaced, { w with
        disk := t
        db := w.db.set_files slug fun f =>
          f.insert path ⟨staged.bytes, d.mtime, staged.sha256⟩ }) ∧
      ∀ q, t.get q = if q = target then some (.file d) else if q = staged.path then none
        else if q <+: target.dropLast then some .folder else w.disk.get q := by
  obtain ⟨t1, t2, hmkdir, hreplace, hmtime, ht⟩ := run_place (i := i) hstaged hne
    ((writeTarget_ok hchk).imp And.left fun hx => hx.imp fun _ => And.left) hpar h1
  refine ⟨t2, ?_, ht⟩
  rw [landFile]
  refine (run_bind_of_ok _ (run_site_by_slug slug)).trans ?_
  rw [hrow, if_neg (by simp)]
  refine (run_bind_of_ok _ ((run_resolve ..).trans (by rw [hres]))).trans ?_
  refine (run_bind_of_ok _ ((run_check_write_target ..).trans (by rw [hchk]))).trans ?_
  refine (run_bind_of_ok _ hmkdir).trans ?_
  refine (run_bind_of_ok _ hreplace).trans ?_
  refine (run_bind_of_ok _ hmtime).trans ?_
  refine (run_bind_of_ok (a := ()) _ ((run_query ..).trans ?_)).trans rfl
  rw [Db.exec, upsert_file, hrow]

end PaperBoxing.Backend.Alone
