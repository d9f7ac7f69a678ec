import PaperBoxing.Agreement.Relation

/-! # Listings

A folder is listed alike: the backend reads it entry by entry and sorts what it found, the fake filters
its sorted keys.

* `run_gatherAll`: what the backend gathers, as the fake shows it;
* `directPaths_names`: the names behind the fake's keys;
* `gathered_shown`: the two are in the same order, and no row is dropped. -/

namespace PaperBoxing.Agreement.Listing

open PaperBoxing.Lib PaperBoxing.Lib.Action PaperBoxing.Lib.Program PaperBoxing.Lib.Text
open PaperBoxing.Lib.IsoTime PaperBoxing.Lib.Tables PaperBoxing.Lib.Trees PaperBoxing.Lib.Disk
open PaperBoxing.Common PaperBoxing.Common.Schema PaperBoxing.Common.Naming
open PaperBoxing.Common.FakeBackend (FakeSite FakeState Fake Draw)
open PaperBoxing.Backend PaperBoxing.Backend.Db PaperBoxing.Backend.Calls PaperBoxing.Backend.Storage
open PaperBoxing.Backend.Alone PaperBoxing.Backend.Routes PaperBoxing.Agreement.Shape
open PaperBoxing.Agreement.Relation

variable {cfg : Config} {rt : Runtime} {i : ℕ} {w w' : World} {s s' : FakeState}
variable {slug : Str} {segs : List Str}

/-! ### Listing a folder -/

/-- The order of names. -/
def nameLE (a b : Str) : Prop := (compare a b).isLE = true

instance : DecidableRel nameLE := fun _ _ => inferInstanceAs (Decidable (_ = true))

instance : Std.Total nameLE := ⟨fun a b => by
  unfold nameLE
  rw [Std.OrientedOrd.eq_swap (a := b) (b := a)]
  cases compare a b <;> simp⟩

instance : IsTrans Str nameLE := ⟨fun _ _ _ h1 h2 => Std.TransOrd.isLE_trans h1 h2⟩

instance : Std.Antisymm nameLE := ⟨fun a b h1 h2 => by
  unfold nameLE at h1 h2
  rw [Std.OrientedOrd.eq_swap (a := b) (b := a)] at h2
  refine Std.LawfulEqOrd.eq_of_compare ?_
  cases h : compare a b <;> simp_all⟩

/-- **A sorted list is what sorting its elements gives.** -/
theorem sorted_names {l names : List Str} (hl : l.Nodup)
    (hnames : names.Pairwise fun a b => compare a b = .lt) (hmem : ∀ a, a ∈ l ↔ a ∈ names) :
    l.insertionSort nameLE = names := by
  have hle : names.Pairwise nameLE := hnames.imp fun h => by
    rw [nameLE, h]
    rfl
  have hnodup : names.Nodup := hnames.imp fun {a b} h he => by
    rw [he, (Std.ReflCmp.compare_self : compare b b = .eq)] at h
    cases h
  have hperm : (l.insertionSort nameLE).Perm names :=
    (List.perm_insertionSort nameLE l).trans ((List.perm_ext_iff_of_nodup hl hnodup).2 hmem)
  exact List.Perm.eq_of_pairwise' (List.pairwise_insertionSort nameLE l) hle hperm

/-- **Entries sort as their names do.** -/
theorem sortByName_map {entries : List FileEntry} {names : List Str} {entry : Str → FileEntry}
    (hentry : ∀ n ∈ names, (entry n).name = n)
    (h : entries.map untimedEntry = names.map entry) :
    (sortByName entries).map untimedEntry = (names.insertionSort nameLE).map entry := by
  rw [sortByName, List.map_insertionSort (fun a b : FileEntry => (compare a.name b.name).isLE = true)
      (fun a b : FileEntry => (compare a.name b.name).isLE = true) untimedEntry entries
      (fun a _ b _ => Iff.rfl), h, List.map_insertionSort nameLE
      (fun a b : FileEntry => (compare a.name b.name).isLE = true) entry names
      (fun a ha b hb => by rw [hentry a ha, hentry b hb]; rfl)]

/-- The entry of a subfolder, as the fake shows it. -/
def folderShown (fs : FakeSite) (segs : List Str) (name : Str) : FileEntry :=
  untimedEntry (FakeBackend.folderEntry fs (join (segs ++ [name])))

/-- The entry of a file, as the fake shows it. -/
def fileShown (rt : Runtime) (fs : FakeSite) (segs : List Str) (name : Str) : FileEntry :=
  untimedEntry (FakeBackend.fileEntry rt fs (join (segs ++ [name])))

/-- Whether a name in a folder is that of a subfolder. -/
def isSub (t : Files Str) (p : Path Str) (name : Str) : Bool := isFolder (t.get (p ++ [name]))

/-- What is gathered of a folder so far: its subfolders and files, shown as the fake shows them. -/
structure Gathers (rt : Runtime) (fs : FakeSite) (t : Files Str) (root : Path Str)
    (segs names : List Str) (g : Gathered) : Prop where
  folders : g.folders.map untimedEntry =
    (names.filter (isSub t (root ++ segs))).map (folderShown fs segs)
  files : g.files.map untimedEntry =
    (names.filter fun n => !isSub t (root ++ segs) n).map (fileShown rt fs segs)
  seen : g.seen = (names.filter fun n => !isSub t (root ++ segs) n).map fun n => join (segs ++ [n])

/-- **One entry of a folder**: it is shown as the fake shows it, and no row changes. -/
theorem run_gather {fs : FakeSite} {t : Files Str} {root : Path Str} {idx : Index} {slug : Str}
    {segs names : List Str} {indexed : List FileRow} {g : Gathered} {name : Str}
    (hsame : Same rt t root fs idx) (hv : Valid segs) (ht : w.disk = t)
    (hidx : w.db.files slug = idx) (hname : t.get (root ++ (segs ++ [name])) ≠ none)
    (hindexed : Valid (segs ++ [name]) → ∀ rec, idx[join (segs ++ [name])]? = some rec →
      indexed.find? (fun row => row.path == join (segs ++ [name])) =
        some (_file slug (join (segs ++ [name])) rec))
    (hg : Gathers rt fs t root segs names g) :
    ∃ g' w', run (exec i) (gather rt slug (join segs) (root ++ segs) indexed name g) w =
        (.ok g', w') ∧ Gathers rt fs t root segs (names ++ [name]) g' ∧ w'.disk = t ∧
      w'.db = w.db := by
  have hvn := hsame.valid _ hname
  have hseg : Segment name := hvn name (by simp)
  rw [gather, entryPath_join (plain_of_segments hv)]
  obtain ⟨n, hn⟩ := Option.ne_none_iff_exists'.1 hname
  have hn' : w.disk.get (root ++ segs ++ [name]) = some n := by rw [ht, List.append_assoc, hn]
  obtain ⟨env, hstat⟩ := run_stat (i := i) hn'
  have hattempt : run (exec i) (disk (.stat (root ++ segs ++ [name]))).attempt w =
      (.ok (.ok (statOf env n)), drew w i) := by rw [run_attempt, hstat]
  have hget : t.get (root ++ segs ++ [name]) = some n := by rw [List.append_assoc, hn]
  rcases hsame.plain _ n hn with rfl | ⟨d, rfl⟩
  · have hsub : isSub t (root ++ segs) name = true := by rw [isSub, hget]; rfl
    refine ⟨_, drew w i, run_bind_of_ok _ hattempt, ⟨?_, ?_, ?_⟩, ht, rfl⟩
    · rw [List.map_append, hg.folders, List.filter_append, List.map_append,
        List.filter_cons_of_pos hsub, List.filter_nil, List.map_singleton, List.map_singleton,
        List.append_cancel_left_eq, List.singleton_inj]
      have hbytes := hsame.total_below (f := id) (join (segs ++ [name]))
      simp only [untimedEntry, folderShown, FakeBackend.folderEntry, path_name_join hseg,
        FakeSite.folder_bytes]
      simp only [id] at hbytes
      rw [← hbytes, ← hidx]
      rfl
    · rw [List.filter_append, List.filter_cons_of_neg (by simp [hsub]), List.filter_nil,
        List.append_nil]
      exact hg.files
    · rw [List.filter_append, List.filter_cons_of_neg (by simp [hsub]), List.filter_nil,
        List.append_nil]
      exact hg.seen
  · have hsub : isSub t (root ++ segs) name = false := by rw [isSub, hget]; rfl
    have hrow : idx[join (segs ++ [name])]? =
        some ⟨d.content.length, d.mtime, rt.sha256 d.content⟩ := by
      rw [hsame.rows _ hvn, hn]
      rfl
    obtain ⟨f, hf, hc⟩ := hsame.file_of_get hn
    have hrec : run (exec i) (reconcile rt slug (join (segs ++ [name])) (root ++ segs ++ [name])
        (statOf env (.file d)) indexed) (drew w i) = (.ok (_file slug (join (segs ++ [name]))
          ⟨d.content.length, d.mtime, rt.sha256 d.content⟩), drew w i) := by
      rw [reconcile, hindexed hvn _ hrow]
      dsimp only
      rw [if_neg (by simp [_file, statOf])]
      rfl
    refine ⟨_, drew w i, (run_bind_of_ok _ hattempt).trans (run_bind_of_ok _ hrec), ⟨?_, ?_, ?_⟩,
      ht, rfl⟩
    · rw [List.filter_append, List.filter_cons_of_neg (by simp [hsub]), List.filter_nil,
        List.append_nil]
      exact hg.folders
    · rw [List.map_append, hg.files, List.filter_append, List.map_append,
        List.filter_cons_of_pos (by simp [hsub]), List.filter_nil, List.map_singleton,
        List.map_singleton, List.append_cancel_left_eq, List.singleton_inj]
      simp only [untimedEntry, fileShown, FakeBackend.fileEntry, path_name_join hseg, hf,
        Option.getD_some, hc]
      rfl
    · rw [List.filter_append, List.map_append, List.filter_cons_of_pos (by simp [hsub])]
      exact congrArg₂ _ hg.seen rfl

/-- **All entries of a folder.** -/
theorem run_gatherAll {fs : FakeSite} {t : Files Str} {root : Path Str} {idx : Index} {slug : Str}
    {segs : List Str} (indexed : List FileRow) (hsame : Same rt t root fs idx) (hv : Valid segs)
    (hindexed : ∀ name, Valid (segs ++ [name]) → ∀ rec, idx[join (segs ++ [name])]? = some rec →
      indexed.find? (fun row => row.path == join (segs ++ [name])) =
        some (_file slug (join (segs ++ [name])) rec))
    (names : List Str) (hnames : ∀ name ∈ names, t.get (root ++ (segs ++ [name])) ≠ none) :
    ∀ (before : List Str) (g : Gathered) (w : World), w.disk = t → w.db.files slug = idx →
      Gathers rt fs t root segs before g →
      ∃ g' w', run (exec i) (gatherAll rt slug (join segs) (root ++ segs) indexed names g) w =
          (.ok g', w') ∧ Gathers rt fs t root segs (before ++ names) g' ∧ w'.disk = t ∧
        w'.db = w.db := by
  induction names with
  | nil =>
    intro before g w ht _ hg
    exact ⟨g, w, rfl, by rwa [List.append_nil], ht, rfl⟩
  | cons name names ih =>
    intro before g w ht hidx hg
    obtain ⟨g1, w1, hrun, hg1, ht1, hdb1⟩ := run_gather (i := i) hsame hv ht hidx
      (hnames name List.mem_cons_self) (hindexed name) hg
    obtain ⟨g2, w2, hrun2, hg2, ht2, hdb2⟩ := ih
      (fun n hn => hnames n (List.mem_cons_of_mem _ hn)) _ g1 w1 ht1 (by rw [hdb1, hidx]) hg1
    refine ⟨g2, w2, (run_bind_of_ok _ hrun).trans hrun2, ?_, ht2, hdb2.trans hdb1⟩
    rwa [List.append_assoc] at hg2

/-! ### The rows and the keys of a folder -/

theorem afterFolder_join (hv : Valid segs) {q : List Str} (hq : q ≠ []) :
    afterFolder (join segs) (join (segs ++ q)) = join q := by
  rw [afterFolder]
  rcases eq_or_ne segs [] with rfl | hne
  · rfl
  · rw [if_neg (join_ne_nil hv hne), join_append hne hq, ← List.singleton_append,
      ← List.append_assoc]
    exact List.drop_left' (by simp)

/-- **The index's test of a folder's own files.** -/
theorem direct_row_iff (hv : Valid segs) {q : List Str} (hq : Valid q) (hq0 : q ≠ []) :
    inFolder (join segs) (join q) = true ↔ ∃ name, q = segs ++ [name] := by
  rw [inFolder, Bool.and_eq_true, below_eq, prefixOf_iff hv hq hq0, Bool.not_eq_true', ← Bool.not_eq_true,
    List.contains_iff_mem]
  constructor
  · rintro ⟨⟨r, hr, rfl⟩, hslash⟩
    rw [afterFolder_join hv hr, slash_mem_join hq.right hr, not_forall_not] at hslash
    obtain ⟨name, rfl⟩ := hslash
    exact ⟨name, rfl⟩
  · rintro ⟨name, rfl⟩
    refine ⟨⟨[name], by simp, rfl⟩, ?_⟩
    rw [afterFolder_join hv (by simp), slash_mem_join hq.right (by simp)]
    exact fun hc => hc name rfl

/-- Every row of the folder is that of a file of it. -/
theorem mem_folderRows {t : Files Str} {root : Path Str} {fs : FakeSite} {idx : Index} {slug : Str}
    (hsame : Same rt t root fs idx) (hv : Valid segs) {row : FileRow}
    (h : row ∈ folderRows idx slug (join segs)) :
    ∃ name d, row.path = join (segs ++ [name]) ∧ t.get (root ++ (segs ++ [name])) = some (.file d) := by
  obtain ⟨⟨path, rec⟩, hm, rfl⟩ := List.mem_map.1 h
  rw [mem_toList, get_filter_key] at hm
  split_ifs at hm with hd
  obtain ⟨q, hq, hq0, rfl⟩ := hsame.row_names path (by rw [hm]; simp)
  obtain ⟨name, rfl⟩ := (direct_row_iff hv hq hq0).1 hd
  rw [hsame.rows _ hq] at hm
  rcases hg : t.get (root ++ (segs ++ [name])) with _ | d | _ | _ | _ <;> rw [hg] at hm
  · cases hm
  · exact ⟨name, d, rfl, hg⟩
  · cases hm
  · cases hm
  · cases hm

/-- The keys of a dictionary that are in a folder. -/
def directPaths (folder : Str) (paths : List Str) : List Str :=
  (paths.filter fun p => path_parent p == folder).filter fun p =>
    (FakeBackend.prefixOf folder).isPrefixOf p

theorem compare_join (a b : Str) : compare (join (segs ++ [a])) (join (segs ++ [b])) = compare a b := by
  rcases eq_or_ne segs [] with rfl | hne
  · rw [List.nil_append, List.nil_append, join_singleton, join_singleton]
  · rw [join_append_singleton hne, join_append_singleton hne, compare_append rfl,
      (Std.ReflCmp.compare_self : compare (join segs) (join segs) = .eq), List.compare_cons_cons,
      (Std.ReflCmp.compare_self : compare slash slash = .eq)]
    rfl

/-- **The keys in a folder**, in their order, are those of its names in theirs. -/
theorem directPaths_names (paths : List Str) (hsorted : paths.Pairwise fun a b => compare a b = .lt)
    (hnamed : ∀ p ∈ paths, Named p) (hv : Valid segs) :
    ∃ names : List Str, directPaths (join segs) paths = names.map (fun n => join (segs ++ [n])) ∧
      names.Pairwise (fun a b => compare a b = .lt) ∧
      ∀ n, n ∈ names ↔ Segment n ∧ join (segs ++ [n]) ∈ paths := by
  have hmem : ∀ p, p ∈ directPaths (join segs) paths ↔
      p ∈ paths ∧ ∃ n, Segment n ∧ p = join (segs ++ [n]) := by
    intro p
    rw [directPaths, List.mem_filter, List.mem_filter, beq_iff_eq]
    constructor
    · rintro ⟨⟨hp, hpar⟩, -⟩
      obtain ⟨q, hq, hq0, rfl⟩ := hnamed p hp
      obtain ⟨pre, n, rfl⟩ : ∃ pre n, q = pre ++ [n] :=
        ⟨_, _, (List.dropLast_append_getLast hq0).symm⟩
      rw [path_parent_join (hq n (by simp))] at hpar
      obtain rfl := join_injective hq.left hv hpar
      exact ⟨hp, n, hq n (by simp), rfl⟩
    · rintro ⟨hp, n, hn, rfl⟩
      have hvn : Valid (segs ++ [n]) := hv.append fun s hs => by
        rw [List.mem_singleton.1 hs]
        exact hn
      exact ⟨⟨hp, path_parent_join hn⟩, (prefixOf_iff hv hvn (by simp)).2 ⟨[n], by simp, rfl⟩⟩
  have hback : ((directPaths (join segs) paths).map path_name).map (fun n => join (segs ++ [n])) =
      directPaths (join segs) paths := by
    rw [List.map_map]
    refine (List.map_congr_left fun p hp => ?_).trans (List.map_id _)
    obtain ⟨-, n, hn, rfl⟩ := (hmem p).1 hp
    rw [Function.comp_apply, path_name_join hn]
    rfl
  refine ⟨(directPaths (join segs) paths).map path_name, hback.symm, ?_, fun n => ?_⟩
  · have hd : (directPaths (join segs) paths).Pairwise fun a b => compare a b = .lt :=
      (hsorted.filter _).filter _
    rw [← hback, List.pairwise_map] at hd
    exact hd.imp fun h => by rwa [compare_join] at h
  · rw [List.mem_map]
    constructor
    · rintro ⟨p, hp, rfl⟩
      obtain ⟨h1, m, hm, rfl⟩ := (hmem p).1 hp
      rw [path_name_join hm]
      exact ⟨hm, h1⟩
    · rintro ⟨hn, hp⟩
      exact ⟨_, (hmem _).2 ⟨hp, n, hn, rfl⟩, path_name_join hn⟩

/-- **The entries of a folder, sorted,** are those the fake lists, and no row of it is stale. -/
theorem gathered_shown {fs : FakeSite} {t : Files Str} {root : Path Str} {idx : Index} (slug : Str)
    {segs names : List Str} {g : Gathered} (hsame : Same rt t root fs idx) (hv : Valid segs)
    (hnodup : names.Nodup) (hnames : ∀ n, n ∈ names ↔ t.get (root ++ (segs ++ [n])) ≠ none)
    (hg : Gathers rt fs t root segs names g) :
    (sortByName g.folders).map untimedEntry =
        ((directPaths (join segs) fs.folders.keys).map (FakeBackend.folderEntry fs)).map
          untimedEntry ∧
      (sortByName g.files).map untimedEntry =
        ((directPaths (join segs) fs.files.keys).map (FakeBackend.fileEntry rt fs)).map
          untimedEntry ∧
      ((folderRows idx slug (join segs)).map FileRow.path).filter
        (fun path => !g.seen.contains path) = [] := by
  have hsub : ∀ n, isSub t (root ++ segs) n = true ↔ t.get (root ++ (segs ++ [n])) = some .folder := by
    intro n
    rw [isSub, isFolder_iff, List.append_assoc]
  have hseg : ∀ n ∈ names, Valid (segs ++ [n]) := fun n hn => hsame.valid _ ((hnames n).1 hn)
  have hname : ∀ n, Segment n → path_name (join (segs ++ [n])) = n := fun n hn => path_name_join hn
  refine ⟨?_, ?_, ?_⟩
  · obtain ⟨sub, hpaths, hsorted, hmem⟩ := directPaths_names fs.folders.keys
      Std.ExtTreeMap.ordered_keys (fun p hp => by
        obtain ⟨v, hv⟩ := mem_keys.1 hp
        exact hsame.folder_names p (by rw [hv]; simp)) hv
    rw [sortByName_map (fun n hn => hname n (hseg n (List.mem_filter.1 hn).1 n (by simp))) hg.folders,
      sorted_names (hnodup.filter _) hsorted fun n => ?_, hpaths, List.map_map, List.map_map]
    · rfl
    · rw [List.mem_filter, hnames, hsub, hmem, mem_keys]
      constructor
      · rintro ⟨h1, h2⟩
        have hvn := hsame.valid _ h1
        rcases hsame.cases hvn (by simp) with ⟨hc, -⟩ | ⟨-, -, hd⟩ | ⟨d, f, hc, -⟩
        · exact absurd hc h1
        · exact ⟨hvn n (by simp), hd⟩
        · rw [h2] at hc
          cases hc
      · rintro ⟨h1, at_, h2⟩
        have hvn : Valid (segs ++ [n]) := hv.append fun s hs => by
          rw [List.mem_singleton.1 hs]
          exact h1
        rcases hsame.cases hvn (by simp) with ⟨-, -, hc⟩ | ⟨hc, -⟩ | ⟨d, f, -, -, -, hc⟩
        · rw [hc] at h2
          cases h2
        · exact ⟨by rw [hc]; simp, hc⟩
        · rw [hc] at h2
          cases h2
  · obtain ⟨sub, hpaths, hsorted, hmem⟩ := directPaths_names fs.files.keys
      Std.ExtTreeMap.ordered_keys (fun p hp => by
        obtain ⟨v, hv⟩ := mem_keys.1 hp
        exact hsame.file_names p (by rw [hv]; simp)) hv
    rw [sortByName_map (fun n hn => hname n (hseg n (List.mem_filter.1 hn).1 n (by simp))) hg.files,
      sorted_names (hnodup.filter _) hsorted fun n => ?_, hpaths, List.map_map, List.map_map]
    · rfl
    · rw [List.mem_filter, hnames, Bool.not_eq_true', ← Bool.not_eq_true, hsub, hmem, mem_keys]
      constructor
      · rintro ⟨h1, h2⟩
        have hvn := hsame.valid _ h1
        rcases hsame.cases hvn (by simp) with ⟨hc, -⟩ | ⟨hc, -⟩ | ⟨d, f, -, hf, -⟩
        · exact absurd hc h1
        · exact absurd hc h2
        · exact ⟨hvn n (by simp), f, hf⟩
      · rintro ⟨h1, f, h2⟩
        have hvn : Valid (segs ++ [n]) := hv.append fun s hs => by
          rw [List.mem_singleton.1 hs]
          exact h1
        obtain ⟨d, hd, -⟩ := hsame.get_of_file hvn h2
        exact ⟨by rw [hd]; simp, by rw [hd]; simp⟩
  · rw [List.filter_eq_nil_iff]
    intro path hpath
    obtain ⟨row, hrow, rfl⟩ := List.mem_map.1 hpath
    obtain ⟨n, d, hp, hd⟩ := mem_folderRows hsame hv hrow
    rw [Bool.not_eq_true', Bool.not_eq_false, List.contains_iff_mem, hg.seen, hp]
    refine List.mem_map_of_mem (List.mem_filter.2 ⟨(hnames n).2 (by rw [hd]; simp), ?_⟩)
    rw [Bool.not_eq_true', ← Bool.not_eq_true, hsub, hd]
    simp

theorem list_files_step (h : Agree cfg rt w s) (slug path : Str) :
    Step cfg rt i (Routes.list_files cfg rt slug path) (FakeBackend.list_files rt slug path) w s := by
  rw [Routes.list_files, FakeBackend.list_files]
  refine Step.site h fun r fs hr hs hfs hname hslug hsame => Step.path h fun segs hv _ => ?_
  have hres := (run_resolve (i := i) (w := w) cfg rt slug (join segs)).trans
    (by rw [resolved_same hsame hv])
  have hcases : (segs ≠ [] ∧ w.disk.get (site_dir cfg slug ++ segs) = none ∧
        fs.files[join segs]? = none ∧ fs.has_folder (join segs) = false) ∨
      (w.disk.get (site_dir cfg slug ++ segs) = some .folder ∧ fs.files[join segs]? = none ∧
        fs.has_folder (join segs) = true) ∨
      ∃ d f, w.disk.get (site_dir cfg slug ++ segs) = some (.file d) ∧
        fs.files[join segs]? = some f := by
    rcases eq_or_ne segs [] with rfl | hne
    · refine Or.inr (Or.inl ⟨by rw [List.append_nil]; exact hsame.folder, ?_, rfl⟩)
      have := hsame.files [] Valid.nil
      rw [List.append_nil, hsame.folder] at this
      exact Option.map_eq_none_iff.1 this
    · have hj : (join segs == []) = false := beq_eq_false_iff_ne.2 (join_ne_nil hv hne)
      rcases hsame.cases hv hne with ⟨hg, hf, hd⟩ | ⟨hg, hf, at_, hd⟩ | ⟨d, f, hg, hf, -, -⟩
      · exact Or.inl ⟨hne, hg, hf, by rw [FakeSite.has_folder, hj, hd]; rfl⟩
      · exact Or.inr (Or.inl ⟨hg, hf, by rw [FakeSite.has_folder, hj, hd]; rfl⟩)
      · exact Or.inr (Or.inr ⟨d, f, hg, hf⟩)
  rcases hcases with ⟨hne, hg, hf, hd⟩ | ⟨hg, hf, hd⟩ | ⟨d, f, hg, hf⟩
  · refine Step.refused (e := ?_) h (run_bind_of_error _ ?_) ?fake
    case fake =>
      rw [hf, hd]
      rfl
    rw [Storage.list_folder]
    refine (run_bind_of_ok _ hres).trans ((run_bind_of_ok _ (run_kind_none hg)).trans ?_)
    dsimp only
    rw [if_neg (join_ne_nil hv hne)]
    rfl
  · have hperm := w.scan.perm (w.disk.children (site_dir cfg slug ++ segs))
    have hnames : ∀ n, n ∈ w.scan.order (w.disk.children (site_dir cfg slug ++ segs)) ↔
        w.disk.get (site_dir cfg slug ++ (segs ++ [n])) ≠ none := by
      intro n
      rw [hperm.mem_iff, Tree.mem_children, List.append_assoc]
    have hidx : w.db.files slug = r.files := files_of_row hr
    obtain ⟨g, w', hrun, hgath, hdisk, hdb⟩ := run_gatherAll (i := i)
      (folderRows r.files slug (join segs)) hsame hv
      (fun name hvn rec hrec => (find_folderRows slug ((direct_row_iff hv hvn (by simp)).2
        ⟨name, rfl⟩)).trans (by rw [hrec]; rfl)) _ (fun n hn => (hnames n).1 hn) []
      ⟨[], [], []⟩ w rfl hidx ⟨rfl, rfl, rfl⟩
    rw [List.nil_append] at hgath
    obtain ⟨hfolders, hfiles, hstale⟩ := gathered_shown slug hsame hv
      (hperm.nodup_iff.2 (Tree.children_nodup ..)) hnames hgath
    refine Step.answered ⟨200, .listing ⟨slug, join segs, sortByName g.folders ++
        sortByName g.files⟩⟩ ⟨200, .listing ⟨slug, join segs,
          (directPaths (join segs) fs.folders.keys).map (FakeBackend.folderEntry fs) ++
          (directPaths (join segs) fs.files.keys).map (FakeBackend.fileEntry rt fs)⟩⟩ w' s
      (run_bind_of_ok _ ?_) (by rw [hf, hd]; rfl) ⟨rfl, ?_⟩
      (h.of_same (fun q => by rw [hdisk]) hdb)
    · rw [Storage.list_folder]
      refine (run_bind_of_ok _ hres).trans ((run_bind_of_ok _ (run_kind_folder hg)).trans ?_)
      refine (run_bind_of_ok _ (run_files_in_folder slug (join segs))).trans ?_
      refine (run_bind_of_ok _ (run_scandir hg)).trans ?_
      rw [hidx]
      refine (run_bind_of_ok _ hrun).trans ?_
      rw [hstale]
      rfl
    · simp only [shown, untimed, List.map_append, hfolders, hfiles]
  · refine Step.refused (e := ?_) h (run_bind_of_error _ ?_) ?fake
    case fake =>
      rw [hf]
      rfl
    rw [Storage.list_folder]
    exact (run_bind_of_ok _ hres).trans ((run_bind_of_ok _ (run_kind_file hg)).trans rfl)

end PaperBoxing.Agreement.Listing
