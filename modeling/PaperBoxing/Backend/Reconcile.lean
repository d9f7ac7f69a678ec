import PaperBoxing.Backend.Alone

/-! # Listings reconcile the index

What one listing of a folder does to the file index, and what listing every folder of a site does to
the whole of it. A listing sees to the rows directly in its folder (`inFolder`), and to no others, so
that a row below a folder that is gone is seen to by none.

* `run_gatherAll`, `run_dropStale`: the rows written and the rows dropped;
* `run_list_folder`: one listing; `run_listAll`: listings of any folders, in any order;
* `listing_reconciles_iff`: when the index is right after every folder was listed. -/

namespace PaperBoxing.Backend.Reconcile

open PaperBoxing.Lib PaperBoxing.Lib.Action PaperBoxing.Lib.Program PaperBoxing.Lib.Text
open PaperBoxing.Lib.Tables PaperBoxing.Lib.Trees PaperBoxing.Lib.Disk PaperBoxing.Common.Schema
open PaperBoxing.Common.Naming PaperBoxing.Backend.Db PaperBoxing.Backend.Calls
open PaperBoxing.Backend.Storage PaperBoxing.Backend.Alone

variable {cfg : Config} {rt : Runtime} {i : ℕ} {w : World} {slug : Str} {r : SiteRec}

/-! ### The rows of one folder -/

/-- The row of a file that is there: the old one while its size and time match. -/
def freshRow (rt : Runtime) (old : Option FileRec) (d : FileData) : FileRec :=
  match old with
  | some rec =>
    if rec.bytes ≠ d.content.length ∨ rec.mtime_ns ≠ d.mtime then
      ⟨d.content.length, d.mtime, rt.sha256 d.content⟩
    else rec
  | none => ⟨d.content.length, d.mtime, rt.sha256 d.content⟩

theorem freshRow_bytes (rt : Runtime) (old : Option FileRec) (d : FileData) :
    (freshRow rt old d).bytes = d.content.length ∧ (freshRow rt old d).mtime_ns = d.mtime := by
  unfold freshRow
  rcases old with _ | rec
  · exact ⟨rfl, rfl⟩
  · dsimp only
    split_ifs with h
    · exact ⟨rfl, rfl⟩
    · rw [not_or, not_not, not_not] at h
      exact h

/-- A row whose size or time differed has the digest of the file. -/
theorem freshRow_sha256 {old : Option FileRec} {d : FileData}
    (h : ∀ rec, old = some rec → rec.bytes ≠ d.content.length ∨ rec.mtime_ns ≠ d.mtime) :
    (freshRow rt old d).sha256 = rt.sha256 d.content := by
  unfold freshRow
  rcases old with _ | rec
  · rfl
  · dsimp only
    rw [if_pos (h rec rfl)]

/-- A fresh row stays as it is. -/
theorem freshRow_again (rt : Runtime) (old : Option FileRec) (d : FileData) :
    freshRow rt (some (freshRow rt old d)) d = freshRow rt old d := by
  have h := freshRow_bytes rt old d
  exact if_neg (by simp [h.1, h.2])

/-- The index after the entry `n` of a folder is gathered under the path `rel`. -/
def indexed (rt : Runtime) (rel : Str) (n : Node Str FileData) (idx : Index) : Index :=
  match n with
  | .file d => idx.insert rel (freshRow rt idx[rel]? d)
  | _ => idx

/-- Whether an entry is a file. -/
def isFile : Option (Node Str FileData) → Bool
  | some (.file _) => true
  | _ => false

/-- What is seen of an entry of a folder. -/
def seenOf (rel : Str) (n : Node Str FileData) : List Str := if isFile (some n) then [rel] else []

/-- A folder or a file. -/
def Ordinary (n : Node Str FileData) : Prop := n = .folder ∨ ∃ d, n = .file d

/-- The world in which the index of a site is changed. -/
theorem sites_of_set_files {d : Database} (h : d.sites[slug]? = some r) (f : Index → Index) :
    (d.set_files slug f).sites[slug]? = some { r with files := f r.files } := by
  rw [get_sites_set_files, if_pos rfl, h]
  rfl

/-- **One entry of a folder**: the row of a file is made fresh, and nothing else changes. -/
theorem run_gather (rt : Runtime) {folder name : Str} {target : Path Str} {rows : List FileRow} {g : Gathered}
    {n : Node Str FileData} (hrow : w.db.sites[slug]? = some r)
    (hn : w.disk.get (target ++ [name]) = some n) (hord : Ordinary n)
    (hrows : rows.find? (fun row => row.path == entryPath folder name) =
      r.files[entryPath folder name]?.map (_file slug (entryPath folder name))) :
    ∃ g' w', run (exec i) (gather rt slug folder target rows name g) w = (.ok g', w') ∧
      w'.disk = w.disk ∧
      w'.db.sites[slug]? = some { r with files := indexed rt (entryPath folder name) n r.files } ∧
      g'.seen = g.seen ++ seenOf (entryPath folder name) n := by
  obtain ⟨env, hstat⟩ := run_stat (i := i) hn
  have hattempt : run (exec i) (disk (.stat (target ++ [name]))).attempt w =
      (.ok (.ok (statOf env n)), drew w i) := by rw [run_attempt, hstat]
  rw [gather]
  rcases hord with rfl | ⟨d, rfl⟩
  · exact ⟨_, drew w i, run_bind_of_ok _ hattempt, rfl, hrow, (List.append_nil _).symm⟩
  · set rel := entryPath folder name with hrel
    have hread : run (exec i) (disk (.read (target ++ [name]))) (drew w i) =
        (.ok d.content, drew w i) := run_disk_ok rfl fun _ => read_of_file hn
    have hrewrite : run (exec i) (reconcile.rewrite rt slug rel (target ++ [name])
        (statOf env (.file d))) (drew w i) =
        (.ok ⟨slug, rel, d.content.length, d.mtime, rt.sha256 d.content⟩, { drew w i with
          db := w.db.set_files slug
            (·.insert rel ⟨d.content.length, d.mtime, rt.sha256 d.content⟩) }) := by
      rw [reconcile.rewrite]
      refine (run_bind_of_ok _ hread).trans ((run_bind_of_ok (a := ()) _ ?_).trans rfl)
      rw [run_query, Db.exec, upsert_file]
      simp only [drew, hrow]
      rfl
    -- the row is kept or written; either way it is fresh then
    obtain ⟨row, w', hrun, hdisk, hsites⟩ : ∃ row w',
        run (exec i) (reconcile rt slug rel (target ++ [name]) (statOf env (.file d)) rows)
          (drew w i) = (.ok row, w') ∧ w'.disk = w.disk ∧
        w'.db.sites[slug]? = some { r with files := indexed rt rel (.file d) r.files } := by
      rw [reconcile, hrows]
      rcases hold : r.files[rel]? with _ | rec
      · refine ⟨_, _, hrewrite, rfl, ?_⟩
        rw [indexed, hold]
        exact sites_of_set_files hrow _
      · by_cases hsame : rec.bytes ≠ d.content.length ∨ rec.mtime_ns ≠ d.mtime
        · refine ⟨_, _, (congrArg (run _ · _) (if_pos hsame)).trans hrewrite, rfl, ?_⟩
          rw [indexed, hold, freshRow, if_pos hsame]
          exact sites_of_set_files hrow _
        · refine ⟨_, _, congrArg (run _ · _) (if_neg hsame), rfl, ?_⟩
          rw [indexed, hold, freshRow, if_neg hsame, insert_of_some hold]
          exact hrow
    exact ⟨_, w', (run_bind_of_ok _ hattempt).trans (run_bind_of_ok _ hrun), hdisk, hsites, rfl⟩

/-- What an entry, if there is one, makes of the row under its path. -/
def held (rt : Runtime) (n : Option (Node Str FileData)) (old : Option FileRec) : Option FileRec :=
  match n with
  | some (.file d) => some (freshRow rt old d)
  | _ => old

theorem get_indexed (rt : Runtime) (rel : Str) (n : Node Str FileData) (idx : Index) (p : Str) :
    (indexed rt rel n idx)[p]? = if p = rel then held rt (some n) idx[p]? else idx[p]? := by
  unfold indexed held
  cases n with
  | file d =>
    dsimp only
    rw [get_insert]
    split_ifs with hp
    · rw [hp]
    · rfl
  | _ => exact (ite_self _).symm

theorem mem_seenOf {p rel : Str} {n : Node Str FileData} :
    p ∈ seenOf rel n ↔ p = rel ∧ isFile (some n) = true := by
  rw [seenOf]
  split_ifs with h <;> simp [h]

/-- **All entries of a folder**: the rows of its files are made fresh. -/
theorem run_gatherAll (rt : Runtime) (folder : Str) (target : Path Str) (rows : List FileRow)
    (names : List Str)
    (hnodup : names.Nodup) (w : World) (g : Gathered) (r : SiteRec)
    (hrow : w.db.sites[slug]? = some r)
    (hnames : ∀ name ∈ names, ∃ n, w.disk.get (target ++ [name]) = some n ∧ Ordinary n)
    (hrows : ∀ name ∈ names, rows.find? (fun row => row.path == entryPath folder name) =
      r.files[entryPath folder name]?.map (_file slug (entryPath folder name))) :
    ∃ g' w' r', run (exec i) (gatherAll rt slug folder target rows names g) w = (.ok g', w') ∧
      w'.disk = w.disk ∧ w'.db.sites[slug]? = some r' ∧
      (∀ name ∈ names, r'.files[entryPath folder name]? =
        held rt (w.disk.get (target ++ [name])) r.files[entryPath folder name]?) ∧
      (∀ p, (∀ name ∈ names, p ≠ entryPath folder name) → r'.files[p]? = r.files[p]?) ∧
      ∀ p, p ∈ g'.seen ↔ p ∈ g.seen ∨ ∃ name ∈ names, p = entryPath folder name ∧
        isFile (w.disk.get (target ++ [name])) = true := by
  induction names generalizing w g r with
  | nil => exact ⟨g, w, r, rfl, rfl, hrow, by simp, by simp, by simp⟩
  | cons name names ih =>
    rw [List.nodup_cons] at hnodup
    obtain ⟨n, hn, hord⟩ := hnames name List.mem_cons_self
    obtain ⟨g1, w1, hrun1, hdisk1, hrow1, hseen1⟩ := run_gather rt (i := i) (g := g) hrow hn
      hord
      (hrows name List.mem_cons_self)
    have hne : ∀ m ∈ names, entryPath folder m ≠ entryPath folder name := by
      intro m hm h
      exact hnodup.1 (entryPath_injective h ▸ hm)
    have hget : ∀ m ∈ names, (indexed rt (entryPath folder name) n r.files)[entryPath folder m]? =
        r.files[entryPath folder m]? := fun m hm => by rw [get_indexed, if_neg (hne m hm)]
    obtain ⟨g2, w2, r2, hrun2, hdisk2, hrow2, hwritten, hkept, hseen2⟩ := ih hnodup.2 w1 g1 _ hrow1
      (fun m hm => by rw [hdisk1]; exact hnames m (List.mem_cons_of_mem _ hm))
      fun m hm => (hrows m (List.mem_cons_of_mem _ hm)).trans (by rw [← hget m hm])
    refine ⟨g2, w2, r2, (run_bind_of_ok _ hrun1).trans hrun2, hdisk2.trans hdisk1, hrow2, ?_, ?_, ?_⟩
    · intro m hm
      rcases List.mem_cons.1 hm with rfl | hm
      · rw [hkept _ fun m' hm' => (hne m' hm').symm, get_indexed, if_pos rfl, hn]
      · rw [hwritten m hm, hdisk1]
        exact congrArg _ (hget m hm)
    · intro p hp
      rw [hkept p fun m hm => hp m (List.mem_cons_of_mem _ hm), get_indexed,
        if_neg (hp name List.mem_cons_self)]
    · intro p
      rw [hseen2, hseen1, List.mem_append, mem_seenOf, hdisk1, or_assoc, ← hn]
      simp only [List.mem_cons, exists_eq_or_imp]

/-- **The stale rows are dropped**, and nothing else. -/
theorem run_dropStale (paths : List Str) (w : World) (r : SiteRec)
    (hrow : w.db.sites[slug]? = some r) :
    ∃ w' r', run (exec i) (dropStale slug paths) w = (.ok (), w') ∧ w'.disk = w.disk ∧
      w'.db.sites[slug]? = some r' ∧
      ∀ p, r'.files[p]? = if p ∈ paths then none else r.files[p]? := by
  induction paths generalizing w r with
  | nil => exact ⟨w, r, rfl, rfl, hrow, by simp⟩
  | cons stale paths ih =>
    have hrun1 : run (exec i) (query (.delete_file_row slug stale)) w =
        (.ok (), { w with db := w.db.set_files slug fun t => t.erase stale }) := run_query ..
    obtain ⟨w2, r2, hrun2, hdisk2, hrow2, hget⟩ := ih { w with db := w.db.set_files slug _ } _
      (sites_of_set_files hrow fun t => t.erase stale)
    refine ⟨w2, r2, (run_bind_of_ok _ hrun1).trans hrun2, hdisk2, hrow2, fun p => ?_⟩
    rw [hget, get_erase]
    by_cases hp : p = stale
    · simp [hp]
    · simp [hp]

/-! ### One listing -/

/-- **A tree of files and folders**: below `root`, which is a folder or missing, there is nothing
else, and every name is one component. -/
structure SiteTree (t : Files Str) (root : Path Str) : Prop where
  folder : t.get root = none ∨ t.get root = some .folder
  ordinary : ∀ q n, t.get (root ++ q) = some n → Ordinary n
  names : ∀ q, t.get (root ++ q) ≠ none → Plain q

theorem SiteTree.clear {t : Files Str} {root : Path Str} (h : SiteTree t root) (q : Path Str) :
    isLink (t.get (root ++ q)) = false := by
  rcases hg : t.get (root ++ q) with _ | n
  · rfl
  · rcases h.ordinary q n hg with rfl | ⟨d, rfl⟩ <;> rfl

/-- The row under the path of the entry `n` of a folder that was listed. -/
def listed (rt : Runtime) (n : Option (Node Str FileData)) (old : Option FileRec) : Option FileRec :=
  match n with
  | some (.file d) => some (freshRow rt old d)
  | _ => none

theorem listed_of_file {n : Option (Node Str FileData)} {old : Option FileRec} (h : isFile n = true) :
    listed rt n old = held rt n old := by
  rcases n with _ | _ | _ | _ | _ <;> first | rfl | cases h

theorem of_not_file {n : Option (Node Str FileData)} {old : Option FileRec} (h : ¬ isFile n = true) :
    listed rt n old = none ∧ held rt n old = old := by
  rcases n with _ | _ | _ | _ | _ <;> first | exact ⟨rfl, rfl⟩ | exact absurd rfl h

theorem listed_again (rt : Runtime) (n : Option (Node Str FileData)) (old : Option FileRec) :
    listed rt n (listed rt n old) = listed rt n old := by
  rcases n with _ | d | _ | _ | _
  · rfl
  · exact congrArg some (freshRow_again rt old d)
  · rfl
  · rfl
  · rfl

/-- No path is directly in two folders. -/
theorem inFolder_unique {F F' : List Str} (hF : Plain F) (hF' : Plain F') {p : Str}
    (h : inFolder (join F) p = true) (h' : inFolder (join F') p = true) : F = F' := by
  obtain ⟨name, hslash, rfl⟩ := inFolder_iff.1 h
  obtain ⟨name', hslash', he⟩ := inFolder_iff.1 h'
  rw [entryPath_join hF, entryPath_join hF'] at he
  have := congrArg beforeLast he
  rw [beforeLast_join hslash, beforeLast_join hslash'] at this
  exact hF.join_injective hF' this

theorem SiteTree.resolved {slug : Str} {F : List Str} (h : SiteTree w.disk (site_dir cfg slug))
    (hF : Plain F) : resolved cfg rt w.disk slug (join F) = .ok (site_dir cfg slug ++ F) := by
  have hroot := h.clear []
  rw [List.append_nil] at hroot
  rw [resolved_of_clear hroot (linked_of_clear h.clear _), hF.segments_join]

/-- **One listing**: the rows directly in its folder are those of its files, made fresh where they
differed, and all other rows are kept. -/
theorem run_list_folder (rt : Runtime) {F : List Str} (hrow : w.db.sites[slug]? = some r)
    (htree : SiteTree w.disk (site_dir cfg slug))
    (hF : w.disk.get (site_dir cfg slug ++ F) = some .folder) :
    ∃ l w' r', run (exec i) (list_folder cfg rt slug (join F)) w = (.ok l, w') ∧
      w'.disk = w.disk ∧ w'.db.sites[slug]? = some r' ∧
      (∀ name, slash ∉ name → r'.files[join (F ++ [name])]? =
        listed rt (w.disk.get (site_dir cfg slug ++ (F ++ [name]))) r.files[join (F ++ [name])]?) ∧
      ∀ p, inFolder (join F) p = false → r'.files[p]? = r.files[p]? := by
  set target := site_dir cfg slug ++ F with htarget
  set names := w.scan.order (w.disk.children target) with hnames
  have hplain : Plain F := htree.names F (by rw [hF]; simp)
  have hmem : ∀ name, name ∈ names ↔ w.disk.get (target ++ [name]) ≠ none := fun name => by
    rw [hnames, (w.scan.perm _).mem_iff, Tree.mem_children]
  have hassoc : ∀ name, target ++ [name] = site_dir cfg slug ++ (F ++ [name]) := fun name =>
    List.append_assoc ..
  have hslash : ∀ name ∈ names, slash ∉ name := by
    intro name hname
    rw [hmem, hassoc] at hname
    exact (htree.names _ hname name (by simp)).2
  obtain ⟨g, w1, r1, hrun1, hdisk1, hrow1, hwritten, hkept, hseen⟩ := run_gatherAll rt (i := i)
    (join F) target (folderRows r.files slug (join F)) names
    ((w.scan.perm _).nodup_iff.2 (Tree.children_nodup ..)) w ⟨[], [], []⟩ r hrow
    (fun name hname => by
      obtain ⟨n, hn⟩ := Option.ne_none_iff_exists'.1 ((hmem name).1 hname)
      exact ⟨n, hn, htree.ordinary _ n (by rw [← hassoc, hn])⟩)
    fun name hname => find_folderRows slug (inFolder_iff.2 ⟨name, hslash name hname, rfl⟩)
  obtain ⟨w2, r2, hrun2, hdisk2, hrow2, hdropped⟩ := run_dropStale (i := i)
    (((folderRows r.files slug (join F)).map FileRow.path).filter fun path => !g.seen.contains path)
    w1 r1 hrow1
  have hstale : ∀ p, p ∈ ((folderRows r.files slug (join F)).map FileRow.path).filter
      (fun path => !g.seen.contains path) ↔
        (inFolder (join F) p = true ∧ r.files[p]? ≠ none) ∧ p ∉ g.seen := by
    intro p
    rw [List.mem_filter, mem_folderRows_path, Bool.not_eq_true', ← Bool.not_eq_true,
      List.contains_iff_mem]
  refine ⟨⟨slug, join F, sortByName g.folders ++ sortByName g.files⟩, w2, r2, ?_,
    hdisk2.trans hdisk1, hrow2, ?_, ?_⟩
  · rw [list_folder]
    refine (run_bind_of_ok _ ((run_resolve ..).trans (by rw [htree.resolved hplain]))).trans ?_
    refine (run_bind_of_ok _ (run_kind_folder hF)).trans ?_
    refine (run_bind_of_ok _ (run_files_in_folder slug (join F))).trans ?_
    refine (run_bind_of_ok _ (run_scandir hF)).trans ?_
    rw [files_of_row hrow]
    exact (run_bind_of_ok _ hrun1).trans (run_bind_of_ok _ hrun2)
  · intro name hname
    rw [← entryPath_join hplain, ← hassoc, hdropped]
    have hin : inFolder (join F) (entryPath (join F) name) = true := inFolder_iff.2 ⟨name, hname, rfl⟩
    by_cases hfile : isFile (w.disk.get (target ++ [name])) = true
    · -- a file: it is seen, and its row is fresh
      have hm : name ∈ names := (hmem name).2 fun hn => by rw [hn] at hfile; cases hfile
      rw [if_neg fun h => ((hstale _).1 h).2 ((hseen _).2 (Or.inr ⟨name, hm, rfl, hfile⟩)),
        hwritten name hm, listed_of_file hfile]
    · -- no file: the row, if there is one, is stale
      have hunseen : entryPath (join F) name ∉ g.seen := by
        rw [hseen]
        rintro (h | ⟨m, -, he, hm⟩)
        · cases h
        · exact hfile (entryPath_injective he ▸ hm)
      have hsame : r1.files[entryPath (join F) name]? = r.files[entryPath (join F) name]? := by
        by_cases hm : name ∈ names
        · rw [hwritten name hm, (of_not_file hfile).2]
        · exact hkept _ fun m hm' he => hm (entryPath_injective he ▸ hm')
      rw [(of_not_file hfile).1, hsame]
      by_cases hold : r.files[entryPath (join F) name]? = none
      · rw [hold, ite_self]
      · rw [if_pos ((hstale _).2 ⟨⟨hin, hold⟩, hunseen⟩)]
  · intro p hp
    rw [hdropped, if_neg fun h => absurd ((hstale p).1 h).1.1 (by rw [hp]; exact Bool.false_ne_true)]
    refine hkept p fun name hname he => ?_
    rw [he, inFolder_iff.2 ⟨name, hslash name hname, rfl⟩] at hp
    cases hp

/-- A site without a folder is listed without a look at its index. -/
theorem run_list_folder_missing (hroot : w.disk.get (site_dir cfg slug) = none) :
    run (exec i) (list_folder cfg rt slug []) w = (.ok ⟨slug, [], []⟩, w) := by
  have hclear : isLink (w.disk.get (site_dir cfg slug)) = false := by rw [hroot]; rfl
  have hres : resolved cfg rt w.disk slug [] = .ok (site_dir cfg slug) := by
    rw [resolved_of_clear hclear rfl]
    exact congrArg Except.ok (List.append_nil _)
  rw [list_folder]
  refine (run_bind_of_ok _ ((run_resolve ..).trans (by rw [hres]))).trans ?_
  exact (run_bind_of_ok _ (run_kind_none hroot)).trans rfl

/-! ### Listings of many folders -/

/-- Folders of a site, listed one after another. -/
def listAll (cfg : Config) (rt : Runtime) (slug : Str) : List (List Str) → Code Unit
  | [] => .ret ()
  | F :: folders => list_folder cfg rt slug (join F) >>= fun _ => listAll cfg rt slug folders

/-- **Listings of many folders**: the rows directly in a folder are fresh once it was listed, and a row
that is directly in none of the folders is kept. -/
theorem run_listAll (rt : Runtime) (folders : List (List Str)) (w : World) (r : SiteRec)
    (hrow : w.db.sites[slug]? = some r) (htree : SiteTree w.disk (site_dir cfg slug))
    (hfolders : ∀ F ∈ folders, F = [] ∨ w.disk.get (site_dir cfg slug ++ F) = some .folder) :
    ∃ w' r', run (exec i) (listAll cfg rt slug folders) w = (.ok (), w') ∧ w'.disk = w.disk ∧
      w'.db.sites[slug]? = some r' ∧
      (∀ F name, w.disk.get (site_dir cfg slug ++ F) = some .folder → slash ∉ name →
        r'.files[join (F ++ [name])]? = if F ∈ folders then
          listed rt (w.disk.get (site_dir cfg slug ++ (F ++ [name]))) r.files[join (F ++ [name])]?
        else r.files[join (F ++ [name])]?) ∧
      ∀ p, (∀ F, w.disk.get (site_dir cfg slug ++ F) = some .folder → inFolder (join F) p = false) →
        r'.files[p]? = r.files[p]? := by
  induction folders generalizing w r with
  | nil => exact ⟨w, r, rfl, rfl, hrow, by simp, fun _ _ => rfl⟩
  | cons F0 folders ih =>
    have hrest := fun F hF => hfolders F (List.mem_cons_of_mem _ hF)
    by_cases hF0 : w.disk.get (site_dir cfg slug ++ F0) = some .folder
    · have hplain : ∀ F, w.disk.get (site_dir cfg slug ++ F) = some .folder → Plain F := fun F hF =>
        htree.names F (by rw [hF]; simp)
      obtain ⟨l, w1, r1, hrun1, hdisk1, hrow1, hfresh1, hkept1⟩ :=
        run_list_folder rt (i := i) hrow htree hF0
      obtain ⟨w2, r2, hrun2, hdisk2, hrow2, hfresh2, hkept2⟩ := ih w1 r1 hrow1 (hdisk1 ▸ htree)
        (hdisk1 ▸ hrest)
      rw [hdisk1] at hfresh2 hkept2
      refine ⟨w2, r2, (run_bind_of_ok _ hrun1).trans hrun2, hdisk2.trans hdisk1, hrow2, ?_, ?_⟩
      · intro F name hF hname
        rw [hfresh2 F name hF hname]
        by_cases hFF : F = F0
        · subst hFF
          rw [hfresh1 name hname, listed_again, ite_self, if_pos List.mem_cons_self]
        · have hin : inFolder (join F) (join (F ++ [name])) = true :=
            inFolder_iff.2 ⟨name, hname, (entryPath_join (hplain F hF) name).symm⟩
          have hout : inFolder (join F0) (join (F ++ [name])) = false := by
            by_contra hc
            rw [Bool.not_eq_false] at hc
            exact hFF (inFolder_unique (hplain F hF) (hplain F0 hF0) hin hc)
          rw [hkept1 _ hout]
          simp [hFF]
      · intro p hp
        rw [hkept2 p hp, hkept1 p (hp F0 hF0)]
    · -- the folder of the site is missing, and with it every other
      obtain rfl : F0 = [] := (hfolders F0 List.mem_cons_self).resolve_right hF0
      rw [List.append_nil] at hF0
      have hroot := htree.folder.resolve_right hF0
      have hnone : ∀ F, w.disk.get (site_dir cfg slug ++ F) ≠ some .folder := by
        intro F hF
        rcases eq_or_ne F [] with rfl | hne
        · exact hF0 (by rwa [List.append_nil] at hF)
        · rw [Tree.get_below_none hF0 hne] at hF
          cases hF
      obtain ⟨w2, r2, hrun2, hdisk2, hrow2, -, hkept2⟩ := ih w r hrow htree hrest
      exact ⟨w2, r2, (run_bind_of_ok _ (run_list_folder_missing hroot)).trans hrun2, hdisk2, hrow2,
        fun F _ hF => absurd hF (hnone F), hkept2⟩

/-! ### The index and the tree -/

/-- The regular files below a path. -/
def regularFiles (t : Files Str) (root : Path Str) : List (Path Str × FileData) :=
  (t.below root).filterMap fun e => match e.2 with
    | .file d => some (e.1, d)
    | _ => none

theorem mem_regularFiles {t : Files Str} {root p : Path Str} {d : FileData} :
    (p, d) ∈ regularFiles t root ↔ root <+: p ∧ t.get p = some (.file d) := by
  rw [regularFiles, List.mem_filterMap]
  constructor
  · rintro ⟨⟨q, n⟩, hq, he⟩
    obtain ⟨h1, h2⟩ := Tree.mem_below.1 hq
    rcases n with d' | _ | _ | _ <;> cases he
    exact ⟨h1, h2⟩
  · rintro ⟨h1, h2⟩
    exact ⟨(p, .file d), Tree.mem_below.2 ⟨h1, h2⟩, rfl⟩

theorem run_site_totals (slug : Str) : run (exec i) (site_totals slug) w =
    (.ok ((w.db.files slug).size, total (fun _ rec => rec.bytes) (w.db.files slug)), w) := by
  have hall : (w.db.files slug).filter (fun path _ => _below [] path) = w.db.files slug :=
    Tables.ext fun p => by
      rw [get_filter_key]
      exact if_pos rfl
  rw [site_totals]
  refine (run_bind_of_ok _ (run_query ..)).trans ?_
  simp only [Db.exec, folder_totals, hall]
  rfl

/-- Every file of a tree has a path of its own. -/
theorem SiteTree.nodup {t : Files Str} {root : Path Str} (h : SiteTree t root) :
    ((regularFiles t root).map fun f => join (f.1.drop root.length)).Nodup := by
  have hpair : (regularFiles t root).Pairwise fun a b => a.1 ≠ b.1 := by
    refine List.pairwise_filterMap.2 ((t.below_pairwise root).imp ?_)
    rintro ⟨p, n⟩ ⟨q, m⟩ hpq ⟨p', d⟩ hp ⟨q', e⟩ hq rfl
    rcases n with _ | _ | _ | _ <;> cases hp
    rcases m with _ | _ | _ | _ <;> cases hq
    exact hpq List.prefix_rfl
  refine List.pairwise_map.2 (hpair.imp_of_mem ?_)
  rintro ⟨p, d⟩ ⟨q, e⟩ hp hq hne he
  obtain ⟨⟨p, rfl⟩, hp⟩ := mem_regularFiles.1 hp
  obtain ⟨⟨q, rfl⟩, hq⟩ := mem_regularFiles.1 hq
  simp only [List.drop_left] at he
  refine hne (congrArg (root ++ ·) ?_)
  exact (h.names p (by rw [hp]; simp)).join_injective (h.names q (by rw [hq]; simp)) he

/-- **The index is right**: its rows are exactly those of the regular files, with their size and time,
and with their digest where the old row was absent or of another size or time; and the totals of the
site are those of the files. -/
structure Reconciled (cfg : Config) (rt : Runtime) (i : ℕ) (slug : Str) (old : Index) (w : World) :
    Prop where
  rows : ∀ p rec, (w.db.files slug)[p]? = some rec → ∃ q d, p = join q ∧
    w.disk.get (site_dir cfg slug ++ q) = some (.file d) ∧ rec.bytes = d.content.length ∧
    rec.mtime_ns = d.mtime
  files : ∀ q d, w.disk.get (site_dir cfg slug ++ q) = some (.file d) →
    ∃ rec, (w.db.files slug)[join q]? = some rec ∧ rec.bytes = d.content.length ∧
      rec.mtime_ns = d.mtime ∧
      ((∀ before, old[join q]? = some before →
        before.bytes ≠ d.content.length ∨ before.mtime_ns ≠ d.mtime) →
          rec.sha256 = rt.sha256 d.content)
  totals : run (exec i) (site_totals slug) w =
    (.ok ((regularFiles w.disk (site_dir cfg slug)).length,
      ((regularFiles w.disk (site_dir cfg slug)).map fun f => f.2.content.length).sum), w)

/-- An index with exactly the rows of the files has their totals. -/
theorem totals_of_rows (htree : SiteTree w.disk (site_dir cfg slug))
    (hrows : ∀ p rec, (w.db.files slug)[p]? = some rec → ∃ q d, p = join q ∧
      w.disk.get (site_dir cfg slug ++ q) = some (.file d) ∧ rec.bytes = d.content.length)
    (hfiles : ∀ q d, w.disk.get (site_dir cfg slug ++ q) = some (.file d) →
      ∃ rec, (w.db.files slug)[join q]? = some rec ∧ rec.bytes = d.content.length) :
    run (exec i) (site_totals slug) w =
      (.ok ((regularFiles w.disk (site_dir cfg slug)).length,
        ((regularFiles w.disk (site_dir cfg slug)).map fun f => f.2.content.length).sum), w) := by
  obtain ⟨hsize, htotal⟩ := total_eq_sum (t := w.db.files slug) (f := fun _ rec => rec.bytes)
    (l := (regularFiles w.disk (site_dir cfg slug)).map fun f =>
      (join (f.1.drop (site_dir cfg slug).length), f.2.content.length))
    (by rw [List.map_map]; exact htree.nodup) fun p n => by
      rw [List.mem_map, Option.map_eq_some_iff]
      constructor
      · rintro ⟨⟨path, d⟩, hm, he⟩
        obtain ⟨⟨q, rfl⟩, hq⟩ := mem_regularFiles.1 hm
        obtain ⟨rfl, rfl⟩ := Prod.mk.inj he
        rw [List.drop_left]
        exact hfiles q d hq
      · rintro ⟨rec, hrec, rfl⟩
        obtain ⟨q, d, rfl, hq, hbytes⟩ := hrows p rec hrec
        exact ⟨(_, d), mem_regularFiles.2 ⟨List.prefix_append _ q, hq⟩,
          by rw [List.drop_left, hbytes]⟩
  rw [run_site_totals, hsize, htotal, List.length_map, List.map_map]
  rfl

/-- **Listings reconcile the index**: after the root and every folder were listed, in any order, the
index is right if and only if each of its rows was directly in a folder that exists. -/
theorem listing_reconciles_iff (cfg : Config) (rt : Runtime) (i : ℕ) (w : World) (slug : Str)
    (r : SiteRec) (folders : List (List Str)) (hrow : w.db.sites[slug]? = some r)
    (htree : SiteTree w.disk (site_dir cfg slug))
    (hfolders : ∀ F ∈ folders, F = [] ∨ w.disk.get (site_dir cfg slug ++ F) = some .folder)
    (hall : ∀ F, w.disk.get (site_dir cfg slug ++ F) = some .folder → F ∈ folders) :
    ∃ w', run (exec i) (listAll cfg rt slug folders) w = (.ok (), w') ∧ w'.disk = w.disk ∧
      (Reconciled cfg rt i slug r.files w' ↔ ∀ p, r.files[p]? ≠ none → ∃ F,
        w.disk.get (site_dir cfg slug ++ F) = some .folder ∧ inFolder (join F) p = true) := by
  obtain ⟨w', r', hrun, hdisk, hrow', hfresh, hkept⟩ :=
    run_listAll rt (i := i) folders w r hrow htree hfolders
  refine ⟨w', hrun, hdisk, fun h p hp => ?_, fun h => ?_⟩
  · -- a row that no listing sees to is still there, and it is not that of a file
    by_contra hc
    have hout : ∀ F, w.disk.get (site_dir cfg slug ++ F) = some .folder →
        inFolder (join F) p = false := fun F hF => by
      rw [← Bool.not_eq_true]
      exact fun hin => hc ⟨F, hF, hin⟩
    obtain ⟨rec, hrec⟩ := Option.ne_none_iff_exists'.1 hp
    obtain ⟨q, d, rfl, hq, -⟩ := h.rows p rec (by rw [files_of_row hrow', hkept p hout, hrec])
    rw [hdisk] at hq
    have hplain := htree.names q (by rw [hq]; simp)
    rcases List.eq_nil_or_concat q with rfl | ⟨F, name, rfl⟩
    · rw [List.append_nil] at hq
      rcases htree.folder with hf | hf <;> rw [hf] at hq <;> cases hq
    · rw [List.concat_eq_append] at hq hc hplain
      refine hc ⟨F, ?_, inFolder_iff.2 ⟨name, (hplain name (by simp)).2,
        (entryPath_join (fun s hs => hplain s (by simp [hs])) name).symm⟩⟩
      rw [← List.append_assoc] at hq
      exact Tree.get_parent (by rw [hq]; simp)
  · have hrows : ∀ p rec, (w'.db.files slug)[p]? = some rec → ∃ q d, p = join q ∧
        w'.disk.get (site_dir cfg slug ++ q) = some (.file d) ∧ rec = freshRow rt r.files[p]? d := by
      intro p rec hrec
      rw [files_of_row hrow'] at hrec
      obtain ⟨F, hF, hin⟩ : ∃ F, w.disk.get (site_dir cfg slug ++ F) = some .folder ∧
          inFolder (join F) p = true := by
        by_contra hc
        have hold := hkept p fun F hF => by
          rw [← Bool.not_eq_true]
          exact fun hin => hc ⟨F, hF, hin⟩
        exact hc (h p (by rw [← hold, hrec]; simp))
      obtain ⟨name, hname, rfl⟩ := inFolder_iff.1 hin
      rw [entryPath_join (htree.names F (by rw [hF]; simp))] at hrec ⊢
      rw [hfresh F name hF hname, if_pos (hall F hF)] at hrec
      rw [hdisk]
      rcases hg : w.disk.get (site_dir cfg slug ++ (F ++ [name])) with _ | d | _ | _ | _ <;>
        rw [hg] at hrec <;> cases hrec
      exact ⟨F ++ [name], d, rfl, hg, rfl⟩
    have hfiles : ∀ q d, w'.disk.get (site_dir cfg slug ++ q) = some (.file d) →
        (w'.db.files slug)[join q]? = some (freshRow rt r.files[join q]? d) := by
      intro q d hq
      rw [hdisk] at hq
      rcases List.eq_nil_or_concat q with rfl | ⟨F, name, rfl⟩
      · rw [List.append_nil] at hq
        rcases htree.folder with hf | hf <;> rw [hf] at hq <;> cases hq
      · rw [List.concat_eq_append] at hq ⊢
        have hF : w.disk.get (site_dir cfg slug ++ F) = some .folder := by
          rw [← List.append_assoc] at hq
          exact Tree.get_parent (by rw [hq]; simp)
        rw [files_of_row hrow', hfresh F name hF (htree.names _ (by rw [hq]; simp) name (by simp)).2,
          if_pos (hall F hF), hq]
        rfl
    refine ⟨fun p rec hrec => ?_, fun q d hq => ?_, ?_⟩
    · obtain ⟨q, d, hp, hq, rfl⟩ := hrows p rec hrec
      exact ⟨q, d, hp, hq, freshRow_bytes ..⟩
    · have hb := freshRow_bytes rt r.files[join q]? d
      exact ⟨_, hfiles q d hq, hb.1, hb.2, freshRow_sha256⟩
    · refine totals_of_rows (hdisk ▸ htree) (fun p rec hrec => ?_) fun q d hq => ?_
      · obtain ⟨q, d, hp, hq, rfl⟩ := hrows p rec hrec
        exact ⟨q, d, hp, hq, (freshRow_bytes ..).1⟩
      · exact ⟨_, hfiles q d hq, (freshRow_bytes ..).1⟩

/-! ### A small site -/

/-- What has to be looked at to know the tree of a site. -/
theorem SiteTree.of_below {t : Files Str} {root : Path Str}
    (hroot : t.get root = none ∨ t.get root = some .folder)
    (h : ∀ e ∈ t.below root, (isFile (some e.2) || isFolder (some e.2)) = true ∧
      ∀ s ∈ e.1.drop root.length, s ≠ [] ∧ slash ∉ s) : SiteTree t root where
  folder := hroot
  ordinary q n hn := by
    have := (h _ (Tree.mem_below.2 ⟨List.prefix_append root q, hn⟩)).1
    rcases n with d | _ | _ | _
    · exact Or.inr ⟨d, rfl⟩
    · exact Or.inl rfl
    · cases this
    · cases this
  names q hq := by
    obtain ⟨n, hn⟩ := Option.ne_none_iff_exists'.1 hq
    have := (h _ (Tree.mem_below.2 ⟨List.prefix_append root q, hn⟩)).2
    rwa [List.drop_left] at this

theorem folders_of_below {t : Files Str} {root : Path Str} {folders : List (List Str)}
    (h : ∀ e ∈ t.below root, isFolder (some e.2) = true → e.1.drop root.length ∈ folders)
    (F : List Str) (hF : t.get (root ++ F) = some .folder) : F ∈ folders := by
  have := h _ (Tree.mem_below.2 ⟨List.prefix_append root F, hF⟩) rfl
  rwa [List.drop_left] at this

/-- A site with one row in its index, for the path `path`. -/
def oneRow (path : Str) : Database :=
  (upsert_file ⟨lit "blog", path, 3, 5, lit "old"⟩
    (insert_site ⟨lit "blog", lit "Blog", counting 0 |>.now 0⟩ .empty).2).2

/-- The volume with a folder for the site, in which a file was placed by hand. -/
def placed (path : Str) : World :=
  let w := smallWorld (oneRow path)
  let site := site_dir smallConfig (lit "blog")
  let disk := (w.disk.put site .folder).put (site ++ [lit "d"]) .folder
  { w with disk := disk.put (site ++ [lit "d", lit "a"]) (.file ⟨[97], 7⟩) }

def placedRec (path : Str) : SiteRec :=
  ((placed path).db.sites[lit "blog"]?).getD ⟨[], .ofInstant (counting 0 |>.now 0), ∅⟩

theorem placedRec_eq {path : Str} (h : ((placed path).db.sites[lit "blog"]?).isSome = true) :
    (placed path).db.sites[lit "blog"]? = some (placedRec path) := by
  obtain ⟨r, hr⟩ := Option.isSome_iff_exists.1 h
  rw [placedRec, hr]
  rfl

theorem listing_reconciles_placed : ∃ w', run (exec 0) (listAll smallConfig plainRuntime (lit "blog")
      [[lit "d"], []]) (placed (lit "d/b")) = (.ok (), w') ∧ w'.disk = (placed (lit "d/b")).disk ∧
    (Reconciled smallConfig plainRuntime 0 (lit "blog") (placedRec (lit "d/b")).files w' ↔
      ∀ p, (placedRec (lit "d/b")).files[p]? ≠ none → ∃ F,
        (placed (lit "d/b")).disk.get (site_dir smallConfig (lit "blog") ++ F) = some .folder ∧
          inFolder (join F) p = true) :=
  listing_reconciles_iff smallConfig plainRuntime 0 (placed (lit "d/b")) (lit "blog") _ _
    (placedRec_eq (by decide +kernel)) (.of_below (Or.inr (by decide +kernel)) (by decide +kernel))
    (by decide +kernel) (folders_of_below (by decide +kernel))

/-- **A row below a folder that is gone is never dropped.** -/
theorem orphan_row_kept : ∃ (w : World) (r : SiteRec) (folders : List (List Str)),
    w.db.sites[lit "blog"]? = some r ∧ SiteTree w.disk (site_dir smallConfig (lit "blog")) ∧
    (∀ F ∈ folders, F = [] ∨
      w.disk.get (site_dir smallConfig (lit "blog") ++ F) = some .folder) ∧
    (∀ F, w.disk.get (site_dir smallConfig (lit "blog") ++ F) = some .folder → F ∈ folders) ∧
    ∀ w', run (exec 0) (listAll smallConfig plainRuntime (lit "blog") folders) w = (.ok (), w') →
      ¬ Reconciled smallConfig plainRuntime 0 (lit "blog") r.files w' := by
  refine ⟨placed (lit "old/a"), _, [[], [lit "d"]], placedRec_eq (by decide +kernel),
    .of_below (Or.inr (by decide +kernel)) (by decide +kernel), by decide +kernel,
    folders_of_below (by decide +kernel), fun w' hrun h => ?_⟩
  have hrow : ((run (exec 0) (listAll smallConfig plainRuntime (lit "blog") [[], [lit "d"]])
      (placed (lit "old/a"))).2.db.files (lit "blog"))[lit "old/a"]? =
        some ⟨3, 5, lit "old"⟩ := by decide +kernel
  have hfiles : ∀ f ∈ regularFiles (run (exec 0) (listAll smallConfig plainRuntime (lit "blog")
      [[], [lit "d"]]) (placed (lit "old/a"))).2.disk (site_dir smallConfig (lit "blog")),
      join (f.1.drop (site_dir smallConfig (lit "blog")).length) ≠ lit "old/a" := by decide +kernel
  rw [congrArg Prod.snd hrun] at hrow hfiles
  obtain ⟨q, d, hp, hq, -⟩ := h.rows _ _ hrow
  refine hfiles (_, d) (mem_regularFiles.2 ⟨List.prefix_append _ q, hq⟩) ?_
  rw [List.drop_left, hp]

end PaperBoxing.Backend.Reconcile
