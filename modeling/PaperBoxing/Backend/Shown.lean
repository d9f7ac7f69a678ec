import PaperBoxing.Backend.Limits
import PaperBoxing.Backend.Reconcile

/-! # What a listing shows, and what a download finds

A listing of a folder and the look-up of a file, in any tree, with any index and under any limits, each
run alone. What a listing shows of a file is its size on the disk, whatever the index had; it skips
what cannot be looked up, and stops at what it cannot write to the index.

* `run_list_folder_shown`: the entries of a folder; `run_list_folder_stopped`: a folder that is not
  listed; `run_list_folder_refused`: what is no folder;
* `run_file_path`: where a file is found, or why it is not. -/

namespace PaperBoxing.Backend.Shown

open PaperBoxing.Lib PaperBoxing.Lib.Action PaperBoxing.Lib.Program PaperBoxing.Lib.Text
open PaperBoxing.Lib.Tables PaperBoxing.Lib.Trees PaperBoxing.Lib.Disk PaperBoxing.Common.Schema
open PaperBoxing.Common.Naming PaperBoxing.Backend PaperBoxing.Backend.Db PaperBoxing.Backend.Calls
open PaperBoxing.Backend.Storage PaperBoxing.Backend.Alone PaperBoxing.Backend.Frames
open PaperBoxing.Backend.Limits PaperBoxing.Backend.Reconcile

variable {l : Limits} {cfg : Config} {rt : Runtime} {i : ℕ} {w : World} {slug folder path : Str}
  {t : Files Str} {target : Path Str}

/-- An exception that is answered as the refusal `a`. -/
structure AnsweredAs (e : Exn) (a : ApiError) : Prop where
  answered : e ≠ .cancelled
  response : Routes.errorResponse e = error_response a

theorem answeredAs_api (a : ApiError) : AnsweredAs (.api a) a := ⟨by rintro ⟨⟩, rfl⟩

/-- The answer to an exception that nothing expects. -/
def internalError : ApiError := ⟨500, .internal_error, lit "internal error"⟩

theorem answeredAs_barred : AnsweredAs (.os .other) internalError := ⟨by rintro ⟨⟩, rfl⟩

theorem answeredAs_other : AnsweredAs .other internalError := ⟨by rintro ⟨⟩, rfl⟩

/-! ### The entries of a folder -/

/-- **What the entries show** of the folder `target`: files with their sizes and folders, and every
file among `names`, of what can be looked up. -/
structure Shows (l : Limits) (t : Files Str) (target : Path Str) (names : List Str)
    (entries : List FileEntry) : Prop where
  seen : ∀ e ∈ entries, l.barred (target ++ [e.name]) = false
  file : ∀ e ∈ entries, e.type = .file →
    ∃ d, t.get (target ++ [e.name]) = some (.file d) ∧ e.bytes = d.content.length
  folder : ∀ e ∈ entries, e.type = .folder → t.get (target ++ [e.name]) = some .folder
  complete : ∀ name ∈ names, l.barred (target ++ [name]) = false → ∀ d,
    t.get (target ++ [name]) = some (.file d) → ∃ e ∈ entries, e.name = name

theorem shows_nil (l : Limits) (t : Files Str) (target : Path Str) : Shows l t target [] [] where
  seen _ he := absurd he List.not_mem_nil
  file _ he := absurd he List.not_mem_nil
  folder _ he := absurd he List.not_mem_nil
  complete _ hn := absurd hn List.not_mem_nil

section
variable {names : List Str} {entries entries' : List FileEntry}

theorem Shows.congr (h : Shows l t target names entries) (hmem : ∀ e, e ∈ entries' ↔ e ∈ entries) :
    Shows l t target names entries' where
  seen e he := h.seen e ((hmem e).1 he)
  file e he := h.file e ((hmem e).1 he)
  folder e he := h.folder e ((hmem e).1 he)
  complete name hn hb d hd := by
    obtain ⟨e, he, rfl⟩ := h.complete name hn hb d hd
    exact ⟨e, (hmem e).2 he, rfl⟩

/-- One entry more. -/
theorem Shows.add (h : Shows l t target names entries) {e : FileEntry}
    (hb : l.barred (target ++ [e.name]) = false) (hmem : ∀ x, x ∈ entries' ↔ x ∈ entries ∨ x = e)
    (hfile : e.type = .file →
      ∃ d, t.get (target ++ [e.name]) = some (.file d) ∧ e.bytes = d.content.length)
    (hfolder : e.type = .folder → t.get (target ++ [e.name]) = some .folder) :
    Shows l t target (names ++ [e.name]) entries' where
  seen x hx := by
    rcases (hmem x).1 hx with hx | rfl
    · exact h.seen x hx
    · exact hb
  file x hx := by
    rcases (hmem x).1 hx with hx | rfl
    · exact h.file x hx
    · exact hfile
  folder x hx := by
    rcases (hmem x).1 hx with hx | rfl
    · exact h.folder x hx
    · exact hfolder
  complete name hn hb d hd := by
    rcases List.mem_append.1 hn with hn | hn
    · obtain ⟨x, hx, rfl⟩ := h.complete name hn hb d hd
      exact ⟨x, (hmem x).2 (Or.inl hx), rfl⟩
    · exact ⟨e, (hmem e).2 (Or.inr rfl), (List.mem_singleton.1 hn).symm⟩

theorem Shows.add_folder {folders files : List FileEntry}
    (h : Shows l t target names (folders ++ files)) {name : Str} {bytes : ℕ}
    {modified_at : IsoTime.Instant} {sha256 : Option Str} (hb : l.barred (target ++ [name]) = false)
    (hname : t.get (target ++ [name]) = some .folder) : Shows l t target (names ++ [name])
      (folders ++ [⟨name, .folder, bytes, modified_at, sha256⟩] ++ files) := by
  refine h.add (e := ⟨name, .folder, bytes, modified_at, sha256⟩) hb (fun x => ?_) (by rintro ⟨⟩)
    fun _ => hname
  rw [List.mem_append, List.mem_append, List.mem_append, List.mem_singleton, or_right_comm]

theorem Shows.add_file {folders files : List FileEntry}
    (h : Shows l t target names (folders ++ files)) {name : Str} {bytes : ℕ}
    {modified_at : IsoTime.Instant} {sha256 : Option Str} {d : FileData}
    (hb : l.barred (target ++ [name]) = false) (hname : t.get (target ++ [name]) = some (.file d))
    (hbytes : bytes = d.content.length) : Shows l t target (names ++ [name])
      (folders ++ (files ++ [⟨name, .file, bytes, modified_at, sha256⟩])) := by
  refine h.add (e := ⟨name, .file, bytes, modified_at, sha256⟩) hb (fun x => ?_)
    (fun _ => ⟨d, hname, hbytes⟩) (by rintro ⟨⟩)
  rw [List.mem_append, List.mem_append, List.mem_append, List.mem_singleton, or_assoc]

/-- A name that is shown by no entry is none of a file that can be looked up. -/
theorem Shows.skip (h : Shows l t target names entries) {name : Str}
    (hname : l.barred (target ++ [name]) = false → ∀ d, t.get (target ++ [name]) ≠ some (.file d)) :
    Shows l t target (names ++ [name]) entries where
  seen := h.seen
  file := h.file
  folder := h.folder
  complete m hm hb d hd := by
    rcases List.mem_append.1 hm with hm | hm
    · exact h.complete m hm hb d hd
    · rw [List.mem_singleton.1 hm] at hb hd
      exact absurd hd (hname hb d)

/-- **The entry of a name**: a file's has its size, and nothing else's is a file's. -/
theorem Shows.find (h : Shows l t target names entries) {name : Str} :
    (∀ d, name ∈ names → l.barred (target ++ [name]) = false →
      t.get (target ++ [name]) = some (.file d) → ∃ e,
        (entries.find? fun e => e.name == name) = some e ∧ e.type = .file ∧
          e.bytes = d.content.length) ∧
    ∀ e, (entries.find? fun e => e.name == name) = some e → e.type = .file →
      l.barred (target ++ [name]) = false ∧ ∃ d, t.get (target ++ [name]) = some (.file d) := by
  have hfound : ∀ e, (entries.find? fun e => e.name == name) = some e → e ∈ entries ∧ e.name = name :=
    fun e he => ⟨List.mem_of_find?_eq_some he, beq_iff_eq.1 (List.find?_some he :)⟩
  constructor
  · intro d hn hb hd
    obtain ⟨x, hx, hxname⟩ := h.complete name hn hb d hd
    obtain ⟨e, he⟩ := Option.isSome_iff_exists.1
      (List.find?_isSome.2 ⟨x, hx, beq_iff_eq.2 hxname⟩ : (entries.find? fun e => e.name == name).isSome)
    obtain ⟨hmem, rfl⟩ := hfound e he
    rcases htype : e.type with _ | _
    · obtain ⟨d', hd', hbytes⟩ := h.file e hmem htype
      rw [hd] at hd'
      obtain rfl := Node.file.inj (Option.some.inj hd')
      exact ⟨e, he, htype, hbytes⟩
    · rw [h.folder e hmem htype] at hd
      cases hd
  · intro e he htype
    obtain ⟨hmem, rfl⟩ := hfound e he
    obtain ⟨d, hd, -⟩ := h.file e hmem htype
    exact ⟨h.seen e hmem, d, hd⟩

end

/-! ### The row of a file -/

section
variable {rel : Str} {p : Path Str} {d : FileData} {env : Env Str} {rows : List FileRow}

theorem answeredAs_row {bytes mtime_ns : ℕ} {e : Exn} (h : l.rowRefused rel bytes mtime_ns = some e) :
    AnsweredAs e internalError := by
  rw [rowRefused] at h
  split_ifs at h
  · obtain rfl := Option.some.inj h
    exact answeredAs_other
  · obtain rfl := Option.some.inj h
    exact ⟨by rintro ⟨⟩, rfl⟩

/-- A file that is hashed has its row written, -/
theorem run_rewrite (rt : Runtime) (hrow : (w.db.sites[slug]?).isSome) (hb : l.barred p = false)
    (hd : w.disk.get p = some (.file d)) (h : l.unwritable rel p d = false) :
    run (l.exec i) (reconcile.rewrite rt slug rel p (statOf env (.file d))) w =
      (.ok ⟨slug, rel, d.content.length, d.mtime, rt.sha256 d.content⟩, { w with
        db := w.db.set_files slug (·.insert rel ⟨d.content.length, d.mtime, rt.sha256 d.content⟩) }) := by
  obtain ⟨r, hr⟩ := Option.isSome_iff_exists.1 hrow
  rw [unwritable, Bool.or_eq_false_iff] at h
  have hread : run (l.exec i) (disk (.read p)) w = (.ok d.content, w) :=
    (run_disk_let ((refused_read l p).trans (by rw [hb, h.1]; rfl))).trans
      (run_disk_ok rfl fun _ => read_of_file hd)
  have hlet : l.lets (.db (.upsert_file ⟨slug, rel, d.content.length, d.mtime, rt.sha256 d.content⟩)) := by
    rw [lets, refused, Option.not_isSome_iff_eq_none.1 (Bool.eq_false_iff.1 h.2)]
    rfl
  rw [reconcile.rewrite]
  refine (run_bind_of_ok _ hread).trans ((run_bind_of_ok (a := ()) _ ?_).trans rfl)
  refine (run_query_let hlet).trans ((run_query ..).trans ?_)
  rw [Db.exec, upsert_file, hr]

/-- and one that cannot be hashed, or its row not written, raises. -/
theorem run_rewrite_refused (env : Env Str) (rt : Runtime) (slug : Str) (hb : l.barred p = false)
    (hd : w.disk.get p = some (.file d)) (h : l.unwritable rel p d = true) :
    ∃ e, AnsweredAs e internalError ∧
      run (l.exec i) (reconcile.rewrite rt slug rel p (statOf env (.file d))) w = (.error e, w) := by
  rw [reconcile.rewrite]
  by_cases hs : l.sealed p = true
  · exact ⟨_, answeredAs_barred, run_bind_of_error _ (run_disk_refused ((refused_read l p).trans
      (by rw [hb, hs]; rfl)))⟩
  · have hread : run (l.exec i) (disk (.read p)) w = (.ok d.content, w) :=
      (run_disk_let ((refused_read l p).trans (by rw [hb, Bool.eq_false_iff.2 hs]; rfl))).trans
        (run_disk_ok rfl fun _ => read_of_file hd)
    rw [unwritable, Bool.eq_false_iff.2 hs, Bool.false_or] at h
    obtain ⟨e, he⟩ := Option.isSome_iff_exists.1 h
    refine ⟨e, answeredAs_row he, (run_bind_of_ok _ hread).trans (run_bind_of_error _ ?_)⟩
    exact run_query_refused ((congrArg (Option.map _) he).trans rfl)

/-- **The row of a file** has its size, as indexed or as just written. -/
theorem run_reconcile (env : Env Str) (rt : Runtime) (hrow : (w.db.sites[slug]?).isSome)
    (hb : l.barred p = false)
    (hd : w.disk.get p = some (.file d)) (h : isCurrent rows rel d = true ∨ l.unwritable rel p d = false) :
    ∃ row w', run (l.exec i) (reconcile rt slug rel p (statOf env (.file d)) rows) w = (.ok row, w') ∧
      row.bytes = d.content.length ∧ w'.disk = w.disk ∧ (w'.db.sites[slug]?).isSome := by
  obtain ⟨r, hr⟩ := Option.isSome_iff_exists.1 hrow
  have hwritten : ∀ f, ((w.db.set_files slug f).sites[slug]?).isSome := fun f => by
    rw [sites_of_set_files hr f]
    rfl
  rw [isCurrent] at h
  rcases hfind : rows.find? fun row => row.path == rel with _ | row <;> rw [reconcile, hfind] <;>
    rw [hfind] at h
  · exact ⟨_, _, run_rewrite rt hrow hb hd (h.resolve_left Bool.false_ne_true), rfl, rfl, hwritten _⟩
  · by_cases hsame : row.bytes ≠ d.content.length ∨ row.mtime_ns ≠ d.mtime
    · have hlet := h.resolve_left fun hc => by
        rw [Option.any_some, Bool.and_eq_true, beq_iff_eq, beq_iff_eq] at hc
        exact hsame.elim (absurd hc.1) (absurd hc.2)
      exact ⟨_, _, (congrArg (run _ · _) (if_pos hsame)).trans (run_rewrite rt hrow hb hd hlet), rfl,
        rfl, hwritten _⟩
    · have hbytes := (not_or.1 hsame).1
      exact ⟨row, w, congrArg (run _ · _) (if_neg hsame), not_not.1 hbytes, rfl, hrow⟩

/-- **A file that is not as indexed**, and cannot be written. -/
theorem run_reconcile_refused (env : Env Str) (rt : Runtime) (slug : Str) (hb : l.barred p = false)
    (hd : w.disk.get p = some (.file d)) (hc : isCurrent rows rel d = false)
    (h : l.unwritable rel p d = true) : ∃ e, AnsweredAs e internalError ∧
      run (l.exec i) (reconcile rt slug rel p (statOf env (.file d)) rows) w = (.error e, w) := by
  obtain ⟨e, he, hrun⟩ := run_rewrite_refused (i := i) env rt slug hb hd h
  refine ⟨e, he, ?_⟩
  rw [isCurrent] at hc
  rcases hfind : rows.find? fun row => row.path == rel with _ | row <;> rw [reconcile, hfind]
  · exact hrun
  · rw [hfind, Option.any_some, Bool.and_eq_false_iff, beq_eq_false_iff_ne, beq_eq_false_iff_ne] at hc
    exact (congrArg (run _ · _) (if_pos hc)).trans hrun

end

/-! ### The entries, one after another -/

/-- An entry that can be looked up. -/
theorem run_stat_let {n : Node Str FileData} (hb : l.barred (target ++ [name]) = false)
    (hn : w.disk.get (target ++ [name]) = some n) : ∃ env,
    run (l.exec i) (disk (.stat (target ++ [name]))).attempt w = (.ok (.ok (statOf env n)), drew w i) := by
  obtain ⟨env, hstat⟩ := run_stat (i := i) hn
  exact ⟨env, by rw [run_attempt, run_disk_let (lets_stat hb), hstat]⟩

/-- **One entry of a folder**: the listing stops there, or it is shown, if it is to be. -/
theorem run_gather (l : Limits) (i : ℕ) (rt : Runtime) (folder : Str) (rows : List FileRow)
    {names : List Str} {name : Str} {g : Gathered} (ht : w.disk = t)
    (hrow : (w.db.sites[slug]?).isSome) (hname : t.get (target ++ [name]) ≠ none)
    (hg : Shows l t target names (g.folders ++ g.files)) :
    (l.stops t folder target rows name = true ∧ ∃ e w', AnsweredAs e internalError ∧
      run (l.exec i) (gather rt slug folder target rows name g) w = (.error e, w')) ∨
    (l.stops t folder target rows name = false ∧ ∃ g' w',
      run (l.exec i) (gather rt slug folder target rows name g) w = (.ok g', w') ∧
      Shows l t target (names ++ [name]) (g'.folders ++ g'.files) ∧ w'.disk = t ∧
      (w'.db.sites[slug]?).isSome) := by
  obtain ⟨n, hn⟩ := Option.ne_none_iff_exists'.1 hname
  have hn' : w.disk.get (target ++ [name]) = some n := by rw [ht, hn]
  rw [stops, hn, gather]
  rcases hb : l.barred (target ++ [name]) with _ | _
  swap
  · -- what cannot be looked up is skipped
    have hskip : run (l.exec i) (disk (.stat (target ++ [name]))).attempt w =
        (.ok (.error (.os .other)), w) := by rw [run_attempt, run_disk_refused (refused_stat hb)]
    exact Or.inr ⟨rfl, g, w, run_bind_of_ok _ hskip,
      hg.skip fun hc => absurd (hb.symm.trans hc) Bool.noConfusion, ht, hrow⟩
  obtain ⟨env, hattempt⟩ := run_stat_let (i := i) hb hn'
  rw [Bool.not_false, Bool.true_and]
  cases n with
  | folder =>
    rcases htext : l.text (entryPath folder name) with _ | _
    · exact Or.inl ⟨rfl, .other, _, answeredAs_other, (run_bind_of_ok _ hattempt).trans
        (run_bind_of_error _ (run_query_refused (refused_folder_totals slug htext)))⟩
    · exact Or.inr ⟨rfl, _, drew w i, (run_bind_of_ok _ hattempt).trans (run_bind_of_ok _
        ((run_query_let (lets_folder_totals slug htext)).trans (run_query ..))), hg.add_folder hb hn,
        ht, hrow⟩
  | file d =>
    rcases hstop : !isCurrent rows (entryPath folder name) d &&
      l.unwritable (entryPath folder name) (target ++ [name]) d with _ | _
    · have hlet : isCurrent rows (entryPath folder name) d = true ∨
          l.unwritable (entryPath folder name) (target ++ [name]) d = false := by
        rw [Bool.and_eq_false_iff, Bool.not_eq_false'] at hstop
        exact hstop
      obtain ⟨row, w', hrun, hbytes, hdisk, hrow'⟩ := run_reconcile (i := i) (w := drew w i) env
        rt hrow hb hn' hlet
      exact Or.inr ⟨hstop, _, w', (run_bind_of_ok _ hattempt).trans (run_bind_of_ok _ hrun),
        hg.add_file hb hn hbytes, hdisk.trans ht, hrow'⟩
    · obtain ⟨hold, hrefused⟩ := (Bool.and_eq_true _ _).mp hstop
      rw [Bool.not_eq_true'] at hold
      obtain ⟨e, he, hrun⟩ := run_reconcile_refused (i := i) (w := drew w i) env rt slug hb hn'
        hold hrefused
      exact Or.inl ⟨hstop, e, _, he, (run_bind_of_ok _ hattempt).trans (run_bind_of_error _ hrun)⟩
  | link _ _ =>
    exact Or.inr ⟨rfl, g, drew w i, run_bind_of_ok _ hattempt,
      hg.skip fun _ d => by rw [hn]; rintro ⟨⟩, ht, hrow⟩
  | special =>
    exact Or.inr ⟨rfl, g, drew w i, run_bind_of_ok _ hattempt,
      hg.skip fun _ d => by rw [hn]; rintro ⟨⟩, ht, hrow⟩

/-- **All entries of a folder**, up to the first at which the listing stops. -/
theorem run_gatherAll (l : Limits) (i : ℕ) (rt : Runtime) (folder : Str) (target : Path Str)
    (rows : List FileRow) (names : List Str)
    (hnames : ∀ name ∈ names, t.get (target ++ [name]) ≠ none) :
    ∀ (before : List Str) (g : Gathered) (w : World), w.disk = t → (w.db.sites[slug]?).isSome →
      Shows l t target before (g.folders ++ g.files) →
      (names.any (l.stops t folder target rows) = true ∧ ∃ e w', AnsweredAs e internalError ∧
        run (l.exec i) (gatherAll rt slug folder target rows names g) w = (.error e, w')) ∨
      (names.any (l.stops t folder target rows) = false ∧ ∃ g' w',
        run (l.exec i) (gatherAll rt slug folder target rows names g) w = (.ok g', w') ∧
        Shows l t target (before ++ names) (g'.folders ++ g'.files) ∧ w'.disk = t ∧
        (w'.db.sites[slug]?).isSome) := by
  induction names with
  | nil =>
    intro before g w ht hrow hg
    exact Or.inr ⟨rfl, g, w, rfl, by rwa [List.append_nil], ht, hrow⟩
  | cons name names ih =>
    intro before g w ht hrow hg
    rw [List.any_cons]
    rcases run_gather l i rt folder rows ht hrow (hnames name List.mem_cons_self) hg with
      ⟨hstop, e, w1, he, hrun⟩ | ⟨hpass, g1, w1, hrun1, hg1, ht1, hrow1⟩
    · rw [hstop]
      exact Or.inl ⟨rfl, e, w1, he, run_bind_of_error _ hrun⟩
    rw [hpass, Bool.false_or]
    rcases ih (fun n hn => hnames n (List.mem_cons_of_mem _ hn)) _ g1 w1 ht1 hrow1 hg1 with
      ⟨hstop, e, w2, he, hrun⟩ | ⟨hpass', g2, w2, hrun2, hg2, ht2, hrow2⟩
    · exact Or.inl ⟨hstop, e, w2, he, (run_bind_of_ok _ hrun1).trans hrun⟩
    · rw [List.append_assoc] at hg2
      exact Or.inr ⟨hpass', g2, w2, (run_bind_of_ok _ hrun1).trans hrun2, hg2, ht2, hrow2⟩

/-- Dropping rows leaves the tree and the site. -/
theorem run_dropRows (paths : List Str) (w : World) (hrow : (w.db.sites[slug]?).isSome) :
    ∃ w', run (l.exec i) (dropStale slug paths) w = (.ok (), w') ∧ w'.disk = w.disk ∧
      (w'.db.sites[slug]?).isSome := by
  obtain ⟨r, hr⟩ := Option.isSome_iff_exists.1 hrow
  obtain ⟨w', r', hrun, hdisk, hr', -⟩ := run_dropStale (i := i) paths w r hr
  exact ⟨w', (run_of_uses (uses_dropStale_at (fun _ => rfl) paths) w).trans hrun, hdisk,
    by rw [hr']; rfl⟩

theorem mem_sortByName {entries : List FileEntry} {e : FileEntry} :
    e ∈ sortByName entries ↔ e ∈ entries := List.mem_insertionSort _

/-! ### A listing -/

/-- What is found in the place of a folder, when it is none. -/
def noFolder (rt : Runtime) (slug folder : Str) : Kind → Except Exn FileListing
  | .file => .error (.api ⟨409, .not_a_folder, rt.repr folder ++ lit " is a file"⟩)
  | .special => .error (.api (_invalid_path rt folder (lit "not a regular file or a folder")))
  | .missing | .folder =>
    if folder = [] then .ok ⟨slug, [], []⟩
    else .error (.api ⟨404, .not_found,
      lit "no folder " ++ rt.repr folder ++ lit " in site " ++ rt.repr slug⟩)

theorem run_list_folder_error {e : Exn} (h : l.resolved cfg rt w.disk slug folder = .error e) :
    run (l.exec i) (list_folder cfg rt slug folder) w = (.error e, w) := by
  rw [list_folder]
  exact run_bind_of_error _ ((Limits.run_resolve ..).trans (by rw [h]))

/-- A target that cannot be looked up raises. -/
theorem run_list_folder_barred (h : l.resolved cfg rt w.disk slug folder = .ok target)
    (hb : l.barred target = true) :
    run (l.exec i) (list_folder cfg rt slug folder) w = (.error (.os .other), w) := by
  rw [list_folder]
  refine (run_bind_of_ok _ ((Limits.run_resolve ..).trans (by rw [h]))).trans ?_
  exact run_bind_of_error _ (run_kind_barred hb)

/-- **What is no folder** is not listed; the root that is missing is empty. -/
theorem run_list_folder_refused (h : l.resolved cfg rt w.disk slug folder = .ok target)
    (hb : l.barred target = false) (hkind : kindAt w.disk target ≠ .folder) :
    run (l.exec i) (list_folder cfg rt slug folder) w =
      (noFolder rt slug folder (kindAt w.disk target), w) := by
  rw [list_folder]
  refine (run_bind_of_ok _ ((Limits.run_resolve ..).trans (by rw [h]))).trans ?_
  refine (run_bind_of_ok _ (Limits.run_kind_of hb)).trans ?_
  rcases hk : kindAt w.disk target with _ | _ | _ | _
  · rw [noFolder]
    dsimp only
    split_ifs <;> rfl
  · rfl
  · exact absurd hk hkind
  · rfl

/-- What is listed of a folder that was found, with the rows `rows` of its files. -/
def listFound (rt : Runtime) (slug folder : Str) (target : Path Str) (rows : List FileRow) :
    Code FileListing := do
  let names ← disk (.scandir target)
  let g ← gatherAll rt slug folder target rows names ⟨[], [], []⟩
  dropStale slug ((rows.map FileRow.path).filter fun path => !g.seen.contains path)
  .ret ⟨slug, folder, sortByName g.folders ++ sortByName g.files⟩

theorem run_list_folder_found (h : l.resolved cfg rt w.disk slug folder = .ok target)
    (hb : l.barred target = false) (hfolder : w.disk.get target = some .folder) :
    run (l.exec i) (list_folder cfg rt slug folder) w = run (l.exec i)
      (listFound rt slug folder target (folderRows (w.db.files slug) slug folder)) w := by
  have hkind : kindAt w.disk target = .folder := by
    rw [kindAt, hfolder]
    rfl
  rw [list_folder]
  refine (run_bind_of_ok _ ((Limits.run_resolve ..).trans (by rw [h]))).trans ?_
  refine (run_bind_of_ok _ ((Limits.run_kind_of hb).trans (by rw [hkind]))).trans ?_
  exact run_bind_of_ok _ ((run_query_let (q := .files_in_folder slug folder) rfl).trans
    (run_files_in_folder slug folder))

/-- A folder is read in some order, which decides at which entry its listing stops, not whether. -/
theorem any_scanned (w : World) (target : Path Str) (f : Str → Bool) :
    (w.scan.order (w.disk.children target)).any f = (w.disk.children target).any f := by
  rw [Bool.eq_iff_iff, List.any_eq_true, List.any_eq_true]
  exact exists_congr fun name => and_congr_left' (w.scan.perm _).mem_iff

section
variable (h : l.resolved cfg rt w.disk slug folder = .ok target) (hb : l.barred target = false)
  (hfolder : w.disk.get target = some .folder) (hrow : (w.db.sites[slug]?).isSome)
include h hb hfolder hrow

/-- **A folder that is not listed**: it cannot be read, or an entry stops the listing. -/
theorem run_list_folder_stopped (hl : l.listable w.disk folder target
      (folderRows (w.db.files slug) slug folder) = false) :
    ∃ e w', AnsweredAs e internalError ∧
      run (l.exec i) (list_folder cfg rt slug folder) w = (.error e, w') := by
  rw [run_list_folder_found h hb hfolder, listFound]
  rw [listable, ← any_scanned] at hl
  rcases hs : l.sealed target with _ | _
  · rw [hs, Bool.not_false, Bool.true_and, Bool.not_eq_false'] at hl
    have hscan : run (l.exec i) (disk (.scandir target)) w =
        (.ok (w.scan.order (w.disk.children target)), w) :=
      (run_disk_let ((refused_scandir l target).trans (by rw [hb, hs]; rfl))).trans
        (run_scandir hfolder)
    obtain ⟨-, e, w', he, hrun⟩ := (run_gatherAll (t := w.disk) l i rt folder target
      (folderRows (w.db.files slug) slug folder) (w.scan.order (w.disk.children target))
      (fun name hn => Tree.mem_children.1 ((w.scan.perm _).mem_iff.1 hn)) [] ⟨[], [], []⟩ w rfl hrow
      (shows_nil l w.disk target)).resolve_right fun hc => by rw [hl] at hc; cases hc.1
    exact ⟨e, w', he, (run_bind_of_ok _ hscan).trans (run_bind_of_error _ hrun)⟩
  · exact ⟨_, w, answeredAs_barred, run_bind_of_error _ (run_disk_refused
      ((refused_scandir l target).trans (by rw [hb, hs]; rfl)))⟩

/-- **The listing of a folder** shows its files. -/
theorem run_list_folder_shown (hl : l.listable w.disk folder target
      (folderRows (w.db.files slug) slug folder) = true) :
    ∃ entries w', run (l.exec i) (list_folder cfg rt slug folder) w =
        (.ok ⟨slug, folder, entries⟩, w') ∧
      Shows l w.disk target (w.disk.children target) entries ∧ w'.disk = w.disk ∧
      (w'.db.sites[slug]?).isSome := by
  rw [run_list_folder_found h hb hfolder, listFound]
  rw [listable, ← any_scanned, Bool.and_eq_true, Bool.not_eq_true', Bool.not_eq_true'] at hl
  have hmem : ∀ name, name ∈ w.scan.order (w.disk.children target) ↔ name ∈ w.disk.children target :=
    fun name => (w.scan.perm _).mem_iff
  have hscan : run (l.exec i) (disk (.scandir target)) w =
      (.ok (w.scan.order (w.disk.children target)), w) :=
    (run_disk_let ((refused_scandir l target).trans (by rw [hb, hl.1]; rfl))).trans
      (run_scandir hfolder)
  obtain ⟨-, g, w1, hrun1, hg, hdisk1, hrow1⟩ := (run_gatherAll (t := w.disk) l i rt folder target
    (folderRows (w.db.files slug) slug folder) (w.scan.order (w.disk.children target))
    (fun name hn => Tree.mem_children.1 ((hmem name).1 hn)) [] ⟨[], [], []⟩ w rfl hrow
    (shows_nil l w.disk target)).resolve_left fun hc => by rw [hl.2] at hc; cases hc.1
  obtain ⟨w2, hrun2, hdisk2, hrow2⟩ := run_dropRows (l := l) (i := i)
    (((folderRows (w.db.files slug) slug folder).map FileRow.path).filter
      fun path => !g.seen.contains path) w1 hrow1
  refine ⟨sortByName g.folders ++ sortByName g.files, w2, ?_, ?_, hdisk2.trans hdisk1, hrow2⟩
  · exact (run_bind_of_ok _ hscan).trans ((run_bind_of_ok _ hrun1).trans (run_bind_of_ok _ hrun2))
  · have hall : Shows l w.disk target (w.disk.children target) (g.folders ++ g.files) :=
      ⟨hg.seen, hg.file, hg.folder, fun name hn => hg.complete name ((hmem name).2 hn)⟩
    exact hall.congr fun e => by
      rw [List.mem_append, List.mem_append, mem_sortByName, mem_sortByName]

end

/-! ### A download -/

/-- A path that is not resolved is refused, or not looked up. -/
theorem resolved_error {e : Exn} (h : l.resolved cfg rt t slug path = .error e) :
    (∃ why, e = .api (_invalid_path rt path why)) ∨ e = .os .other := by
  rw [Limits.resolved] at h
  rcases hway : l.wayTo t (site_dir cfg slug) (segments path) with _ | _ | why | _ <;>
    rw [hway] at h <;> cases h
  · exact Or.inl ⟨why, rfl⟩
  · exact Or.inr rfl

/-- What is found in the place of a file. -/
def noFile (rt : Runtime) (slug path : Str) (target : Path Str) : Kind → Except Exn (Path Str)
  | .folder => .error (.api ⟨409, .not_a_file, rt.repr path ++ lit " is a folder, not a file"⟩)
  | .special => .error (.api (_invalid_path rt path (lit "not a regular file")))
  | .missing => .error (.api ⟨404, .not_found,
      lit "no file " ++ rt.repr path ++ lit " in site " ++ rt.repr slug⟩)
  | .file => .ok target

/-- Where a file is found, or why it is not. -/
def located (l : Limits) (cfg : Config) (rt : Runtime) (t : Files Str) (slug path : Str) :
    Except Exn (Path Str) :=
  (l.resolved cfg rt t slug path).bind fun target =>
    if l.barred target then .error (.os .other) else noFile rt slug path target (kindAt t target)

theorem located_unresolved {e : Exn} (h : l.resolved cfg rt t slug path = .error e) :
    located l cfg rt t slug path = .error e := by
  rw [located, h]
  rfl

section
variable (h : l.resolved cfg rt t slug path = .ok target)
include h

theorem located_barred (hb : l.barred target = true) :
    located l cfg rt t slug path = .error (.os .other) := by
  rw [located, h]
  exact if_pos hb

theorem located_open (hb : l.barred target = false) :
    located l cfg rt t slug path = noFile rt slug path target (kindAt t target) := by
  rw [located, h]
  exact if_neg (by rw [hb]; exact Bool.false_ne_true)

theorem located_missing (hb : l.barred target = false) (hn : t.get target = none) :
    located l cfg rt t slug path = .error (.api ⟨404, .not_found,
      lit "no file " ++ rt.repr path ++ lit " in site " ++ rt.repr slug⟩) := by
  rw [located_open h hb, kindAt, hn]
  rfl

theorem located_found (hb : l.barred target = false) {d : FileData}
    (hd : t.get target = some (.file d)) : located l cfg rt t slug path = .ok target := by
  rw [located_open h hb, kindAt, hd]
  rfl

end

/-- A file that is there is located, when no name on the way to it is refused. -/
theorem located_of_get {segs : List Str} (hsegs : segments path = segs)
    (hb : ∀ q, q <+: segs → l.barred (site_dir cfg slug ++ q) = false) {d : FileData}
    (hd : t.get (site_dir cfg slug ++ segs) = some (.file d)) :
    located l cfg rt t slug path = .ok (site_dir cfg slug ++ segs) := by
  have hres : l.resolved cfg rt t slug path = .ok (site_dir cfg slug ++ segs) := by
    rw [Limits.resolved, hsegs, Limits.wayTo_of_get hb hd rfl]
    rfl
  exact located_found hres (hb segs List.prefix_rfl) hd

/-- **The look-up of a file** only looks. -/
theorem run_file_path : run (l.exec i) (file_path cfg rt slug path) w =
    (located l cfg rt w.disk slug path, w) := by
  rw [file_path]
  rcases h : l.resolved cfg rt w.disk slug path with e | target
  · rw [located_unresolved h]
    exact run_bind_of_error _ ((Limits.run_resolve ..).trans (by rw [h]))
  refine (run_bind_of_ok _ ((Limits.run_resolve ..).trans (by rw [h]))).trans ?_
  rcases hb : l.barred target with _ | _
  · rw [located_open h hb]
    refine (run_bind_of_ok _ (Limits.run_kind_of hb)).trans ?_
    rcases kindAt w.disk target with _ | _ | _ | _ <;> rfl
  · rw [located_barred h hb]
    exact run_bind_of_error _ (run_kind_barred hb)

/-- What is located is a file that can be looked up. -/
theorem located_file (h : located l cfg rt t slug path = .ok target) :
    target = site_dir cfg slug ++ segments path ∧ l.barred target = false ∧
      ∃ d, t.get target = some (.file d) := by
  rcases hres : l.resolved cfg rt t slug path with e | place
  · rw [located_unresolved hres] at h
    cases h
  rcases hb : l.barred place with _ | _
  swap
  · rw [located_barred hres hb] at h
    cases h
  rw [located_open hres hb, kindAt] at h
  rcases hg : t.get place with _ | d | _ | _ | _ <;> rw [hg] at h <;> try cases h
  exact ⟨Limits.resolved_ok hres, hb, d, hg⟩

/-- **What is not located** is answered by a refusal. -/
theorem located_error {e : Exn} (h : located l cfg rt t slug path = .error e) :
    ∃ a, AnsweredAs e a ∧ 400 ≤ a.status := by
  rcases hres : l.resolved cfg rt t slug path with e' | place
  · rw [located_unresolved hres] at h
    obtain rfl := Except.error.inj h
    rcases resolved_error hres with ⟨why, rfl⟩ | rfl
    · exact ⟨_, answeredAs_api _, le_rfl⟩
    · exact ⟨_, answeredAs_barred, (by decide : 400 ≤ 500)⟩
  rcases hb : l.barred place with _ | _
  · rw [located_open hres hb] at h
    rcases hk : kindAt t place with _ | _ | _ | _ <;> rw [hk] at h <;> try cases h
    · exact ⟨_, answeredAs_api _, (by decide : 400 ≤ 404)⟩
    · exact ⟨_, answeredAs_api _, (by decide : 400 ≤ 409)⟩
    · exact ⟨_, answeredAs_api _, le_rfl⟩
  · rw [located_barred hres hb] at h
    cases h
    exact ⟨_, answeredAs_barred, (by decide : 400 ≤ 500)⟩

/-! ### The routes -/

/-- The refusal of a site that is not there. -/
def noSite (rt : Runtime) (slug : Str) : ApiError := ⟨404, .not_found, lit "no site " ++ rt.repr slug⟩

section
variable (hslug : validate_slug rt slug = .ok slug)
include hslug

theorem run_site_missing (hr : w.db.sites[slug]? = none) :
    run (exec i) (Routes._site rt slug) w = (.error (.api (noSite rt slug)), w) := by
  rw [Routes._site, hslug]
  refine (run_bind_of_ok _ (run_site_by_slug slug)).trans ?_
  rw [hr]
  rfl

theorem run_site_found {r : SiteRec} (hr : w.db.sites[slug]? = some r) :
    run (exec i) (Routes._site rt slug) w = (.ok (Db._site slug r), w) := by
  rw [Routes._site, hslug]
  refine (run_bind_of_ok _ (run_site_by_slug slug)).trans ?_
  rw [hr]
  rfl

omit hslug in
theorem run_valid_path {h : (c : Calls.Call) → Act Exn World (Calls.Resp c)} {raw : Str}
    {allow_root : Bool} (hpath : validate_site_path rt raw allow_root = .ok path) :
    run h (Routes._valid_path rt raw allow_root) w = (.ok path, w) := by
  rw [Routes._valid_path, hpath]
  rfl

omit hslug in
/-- The look-up of a site is refused nothing. -/
theorem run_site_limits (l : Limits) (rt : Runtime) (slug : Str) (w : World) :
    run (l.exec i) (Routes._site rt slug) w = run (exec i) (Routes._site rt slug) w :=
  run_of_uses (uses_site_at fun _ => rfl) w

/-- The route of a listing is the listing, once its site is found. -/
theorem run_route_list_files (cfg : Config) {r : SiteRec} (hr : w.db.sites[slug]? = some r)
    (hpath : validate_site_path rt folder true = .ok folder) {o : Except Exn FileListing} {w' : World}
    (h : run (l.exec i) (list_folder cfg rt slug folder) w = (o, w')) :
    run (l.exec i) (Routes.list_files cfg rt slug folder) w =
      (o.map fun listing => ⟨200, .listing listing⟩, w') := by
  rw [Routes.list_files]
  refine (run_bind_of_ok _ ((run_site_limits ..).trans (run_site_found hslug hr))).trans ?_
  refine (run_bind_of_ok _ (run_valid_path hpath)).trans ?_
  rcases o with e | listing
  · exact run_bind_of_error _ h
  · exact run_bind_of_ok _ h

end

/-- **What a download comes to**, of a site that is there or not. -/
def downloaded (l : Limits) (cfg : Config) (rt : Runtime) (there : Bool) (t : Files Str)
    (slug path : Str) : Except Exn Response :=
  if there then do
    let target ← located l cfg rt t slug path
    let content ← (Disk.read target t).1.mapError .os
    .ok ⟨200, .content content (Routes.mediaType rt path) (_attachment (path_name path))⟩
  else .error (.api (noSite rt slug))

theorem downloaded_found {d : FileData} (h : located l cfg rt t slug path = .ok target)
    (hd : t.get target = some (.file d)) : downloaded l cfg rt true t slug path =
      .ok ⟨200, .content d.content (Routes.mediaType rt path) (_attachment (path_name path))⟩ := by
  rw [downloaded, if_pos rfl, h]
  change (((Disk.read target t).1.mapError Exn.os).bind _) = _
  rw [read_of_file hd]
  rfl

/-- **A download answers the bytes of the file**, or a refusal. -/
theorem downloaded_cases (l : Limits) (cfg : Config) (rt : Runtime) (there : Bool) (t : Files Str)
    (slug path : Str) :
    (∃ e a, AnsweredAs e a ∧ 400 ≤ a.status ∧ downloaded l cfg rt there t slug path = .error e) ∨
    ∃ target d, there = true ∧ located l cfg rt t slug path = .ok target ∧
      t.get target = some (.file d) ∧ downloaded l cfg rt there t slug path = .ok ⟨200,
        .content d.content (Routes.mediaType rt path) (_attachment (path_name path))⟩ := by
  cases there with
  | false => exact Or.inl ⟨_, _, answeredAs_api _, (by decide : 400 ≤ 404), rfl⟩
  | true =>
    rcases hloc : located l cfg rt t slug path with e | target
    · obtain ⟨a, he, ha⟩ := located_error hloc
      refine Or.inl ⟨e, a, he, ha, ?_⟩
      rw [downloaded, if_pos rfl, hloc]
      rfl
    · obtain ⟨-, -, d, hd⟩ := located_file hloc
      exact Or.inr ⟨target, d, rfl, rfl, hd, downloaded_found hloc hd⟩

theorem run_route_download (l : Limits) (cfg : Config) (hslug : validate_slug rt slug = .ok slug)
    (hpath : validate_site_path rt path false = .ok path)
    (hopen : l.sealed (site_dir cfg slug ++ segments path) = false) :
    run (l.exec i) (Routes.download_file cfg rt slug path) w =
      (downloaded l cfg rt (w.db.sites[slug]?).isSome w.disk slug path, w) := by
  rw [Routes.download_file]
  rcases hr : w.db.sites[slug]? with _ | r
  · exact run_bind_of_error _ ((run_site_limits ..).trans (run_site_missing hslug hr))
  refine (run_bind_of_ok _ ((run_site_limits ..).trans (run_site_found hslug hr))).trans ?_
  refine (run_bind_of_ok _ (run_valid_path hpath)).trans ?_
  have hfile : run (l.exec i) (file_path cfg rt slug path) w =
    (located l cfg rt w.disk slug path, w) := run_file_path
  rcases hloc : located l cfg rt w.disk slug path with e | target <;> rw [hloc] at hfile
  · refine (run_bind_of_error _ hfile).trans ?_
    rw [downloaded, Option.isSome_some, if_pos rfl, hloc]
    rfl
  · obtain ⟨rfl, hb, d, hd⟩ := located_file hloc
    have hread : run (l.exec i) (disk (.read _)) w = (.ok d.content, w) :=
      (run_disk_let ((refused_read l _).trans (by rw [hb, hopen]; rfl))).trans
        (run_disk_ok rfl fun _ => read_of_file hd)
    rw [Option.isSome_some, downloaded_found hloc hd]
    exact (run_bind_of_ok _ hfile).trans ((run_bind_of_ok _ hread).trans rfl)

end PaperBoxing.Backend.Shown
