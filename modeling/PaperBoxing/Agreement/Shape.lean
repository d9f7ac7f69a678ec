import PaperBoxing.Backend.Alone
import PaperBoxing.Common.FakeBackend

/-! # One site, twice

The backend keeps a site as a folder on the disk and an index of its files, the fake as a dictionary
of files and one of folders under their full paths. `Shape` says that the two are the same site:
below the site's folder there are files and folders with valid names only, the dictionaries have them
under the joins of their names, and the index has one row for each file.

* `rows_size`, `rows_total`: the counts and sums over the index are those over the dictionary;
* `put_file`, `drop_file`, `drop_folder`: the changes a site goes through. -/

namespace PaperBoxing.Agreement.Shape

open PaperBoxing.Lib PaperBoxing.Lib.Text PaperBoxing.Lib.IsoTime PaperBoxing.Lib.Tables
open PaperBoxing.Lib.Trees PaperBoxing.Lib.Disk PaperBoxing.Common.Schema PaperBoxing.Common.Naming
open PaperBoxing.Common.FakeBackend PaperBoxing.Backend.Db

/-- The names of a path are valid segments. -/
def Valid (segs : List Str) : Prop := ∀ s ∈ segs, Segment s

/-- A full path in a site: the join of one or more valid segments. -/
def Named (p : Str) : Prop := ∃ segs, Valid segs ∧ segs ≠ [] ∧ p = join segs

/-- The bytes of an entry that is a file. -/
def contentAt : Option (Node Str FileData) → Option Bytes
  | some (.file d) => some d.content
  | _ => none

/-- The index row of an entry that is a file. -/
def rowAt (rt : Runtime) : Option (Node Str FileData) → Option FileRec
  | some (.file d) => some ⟨d.content.length, d.mtime, rt.sha256 d.content⟩
  | _ => none

theorem rowAt_bytes (rt : Runtime) (n : Option (Node Str FileData)) (f : ℕ → ℕ) :
    (rowAt rt n).map (fun r => f r.bytes) = (contentAt n).map fun b => f b.length := by
  rcases n with _ | _ | _ | _ | _ <;> rfl

/-- **The folder at `root` with its index is the fake's site.** -/
structure Same (rt : Runtime) (t : Files Str) (root : Path Str) (fs : FakeSite) (idx : Index) :
    Prop where
  folder : t.get root = some .folder
  plain : ∀ segs n, t.get (root ++ segs) = some n → n = .folder ∨ ∃ d, n = .file d
  valid : ∀ segs, t.get (root ++ segs) ≠ none → Valid segs
  files : ∀ segs, Valid segs →
    (fs.files[join segs]?).map FakeFile.content = contentAt (t.get (root ++ segs))
  folders : ∀ segs, Valid segs → segs ≠ [] →
    (fs.folders[join segs]?).isSome = isFolder (t.get (root ++ segs))
  file_names : ∀ p, fs.files[p]? ≠ none → Named p
  folder_names : ∀ p, fs.folders[p]? ≠ none → Named p
  rows : ∀ segs, Valid segs → idx[join segs]? = rowAt rt (t.get (root ++ segs))
  row_names : ∀ p, idx[p]? ≠ none → Named p

variable {rt : Runtime} {t t' : Files Str} {root : Path Str} {fs : FakeSite} {idx : Index}

theorem Valid.nil : Valid [] := fun s hs => by cases hs

theorem Valid.append {a b : List Str} (ha : Valid a) (hb : Valid b) : Valid (a ++ b) := by
  intro s hs
  exact (List.mem_append.1 hs).elim (ha s) (hb s)

theorem Valid.left {a b : List Str} (h : Valid (a ++ b)) : Valid a :=
  fun s hs => h s (List.mem_append_left b hs)

theorem Valid.right {a b : List Str} (h : Valid (a ++ b)) : Valid b :=
  fun s hs => h s (List.mem_append_right a hs)

theorem Valid.of_prefix {a b : List Str} (h : Valid b) (hab : a <+: b) : Valid a := by
  obtain ⟨r, rfl⟩ := hab
  exact h.left

/-- The same site is seen wherever the tree below the root looks the same. -/
theorem Same.congr (h : Same rt t root fs idx) (ht : t.under root = t'.under root) :
    Same rt t' root fs idx := by
  have hg : ∀ segs, t'.get (root ++ segs) = t.get (root ++ segs) :=
    fun segs => (congrFun ht segs).symm
  have hroot : t'.get root = some .folder := by
    have := hg []
    rw [List.append_nil] at this
    rw [this, h.folder]
  constructor
  · exact hroot
  · simpa only [hg] using h.plain
  · simpa only [hg] using h.valid
  · simpa only [hg] using h.files
  · simpa only [hg] using h.folders
  · exact h.file_names
  · exact h.folder_names
  · simpa only [hg] using h.rows
  · exact h.row_names

/-- A file of the dictionary is a file of the tree. -/
theorem Same.get_of_file (h : Same rt t root fs idx) {segs : List Str} (hv : Valid segs)
    {f : FakeFile} (hf : fs.files[join segs]? = some f) :
    ∃ d, t.get (root ++ segs) = some (.file d) ∧ d.content = f.content := by
  have := h.files segs hv
  rw [hf] at this
  rcases hg : t.get (root ++ segs) with _ | _ | _ | _ | _ <;> rw [hg] at this
  · cases this
  · exact ⟨_, rfl, (Option.some.inj this).symm⟩
  · cases this
  · cases this
  · cases this

theorem Same.file_of_get (h : Same rt t root fs idx) {segs : List Str} {d : FileData}
    (hg : t.get (root ++ segs) = some (.file d)) :
    ∃ f, fs.files[join segs]? = some f ∧ f.content = d.content := by
  have := h.files segs (h.valid segs (by rw [hg]; simp))
  rw [hg] at this
  obtain ⟨f, hf, hc⟩ := Option.map_eq_some_iff.1 this
  exact ⟨f, hf, hc⟩

/-- **What is at a path**, in the tree and in the dictionaries. -/
theorem Same.cases (h : Same rt t root fs idx) {segs : List Str} (hv : Valid segs)
    (hne : segs ≠ []) :
    (t.get (root ++ segs) = none ∧ fs.files[join segs]? = none ∧ fs.folders[join segs]? = none) ∨
    (t.get (root ++ segs) = some .folder ∧ fs.files[join segs]? = none ∧
      ∃ at_, fs.folders[join segs]? = some at_) ∨
    (∃ d f, t.get (root ++ segs) = some (.file d) ∧ fs.files[join segs]? = some f ∧
      f.content = d.content ∧ fs.folders[join segs]? = none) := by
  have h1 := h.files segs hv
  have h2 := h.folders segs hv hne
  rcases hg : t.get (root ++ segs) with _ | n
  · rw [hg] at h1 h2
    left
    exact ⟨rfl, Option.map_eq_none_iff.1 h1,
      Option.isNone_iff_eq_none.1 (Option.isSome_eq_false_iff.1 h2)⟩
  · rcases h.plain segs n hg with rfl | ⟨d, rfl⟩
    · rw [hg] at h1 h2
      exact Or.inr (Or.inl ⟨rfl, Option.map_eq_none_iff.1 h1, Option.isSome_iff_exists.1 h2⟩)
    · obtain ⟨f, hf, hc⟩ := h.file_of_get hg
      rw [hg] at h2
      exact Or.inr (Or.inr ⟨d, f, rfl, hf, hc,
        Option.isNone_iff_eq_none.1 (Option.isSome_eq_false_iff.1 h2)⟩)

/-! ### Below a folder -/

/-- **The test of the dictionaries' prefix** on the paths of a site. -/
theorem prefixOf_iff {segs q : List Str} (hs : Valid segs) (hq : Valid q) (hne : q ≠ []) :
    (prefixOf (join segs)).isPrefixOf (join q) = true ↔ ∃ r, r ≠ [] ∧ q = segs ++ r := by
  rw [List.isPrefixOf_iff_prefix, prefixOf]
  rcases eq_or_ne segs [] with rfl | hs0
  · rw [join_nil, if_pos rfl]
    exact iff_of_true (List.nil_prefix ..) ⟨q, hne, rfl⟩
  · rw [if_neg (join_ne_nil hs hs0)]
    exact join_slash_prefix hs hq hs0

/-- The test of the index's rows is the same one. -/
theorem below_eq (folder path : Str) : _below folder path = (prefixOf folder).isPrefixOf path := by
  rw [Bool.eq_iff_iff, List.isPrefixOf_iff_prefix, _below, prefixOf]
  split_ifs with h
  · simp
  · rw [beq_iff_eq, List.prefix_iff_eq_take, eq_comm]
    rw [show (folder ++ lit "/").length = folder.length + 1 by simp [lit]]
    rfl

/-- **A measure of the rows below a folder** sums to the same measure of the files there. -/
theorem Same.total_below (h : Same rt t root fs idx) {f : ℕ → ℕ} (folder : Str) :
    total (fun _ r => f r.bytes) (idx.filter fun path _ => _below folder path) =
      total (fun _ x => f x.content.length) (fs.filesBelow folder) := by
  refine total_congr fun p => ?_
  rw [FakeSite.filesBelow, get_filter_key, get_filter_key, below_eq]
  have hp : (idx[p]?).map (fun r => f r.bytes) =
      (fs.files[p]?).map fun x => f x.content.length := by
    by_cases hn : Named p
    · obtain ⟨segs, hv, -, rfl⟩ := hn
      have hc := congrArg (Option.map fun b => f b.length) (h.files segs hv)
      rw [Option.map_map, ← rowAt_bytes rt] at hc
      rw [h.rows segs hv]
      exact hc.symm
    · rw [not_ne_iff.1 fun hc => hn (h.row_names p hc),
        not_ne_iff.1 fun hc => hn (h.file_names p hc)]
      rfl
  split_ifs
  · exact hp
  · rfl

/-! ### A file is put -/

/-- **The folders after `add_folders_for`**: those there were, and every parent of the path. -/
theorem addFolders_iff (now : Instant) {pre : List Str} (hv : Valid pre) {fuel : ℕ}
    (hfuel : pre.length ≤ fuel) (folders : Table Str Instant)
    (hup : ∀ q, q <+: pre → folders[join q]? ≠ none → ∀ q', q' <+: q → q' ≠ [] →
      folders[join q']? ≠ none) (a : Str) :
    (addFolders now fuel (join pre) folders)[a]? ≠ none ↔
      folders[a]? ≠ none ∨ ∃ q, q <+: pre ∧ q ≠ [] ∧ a = join q := by
  induction pre using List.reverseRecOn generalizing fuel folders with
  | nil =>
    have : addFolders now fuel (join []) folders = folders := by
      cases fuel with
      | zero => rfl
      | succ fuel => rw [addFolders, if_neg (by simp)]
    rw [this]
    refine ⟨Or.inl, ?_⟩
    rintro (h | ⟨q, hq, hne, -⟩)
    · exact h
    · exact absurd (List.prefix_nil.1 hq) hne
  | append_singleton pre s ih =>
    rcases fuel with _ | fuel
    · simp at hfuel
    have hne : join (pre ++ [s]) ≠ [] := join_ne_nil hv (by simp)
    have hpre : ∀ q, q <+: pre ++ [s] ↔ q = pre ++ [s] ∨ q <+: pre := fun q =>
      List.prefix_concat_iff
    rw [addFolders]
    by_cases hf : folders[join (pre ++ [s])]? = none
    · rw [if_pos ⟨hne, hf⟩, path_parent_join (hv s (by simp))]
      -- the folder that was just made is none of those above it
      have hother : ∀ q, q <+: pre → join q ≠ join (pre ++ [s]) := by
        intro q hq he
        have hlen := hq.length_le
        rw [join_injective (hv.left.of_prefix hq) hv he, List.length_append, List.length_singleton]
          at hlen
        omega
      rw [ih hv.left (by simpa using hfuel) _ ?_, get_insert]
      · simp only [hpre]
        constructor
        · rintro (h | ⟨q, hq, hq0, rfl⟩)
          · split_ifs at h with ha
            · exact Or.inr ⟨_, Or.inl rfl, by simp, ha⟩
            · exact Or.inl h
          · exact Or.inr ⟨q, Or.inr hq, hq0, rfl⟩
        · rintro (h | ⟨q, rfl | hq, hq0, rfl⟩)
          · left
            split_ifs
            · simp
            · exact h
          · left
            rw [if_pos rfl]
            simp
          · exact Or.inr ⟨q, hq, hq0, rfl⟩
      · intro q hq hin q' hq' hne'
        rw [get_insert, if_neg (hother q hq)] at hin
        rw [get_insert, if_neg (hother q' (hq'.trans hq))]
        exact hup q ((hpre q).2 (Or.inr hq)) hin q' hq' hne'
    · rw [if_neg fun h => hf h.2]
      refine ⟨Or.inl, ?_⟩
      rintro (h | ⟨q, hq, hq0, rfl⟩)
      · exact h
      · exact hup _ List.prefix_rfl hf q hq hq0

/-- A folder of the dictionary has its parents there. -/
theorem Same.folders_up (h : Same rt t root fs idx) {q q' : List Str} (hv : Valid q)
    (hq : fs.folders[join q]? ≠ none) (hq' : q' <+: q) (hne : q' ≠ []) :
    fs.folders[join q']? ≠ none := by
  have hv' : Valid q' := hv.of_prefix hq'
  have hqne : q ≠ [] := by
    rintro rfl
    exact hne (List.prefix_nil.1 hq')
  have hg : t.get (root ++ q') = some .folder := by
    obtain ⟨r, rfl⟩ := hq'
    rcases h.cases hv hqne with ⟨-, -, hn⟩ | ⟨hg, -⟩ | ⟨-, -, -, -, -, hn⟩
    · exact absurd hn hq
    · rcases eq_or_ne r [] with rfl | hr
      · rwa [List.append_nil] at hg
      · exact Tree.get_ancestor (q := r) (by rw [List.append_assoc, hg]; simp) hr
    · exact absurd hn hq
  have := h.folders q' hv' hne
  rw [isFolder_iff.2 hg] at this
  exact Option.isSome_iff_ne_none.1 this

/-- **A file is put** at a path whose parents are folders or missing: they are folders then. -/
theorem Same.put_file (h : Same rt t root fs idx) {segs : List Str} (hv : Valid segs)
    (hne : segs ≠ []) {d : FileData} (now : Instant)
    (hpar : ∀ q, q <+: segs.dropLast → t.get (root ++ q) = none ∨ t.get (root ++ q) = some .folder)
    (htgt : t.get (root ++ segs) ≠ some .folder)
    (hget : ∀ q, t'.get (root ++ q) = if q = segs then some (.file d)
      else if q <+: segs.dropLast then some .folder else t.get (root ++ q)) :
    Same rt t' root
      { fs.add_folders_for (join segs) now with
        files := fs.files.insert (join segs) ⟨d.content, now⟩ }
      (idx.insert (join segs) ⟨d.content.length, d.mtime, rt.sha256 d.content⟩) := by
  obtain ⟨pre, s, rfl⟩ : ∃ pre s, segs = pre ++ [s] :=
    ⟨_, _, (List.dropLast_append_getLast hne).symm⟩
  rw [List.dropLast_concat] at hpar hget
  have hself : ∀ q, q <+: pre → q ≠ pre ++ [s] := by
    rintro q hq rfl
    have := hq.length_le
    rw [List.length_append, List.length_singleton] at this
    omega
  have hinj : ∀ q, Valid q → (join q = join (pre ++ [s]) ↔ q = pre ++ [s]) := fun q hq =>
    ⟨fun he => join_injective hq hv he, fun he => by rw [he]⟩
  have hnofile : ∀ q, q <+: pre → fs.files[join q]? = none ∧ idx[join q]? = none := by
    intro q hq
    have hvq : Valid q := hv.left.of_prefix hq
    have h1 := h.files q hvq
    rw [h.rows q hvq]
    rcases hpar q hq with hn | hn <;> rw [hn] at h1 ⊢ <;>
      exact ⟨Option.map_eq_none_iff.1 h1, rfl⟩
  have hfolders : ∀ a, (addFolders now (join (pre ++ [s])).length (path_parent (join (pre ++ [s])))
      fs.folders)[a]? ≠ none ↔ fs.folders[a]? ≠ none ∨ ∃ q, q <+: pre ∧ q ≠ [] ∧ a = join q := by
    intro a
    rw [path_parent_join (hv s (by simp))]
    refine addFolders_iff now hv.left ?_ _ ?_ a
    · refine le_trans ?_ (length_le_join hv)
      simp
    · exact fun q hq hin q' hq' hne' => h.folders_up (hv.left.of_prefix hq) hin hq' hne'
  constructor
  · have := hget []
    rwa [List.append_nil, if_neg (by simp), if_pos (List.nil_prefix ..)] at this
  · intro q n hn
    rw [hget] at hn
    split_ifs at hn
    · exact Or.inr ⟨d, (Option.some.inj hn).symm⟩
    · exact Or.inl (Option.some.inj hn).symm
    · exact h.plain q n hn
  · intro q hq
    rw [hget] at hq
    split_ifs at hq with h1 h2
    · exact h1 ▸ hv
    · exact hv.left.of_prefix h2
    · exact h.valid q hq
  · intro q hq
    rw [hget, get_insert]
    simp only [hinj q hq]
    split_ifs with h1 h2
    · rfl
    · rw [(hnofile q h2).1]
      rfl
    · exact h.files q hq
  · intro q hq hq0
    have hadd : ((fs.add_folders_for (join (pre ++ [s])) now).folders[join q]?).isSome = true ↔
        fs.folders[join q]? ≠ none ∨ q <+: pre := by
      rw [Option.isSome_iff_ne_none]
      refine (hfolders (join q)).trans (or_congr Iff.rfl ⟨?_, fun hp => ⟨q, hp, hq0, rfl⟩⟩)
      rintro ⟨q', hq', -, he⟩
      rwa [join_injective hq (hv.left.of_prefix hq') he]
    rw [Bool.eq_iff_iff]
    refine hadd.trans ?_
    have hold := h.folders q hq hq0
    rw [isFolder_iff, hget]
    split_ifs with h1 h2
    · subst h1
      refine iff_of_false ?_ (by simp)
      rintro (hc | hc)
      · rw [Option.isSome_iff_ne_none.2 hc, eq_comm, isFolder_iff] at hold
        exact htgt hold
      · exact hself _ hc rfl
    · exact iff_of_true (Or.inr h2) rfl
    · rw [← isFolder_iff, ← hold, Option.isSome_iff_ne_none]
      exact or_iff_left h2
  · intro p hp
    rw [get_insert] at hp
    split_ifs at hp with h1
    · exact ⟨_, hv, hne, h1⟩
    · exact h.file_names p hp
  · intro p hp
    rcases (hfolders p).1 hp with hp | ⟨q, hq, hq0, rfl⟩
    · exact h.folder_names p hp
    · exact ⟨q, hv.left.of_prefix hq, hq0, rfl⟩
  · intro q hq
    rw [hget, get_insert]
    simp only [hinj q hq]
    split_ifs with h1 h2
    · rfl
    · rw [(hnofile q h2).2]
      rfl
    · exact h.rows q hq
  · intro p hp
    rw [get_insert] at hp
    split_ifs at hp with h1
    · exact ⟨_, hv, hne, h1⟩
    · exact h.row_names p hp

/-! ### A file or a folder goes -/

/-- **A file goes**, and its parents stay. -/
theorem Same.drop_file (h : Same rt t root fs idx) {segs : List Str} (hv : Valid segs) (hne : segs ≠ [])
    (hfile : t.get (root ++ segs) ≠ some .folder)
    (hget : ∀ q, t'.get (root ++ q) = if q = segs then none else t.get (root ++ q)) :
    Same rt t' root { fs with files := fs.files.erase (join segs) } (idx.erase (join segs)) := by
  have hinj : ∀ q, Valid q → (join q = join segs ↔ q = segs) := fun q hq =>
    ⟨fun he => join_injective hq hv he, fun he => by rw [he]⟩
  constructor
  · have := hget []
    rwa [List.append_nil, if_neg (Ne.symm hne), h.folder] at this
  · intro q n hn
    rw [hget] at hn
    split_ifs at hn
    exact h.plain q n hn
  · intro q hq
    rw [hget] at hq
    split_ifs at hq
    · exact absurd rfl hq
    · exact h.valid q hq
  · intro q hq
    rw [hget, get_erase]
    simp only [hinj q hq]
    split_ifs
    · rfl
    · exact h.files q hq
  · intro q hq hq0
    rw [hget]
    split_ifs with h1
    · subst h1
      rw [h.folders q hq hq0, isFolder_none, ← Bool.not_eq_true, isFolder_iff]
      exact hfile
    · exact h.folders q hq hq0
  · intro p hp
    rw [get_erase] at hp
    split_ifs at hp
    · exact absurd rfl hp
    · exact h.file_names p hp
  · exact h.folder_names
  · intro q hq
    rw [hget, get_erase]
    simp only [hinj q hq]
    split_ifs
    · rfl
    · exact h.rows q hq
  · intro p hp
    rw [get_erase] at hp
    split_ifs at hp
    · exact absurd rfl hp
    · exact h.row_names p hp

/-- **A folder goes**, with everything below it. -/
theorem Same.drop_folder (h : Same rt t root fs idx) {segs : List Str} (hv : Valid segs)
    (hne : segs ≠ []) (hfolder : t.get (root ++ segs) = some .folder)
    (hget : ∀ q, t'.get (root ++ q) = if segs <+: q then none else t.get (root ++ q)) :
    Same rt t' root
      { fs with
        files := fs.files.filter fun p _ => !(prefixOf (join segs)).isPrefixOf p
        folders :=
          (fs.folders.filter fun p _ => !(prefixOf (join segs)).isPrefixOf p).erase (join segs) }
      (idx.filter fun p _ => !_below (join segs) p) := by
  have hpre : ∀ q, Valid q →
      ((prefixOf (join segs)).isPrefixOf (join q) = true ↔ segs <+: q ∧ q ≠ segs) := by
    intro q hq
    rcases eq_or_ne q [] with rfl | hq0
    · rw [join_nil, List.isPrefixOf_iff_prefix, List.prefix_nil, List.prefix_nil, prefixOf,
        if_neg (join_ne_nil hv hne)]
      exact iff_of_false (by simp [lit]) fun hc => hne hc.1
    · rw [prefixOf_iff hv hq hq0]
      constructor
      · rintro ⟨r, hr, rfl⟩
        exact ⟨List.prefix_append _ _, by simpa using hr⟩
      · rintro ⟨⟨r, rfl⟩, hr⟩
        exact ⟨r, by simpa using hr, rfl⟩
  have hkeep : ∀ {A : Type} (q : List Str) (o : Option A), Valid q →
      (if (!(prefixOf (join segs)).isPrefixOf (join q)) = true then o else none) =
        if segs <+: q ∧ q ≠ segs then none else o := by
    intro A q o hq
    by_cases hs : segs <+: q ∧ q ≠ segs
    · rw [if_pos hs, (hpre q hq).2 hs]
      rfl
    · rw [if_neg hs, Bool.eq_false_iff.2 (mt (hpre q hq).1 hs)]
      rfl
  have hinj : ∀ q, Valid q → (join q = join segs ↔ q = segs) := fun q hq =>
    ⟨fun he => join_injective hq hv he, fun he => by rw [he]⟩
  constructor
  · have := hget []
    rwa [List.append_nil, if_neg (by simpa using hne), h.folder] at this
  · intro q n hn
    rw [hget] at hn
    split_ifs at hn
    exact h.plain q n hn
  · intro q hq
    rw [hget] at hq
    split_ifs at hq
    · exact absurd rfl hq
    · exact h.valid q hq
  · intro q hq
    have h1 := h.files q hq
    rw [hget, get_filter_key, hkeep q _ hq]
    by_cases hs : segs <+: q
    · rw [if_pos hs]
      split_ifs with h2
      · rfl
      · obtain rfl : q = segs := not_not.1 fun hc => h2 ⟨hs, hc⟩
        rw [hfolder] at h1
        exact h1
    · rw [if_neg hs, if_neg fun hc => hs hc.1]
      exact h1
  · intro q hq hq0
    rw [hget, get_erase, get_filter_key, hkeep q _ hq]
    simp only [hinj q hq]
    by_cases hs : segs <+: q
    · rw [if_pos hs]
      split_ifs with h1 h2
      · rfl
      · rfl
      · exact absurd ⟨hs, h1⟩ h2
    · have hqs : q ≠ segs := by
        rintro rfl
        exact hs List.prefix_rfl
      rw [if_neg hs, if_neg hqs, if_neg fun hc => hs hc.1]
      exact h.folders q hq hq0
  · intro p hp
    rw [get_filter_key] at hp
    split_ifs at hp
    · exact h.file_names p hp
    · exact absurd rfl hp
  · intro p hp
    rw [get_erase, get_filter_key] at hp
    split_ifs at hp
    · exact absurd rfl hp
    · exact h.folder_names p hp
    · exact absurd rfl hp
  · intro q hq
    have h1 := h.rows q hq
    rw [hget, get_filter_key, below_eq, hkeep q _ hq]
    by_cases hs : segs <+: q
    · rw [if_pos hs]
      split_ifs with h2
      · rfl
      · obtain rfl : q = segs := not_not.1 fun hc => h2 ⟨hs, hc⟩
        rw [hfolder] at h1
        exact h1
    · rw [if_neg hs, if_neg fun hc => hs hc.1]
      exact h1
  · intro p hp
    rw [get_filter_key] at hp
    split_ifs at hp
    · exact h.row_names p hp
    · exact absurd rfl hp

end PaperBoxing.Agreement.Shape
