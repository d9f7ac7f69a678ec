import PaperBoxing.Backend.Alone
import PaperBoxing.Lib.TableSums

/-! # The index, folder by folder

The queries of the file index select rows by offsets into their paths. On canonical paths they are
about the components: `files_in_folder` finds the rows whose parent is the folder, and
`folder_totals` and `delete_files_under` range over those that have the folder as an ancestor. What
is below a folder is what is directly in it and what is below its child folders, so the totals add
up.

* `below_iff`, `inFolder_iff_parent`: the two tests, on components;
* `rowsBelow_eq`: the rows below a folder, split; `folder_queries`: all of it. -/

namespace PaperBoxing.Backend.Index

open PaperBoxing.Lib.Text PaperBoxing.Lib.Tables PaperBoxing.Common.Schema PaperBoxing.Common.Naming
open PaperBoxing.Backend.Db PaperBoxing.Backend.Storage PaperBoxing.Backend.Alone

/-- **The folder is a proper ancestor of the path**, component by component. -/
def IsBelow (folder path : Str) : Prop :=
  segments folder <+: segments path ∧ segments folder ≠ segments path

instance (folder path : Str) : Decidable (IsBelow folder path) := by
  unfold IsBelow; infer_instance

/-! ### The tests of the queries -/

theorem segments_injective {p q : Str} (hp : Canonical p) (hq : Canonical q)
    (h : segments p = segments q) : p = q := by
  rw [← hp.join_segments, ← hq.join_segments, h]

theorem segments_eq_nil {p : Str} : segments p = [] ↔ p = [] := by
  unfold segments
  split_ifs with h
  · simp [h]
  · simp [h, split_ne_nil]

/-- The parent of a canonical path has its components but the last. -/
theorem segments_parent {p : Str} (h : Canonical p) :
    Canonical (path_parent p) ∧ segments (path_parent p) = (segments p).dropLast := by
  obtain ⟨segs, hs, rfl⟩ := h
  rcases List.eq_nil_or_concat segs with rfl | ⟨up, s, rfl⟩
  · exact ⟨⟨[], by simp, rfl⟩, rfl⟩
  · rw [List.concat_eq_append] at hs ⊢
    have hup : ∀ t ∈ up, Segment t := fun t ht => hs t (List.mem_append_left _ ht)
    rw [path_parent_join (hs s (by simp)), segments_join hup, segments_join hs,
      List.dropLast_concat]
    exact ⟨⟨up, hup, rfl⟩, rfl⟩

theorem parent_iff {p folder : Str} (hp : Canonical p) (hf : Canonical folder) :
    path_parent p = folder ↔ (segments p).dropLast = segments folder := by
  obtain ⟨hpar, hsegs⟩ := segments_parent hp
  rw [← hsegs]
  exact ⟨congrArg segments, segments_injective hpar hf⟩

/-- **The test of the rows below a folder.** -/
theorem below_iff {folder p : Str} (hf : Canonical folder) (hp : Canonical p) (hne : p ≠ []) :
    _below folder p = true ↔ IsBelow folder p := by
  obtain ⟨fs, hfs, rfl⟩ := hf
  obtain ⟨ps, hps, rfl⟩ := hp
  rw [IsBelow, segments_join hfs, segments_join hps]
  have hpne : ps ≠ [] := by
    rintro rfl
    exact hne rfl
  rcases eq_or_ne fs [] with rfl | hfne
  · exact iff_of_true rfl ⟨List.nil_prefix, hpne.symm⟩
  · rw [_below, if_neg (join_ne_nil hfs hfne), beq_iff_eq]
    have htake : (join ps).take ((join fs).length + 1) = join fs ++ [slash] ↔
        join fs ++ [slash] <+: join ps := by
      rw [List.prefix_iff_eq_take, List.length_append, List.length_singleton]
      exact eq_comm
    rw [htake, join_slash_prefix hfs hps hfne]
    constructor
    · rintro ⟨r, hr, rfl⟩
      exact ⟨List.prefix_append _ _, by simpa using hr.symm⟩
    · rintro ⟨⟨r, rfl⟩, h⟩
      exact ⟨r, by rintro rfl; simp at h, rfl⟩

/-- **The test of a folder's own files.** -/
theorem inFolder_iff_parent {folder p : Str} (hf : Canonical folder) (hp : Canonical p)
    (hne : p ≠ []) : inFolder folder p = true ↔ path_parent p = folder := by
  obtain ⟨fs, hfs, rfl⟩ := hf
  rw [inFolder_iff]
  constructor
  · rintro ⟨name, hname, rfl⟩
    rw [entryPath_join (plain_of_segments hfs)]
    exact beforeLast_join hname
  · obtain ⟨ps, hps, rfl⟩ := hp
    rcases List.eq_nil_or_concat ps with rfl | ⟨up, s, rfl⟩
    · exact absurd rfl hne
    rw [List.concat_eq_append] at hps ⊢
    intro h
    have hs := hps s (by simp)
    have hup : ∀ t ∈ up, Segment t := fun t ht => hps t (List.mem_append_left _ ht)
    rw [path_parent_join hs] at h
    exact ⟨s, hs.slash, by rw [← h, entryPath_join (plain_of_segments hup)]⟩

/-! ### Below a folder -/

/-- A child folder of a folder. -/
structure IsChild (folder child : Str) : Prop where
  canonical : Canonical child
  ne : child ≠ []
  parent : path_parent child = folder

/-- **What is below a folder** is directly in it or below one of its child folders. -/
theorem isBelow_cases {folder p : Str} (hf : Canonical folder) (hp : Canonical p) :
    IsBelow folder p ↔ (path_parent p = folder ∧ p ≠ []) ∨
      ∃ child, IsChild folder child ∧ IsBelow child p := by
  constructor
  · rintro ⟨⟨r, hr⟩, hne⟩
    rcases r with _ | ⟨s, r⟩
    · rw [List.append_nil] at hr
      exact absurd hr hne
    have hseg : ∀ t ∈ segments folder ++ [s], Segment t := fun t ht =>
      hp.segment (by rw [← hr]; exact List.mem_append.2 ((List.mem_append.1 ht).imp id (by simp_all)))
    rcases eq_or_ne r [] with rfl | hrne
    · left
      rw [parent_iff hp hf, ← hr, List.dropLast_concat, ne_eq, ← segments_eq_nil, ← hr]
      exact ⟨rfl, by simp⟩
    · right
      have hc : Canonical (join (segments folder ++ [s])) := ⟨_, hseg, rfl⟩
      refine ⟨join (segments folder ++ [s]), ⟨hc, join_ne_nil hseg (by simp), ?_⟩, ?_⟩
      · rw [parent_iff hc hf, segments_join hseg, List.dropLast_concat]
      · rw [IsBelow, segments_join hseg, ← hr]
        exact ⟨⟨r, by simp⟩, by simpa using hrne.symm⟩
  · rintro (⟨hpar, hne⟩ | ⟨child, hc, hbelow⟩)
    · rw [parent_iff hp hf] at hpar
      rw [IsBelow, ← hpar]
      refine ⟨List.dropLast_prefix _, fun h => hne (segments_eq_nil.1 ?_)⟩
      have := congrArg List.length h
      rw [List.length_dropLast] at this
      exact List.length_eq_zero_iff.1 (by omega)
    · have hpar := (parent_iff hc.canonical hf).1 hc.parent
      refine ⟨hpar ▸ (List.dropLast_prefix _).trans hbelow.1, fun h => ?_⟩
      have hlen := hbelow.1.length_le
      rw [← h, ← hpar, List.length_dropLast] at hlen
      have : 0 < (segments child).length :=
        List.length_pos_iff.2 fun h0 => hc.ne (segments_eq_nil.1 h0)
      omega

/-- What is directly in a folder is below none of its children. -/
theorem not_below_child {folder child p : Str} (hf : Canonical folder) (hp : Canonical p)
    (hc : IsChild folder child) (hpar : path_parent p = folder) : ¬ IsBelow child p := by
  rintro ⟨hpre, hne⟩
  have h1 := (parent_iff hp hf).1 hpar
  have h2 := (parent_iff hc.canonical hf).1 hc.parent
  refine hne (hpre.eq_of_length_le ?_)
  have := congrArg List.length (h1.trans h2.symm)
  rw [List.length_dropLast, List.length_dropLast] at this
  have : 0 < (segments child).length := List.length_pos_iff.2 fun h0 => hc.ne (segments_eq_nil.1 h0)
  omega

/-- Nothing is below two children of one folder. -/
theorem child_unique {folder a b p : Str} (hf : Canonical folder) (ha : IsChild folder a)
    (hb : IsChild folder b) (hpa : IsBelow a p) (hpb : IsBelow b p) : a = b := by
  have h1 := (parent_iff ha.canonical hf).1 ha.parent
  have h2 := (parent_iff hb.canonical hf).1 hb.parent
  have hlen := congrArg List.length (h1.trans h2.symm)
  rw [List.length_dropLast, List.length_dropLast] at hlen
  have hpos : ∀ {c : Str}, c ≠ [] → 0 < (segments c).length := fun hc =>
    List.length_pos_iff.2 fun h0 => hc (segments_eq_nil.1 h0)
  have := hpos ha.ne
  have := hpos hb.ne
  have hab : segments a = segments b :=
    (List.prefix_of_prefix_length_le hpa.1 hpb.1 (by omega)).eq_of_length_le (by omega)
  exact segments_injective ha.canonical hb.canonical hab

/-! ### The rows of a folder -/

/-- The rows with the folder as a proper ancestor. -/
def rowsBelow (idx : Index) (folder : Str) : Finset (Str × FileRec) :=
  (rows idx).filter fun r => IsBelow folder r.1

/-- The rows directly in the folder. -/
def rowsIn (idx : Index) (folder : Str) : Finset (Str × FileRec) :=
  (rows idx).filter fun r => path_parent r.1 = folder

/-- The paths of the index are canonical, and none is the root. -/
def PathsCanonical (idx : Index) : Prop :=
  ∀ (p : Str) (rec : FileRec), idx[p]? = some rec → Canonical p ∧ p ≠ []

/-- **The child folders of a folder**, at least those with a row below them. -/
structure Children (idx : Index) (folder : Str) (children : Finset Str) : Prop where
  child : ∀ c ∈ children, IsChild folder c
  covers : ∀ c, IsChild folder c → (rowsBelow idx c).Nonempty → c ∈ children

section
variable {idx : Index} {folder : Str}

theorem filter_below (hidx : PathsCanonical idx) (hf : Canonical folder) :
    rows (idx.filter fun path _ => _below folder path) = rowsBelow idx folder := by
  rw [rows_filter]
  refine Finset.filter_congr fun r hr => ?_
  obtain ⟨hp, hne⟩ := hidx r.1 r.2 (mem_rows.1 hr)
  exact below_iff hf hp hne

/-- **The rows below a folder**: those in it, and those below each child. -/
theorem rowsBelow_eq (hidx : PathsCanonical idx) (hf : Canonical folder) {children : Finset Str}
    (hc : Children idx folder children) :
    rowsBelow idx folder = rowsIn idx folder ∪ children.biUnion (rowsBelow idx) := by
  ext r
  simp only [rowsBelow, rowsIn, Finset.mem_union, Finset.mem_biUnion, Finset.mem_filter, mem_rows]
  constructor
  · rintro ⟨hr, hbelow⟩
    rcases (isBelow_cases hf (hidx _ _ hr).1).1 hbelow with ⟨hpar, -⟩ | ⟨c, hchild, hb⟩
    · exact Or.inl ⟨hr, hpar⟩
    · refine Or.inr ⟨c, hc.covers c hchild ⟨r, ?_⟩, hr, hb⟩
      exact Finset.mem_filter.2 ⟨mem_rows.2 hr, hb⟩
  · rintro (⟨hr, hpar⟩ | ⟨c, hm, hr, hb⟩)
    · exact ⟨hr, (isBelow_cases hf (hidx _ _ hr).1).2 (Or.inl ⟨hpar, (hidx _ _ hr).2⟩)⟩
    · exact ⟨hr, (isBelow_cases hf (hidx _ _ hr).1).2 (Or.inr ⟨c, hc.child c hm, hb⟩)⟩

theorem rowsIn_disjoint (hidx : PathsCanonical idx) (hf : Canonical folder) {children : Finset Str}
    (hc : Children idx folder children) :
    Disjoint (rowsIn idx folder) (children.biUnion (rowsBelow idx)) := by
  rw [Finset.disjoint_biUnion_right]
  intro c hm
  rw [Finset.disjoint_left]
  intro r hr hb
  obtain ⟨hr, hpar⟩ := Finset.mem_filter.1 hr
  exact not_below_child hf (hidx _ _ (mem_rows.1 hr)).1 (hc.child c hm) hpar (Finset.mem_filter.1 hb).2

theorem rowsBelow_disjoint (hf : Canonical folder) {children : Finset Str}
    (hc : Children idx folder children) :
    (children : Set Str).PairwiseDisjoint (rowsBelow idx) := by
  intro a ha b hb hab
  refine Finset.disjoint_left.2 fun r hra hrb => hab ?_
  exact child_unique hf (hc.child a ha) (hc.child b hb) (Finset.mem_filter.1 hra).2
    (Finset.mem_filter.1 hrb).2

/-- **A measure adds up** over the files of a folder and its child folders. -/
theorem sum_rowsBelow (hidx : PathsCanonical idx) (hf : Canonical folder) {children : Finset Str}
    (hc : Children idx folder children) (f : Str × FileRec → ℕ) :
    ∑ r ∈ rowsBelow idx folder, f r =
      ∑ r ∈ rowsIn idx folder, f r + ∑ c ∈ children, ∑ r ∈ rowsBelow idx c, f r := by
  rw [rowsBelow_eq hidx hf hc, Finset.sum_union (rowsIn_disjoint hidx hf hc),
    Finset.sum_biUnion (rowsBelow_disjoint hf hc)]

/-- The newest time of a set of rows; `⊥` when there is none. -/
def newest (s : Finset (Str × FileRec)) : WithBot ℕ := s.sup fun r => (r.2.mtime_ns : WithBot ℕ)

/-- What `folder_totals` answers. -/
def totals (d : Database) (site folder : Str) : Totals :=
  match (folder_totals site folder d).1 with
  | .ok t => t
  | .error _ => ⟨0, 0, none⟩

theorem totals_eq {d : Database} {site : Str} (hidx : PathsCanonical (d.files site))
    (hf : Canonical folder) :
    (totals d site folder).file_count = (rowsBelow (d.files site) folder).card ∧
      (totals d site folder).bytes = ∑ r ∈ rowsBelow (d.files site) folder, r.2.bytes ∧
      ((totals d site folder).newest_mtime_ns : WithBot ℕ) =
        newest (rowsBelow (d.files site) folder) := by
  rw [newest, ← filter_below hidx hf]
  exact ⟨size_eq_card _, total_eq_sum_rows (fun _ (r : FileRec) => r.bytes) _, newest_eq_sup _ _⟩

/-- The rows `files_in_folder` finds. -/
theorem mem_found {d : Database} {site : Str} (hidx : PathsCanonical (d.files site))
    (hf : Canonical folder) (row : FileRow) :
    row ∈ folderRows (d.files site) site folder ↔
      ∃ r ∈ rowsIn (d.files site) folder, row = _file site r.1 r.2 := by
  simp only [folderRows, List.mem_map, Prod.exists, mem_toList, get_filter_key, rowsIn,
    Finset.mem_filter, mem_rows, Option.ite_none_right_eq_some]
  refine exists_congr fun p => exists_congr fun rec => ?_
  constructor
  · rintro ⟨⟨hin, hrec⟩, rfl⟩
    obtain ⟨hp, hne⟩ := hidx p rec hrec
    exact ⟨⟨hrec, (inFolder_iff_parent hf hp hne).1 hin⟩, rfl⟩
  · rintro ⟨⟨hrec, hpar⟩, rfl⟩
    obtain ⟨hp, hne⟩ := hidx p rec hrec
    exact ⟨⟨(inFolder_iff_parent hf hp hne).2 hpar, hrec⟩, rfl⟩

theorem found_nodup (idx : Index) (site folder : Str) : (folderRows idx site folder).Nodup := by
  refine List.Nodup.map ?_ (toList_nodup _)
  rintro ⟨p, rec⟩ ⟨p', rec'⟩ h
  obtain ⟨_, _, _⟩ := rec
  obtain ⟨_, _, _⟩ := rec'
  simp only [_file, FileRow.mk.injEq] at h
  obtain ⟨-, rfl, rfl, rfl, rfl⟩ := h
  rfl

/-- What a deletion below a folder leaves. -/
theorem kept_rows (hidx : PathsCanonical idx) (hf : Canonical folder) :
    rows (idx.filter fun path _ => !_below folder path) = rows idx \ rowsBelow idx folder := by
  rw [← filter_below hidx hf, rows_filter, rows_filter, ← Finset.filter_not]
  refine Finset.filter_congr fun r _ => ?_
  rw [Bool.not_eq_true', Bool.not_eq_true]

end

/-- **The index by folder**: `files_in_folder` finds the rows directly in the folder, each once;
`folder_totals` and `delete_files_under` range over the rows below it, and the deletion leaves every
other row as it is; and a folder's totals are those of its files and of its child folders. -/
theorem folder_queries (d : Database) (site folder : Str) (hidx : PathsCanonical (d.files site))
    (hf : Canonical folder) :
    (∃ found, files_in_folder site folder d = (.ok found, d) ∧ found.Nodup ∧
      ∀ row, row ∈ found ↔ ∃ r ∈ rowsIn (d.files site) folder, row = _file site r.1 r.2) ∧
    (folder_totals site folder d = (.ok (totals d site folder), d) ∧
      (totals d site folder).file_count = (rowsBelow (d.files site) folder).card ∧
      (totals d site folder).bytes = ∑ r ∈ rowsBelow (d.files site) folder, r.2.bytes ∧
      ((totals d site folder).newest_mtime_ns : WithBot ℕ) =
        newest (rowsBelow (d.files site) folder)) ∧
    (∃ d', delete_files_under site folder d = (.ok (rowsBelow (d.files site) folder).card, d') ∧
      rows (d'.files site) = rows (d.files site) \ rowsBelow (d.files site) folder ∧
      (∀ other, other ≠ site → d'.sites[other]? = d.sites[other]?) ∧
      d'.users = d.users ∧ d'.tokens = d.tokens) ∧
    (∀ children, Children (d.files site) folder children →
      (totals d site folder).file_count =
        (rowsIn (d.files site) folder).card + ∑ c ∈ children, (totals d site c).file_count ∧
      (totals d site folder).bytes =
        ∑ r ∈ rowsIn (d.files site) folder, r.2.bytes + ∑ c ∈ children, (totals d site c).bytes ∧
      ((totals d site folder).newest_mtime_ns : WithBot ℕ) =
        newest (rowsIn (d.files site) folder) ⊔
          children.sup fun c => ((totals d site c).newest_mtime_ns : WithBot ℕ)) ∧
    rowsBelow (d.files site) [] = rows (d.files site) := by
  have hcount := totals_eq hidx hf
  refine ⟨⟨_, rfl, found_nodup _ _ _, mem_found hidx hf⟩, ⟨rfl, hcount⟩, ?_, ?_, ?_⟩
  · refine ⟨_, Prod.ext (congrArg Except.ok ?_) rfl, ?_, fun other hne => ?_,
      users_set_files .., tokens_set_files ..⟩
    · rw [size_eq_card, filter_below hidx hf]
    · refine (congrArg rows ((files_set_files (Lib.Tables.ext fun p => ?_)).trans (if_pos rfl))).trans
        (kept_rows hidx hf)
      rw [get_filter_key, get_empty, ite_self]
    · exact (get_sites_set_files _).trans (if_neg hne)
  · intro children hc
    have hchild := fun c hm => totals_eq hidx (hc.child c hm).canonical
    rw [hcount.1, hcount.2.1, hcount.2.2]
    refine ⟨?_, ?_, ?_⟩
    · rw [Finset.card_eq_sum_ones, sum_rowsBelow hidx hf hc, ← Finset.card_eq_sum_ones]
      congr 1
      exact Finset.sum_congr rfl fun c hm => by rw [(hchild c hm).1, Finset.card_eq_sum_ones]
    · rw [sum_rowsBelow hidx hf hc]
      congr 1
      exact Finset.sum_congr rfl fun c hm => (hchild c hm).2.1.symm
    · rw [newest, rowsBelow_eq hidx hf hc, Finset.sup_union, Finset.sup_biUnion]
      exact congrArg (newest (rowsIn (d.files site) folder) ⊔ ·)
        (Finset.sup_congr rfl fun c hm => (hchild c hm).2.2.symm)
  · refine Finset.filter_true_of_mem fun r hr => ?_
    obtain ⟨hp, hne⟩ := hidx r.1 r.2 (mem_rows.1 hr)
    exact (below_iff ⟨[], by simp, rfl⟩ hp hne).1 rfl

/-- A site with files in a folder, in folders within it and within these, and beside it. -/
def docsDb : Database :=
  let rows := [(lit "docs/a/b", 3, 5), (lit "docs/a/x/y", 4, 9), (lit "docs/z/w/v", 1, 2),
    (lit "docs/c", 2, 7), (lit "docs.txt", 8, 11), (lit "docs2/c", 6, 12)]
  rows.foldl (fun d r => (upsert_file ⟨lit "blog", r.1, r.2.1, r.2.2, lit "old"⟩ d).2)
    (insert_site ⟨lit "blog", lit "Blog", Calls.counting 0 |>.now 0⟩ .empty).2

theorem docsDb_canonical : PathsCanonical (docsDb.files (lit "blog")) := by
  have h : ∀ r ∈ (docsDb.files (lit "blog")).toList,
      validate_site_path plainRuntime r.1 false = .ok r.1 := by decide +kernel
  intro p rec hrec
  obtain ⟨hp, hroot⟩ := validate_site_path_ok (h (p, rec) (mem_toList.2 hrec))
  exact ⟨hp, fun h0 => Bool.false_ne_true (hroot h0)⟩

/-- The folders in the folder. -/
def docsChildren : Finset Str := {lit "docs/a", lit "docs/z"}

theorem docs_children : Children (docsDb.files (lit "blog")) (lit "docs") docsChildren := by
  have hcanonical : ∀ c ∈ docsChildren, validate_site_path plainRuntime c false = .ok c := by
    decide +kernel
  have hparent : ∀ c ∈ docsChildren, c ≠ [] ∧ path_parent c = lit "docs" := by decide +kernel
  have hrows : ∀ r ∈ (docsDb.files (lit "blog")).toList, (segments r.1).take 1 = [lit "docs"] →
      2 < (segments r.1).length → join ((segments r.1).take 2) ∈ docsChildren := by decide +kernel
  have hdocs : segments (lit "docs") = [lit "docs"] := by decide +kernel
  have hcanon : Canonical (lit "docs") :=
    (validate_site_path_ok (by decide +kernel : validate_site_path plainRuntime (lit "docs") false =
      .ok (lit "docs"))).1
  refine ⟨fun c hc => ⟨(validate_site_path_ok (hcanonical c hc)).1, (hparent c hc).1,
    (hparent c hc).2⟩, fun c hc hrow => ?_⟩
  obtain ⟨r, hr⟩ := hrow
  obtain ⟨hmem, hbelow, hne⟩ := Finset.mem_filter.1 hr
  have hup := (parent_iff hc.canonical hcanon).1 hc.parent
  rw [hdocs] at hup
  -- the child has one component more than the folder, and begins the row's path
  have hlen : (segments c).length = 2 := by
    have hdrop := congrArg List.length hup
    rw [List.length_dropLast, List.length_singleton] at hdrop
    omega
  have htake : segments c = (segments r.1).take 2 := by
    rw [← hlen]
    exact List.prefix_iff_eq_take.1 hbelow
  have hlong : 2 < (segments r.1).length := by
    refine lt_of_le_of_ne (hlen ▸ hbelow.length_le) fun h => hne (hbelow.eq_of_length ?_)
    rw [hlen, h]
  have hfirst : (segments r.1).take 1 = [lit "docs"] := by
    rw [← hup, htake, List.dropLast_take hlong]
  have hin := hrows r (mem_toList.2 (mem_rows.1 hmem)) hfirst hlong
  rwa [← htake, hc.canonical.join_segments] at hin

/-- The folder's files are those in it and those of its two folders, and its removal leaves the files
beside it. -/
theorem folder_queries_nested :
    (totals docsDb (lit "blog") (lit "docs")).file_count =
        (rowsIn (docsDb.files (lit "blog")) (lit "docs")).card +
          ∑ c ∈ docsChildren, (totals docsDb (lit "blog") c).file_count ∧
      ∃ d', delete_files_under (lit "blog") (lit "docs") docsDb =
          (.ok (rowsBelow (docsDb.files (lit "blog")) (lit "docs")).card, d') ∧
        rows (d'.files (lit "blog")) = rows (docsDb.files (lit "blog")) \
          rowsBelow (docsDb.files (lit "blog")) (lit "docs") := by
  have hdocs : validate_site_path plainRuntime (lit "docs") false = .ok (lit "docs") := by
    decide +kernel
  obtain ⟨-, -, ⟨d', hdelete, hrows, -⟩, hchildren, -⟩ := folder_queries docsDb (lit "blog")
    (lit "docs") docsDb_canonical (validate_site_path_ok hdocs).1
  exact ⟨(hchildren docsChildren docs_children).1, d', hdelete, hrows⟩

end PaperBoxing.Backend.Index
