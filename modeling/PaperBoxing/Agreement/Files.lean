import PaperBoxing.Agreement.Relation

/-! # Downloads and removals

The routes that serve a file, delete a file and delete a folder answer alike. -/

namespace PaperBoxing.Agreement.Files

open PaperBoxing.Lib PaperBoxing.Lib.Action PaperBoxing.Lib.Program PaperBoxing.Lib.Text
open PaperBoxing.Lib.IsoTime PaperBoxing.Lib.Tables PaperBoxing.Lib.Trees PaperBoxing.Lib.Disk
open PaperBoxing.Common PaperBoxing.Common.Schema PaperBoxing.Common.Naming
open PaperBoxing.Common.FakeBackend (FakeSite FakeState Fake Draw)
open PaperBoxing.Backend PaperBoxing.Backend.Db PaperBoxing.Backend.Calls PaperBoxing.Backend.Storage
open PaperBoxing.Backend.Alone PaperBoxing.Backend.Routes PaperBoxing.Agreement.Shape
open PaperBoxing.Agreement.Relation

variable {cfg : Config} {rt : Runtime} {i : ℕ} {w w' : World} {s s' : FakeState}

theorem download_file_step (h : Agree cfg rt w s) (slug path : Str) :
    Step cfg rt i (Routes.download_file cfg rt slug path) (FakeBackend.download_file rt slug path)
      w s := by
  rw [Routes.download_file, FakeBackend.download_file]
  refine Step.site h fun r fs hr hs _ _ _ hsame => Step.path h fun segs hv hroot => ?_
  have hne : segs ≠ [] := fun h0 => absurd (hroot h0) (by simp)
  have hres := (run_resolve (i := i) (w := w) cfg rt slug (join segs)).trans
    (by rw [resolved_same hsame hv])
  rcases hsame.cases hv hne with ⟨hg, hf, hd⟩ | ⟨hg, hf, at_, hd⟩ | ⟨d, f, hg, hf, hc, hd⟩
  · refine Step.refused (e := ?_) h (run_bind_of_error _ ?_) ?fake
    case fake =>
      rw [hd, hf]
      rfl
    rw [Storage.file_path]
    refine (run_bind_of_ok _ hres).trans ((run_bind_of_ok _ (run_kind_none hg)).trans ?_)
    rfl
  · refine Step.refused (e := ?_) h (run_bind_of_error _ ?_) ?fake
    case fake =>
      rw [hd]
      rfl
    rw [Storage.file_path]
    refine (run_bind_of_ok _ hres).trans ((run_bind_of_ok _ (run_kind_folder hg)).trans ?_)
    rfl
  · refine Step.answered ⟨200, .content d.content (mediaType rt (join segs))
      (_attachment (path_name (join segs)))⟩ _ w s ?_ (by rw [hd, hf]; rfl) ?_ h
    · have hpath : run (exec i) (Storage.file_path cfg rt slug (join segs)) w =
          (.ok (site_dir cfg slug ++ segs), w) := by
        rw [Storage.file_path]
        refine (run_bind_of_ok _ hres).trans ((run_bind_of_ok _ (run_kind_file hg)).trans ?_)
        rfl
      refine (run_bind_of_ok _ hpath).trans ?_
      exact run_bind_of_ok _ (run_disk_ok rfl fun _ => read_of_file hg)
    · rw [hc]
      exact Alike.refl _

theorem delete_file_step (h : Agree cfg rt w s) (slug path : Str) :
    Step cfg rt i (Routes.delete_file cfg rt slug path) (FakeBackend.delete_file rt slug path)
      w s := by
  rw [Routes.delete_file, FakeBackend.delete_file]
  refine Step.site h fun r fs hr hs hfs hname hslug hsame => Step.path h fun segs hv hroot => ?_
  have hne : segs ≠ [] := fun h0 => absurd (hroot h0) (by simp)
  have hres : run (exec i) (resolve cfg rt slug (join segs)) (taken w i slug) =
      (.ok (site_dir cfg slug ++ segs), taken w i slug) :=
    (run_resolve ..).trans (by rw [show (taken w i slug).disk = w.disk from rfl, resolved_same hsame hv])
  rcases hsame.cases hv hne with ⟨hg, hf, hd⟩ | ⟨hg, hf, at_, hd⟩ | ⟨d, f, hg, hf, hc, hd⟩
  · refine Step.refused_held (e := ?_) h ?_ ?fake
    case fake =>
      rw [hd, hf]
      rfl
    rw [removeFile]
    refine (run_bind_of_ok _ hres).trans
      ((run_bind_of_ok _ (run_kind_none (w := taken w i slug) hg)).trans ?_)
    rfl
  · refine Step.refused_held (e := ?_) h ?_ ?fake
    case fake =>
      rw [hd]
      rfl
    rw [removeFile]
    refine (run_bind_of_ok _ hres).trans
      ((run_bind_of_ok _ (run_kind_folder (w := taken w i slug) hg)).trans ?_)
    rfl
  · set w1 : World := { taken w i slug with
      disk := w.disk.prune (site_dir cfg slug ++ segs)
      db := w.db.set_files slug fun t => t.erase (join segs) } with hw1
    have hrun : run (exec i) (removeFile cfg rt slug (join segs)) (taken w i slug) =
        (.ok (), w1) := by
      rw [removeFile]
      refine (run_bind_of_ok _ hres).trans
        ((run_bind_of_ok _ (run_kind_file (w := taken w i slug) hg)).trans ?_)
      exact run_bind_of_ok _ (run_unlink (w := taken w i slug) hg (by simp))
    refine Step.answered ⟨204, .empty⟩ ⟨204, .empty⟩ (freed w1 slug) { s with
        sites := s.sites.insert fs.slug { fs with files := fs.files.erase (join segs) } }
      (run_bind_of_ok _ (run_held _ _ hrun)) (by rw [hd, hf]; rfl) (Alike.refl _) ?_
    refine h.change { fs with files := fs.files.erase (join segs) } (fun t => t.erase (join segs))
      hr hname hslug hfs rfl (hsame.drop_file hv hne (by rw [hg]; simp) fun q => ?_) rfl rfl fun q hq => ?_
    · refine (Tree.get_prune_leaf (by simp [hne]) (by rw [hg]; simp) _).trans ?_
      simp only [List.append_cancel_left_eq]
    · refine (Tree.get_prune_leaf (by simp [hne]) (by rw [hg]; simp) _).trans (if_neg ?_)
      rintro rfl
      exact hq (List.prefix_append _ _)

/-! ### Deleting a folder -/

/-- **A folder is empty** on the disk when the dictionaries have nothing below it. -/
theorem children_isEmpty {fs : FakeSite} {idx : Index} {slug : Str} {segs : List Str}
    (h : Same rt w.disk (site_dir cfg slug) fs idx) (hv : Valid segs) :
    (w.disk.children (site_dir cfg slug ++ segs)).isEmpty =
      ((fs.foldersBelow (join segs)).isEmpty && (fs.filesBelow (join segs)).isEmpty) := by
  rw [Bool.eq_iff_iff, Bool.and_eq_true, List.isEmpty_iff, isEmpty_iff_get,
    isEmpty_iff_get, List.eq_nil_iff_forall_not_mem]
  simp only [Tree.mem_children, not_not, FakeSite.foldersBelow, FakeSite.filesBelow, get_filter_key]
  constructor
  · intro hnone
    have hbelow : ∀ p, Named p → (FakeBackend.prefixOf (join segs)).isPrefixOf p = true →
        fs.folders[p]? = none ∧ fs.files[p]? = none := by
      rintro p ⟨q, hq, hq0, rfl⟩ hp
      obtain ⟨r, hr, rfl⟩ := (prefixOf_iff hv hq hq0).1 hp
      obtain ⟨s, r, rfl⟩ := List.exists_cons_of_ne_nil hr
      have hg : w.disk.get (site_dir cfg slug ++ (segs ++ s :: r)) = none := by
        have h1 := hnone s
        rcases eq_or_ne r [] with rfl | hr0
        · rwa [List.append_assoc] at h1
        · have := Tree.get_below_none (q := r) (by rw [h1]; simp) hr0
          simpa using this
      rcases h.cases hq hq0 with ⟨-, h2, h3⟩ | ⟨h2, -⟩ | ⟨d, f, h2, -⟩
      · exact ⟨h3, h2⟩
      · rw [hg] at h2
        cases h2
      · rw [hg] at h2
        cases h2
    refine ⟨fun p => ?_, fun p => ?_⟩
    · split_ifs with hp
      · by_contra hc
        exact hc (hbelow p (h.folder_names p hc) hp).1
      · rfl
    · split_ifs with hp
      · by_contra hc
        exact hc (hbelow p (h.file_names p hc) hp).2
      · rfl
  · rintro ⟨hfolders, hfiles⟩ s
    by_contra hc
    rw [List.append_assoc] at hc
    have hv' := h.valid _ hc
    have hp := (prefixOf_iff hv hv' (by simp)).2 ⟨[s], by simp, rfl⟩
    have h1 := hfolders (join (segs ++ [s]))
    have h2 := hfiles (join (segs ++ [s]))
    rw [if_pos hp] at h1 h2
    rcases h.cases hv' (by simp) with ⟨hn, -⟩ | ⟨-, -, at_, hd⟩ | ⟨d, f, -, hf, -⟩
    · exact hc hn
    · rw [hd] at h1
      cases h1
    · rw [hf] at h2
      cases h2

theorem isEmpty_order {α : Type} (o : ScanOrder α) (l : List α) : (o.order l).isEmpty = l.isEmpty := by
  rw [Bool.eq_iff_iff, List.isEmpty_iff, List.isEmpty_iff]
  exact ⟨fun h => List.nil_perm.1 (h ▸ o.perm l), fun h => List.perm_nil.1 (h ▸ o.perm l)⟩

theorem delete_folder_step (h : Agree cfg rt w s) (slug path : Str) (recursive : Bool) :
    Step cfg rt i (Routes.delete_folder cfg rt slug path recursive)
      (FakeBackend.delete_folder rt slug path recursive) w s := by
  rw [Routes.delete_folder, FakeBackend.delete_folder]
  refine Step.site h fun r fs hr hs hfs hname hslug hsame => Step.path h fun segs hv hroot => ?_
  have hne : segs ≠ [] := fun h0 => absurd (hroot h0) (by simp)
  have hres : run (exec i) (resolve cfg rt slug (join segs)) (taken w i slug) =
      (.ok (site_dir cfg slug ++ segs), taken w i slug) :=
    (run_resolve ..).trans (by rw [show (taken w i slug).disk = w.disk from rfl, resolved_same hsame hv])
  rcases hsame.cases hv hne with ⟨hg, hf, hd⟩ | ⟨hg, hf, at_, hd⟩ | ⟨d, f, hg, hf, hc, hd⟩
  · refine Step.refused_held (e := ?_) h ?_ ?fake
    case fake =>
      rw [hf, hd]
      rfl
    rw [removeFolder]
    refine (run_bind_of_ok _ hres).trans
      ((run_bind_of_ok _ (run_kind_none (w := taken w i slug) hg)).trans ?_)
    rfl
  · have hscan := run_scandir (i := i) (w := taken w i slug) hg
    have hempty : (w.scan.order (w.disk.children (site_dir cfg slug ++ segs))).isEmpty =
        ((fs.foldersBelow (join segs)).isEmpty && (fs.filesBelow (join segs)).isEmpty) :=
      (isEmpty_order ..).trans (children_isEmpty hsame hv)
    cases hb : !((fs.foldersBelow (join segs)).isEmpty && (fs.filesBelow (join segs)).isEmpty) &&
        !recursive with
    | true =>
      refine Step.refused_held (e := ?_) h ?_ ?fake
      case fake =>
        rw [hf, hd]
        rfl
      rw [removeFolder]
      refine (run_bind_of_ok _ hres).trans
        ((run_bind_of_ok _ (run_kind_folder (w := taken w i slug) hg)).trans
          ((run_bind_of_ok _ hscan).trans ?_))
      rw [show (taken w i slug).scan = w.scan from rfl, show (taken w i slug).disk = w.disk from rfl,
        hempty, hb]
      rfl
    | false =>
      set w1 : World := { taken w i slug with
        disk := w.disk.prune (site_dir cfg slug ++ segs)
        db := w.db.set_files slug fun t => t.filter fun p _ => !_below (join segs) p } with hw1
      have hrun : run (exec i) (removeFolder cfg rt slug (join segs) recursive) (taken w i slug) =
          (.ok (), w1) := by
        rw [removeFolder]
        refine (run_bind_of_ok _ hres).trans
          ((run_bind_of_ok _ (run_kind_folder (w := taken w i slug) hg)).trans
            ((run_bind_of_ok _ hscan).trans ?_))
        rw [show (taken w i slug).scan = w.scan from rfl, show (taken w i slug).disk = w.disk from rfl,
          hempty, hb]
        exact run_bind_of_ok _ (run_rmtree (w := taken w i slug) false (by simp [hne]) hg)
      refine Step.answered ⟨204, .empty⟩ ⟨204, .empty⟩ (freed w1 slug)
        { s with sites := s.sites.insert fs.slug _ } (run_bind_of_ok _ (run_held _ _ hrun))
        (by rw [hf, hd]; rfl) (Alike.refl _) ?_
      refine h.change { fs with
          files := fs.files.filter fun p _ => !(FakeBackend.prefixOf (join segs)).isPrefixOf p
          folders := (fs.folders.filter fun p _ =>
            !(FakeBackend.prefixOf (join segs)).isPrefixOf p).erase (join segs) }
        (fun t => t.filter fun p _ => !_below (join segs) p) hr hname hslug hfs rfl
        (hsame.drop_folder hv hne hg fun q => ?_) rfl rfl fun q hq => ?_
      · refine (Tree.get_prune (by simp [hne]) _).trans ?_
        simp only [List.prefix_append_right_inj]
      · refine (Tree.get_prune (by simp [hne]) _).trans (if_neg fun hc => hq ?_)
        exact (List.prefix_append _ _).trans hc
  · refine Step.refused_held (e := ?_) h ?_ ?fake
    case fake =>
      rw [hf]
      rfl
    rw [removeFolder]
    refine (run_bind_of_ok _ hres).trans
      ((run_bind_of_ok _ (run_kind_file (w := taken w i slug) hg)).trans ?_)
    rfl

end PaperBoxing.Agreement.Files
