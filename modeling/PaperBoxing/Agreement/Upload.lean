import PaperBoxing.Agreement.Relation
import PaperBoxing.Backend.Uploads

/-! # Uploads

The two checks of a write agree (`writeTarget_agree`), and so do the uploads: refused, over the cap,
or landed. -/

namespace PaperBoxing.Agreement.Upload

open PaperBoxing.Lib PaperBoxing.Lib.Action PaperBoxing.Lib.Program PaperBoxing.Lib.Text
open PaperBoxing.Lib.IsoTime PaperBoxing.Lib.Tables PaperBoxing.Lib.Trees PaperBoxing.Lib.Disk
open PaperBoxing.Common PaperBoxing.Common.Schema PaperBoxing.Common.Naming
open PaperBoxing.Common.FakeBackend (FakeSite FakeState Fake Draw)
open PaperBoxing.Backend PaperBoxing.Backend.Db PaperBoxing.Backend.Calls PaperBoxing.Backend.Storage
open PaperBoxing.Backend.Alone PaperBoxing.Backend.Routes PaperBoxing.Agreement.Shape
open PaperBoxing.Agreement.Relation PaperBoxing.Backend.Uploads

variable {cfg : Config} {rt : Runtime} {i : ℕ} {w w' : World} {s s' : FakeState}

/-- What the fake's loop over the parents of a path answers. -/
def fakeParents (rt : Runtime) : Option Str → Except Exn Unit
  | some parent =>
    .error (.api ⟨409, .not_a_folder, rt.repr parent ++ lit " is a file, not a folder"⟩)
  | none => .ok ()

/-- **The two loops over the parents of a path** find the same file, or none; then each parent is a
folder or missing. -/
theorem parents_agree {t : Files Str} {fs : FakeSite} {idx : Index} {slug : Str} (path : Str)
    (h : Same rt t (site_dir cfg slug) fs idx) {pre : List Str} (hv : Valid pre) (fuel : ℕ)
    (hfuel : pre.length ≤ fuel) :
    parentsChecked cfg rt t slug path pre.reverse =
        fakeParents rt (FakeBackend.fileParent fs fuel (join pre)) ∧
      (parentsChecked cfg rt t slug path pre.reverse = .ok () → ∀ q, q <+: pre →
        t.get (site_dir cfg slug ++ q) = none ∨ t.get (site_dir cfg slug ++ q) = some .folder) := by
  induction pre using List.reverseRecOn generalizing fuel with
  | nil =>
    refine ⟨?_, fun _ q hq => Or.inr ?_⟩
    · cases fuel <;> rfl
    · rw [List.prefix_nil.1 hq, List.append_nil]
      exact h.folder
  | append_singleton pre s ih =>
    rcases fuel with _ | fuel
    · simp at hfuel
    have hne : join (pre ++ [s]) ≠ [] := join_ne_nil hv (by simp)
    obtain ⟨ih1, ih2⟩ := ih hv.left fuel (by simpa using hfuel)
    have hrev : (s :: pre.reverse).reverse = pre ++ [s] := by simp
    rw [List.reverse_append, List.reverse_singleton, List.singleton_append, parentsChecked,
      FakeBackend.fileParent, if_neg hne, path_parent_join (hv s (by simp)), hrev]
    rcases h.cases hv (by simp) with ⟨hg, hf, -⟩ | ⟨hg, hf, -⟩ | ⟨d, f, hg, hf, -, -⟩
    · have hk : kindAt t (site_dir cfg slug ++ (pre ++ [s])) = .missing := by
        rw [kindAt, hg]
        rfl
      rw [hk, hf, if_neg (by simp)]
      refine ⟨ih1, fun hok q hq => ?_⟩
      rcases List.prefix_concat_iff.1 hq with rfl | hq
      · exact Or.inl hg
      · exact ih2 hok q hq
    · have hk : kindAt t (site_dir cfg slug ++ (pre ++ [s])) = .folder := by
        rw [kindAt, hg]
        rfl
      rw [hk, hf, if_neg (by simp)]
      refine ⟨ih1, fun hok q hq => ?_⟩
      rcases List.prefix_concat_iff.1 hq with rfl | hq
      · exact Or.inr hg
      · exact ih2 hok q hq
    · have hk : kindAt t (site_dir cfg slug ++ (pre ++ [s])) = .file := by
        rw [kindAt, hg]
        rfl
      rw [hk, hf, if_pos (by simp), _relative, List.drop_left]
      exact ⟨rfl, fun hok => by cases hok⟩

/-- The parents of an entry that exists are folders: the loop lets them pass. -/
theorem parentsChecked_of_folder {t : Files Str} {slug path : Str} {pre : List Str}
    (h : t.get (site_dir cfg slug ++ pre) = some .folder) :
    parentsChecked cfg rt t slug path pre.reverse = .ok () := by
  induction pre using List.reverseRecOn with
  | nil => rfl
  | append_singleton pre s ih =>
    have hk : kindAt t (site_dir cfg slug ++ (pre ++ [s])) = .folder := by
      rw [kindAt, h]
      rfl
    have hrev : (s :: pre.reverse).reverse = pre ++ [s] := by simp
    rw [List.reverse_append, List.reverse_singleton, List.singleton_append, parentsChecked, hrev, hk]
    exact ih (Tree.get_parent (s := s) (by rw [List.append_assoc, h]; simp))

theorem fakeParents_ok {o : Option Str} (h : fakeParents rt o = .ok ()) : o = none := by
  rcases o with _ | parent
  · rfl
  · cases h

/-- **The two checks of a write agree**, and what they let pass has folders or nothing above it. -/
theorem writeTarget_agree {t : Files Str} {fs : FakeSite} {idx : Index} {slug : Str}
    (h : Same rt t (site_dir cfg slug) fs idx) {segs : List Str} (hv : Valid segs) (hne : segs ≠ [])
    (overwrite : Bool) (s : FakeState) :
    FakeBackend._check_write_target rt fs (join segs) overwrite s =
        (writeTarget cfg rt t slug (site_dir cfg slug ++ segs) (join segs) overwrite, s) ∧
      ∀ replaced, writeTarget cfg rt t slug (site_dir cfg slug ++ segs) (join segs) overwrite =
        .ok replaced → (replaced = (fs.files[join segs]?).isSome) ∧ ∀ q, q <+: segs.dropLast →
          t.get (site_dir cfg slug ++ q) = none ∨ t.get (site_dir cfg slug ++ q) = some .folder := by
  obtain ⟨pre, name, rfl⟩ : ∃ pre name, segs = pre ++ [name] :=
    ⟨_, _, (List.dropLast_append_getLast hne).symm⟩
  obtain ⟨hp1, hp2⟩ := parents_agree (join (pre ++ [name])) h hv.left
    (join (pre ++ [name])).length (by
      refine le_trans ?_ (length_le_join hv)
      simp)
  rw [FakeBackend._check_write_target, writeTarget, List.drop_left, List.dropLast_concat,
    path_parent_join (hv name (by simp))]
  rcases h.cases hv hne with ⟨hg, hf, hd⟩ | ⟨hg, hf, at_, hd⟩ | ⟨d, f, hg, hf, -, hd⟩
  · have hk : kindAt t (site_dir cfg slug ++ (pre ++ [name])) = .missing := by
      rw [kindAt, hg]
      rfl
    rw [hd, if_neg (by simp), hk, hf]
    rcases hfp : FakeBackend.fileParent fs (join (pre ++ [name])).length (join pre) with _ | parent
    · rw [hfp] at hp1
      rw [hp1]
      refine ⟨rfl, fun replaced hok => ⟨(Except.ok.inj hok).symm, hp2 hp1⟩⟩
    · rw [hfp] at hp1
      rw [hp1]
      exact ⟨rfl, fun replaced hok => by cases hok⟩
  · have hk : kindAt t (site_dir cfg slug ++ (pre ++ [name])) = .folder := by
      rw [kindAt, hg]
      rfl
    have hok : parentsChecked cfg rt t slug (join (pre ++ [name])) pre.reverse = .ok () :=
      parentsChecked_of_folder
        (Tree.get_parent (s := name) (by rw [List.append_assoc, hg]; simp))
    rw [hd, if_pos (by simp), hk, hok]
    exact ⟨rfl, fun replaced hr => by cases hr⟩
  · have hk : kindAt t (site_dir cfg slug ++ (pre ++ [name])) = .file := by
      rw [kindAt, hg]
      rfl
    have hok : parentsChecked cfg rt t slug (join (pre ++ [name])) pre.reverse = .ok () :=
      parentsChecked_of_folder
        (Tree.get_parent (s := name) (by rw [List.append_assoc, hg]; simp))
    have hnone := fakeParents_ok (hp1.symm.trans hok)
    rw [hd, if_neg (by simp), hk, hok, hnone, hf]
    cases overwrite with
    | true => exact ⟨rfl, fun replaced hr => ⟨(Except.ok.inj hr).symm, hp2 hok⟩⟩
    | false => exact ⟨rfl, fun replaced hr => by cases hr⟩

/-- The body of a request has arrived whole, with the length its header declares. -/
def Whole (body : Incoming) (declared_length : Option ℤ) : Prop :=
  body.ending = none ∧ ∀ n, declared_length = some n → n = body.chunks.flatten.length

variable {slug : Str} {segs : List Str} {r : SiteRec} {fs : FakeSite}

/-- Every folder above a target is one or is missing, where those below the site's folder are. -/
theorem above_of_below {t : Files Str} (hroot : t.get (site_dir cfg slug) = some .folder)
    (hpar : ∀ q, q <+: segs → t.get (site_dir cfg slug ++ q) = none ∨
      t.get (site_dir cfg slug ++ q) = some .folder) (q : Path Str)
    (hq : q <+: site_dir cfg slug ++ segs) : t.get q = none ∨ t.get q = some .folder := by
  rcases List.prefix_or_prefix_of_prefix hq (List.prefix_append _ _) with ⟨x, hx⟩ | ⟨x, rfl⟩
  · -- a folder above the site's own
    right
    rcases eq_or_ne x [] with rfl | hx0
    · rw [List.append_nil] at hx
      rw [hx]
      exact hroot
    · exact Tree.get_ancestor (q := x) (by
        rw [hx]
        exact ne_of_eq_of_ne hroot (by simp)) hx0
  · exact hpar x ((List.prefix_append_right_inj _).1 hq)

theorem upload_file_step (h : Agree cfg rt w s) (d : Draw) (slug path : Str) {body : Incoming}
    {declared_length : Option ℤ} (hbody : Whole body declared_length) (overwrite : Bool) :
    Step cfg rt i (Routes.upload_file cfg rt slug path body declared_length overwrite)
      (FakeBackend.upload_file cfg rt d slug path body.chunks.flatten overwrite) w s := by
  rw [Routes.upload_file, FakeBackend.upload_file]
  refine Step.site h fun r fs hr hs hfs hname hslug hsame => Step.path h fun segs hv hroot => ?_
  have hne : segs ≠ [] := fun h0 => absurd (hroot h0) (by simp)
  have hres := resolved_same hsame hv
  have hdecl : ¬ cfg.max_upload_bytes < body.chunks.flatten.length →
      (declared_length.any fun n => (cfg.max_upload_bytes : ℤ) < n) = false := by
    intro hcap
    rcases hd : declared_length with _ | n
    · rfl
    · rw [hbody.2 n hd, Option.any_some, decide_eq_false_iff_not, Int.ofNat_lt]
      exact hcap
  have hfresh : w.disk.get (nextStaging cfg w i) = none := by
    rw [nextStaging, stagingPath]
    exact h.staging _ (by simp)
  rcases run_stage_whole (i := i) rt h.staging_dir hfresh hbody.1 with ⟨hcap, w1, hk, hget, hstage⟩ |
    ⟨hcap, w1, staged, data, hrec, hstage⟩
  · -- the body exceeds the cap, as its header said or as it arrives
    have hrun : ∃ w2, w2.db = w.db ∧ (∀ q, w2.disk.get q = w.disk.get q) ∧
        run (exec i) (Storage.write_file cfg rt slug (join segs) body overwrite declared_length) w =
          (.error (.api (_too_large cfg)), w2) := by
      rw [Storage.write_file, run_bind_of_ok _ ((run_resolve ..).trans (by rw [hres]))]
      cases declared_length.any fun n => (cfg.max_upload_bytes : ℤ) < n with
      | true => exact ⟨w, rfl, fun q => rfl, rfl⟩
      | false => exact ⟨w1, hk.db, hget, run_bind_of_error _ hstage⟩
    obtain ⟨w2, hdb, hget2, hrun⟩ := hrun
    have hfake : FakeBackend.refuse (A := Response) 413 .payload_too_large
        (lit "the file exceeds the cap of " ++ dec cfg.max_upload_bytes ++ lit " bytes") s =
        (.error (.api ⟨413, .payload_too_large, lit "the file exceeds the cap of " ++
          dec cfg.max_upload_bytes ++ lit " bytes"⟩), s) := rfl
    rw [if_pos hcap]
    exact Step.of_eq (run_bind_of_error _ hrun) hfake ⟨by simp, rfl, rfl⟩ (h.of_same hget2 hdb)
  · rw [if_neg hcap]
    have hin : ∀ q, w1.disk.get (site_dir cfg slug ++ q) = w.disk.get (site_dir cfg slug ++ q) := by
      intro q
      rw [hrec.get, if_neg]
      rw [hrec.path]
      exact (sites_ne_staging cfg slug _ q).symm
    have hsame1 : Same rt w1.disk (site_dir cfg slug) fs r.files :=
      hsame.congr (funext fun q => (hin q).symm)
    obtain ⟨hcheck, hlet⟩ := writeTarget_agree hsame1 hv hne overwrite s
    rcases hwt : writeTarget cfg rt w1.disk slug (site_dir cfg slug ++ segs) (join segs) overwrite
      with e | replaced
    · obtain ⟨a, rfl⟩ := writeTarget_error hwt
      rw [hwt] at hcheck
      obtain ⟨w2, hland, hdb, hget⟩ := run_land_refused hrec hr (resolved_same hsame1 hv) hwt
      exact Step.of_eq (run_bind_of_error _ (run_write_file hres (hdecl hcap) hstage hland))
        (Act.bind_of_error hcheck) (Match.api a) (h.of_same hget hdb)
    · rw [hwt] at hcheck
      obtain ⟨hrep, hpar⟩ := hlet replaced hwt
      obtain ⟨w2, hland, hdb, hget⟩ := run_land_landed hrec hr (resolved_same hsame1 hv) hne hwt
        (above_of_below hsame1.folder hpar)
      have hreal := run_write_file hres (hdecl hcap) hstage hland
      rw [hrec.bytes, hrec.sha256] at hreal
      refine Step.answered _ ⟨if replaced then 200 else 201, .upload ⟨join segs,
          body.chunks.flatten.length, rt.sha256 body.chunks.flatten, replaced⟩⟩ w2
        { s with sites := s.sites.insert fs.slug { fs.add_folders_for (join segs) d.now with
          files := fs.files.insert (join segs) ⟨data.content, d.now⟩ } }
        (run_bind_of_ok _ hreal) ?_ (Alike.refl _) ?_
      · refine (Act.bind_of_ok hcheck).trans ?_
        rw [hrep, hrec.content]
        rfl
      · refine h.change { fs.add_folders_for (join segs) d.now with
            files := fs.files.insert (join segs) ⟨data.content, d.now⟩ } _ hr hname hslug hfs rfl
          (hsame.put_file hv hne d.now (d := data) (fun q hq => ?_) ?_ fun q => ?_) hdb rfl
          fun q hq => ?_
        · rw [← hin]
          exact hpar q hq
        · rw [← hin]
          rcases writeTarget_ok hwt with ⟨hn, -⟩ | ⟨d', hn, -⟩ <;> rw [hn] <;> simp
        · rw [hget]
          simp only [List.append_cancel_left_eq, List.prefix_append_right_inj]
        · have hqt : q ≠ site_dir cfg slug ++ segs := by
            rintro rfl
            exact hq (List.prefix_append _ _)
          rw [hget, if_neg hqt]
          split_ifs with hup
          · -- a folder above the site's own was there before
            rcases List.prefix_or_prefix_of_prefix hup (List.prefix_append _ _) with ⟨x, hx⟩ | hs'
            · have hx0 : x ≠ [] := by
                rintro rfl
                rw [List.append_nil] at hx
                exact hq (hx ▸ List.prefix_rfl)
              refine (Tree.get_ancestor (q := x) ?_ hx0).symm
              rw [hx, hsame.folder]
              simp
            · exact absurd hs' hq
          · rfl

end PaperBoxing.Agreement.Upload
