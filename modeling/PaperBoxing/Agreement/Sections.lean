import PaperBoxing.Agreement.Sites

/-! # Critical sections and the fake

What each route does to a site while it holds the site's lock, run alone, is what the fake does on the
same request, whatever is happening to the other sites. What the routes do before they take the lock and
after they gave it back is left out here.

* `effect`: what the fake does on a request; it changes the request's own site only (`effect_one`);
* `removeFile_section`, `removeFolder_section`, `landFile_section`, `create_section`, `parkSite_section`:
  the sections. -/

namespace PaperBoxing.Agreement.Sections

open PaperBoxing.Lib PaperBoxing.Lib.Action PaperBoxing.Lib.Program PaperBoxing.Lib.Text
open PaperBoxing.Lib.IsoTime PaperBoxing.Lib.Tables PaperBoxing.Lib.Trees PaperBoxing.Lib.Disk
open PaperBoxing.Common PaperBoxing.Common.Schema PaperBoxing.Common.Naming
open PaperBoxing.Common.FakeBackend (FakeSite FakeState Fake Draw)
open PaperBoxing.Backend PaperBoxing.Backend.Db PaperBoxing.Backend.Calls PaperBoxing.Backend.Storage
open PaperBoxing.Backend.Alone PaperBoxing.Backend.Routes PaperBoxing.Agreement.Shape
open PaperBoxing.Agreement.Relation PaperBoxing.Agreement.Upload PaperBoxing.Agreement.Files
open PaperBoxing.Agreement.Sites

variable {cfg : Config} {rt : Runtime} {i : ℕ} {w w' : World} {s s' : FakeState} {slug raw path : Str}
  {d : Draw} {r : SiteRec} {fs : FakeSite}

/-! ### What the fake does -/

/-- **What a request does to the fake.** -/
def effect (cfg : Config) (rt : Runtime) (d : Draw) (request : Request) (s : FakeState) : FakeState :=
  (FakeBackend.serveSites cfg rt d request s).2

/-- The site a request changes, if any. -/
def changed (rt : Runtime) : Request → Option Str
  | .create_site name => (slug_from_name rt name).toOption
  | .delete_site slug _ | .upload_file slug _ _ _ _ | .delete_file slug _ | .delete_folder slug _ _ =>
    some slug
  | _ => none

/-- Every site of the fake is stored under its own slug. -/
def Keyed (s : FakeState) : Prop := ∀ (slug : Str) fs, s.sites[slug]? = some fs → fs.slug = slug

/-- A request about a site that is not there. -/
theorem site_unknown (hs : s.sites[slug]? = none) {q : FakeSite → Fake Response} :
    ((FakeBackend._site rt slug >>= q) s).2 = s := by
  have : FakeBackend._site rt slug s =
      (.error (.api ⟨404, .not_found, lit "no site " ++ rt.repr slug⟩), s) := by
    rw [FakeBackend._site, hs]
    rfl
  rw [Act.bind_of_error this]

/-- A request about a site that is there. -/
theorem site_known (hs : s.sites[slug]? = some fs) {q : FakeSite → Fake Response} :
    (FakeBackend._site rt slug >>= q) s = q fs s := by
  have : FakeBackend._site rt slug s = (.ok fs, s) := by rw [FakeBackend._site, hs]
  rw [Act.bind_of_ok this]

theorem valid_path_known (hp : validate_site_path rt raw false = .ok path) {q : Str → Fake Response} :
    FakeBackend._valid_path rt raw false >>= q = q path := by
  rw [FakeBackend._valid_path, hp]
  rfl

theorem valid_path_unknown {why : Str} (hp : validate_site_path rt raw false = .error why)
    {q : Str → Fake Response} : ((FakeBackend._valid_path rt raw false >>= q) s).2 = s := by
  rw [FakeBackend._valid_path, hp]
  rfl

/-- What `_check_write_target` does to the fake: nothing. -/
theorem check_write_target_keeps (overwrite : Bool) :
    (FakeBackend._check_write_target rt fs path overwrite s).2 = s := by
  rw [FakeBackend._check_write_target]
  by_cases hd : fs.folders[path]? ≠ none
  · rw [if_pos hd]
    rfl
  rw [if_neg hd]
  rcases FakeBackend.fileParent fs path.length (path_parent path) with _ | parent
  · dsimp only
    split_ifs <;> rfl
  · rfl

/-- **One site at most has changed**, and keeps its slug or is gone. -/
def OneSite (slug : Str) (s s' : FakeState) : Prop :=
  s' = s ∨ (∃ fs, fs.slug = slug ∧ s'.sites = s.sites.insert slug fs) ∨ s'.sites = s.sites.erase slug

theorem OneSite.other (h : OneSite slug s s') {slug' : Str} (hne : slug' ≠ slug) :
    s'.sites[slug']? = s.sites[slug']? := by
  rcases h with rfl | ⟨fs, -, h⟩ | h
  · rfl
  · rw [h, get_insert_of_ne hne]
  · rw [h, get_erase_of_ne hne]

theorem OneSite.keyed (h : OneSite slug s s') (hk : Keyed s) : Keyed s' := by
  intro slug' fs' hfs
  rcases eq_or_ne slug' slug with rfl | hne
  · rcases h with rfl | ⟨fs, hslug, h⟩ | h
    · exact hk _ _ hfs
    · rw [h, get_insert_self] at hfs
      exact Option.some.inj hfs ▸ hslug
    · rw [h, get_erase_self] at hfs
      cases hfs
  · exact hk _ _ ((h.other hne).symm.trans hfs)

theorem OneSite.of_site {q : FakeSite → Fake Response}
    (h : ∀ fs, s.sites[slug]? = some fs → OneSite slug s (q fs s).2) :
    OneSite slug s ((FakeBackend._site rt slug >>= q) s).2 := by
  rcases hs : s.sites[slug]? with _ | fs
  · exact Or.inl (site_unknown hs)
  · rw [site_known hs]
    exact h fs hs

theorem OneSite.of_path {q : Str → Fake Response} (h : ∀ path, OneSite slug s (q path s).2) :
    OneSite slug s ((FakeBackend._valid_path rt raw false >>= q) s).2 := by
  rcases hp : validate_site_path rt raw false with why | path
  · exact Or.inl (valid_path_unknown hp)
  · rw [valid_path_known hp]
    exact h path

/-- A site stored anew. -/
theorem OneSite.put {fs : FakeSite} (hfs : fs.slug = slug) (a : Response) :
    OneSite slug s ((FakeBackend.putSite fs >>= fun _ => Act.ret a) s).2 :=
  Or.inr (Or.inl ⟨fs, hfs, hfs ▸ rfl⟩)

/-- **A request changes its own site at most.** -/
theorem effect_one (hk : Keyed s) {request : Request} (hc : changed rt request = some slug) :
    OneSite slug s (effect cfg rt d request s) := by
  cases request with
  | create_site name =>
    rw [effect, FakeBackend.serveSites, FakeBackend.create_site]
    rcases hn : slug_from_name rt name with why | slug' <;> rw [changed, hn] at hc
    · cases hc
    · obtain rfl : slug' = slug := Option.some.inj hc
      dsimp only
      split_ifs
      · exact Or.inl rfl
      · exact Or.inr (Or.inl ⟨_, rfl, rfl⟩)
  | delete_site slug' confirm =>
    obtain rfl : slug' = slug := Option.some.inj hc
    refine OneSite.of_site fun fs hfs => ?_
    split_ifs
    · exact Or.inl rfl
    · exact Or.inr (Or.inr rfl)
  | upload_file slug' raw body declared overwrite =>
    obtain rfl : slug' = slug := Option.some.inj hc
    refine OneSite.of_site fun fs hfs => OneSite.of_path fun path => ?_
    split_ifs
    · exact Or.inl rfl
    have hkeep := @check_write_target_keeps rt s path fs overwrite
    rcases hc : FakeBackend._check_write_target rt fs path overwrite s with ⟨e | replacing, s1⟩ <;>
      rw [hc] at hkeep <;> obtain rfl : s1 = s := hkeep
    · rw [Act.bind_of_error hc]
      exact Or.inl rfl
    · rw [Act.bind_of_ok hc]
      obtain rfl := hk slug' fs hfs
      exact Or.inr (Or.inl ⟨{ fs.add_folders_for path d.now with
        files := fs.files.insert path ⟨body.chunks.flatten, d.now⟩ }, rfl, rfl⟩)
  | delete_file slug' raw =>
    obtain rfl : slug' = slug := Option.some.inj hc
    refine OneSite.of_site fun fs hfs => OneSite.of_path fun path => ?_
    split_ifs
    · exact Or.inl rfl
    · exact Or.inl rfl
    · refine OneSite.put ?_ _
      exact hk slug' fs hfs
  | delete_folder slug' raw recursive =>
    obtain rfl : slug' = slug := Option.some.inj hc
    refine OneSite.of_site fun fs hfs => OneSite.of_path fun path => ?_
    split_ifs
    · exact Or.inl rfl
    · exact Or.inl rfl
    · exact Or.inl rfl
    · refine OneSite.put ?_ _
      exact hk slug' fs hfs
  | _ => cases hc

/-! ### A site on both sides -/

/-- The case of a slug: a site on both sides, or on neither. -/
theorem sameSite_cases (h : SameSite cfg rt w s slug) :
    (w.db.sites[slug]? = none ∧ s.sites[slug]? = none ∧ w.disk.get (site_dir cfg slug) = none) ∨
    ∃ r fs, w.db.sites[slug]? = some r ∧ s.sites[slug]? = some fs ∧ fs.slug = slug ∧
      r.name = fs.name ∧ IsSlug slug ∧ Same rt w.disk (site_dir cfg slug) fs r.files := by
  unfold SameSite at h
  rcases hr : w.db.sites[slug]? with _ | r <;> rcases hs : s.sites[slug]? with _ | fs <;> rw [hr, hs] at h
  · exact Or.inl ⟨rfl, rfl, h⟩
  · exact h.elim
  · exact h.elim
  · exact Or.inr ⟨r, fs, rfl, rfl, h⟩

/-- **A site changes**, on both sides. -/
theorem sameSite_change (x : FakeSite) (f : Index → Index) (hr : w.db.sites[slug]? = some r)
    (hname : r.name = fs.name) (hslug : IsSlug slug) (hfs : x.slug = slug) (hfn : x.name = fs.name)
    (hsame : Same rt w'.disk (site_dir cfg slug) x (f r.files)) (hdb : w'.db = w.db.set_files slug f)
    (hs : s'.sites = s.sites.insert slug x) : SameSite cfg rt w' s' slug := by
  unfold SameSite
  rw [hdb, get_sites_set_files, if_pos rfl, hr, hs, get_insert_self]
  exact ⟨hfs, hname.trans hfn.symm, hslug, hsame⟩

/-- Below the folder of a site that is not there, every path is let through, to nothing. -/
theorem resolved_absent (h : w.disk.get (site_dir cfg slug) = none) {segs : List Str} (hv : Valid segs) :
    resolved cfg rt w.disk slug (join segs) = .ok (site_dir cfg slug ++ segs) := by
  have hnone : ∀ q, w.disk.get (site_dir cfg slug ++ q) = none := by
    intro q
    rcases eq_or_ne q [] with rfl | hq
    · rw [List.append_nil, h]
    · exact Tree.get_below_none (by rw [h]; simp) hq
  rw [resolved_of_clear (by rw [h]; rfl) (linked_of_clear (fun q => by rw [hnone]; rfl) _),
    segments_join hv]

/-! ### The sections -/

/-- **Deleting a file**: the section does to its site what the fake does. -/
theorem removeFile_section (h : SameSite cfg rt w s slug)
    (hp : validate_site_path rt raw false = .ok path) :
    SameSite cfg rt (run (exec i) (removeFile cfg rt slug path) w).2
      (effect cfg rt d (.delete_file slug raw) s) slug := by
  obtain ⟨⟨segs, hv, rfl⟩, hroot⟩ := validate_site_path_ok hp
  have hne : segs ≠ [] := fun h0 => absurd (hroot (by rw [h0]; rfl)) (by simp)
  have hrefused : ∀ {e}, run (exec i) (removeFile cfg rt slug (join segs)) w = (.error e, w) →
      effect cfg rt d (.delete_file slug raw) s = s →
      SameSite cfg rt (run (exec i) (removeFile cfg rt slug (join segs)) w).2
        (effect cfg rt d (.delete_file slug raw) s) slug := fun h1 h2 => by rwa [h1, h2]
  rcases sameSite_cases h with ⟨-, hs, hn⟩ | ⟨r, fs, hr, hs, hfs, hname, hslug, hsame⟩
  · refine hrefused (e := ?_) ?_ (site_unknown hs)
    case refine_2 =>
      rw [removeFile]
      refine (run_bind_of_ok _ ((run_resolve ..).trans (by rw [resolved_absent hn hv]))).trans
        ((run_bind_of_ok _ (run_kind_none (Tree.get_below_none (by rw [hn]; simp) hne))).trans ?_)
      rfl
  have hres := (run_resolve (i := i) (w := w) cfg rt slug (join segs)).trans (by rw [resolved_same hsame hv])
  rcases hsame.cases hv hne with ⟨hg, hf, hd⟩ | ⟨hg, hf, at_, hd⟩ | ⟨data, f, hg, hf, hc, hd⟩
  · refine hrefused (e := ?_) ?_ ?_
    case refine_2 =>
      rw [removeFile]
      refine (run_bind_of_ok _ hres).trans ((run_bind_of_ok _ (run_kind_none hg)).trans ?_)
      rfl
    · rw [effect, FakeBackend.serveSites, FakeBackend.delete_file, site_known hs, valid_path_known hp,
        hd, hf]
      rfl
  · refine hrefused (e := ?_) ?_ ?_
    case refine_2 =>
      rw [removeFile]
      refine (run_bind_of_ok _ hres).trans ((run_bind_of_ok _ (run_kind_folder hg)).trans ?_)
      rfl
    · rw [effect, FakeBackend.serveSites, FakeBackend.delete_file, site_known hs, valid_path_known hp, hd]
      rfl
  · have hrun : run (exec i) (removeFile cfg rt slug (join segs)) w = (.ok (), { w with
        disk := w.disk.prune (site_dir cfg slug ++ segs)
        db := w.db.set_files slug fun t => t.erase (join segs) }) := by
      rw [removeFile]
      refine (run_bind_of_ok _ hres).trans ((run_bind_of_ok _ (run_kind_file hg)).trans ?_)
      exact run_bind_of_ok _ (run_unlink hg (by simp))
    rw [hrun, effect, FakeBackend.serveSites, FakeBackend.delete_file, site_known hs,
      valid_path_known hp, hd, hf]
    refine sameSite_change { fs with files := fs.files.erase (join segs) }
      (fun t => t.erase (join segs)) hr hname hslug hfs rfl
      (hsame.drop_file hv hne (by rw [hg]; simp) fun q => ?_) rfl (by subst hfs; rfl)
    refine (Tree.get_prune_leaf (by simp [hne]) (by rw [hg]; simp) _).trans ?_
    simp only [List.append_cancel_left_eq]

/-- **Deleting a folder.** -/
theorem removeFolder_section {recursive : Bool} (h : SameSite cfg rt w s slug)
    (hp : validate_site_path rt raw false = .ok path) :
    SameSite cfg rt (run (exec i) (removeFolder cfg rt slug path recursive) w).2
      (effect cfg rt d (.delete_folder slug raw recursive) s) slug := by
  obtain ⟨⟨segs, hv, rfl⟩, hroot⟩ := validate_site_path_ok hp
  have hne : segs ≠ [] := fun h0 => absurd (hroot (by rw [h0]; rfl)) (by simp)
  have hrefused : ∀ {e}, run (exec i) (removeFolder cfg rt slug (join segs) recursive) w = (.error e, w) →
      effect cfg rt d (.delete_folder slug raw recursive) s = s →
      SameSite cfg rt (run (exec i) (removeFolder cfg rt slug (join segs) recursive) w).2
        (effect cfg rt d (.delete_folder slug raw recursive) s) slug := fun h1 h2 => by rwa [h1, h2]
  rcases sameSite_cases h with ⟨-, hs, hn⟩ | ⟨r, fs, hr, hs, hfs, hname, hslug, hsame⟩
  · refine hrefused (e := ?_) ?_ (site_unknown hs)
    case refine_2 =>
      rw [removeFolder]
      refine (run_bind_of_ok _ ((run_resolve ..).trans (by rw [resolved_absent hn hv]))).trans
        ((run_bind_of_ok _ (run_kind_none (Tree.get_below_none (by rw [hn]; simp) hne))).trans ?_)
      rfl
  have hres := (run_resolve (i := i) (w := w) cfg rt slug (join segs)).trans (by rw [resolved_same hsame hv])
  rcases hsame.cases hv hne with ⟨hg, hf, hd⟩ | ⟨hg, hf, at_, hd⟩ | ⟨data, f, hg, hf, hc, hd⟩
  · refine hrefused (e := ?_) ?_ ?_
    case refine_2 =>
      rw [removeFolder]
      refine (run_bind_of_ok _ hres).trans ((run_bind_of_ok _ (run_kind_none hg)).trans ?_)
      rfl
    · rw [effect, FakeBackend.serveSites, FakeBackend.delete_folder, site_known hs,
        valid_path_known hp, hf, hd]
      rfl
  · have hscan := run_scandir (i := i) (w := w) hg
    have hempty : (w.scan.order (w.disk.children (site_dir cfg slug ++ segs))).isEmpty =
        ((fs.foldersBelow (join segs)).isEmpty && (fs.filesBelow (join segs)).isEmpty) :=
      (isEmpty_order ..).trans (children_isEmpty hsame hv)
    cases hb : !((fs.foldersBelow (join segs)).isEmpty && (fs.filesBelow (join segs)).isEmpty) &&
        !recursive with
    | true =>
      refine hrefused (e := ?_) ?_ ?_
      case refine_2 =>
        rw [removeFolder]
        refine (run_bind_of_ok _ hres).trans ((run_bind_of_ok _ (run_kind_folder hg)).trans
          ((run_bind_of_ok _ hscan).trans ?_))
        rw [hempty, hb]
        rfl
      · rw [effect, FakeBackend.serveSites, FakeBackend.delete_folder, site_known hs,
          valid_path_known hp, hf, hd, hb]
        rfl
    | false =>
      have hrun : run (exec i) (removeFolder cfg rt slug (join segs) recursive) w = (.ok (), { w with
          disk := w.disk.prune (site_dir cfg slug ++ segs)
          db := w.db.set_files slug fun t => t.filter fun p _ => !_below (join segs) p }) := by
        rw [removeFolder]
        refine (run_bind_of_ok _ hres).trans ((run_bind_of_ok _ (run_kind_folder hg)).trans
          ((run_bind_of_ok _ hscan).trans ?_))
        rw [hempty, hb]
        exact run_bind_of_ok _ (run_rmtree false (by simp [hne]) hg)
      rw [hrun, effect, FakeBackend.serveSites, FakeBackend.delete_folder, site_known hs,
        valid_path_known hp, hf, hd, hb]
      refine sameSite_change { fs with
          files := fs.files.filter fun p _ => !(FakeBackend.prefixOf (join segs)).isPrefixOf p
          folders := (fs.folders.filter fun p _ =>
            !(FakeBackend.prefixOf (join segs)).isPrefixOf p).erase (join segs) }
        (fun t => t.filter fun p _ => !_below (join segs) p) hr hname hslug hfs rfl
        (hsame.drop_folder hv hne hg fun q => ?_) rfl (by subst hfs; rfl)
      refine (Tree.get_prune (by simp [hne]) _).trans ?_
      simp only [List.prefix_append_right_inj]
  · refine hrefused (e := ?_) ?_ ?_
    case refine_2 =>
      rw [removeFolder]
      refine (run_bind_of_ok _ hres).trans ((run_bind_of_ok _ (run_kind_file hg)).trans ?_)
      rfl
    · rw [effect, FakeBackend.serveSites, FakeBackend.delete_folder, site_known hs,
        valid_path_known hp, hf]
      rfl

/-- **Landing an upload**, of a body that is whole in its staging file and within the cap. -/
theorem landFile_section {body : Incoming} {declared : Option ℤ} {overwrite : Bool} {staged : Staged}
    {data : FileData} (h : SameSite cfg rt w s slug)
    (hp : validate_site_path rt raw false = .ok path)
    (hstaged : w.disk.get staged.path = some (.file data)) (hunder : cfg.staging_dir <+: staged.path)
    (hcontent : data.content = body.chunks.flatten) (hbytes : staged.bytes = data.content.length)
    (hsha : staged.sha256 = rt.sha256 data.content)
    (hcap : ¬ cfg.max_upload_bytes < body.chunks.flatten.length) :
    SameSite cfg rt (run (exec i) (landFile cfg rt slug path overwrite staged) w).2
      (effect cfg rt d (.upload_file slug raw body declared overwrite) s) slug := by
  obtain ⟨⟨segs, hv, rfl⟩, hroot⟩ := validate_site_path_ok hp
  have hne : segs ≠ [] := fun h0 => absurd (hroot (by rw [h0]; rfl)) (by simp)
  rcases sameSite_cases h with ⟨hr, hs, hn⟩ | ⟨r, fs, hr, hs, hfs, hname, hslug, hsame⟩
  · have hrun : (run (exec i) (landFile cfg rt slug (join segs) overwrite staged) w).2 = w := by
      rw [landFile, run_bind_of_ok _ (run_site_by_slug slug), hr]
      rfl
    rw [hrun, show effect cfg rt d (.upload_file slug raw body declared overwrite) s = s from
      site_unknown hs]
    exact h
  have heffect : effect cfg rt d (.upload_file slug raw body declared overwrite) s =
      ((FakeBackend._check_write_target rt fs (join segs) overwrite >>= fun replacing =>
        FakeBackend._write rt d fs (join segs) body.chunks.flatten >>= fun result =>
          (Act.ret ⟨if replacing then 200 else 201, .upload result⟩ : Fake Response)) s).2 := by
    rw [effect, FakeBackend.serveSites, FakeBackend.upload_file, site_known hs, valid_path_known hp,
      if_neg hcap]
  obtain ⟨hcheck, hlet⟩ := writeTarget_agree hsame hv hne overwrite s
  rcases hwt : writeTarget cfg rt w.disk slug (site_dir cfg slug ++ segs) (join segs) overwrite
    with e | replaced <;> rw [hwt] at hcheck
  · have hrun : run (exec i) (landFile cfg rt slug (join segs) overwrite staged) w = (.error e, w) := by
      rw [landFile, run_bind_of_ok _ (run_site_by_slug slug), hr, if_neg (by simp)]
      refine (run_bind_of_ok _ ((run_resolve ..).trans (by rw [resolved_same hsame hv]))).trans ?_
      exact run_bind_of_error _ ((run_check_write_target ..).trans (by rw [hwt]))
    rw [hrun, heffect, Act.bind_of_error hcheck]
    exact h
  · obtain ⟨-, hpar⟩ := hlet replaced hwt
    have hdrop : (site_dir cfg slug ++ segs).dropLast = site_dir cfg slug ++ segs.dropLast :=
      List.dropLast_append_of_ne_nil hne
    have hapart : ¬ staged.path <+: site_dir cfg slug ++ segs := by
      obtain ⟨q, hq⟩ := hunder
      rw [← hq]
      exact not_staging_prefix cfg slug _ _
    obtain ⟨t, hrun, ht⟩ := run_landFile (i := i) hr (resolved_same hsame hv) hwt hstaged (by simp [hne])
      (by rw [hdrop]; exact above_of_below hsame.folder hpar) hapart
    rw [hrun, heffect, Act.bind_of_ok hcheck, hbytes, hsha, ← hcontent]
    refine sameSite_change { fs.add_folders_for (join segs) d.now with
        files := fs.files.insert (join segs) ⟨data.content, d.now⟩ }
      (fun f => f.insert (join segs) ⟨data.content.length, data.mtime, rt.sha256 data.content⟩)
      hr hname hslug hfs rfl (hsame.put_file hv hne d.now (d := data) (fun q hq => hpar q hq) ?_ fun q => ?_)
      rfl (by subst hfs; rfl)
    · rcases writeTarget_ok hwt with ⟨hn, -⟩ | ⟨d', hn, -⟩ <;> rw [hn] <;> simp
    · have hq : site_dir cfg slug ++ q ≠ staged.path := by
        obtain ⟨x, hx⟩ := hunder
        rw [← hx]
        exact (sites_ne_staging cfg slug _ _).symm
      rw [ht, if_neg hq, hdrop]
      simp only [List.append_cancel_left_eq, List.prefix_append_right_inj]

/-- What `create_site` does while it holds the lock. -/
def createSection (cfg : Config) (rt : Runtime) (slug name : Str) (created_at : Instant) : Code SiteRow := do
  let existing ← query (.site_by_slug slug)
  if existing ≠ none then
    refuse 409 .site_exists (lit "a site with the slug " ++ rt.repr slug ++ lit " exists")
  else do
    let root := site_dir cfg slug
    (mkdirParents false root.reverse).except fun e => match e with
      | .os .exists =>
        refuse 409 .site_exists (lit "a site with the slug " ++ rt.repr slug ++
          lit " exists: its directory is already on the volume")
      | e => .raise e
    let site : SiteRow := ⟨slug, name, created_at⟩
    (query (.insert_site site)).except fun e => do
      suppressOs (disk (.rmdir root))
      match e with
      | .conflict =>
        refuse 409 .site_exists (lit "a site with the slug " ++ rt.repr slug ++ lit " exists")
      | e => .raise e
    .ret site

theorem create_site_eq (cfg : Config) (rt : Runtime) (slug name : Str) (created_at : Instant) :
    Storage.create_site cfg rt slug name created_at =
      hold slug (createSection cfg rt slug name created_at) := rfl

/-- **Creating a site.** -/
theorem create_section {name : Str} {created_at : Instant} (h : SameSite cfg rt w s slug)
    (hdir : w.disk.get cfg.sites_dir = some .folder) (hslug : slug_from_name rt name = .ok slug) :
    SameSite cfg rt (run (exec i) (createSection cfg rt slug (strip isSpace name) created_at) w).2
      (effect cfg rt d (.create_site name) s) slug := by
  rcases sameSite_cases h with ⟨hr, hs, hn⟩ | ⟨r, fs, hr, hs, -⟩
  · -- a new folder, and a new row
    set root := site_dir cfg slug with hroot
    have hfits : w.disk.Fits root := Tree.fits_iff.2 ⟨by simp [hroot, site_dir], by
      rw [hroot, site_dir, List.dropLast_concat]
      exact hdir, by rw [hn]; simp⟩
    have hput := Tree.get_put hfits (.folder : Node Str FileData)
    set w1 : World := { w with disk := w.disk.put root .folder } with hw1
    set w2 : World := { w1 with
      db := w.db.set_sites (w.db.sites.insert slug ⟨strip isSpace name, .ofInstant created_at, ∅⟩) }
      with hw2
    have hmk : run (exec i) (mkdirParents false root.reverse) w = (.ok (), w1) := by
      have hd : run (exec i) (disk (.mkdir root)) w = (.ok (), w1) :=
        run_disk_ok rfl fun _ => mkdir_of_none hn hfits
      have hrev : root.reverse = slug :: cfg.sites_dir.reverse := by simp [hroot, site_dir]
      have hback : (slug :: cfg.sites_dir.reverse).reverse = root := by simp [hroot, site_dir]
      rw [hrev, mkdirParents, hback, run_except, hd]
    have hinsert : run (exec i) (query (.insert_site ⟨slug, strip isSpace name, created_at⟩)) w1 =
        (.ok (), w2) := by
      refine (run_query ..).trans ?_
      have : Db.exec (.insert_site ⟨slug, strip isSpace name, created_at⟩) w.db = (.ok (), w2.db) := by
        rw [Db.exec, Db.insert_site, hr]
      exact congrArg (fun x : Except Exn Unit × Database => (x.1, { w1 with db := x.2 })) this
    have hrun : run (exec i) (createSection cfg rt slug (strip isSpace name) created_at) w =
        (.ok ⟨slug, strip isSpace name, created_at⟩, w2) := by
      refine (run_bind_of_ok _ (run_site_by_slug slug)).trans ?_
      rw [hr, if_neg (by simp)]
      refine (run_bind_of_ok _ (run_except_of_ok _ hmk)).trans ?_
      exact run_bind_of_ok _ (run_except_of_ok _ hinsert)
    have heffect : (effect cfg rt d (.create_site name) s).sites =
        s.sites.insert slug ⟨slug, strip isSpace name, d.now, ∅, ∅⟩ := by
      rw [effect, FakeBackend.serveSites, FakeBackend.create_site, hslug]
      dsimp only
      rw [hs]
      rfl
    rw [hrun]
    unfold SameSite
    rw [show w2.db.sites[slug]? = some ⟨strip isSpace name, .ofInstant created_at, ∅⟩ from
      get_insert_self .., heffect, get_insert_self]
    refine ⟨rfl, rfl, slug_from_name_valid hslug, Same.new ((hput _).trans (if_pos rfl)) (fun q hq => ?_) ..⟩
    refine (hput _).trans ?_
    rw [if_neg (by simpa using hq)]
    exact Tree.get_below_none (by rw [hn]; simp) hq
  · have hrun : (run (exec i) (createSection cfg rt slug (strip isSpace name) created_at) w).2 = w := by
      rw [createSection, run_bind_of_ok _ (run_site_by_slug slug), hr]
      rfl
    have heffect : effect cfg rt d (.create_site name) s = s := by
      rw [effect, FakeBackend.serveSites, FakeBackend.create_site, hslug]
      dsimp only
      rw [hs]
      rfl
    rw [hrun, heffect]
    exact h

/-- **Parking a site**, where nothing has the name yet that it is parked under. -/
theorem parkSite_section (h : SameSite cfg rt w s slug)
    (hdir : w.disk.get cfg.staging_dir = some .folder)
    (hfree : w.disk.get (parkedPath cfg slug ((w.oracle i).token_hex 4 (w.drawn i))) = none) :
    SameSite cfg rt (run (exec i) (parkSite cfg slug) w).2
      (effect cfg rt d (.delete_site slug (some slug)) s) slug := by
  rcases sameSite_cases h with ⟨hr, hs, hn⟩ | ⟨r, fs, hr, hs, hfs, hname, hslug, hsame⟩
  · have hrun : (run (exec i) (parkSite cfg slug) w).2 =
        { w with db := w.db.set_sites (w.db.sites.erase slug) } := by
      rw [parkSite, run_bind_of_ok _ (run_kind_none hn), if_neg (by simp)]
      rfl
    rw [hrun, show effect cfg rt d (.delete_site slug (some slug)) s = s from site_unknown hs]
    refine h.congr (fun _ => rfl) ?_ rfl
    exact (get_erase_self ..).trans hr.symm
  · set root := site_dir cfg slug with hroot
    set parked := parkedPath cfg slug ((w.oracle i).token_hex 4 (w.drawn i)) with hparked
    have hpne : parked ≠ [] := by simp [hparked, parkedPath]
    have hsp : ¬ root <+: parked := by
      have := not_site_prefix_staging cfg slug []
        [slug ++ lit ".deleting-" ++ (w.oracle i).token_hex 4 (w.drawn i)]
      rwa [List.append_nil] at this
    obtain ⟨t, hmove, ht⟩ := run_replace_folder (i := i) (w := drew w i) hsame.folder
      (by simp [hroot, site_dir]) hpne (by
        rw [hparked, parkedPath, List.dropLast_concat]
        exact hdir) hfree hsp
    have hrun : run (exec i) (parkSite cfg slug) w = (.ok (some parked), { drew w i with
        disk := t
        db := w.db.set_sites (w.db.sites.erase slug) }) := by
      rw [parkSite]
      refine (run_bind_of_ok _ (run_kind_folder hsame.folder)).trans ?_
      rw [if_pos (by simp)]
      have hdraw : run (exec i) (token_hex 4) w =
          (.ok ((w.oracle i).token_hex 4 (w.drawn i)), drew w i) := rfl
      refine (run_bind_of_ok _ ((run_bind_of_ok _ hdraw).trans (run_bind_of_ok _ hmove))).trans ?_
      exact run_bind_of_ok _ (run_query ..)
    have heffect : (effect cfg rt d (.delete_site slug (some slug)) s).sites = s.sites.erase slug := by
      rw [effect, FakeBackend.serveSites, FakeBackend.delete_site, site_known hs, hfs, if_neg (by simp)]
      rfl
    rw [hrun]
    unfold SameSite
    rw [show (w.db.set_sites (w.db.sites.erase slug)).sites[slug]? = none from get_erase_self ..,
      heffect,
      get_erase_self]
    dsimp only
    have hps : ¬ parked <+: root := by
      have := not_staging_prefix cfg slug [slug ++ lit ".deleting-" ++ (w.oracle i).token_hex 4
        (w.drawn i)] []
      rwa [List.append_nil] at this
    rw [ht, if_neg hps, if_pos List.prefix_rfl]

/-- A site is parked under the name that was drawn. -/
theorem parkSite_parked {p : Path Str} (h : (run (exec i) (parkSite cfg slug) w).1 = .ok (some p)) :
    p = parkedPath cfg slug ((w.oracle i).token_hex 4 (w.drawn i)) := by
  rw [parkSite, run_bind_of_ok _ (run_kind_of _)] at h
  split_ifs at h with hk
  · set hex := (w.oracle i).token_hex 4 (w.drawn i) with hhex
    have hdraw : run (exec i) (token_hex 4) w = (.ok hex, drew w i) := rfl
    rcases hm : run (exec i) (disk (.replace (site_dir cfg slug) (parkedPath cfg slug hex))) (drew w i)
      with ⟨e | u, w1⟩
    · rw [run_bind_of_error _ ((run_bind_of_ok _ hdraw).trans (run_bind_of_error _ hm))] at h
      cases h
    · rw [run_bind_of_ok _ ((run_bind_of_ok _ hdraw).trans (run_bind_of_ok _ hm))] at h
      exact (Option.some.inj (Except.ok.inj h)).symm
  · cases h

end PaperBoxing.Agreement.Sections
