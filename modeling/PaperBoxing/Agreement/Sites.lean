import PaperBoxing.Agreement.Files
import PaperBoxing.Agreement.Listing
import PaperBoxing.Agreement.Upload

/-! # The site routes of the backend and of the fake

The two backends answer any sequence of site and file requests alike, apart from the time stamps and
from the text that tells the cap of an upload. -/

namespace PaperBoxing.Agreement.Sites

open PaperBoxing.Lib PaperBoxing.Lib.Action PaperBoxing.Lib.Program PaperBoxing.Lib.Text
open PaperBoxing.Lib.IsoTime PaperBoxing.Lib.Tables PaperBoxing.Lib.Trees PaperBoxing.Lib.Disk
open PaperBoxing.Common PaperBoxing.Common.Schema PaperBoxing.Common.Naming
open PaperBoxing.Common.FakeBackend (FakeSite FakeState Fake Draw)
open PaperBoxing.Backend PaperBoxing.Backend.Db PaperBoxing.Backend.Calls PaperBoxing.Backend.Storage
open PaperBoxing.Backend.Alone PaperBoxing.Backend.Routes PaperBoxing.Agreement.Shape
open PaperBoxing.Agreement.Relation

variable {cfg : Config} {rt : Runtime} {i : ℕ} {w w' : World} {s s' : FakeState}

/-! ### Showing sites -/

theorem filesBelow_root (fs : FakeSite) : fs.filesBelow [] = fs.files := by
  refine Tables.ext fun p => ?_
  rw [FakeSite.filesBelow, get_filter_key, if_pos]
  rw [FakeBackend.prefixOf, if_pos rfl]
  rfl

/-- What `_public_site` answers. -/
def publicSite (cfg : Config) (db : Database) (site : SiteRow) : Site :=
  let rows := (db.files site.slug).filter fun path _ => _below [] path
  ⟨site.slug, site.name, site_url cfg.public_sites_url site.slug, site.created_at, rows.size,
    total (fun _ r => r.bytes) rows⟩

theorem run_public_site (site : SiteRow) :
    run (exec i) (Routes._public_site cfg site) w = (.ok (publicSite cfg w.db site), w) := rfl

/-- A base address keeps no slash at its end, however often they are removed. -/
theorem site_url_trimmed (base slug : Str) :
    site_url ((base.reverse.dropWhile (· == slash)).reverse) slug = site_url base slug := by
  rw [site_url, site_url, List.reverse_reverse, List.dropWhile_idempotent]

/-- **A site is shown alike.** -/
theorem public_agree {slug : Str} {r : SiteRec} {fs : FakeSite} (hr : w.db.sites[slug]? = some r)
    (hfs : fs.slug = slug) (hname : r.name = fs.name)
    (hsame : Same rt w.disk (site_dir cfg slug) fs r.files) :
    untimedSite (publicSite cfg w.db (Db._site slug r)) =
      untimedSite (FakeBackend.public_site cfg fs) := by
  have hfiles : w.db.files (Db._site slug r).slug = r.files := files_of_row hr
  have hcount := hsame.total_below (f := fun _ => 1) []
  have hbytes := hsame.total_below (f := id) []
  rw [filesBelow_root, ← size_eq_total, ← size_eq_total] at hcount
  rw [filesBelow_root] at hbytes
  simp only [untimedSite, publicSite, FakeBackend.public_site, hfiles, hcount, site_url_trimmed]
  simp only [id] at hbytes
  rw [hbytes, ← hfs, ← hname]
  rfl

theorem get_site_step (h : Agree cfg rt w s) (slug : Str) :
    Step cfg rt i (Routes.get_site cfg rt slug) (FakeBackend.get_site cfg rt slug) w s := by
  rw [Routes.get_site, FakeBackend.get_site]
  refine Step.site h fun r fs hr hs hfs hname hslug hsame => ?_
  exact Step.answered _ ⟨200, .site (FakeBackend.public_site cfg fs)⟩ w s
    (run_bind_of_ok _ (run_public_site _)) rfl
    ⟨rfl, congrArg Body.site (public_agree hr hfs hname hsame)⟩ h

theorem run_publicSites (rows : List SiteRow) :
    run (exec i) (Routes.publicSites cfg rows) w = (.ok (rows.map (publicSite cfg w.db)), w) := by
  induction rows with
  | nil => rfl
  | cons site rows ih =>
    rw [Routes.publicSites]
    refine (run_bind_of_ok _ (run_public_site _)).trans ?_
    exact run_bind_of_ok _ ih

theorem list_sites_step (h : Agree cfg rt w s) :
    Step cfg rt i (Routes.list_sites cfg) (FakeBackend.list_sites cfg) w s := by
  have hrun : run (exec i) (Routes.list_sites cfg) w = (.ok ⟨200, .site_list
      ((w.db.sites.toList.map fun r => Db._site r.1 r.2).map (publicSite cfg w.db))⟩, w) := by
    rw [Routes.list_sites]
    refine (run_bind_of_ok _ (run_query ..)).trans ?_
    exact run_bind_of_ok _ (run_publicSites _)
  refine Step.answered _ ⟨200, .site_list (s.sites.toList.map fun r =>
    FakeBackend.public_site cfg r.2)⟩ w s hrun rfl ⟨rfl, congrArg Body.site_list ?_⟩ h
  rw [List.map_map, List.map_map, List.map_map]
  refine rows_congr (f := fun slug r => untimedSite (publicSite cfg w.db (Db._site slug r)))
    (g := fun _ fs => untimedSite (FakeBackend.public_site cfg fs)) fun slug => ?_
  rcases h.cases slug with ⟨hr, hs, -⟩ | ⟨r, fs, hr, hs, hfs, hname, -, hsame⟩
  · rw [hr, hs]
    rfl
  · rw [hr, hs]
    exact congrArg some (public_agree hr hfs hname hsame)

/-! ### Creating and deleting a site -/

/-- A folder with nothing in it is a new site. -/
theorem Same.new {t : Files Str} {root : Path Str} (hroot : t.get root = some .folder)
    (hbelow : ∀ q, q ≠ [] → t.get (root ++ q) = none) (slug name : Str) (created_at : Instant) :
    Same rt t root ⟨slug, name, created_at, ∅, ∅⟩ ∅ := by
  have hget : ∀ q, t.get (root ++ q) = if q = [] then some .folder else none := by
    intro q
    split_ifs with hq
    · rw [hq, List.append_nil, hroot]
    · exact hbelow q hq
  constructor
  · exact hroot
  · intro q n hn
    rw [hget] at hn
    split_ifs at hn
    exact Or.inl (Option.some.inj hn).symm
  · intro q hq
    rw [hget] at hq
    split_ifs at hq with h0
    · rw [h0]
      exact Valid.nil
    · exact absurd rfl hq
  · intro q _
    rw [hget, get_empty]
    split_ifs <;> rfl
  · intro q _ hq
    rw [hget, if_neg hq, get_empty]
    rfl
  · intro p hp
    rw [get_empty] at hp
    exact absurd rfl hp
  · intro p hp
    rw [get_empty] at hp
    exact absurd rfl hp
  · intro q _
    rw [hget, get_empty]
    split_ifs <;> rfl
  · intro p hp
    rw [get_empty] at hp
    exact absurd rfl hp

theorem create_site_step (h : Agree cfg rt w s) (d : Draw) (name : Str) :
    Step cfg rt i (Routes.create_site cfg rt name) (FakeBackend.create_site cfg rt d name) w s := by
  rw [Routes.create_site]
  rcases hslug : slug_from_name rt name with why | slug
  · refine Step.refused (e := ⟨400, .invalid_name, why⟩) h rfl ?_
    rw [FakeBackend.create_site, hslug]
    rfl
  have hvalid := slug_from_name_valid hslug
  have hnow : run (exec i) Calls.now w = (.ok ((w.oracle i).now (w.drawn i)), drew w i) := rfl
  have h1 : Agree cfg rt (drew w i) s := h.of_same (fun q => rfl) rfl
  rcases h.cases slug with ⟨hr, hs, hroot⟩ | ⟨r, fs, hr, hs, -⟩
  · -- a new folder, and a new row
    set root := site_dir cfg slug with hroot'
    have hfits : w.disk.Fits root := Tree.fits_iff.2 ⟨by simp [hroot', site_dir], by
      rw [hroot', site_dir, List.dropLast_concat]
      exact h.sites_dir, by rw [hroot]; simp⟩
    have hput := Tree.get_put hfits (.folder : Node Str FileData)
    set site : SiteRow := ⟨slug, strip isSpace name, (w.oracle i).now (w.drawn i)⟩ with hsite
    set w1 : World := taken (drew w i) i slug with hw1
    set w2 : World := { w1 with
      disk := w.disk.put root .folder
      db := w.db.set_sites (w.db.sites.insert slug ⟨site.name, .ofInstant site.created_at, ∅⟩) }
      with hw2
    have hmk : run (exec i) (mkdirParents false root.reverse) w1 =
        (.ok (), { w1 with disk := w.disk.put root .folder }) := by
      have hd : run (exec i) (disk (.mkdir root)) w1 =
          (.ok (), { w1 with disk := w.disk.put root .folder }) :=
        run_disk_ok rfl fun _ => mkdir_of_none hroot hfits
      have hrev : root.reverse = slug :: cfg.sites_dir.reverse := by simp [hroot', site_dir]
      have hback : (slug :: cfg.sites_dir.reverse).reverse = root := by simp [hroot', site_dir]
      rw [hrev, mkdirParents, hback, run_except, hd]
    have hinsert : run (exec i) (query (.insert_site site))
        { w1 with disk := w.disk.put root .folder } = (.ok (), w2) := by
      refine (run_query ..).trans ?_
      have : Db.exec (.insert_site site) w.db = (.ok (), w2.db) := by
        rw [Db.exec, Db.insert_site, hsite, hr]
      exact congrArg (fun x : Except Exn Unit × Database =>
        (x.1, { w1 with disk := w.disk.put root .folder, db := x.2 })) this
    have hrun : run (exec i) (Storage.create_site cfg rt slug (strip isSpace name)
        ((w.oracle i).now (w.drawn i))) (drew w i) = (.ok site, freed w2 slug) := by
      refine run_held _ _ ?_
      refine (run_bind_of_ok _ (run_site_by_slug slug)).trans ?_
      rw [show (taken (drew w i) i slug).db.sites[slug]? = none from hr, if_neg (by simp)]
      refine (run_bind_of_ok _ (run_except_of_ok _ hmk)).trans ?_
      exact run_bind_of_ok _ (run_except_of_ok _ hinsert)
    have hrow : w2.db.sites[slug]? = some ⟨site.name, .ofInstant site.created_at, ∅⟩ :=
      get_insert_self ..
    have hsame : Same rt w2.disk root ⟨slug, strip isSpace name, d.now, ∅, ∅⟩ ∅ := by
      refine Same.new ((hput _).trans (if_pos rfl)) (fun q hq => ?_) _ _ _
      refine (hput _).trans ?_
      rw [if_neg (by simpa using hq)]
      exact Tree.get_below_none (by rw [hroot]; simp) hq
    have hagree : Agree cfg rt (freed w2 slug) { s with
        sites := s.sites.insert slug ⟨slug, strip isSpace name, d.now, ∅, ∅⟩ } := by
      refine ⟨?_, ?_, fun p hp => ?_, fun slug' => ?_⟩
      · refine (hput _).trans ?_
        have hne : cfg.sites_dir ≠ root := by
          intro hc
          apply not_site_prefix_sites_dir cfg slug
          rw [hc]
        rw [if_neg hne]
        exact h.sites_dir
      · refine (hput _).trans ?_
        have := sites_ne_staging cfg slug [] []
        rw [List.append_nil, List.append_nil] at this
        rw [if_neg this]
        exact h.staging_dir
      · refine (hput _).trans ?_
        have := sites_ne_staging cfg slug p []
        rw [List.append_nil] at this
        rw [if_neg this]
        exact h.staging p hp
      · rcases eq_or_ne slug' slug with rfl | hne
        · unfold SameSite
          rw [show (freed w2 slug').db.sites[slug']? = _ from hrow]
          rw [get_insert_self]
          exact ⟨rfl, rfl, hvalid, hsame⟩
        · refine (h.site slug').congr (fun q => ?_) ?_ ?_
          · refine (hput _).trans (if_neg fun hc => ?_)
            have := not_site_prefix_site cfg hne.symm [] q
            rw [List.append_nil] at this
            exact this (hc ▸ List.prefix_rfl)
          · exact get_insert_of_ne hne
          · exact get_insert_of_ne hne
    refine Step.answered _ ⟨201, .site (FakeBackend.public_site cfg
        ⟨slug, strip isSpace name, d.now, ∅, ∅⟩)⟩ (freed w2 slug) { s with
        sites := s.sites.insert slug ⟨slug, strip isSpace name, d.now, ∅, ∅⟩ }
      ((run_bind_of_ok _ hnow).trans ((run_bind_of_ok _ hrun).trans
        (run_bind_of_ok _ (run_public_site _)))) ?_ ?_ hagree
    · rw [FakeBackend.create_site, hslug]
      dsimp only
      rw [hs]
      rfl
    · refine ⟨rfl, congrArg Body.site ?_⟩
      have := public_agree (w := freed w2 slug) hrow rfl rfl hsame
      exact this
  · have hrun : run (exec i) (Storage.create_site cfg rt slug (strip isSpace name)
        ((w.oracle i).now (w.drawn i))) (drew w i) =
        (.error (.api ⟨409, .site_exists, lit "a site with the slug " ++ rt.repr slug ++
          lit " exists"⟩), freed (taken (drew w i) i slug) slug) := by
      refine run_held _ _ ?_
      refine (run_bind_of_ok _ (run_site_by_slug slug)).trans ?_
      rw [show (taken (drew w i) i slug).db.sites[slug]? = some r from hr, if_pos (by simp)]
      rfl
    refine Step.of_eq ((run_bind_of_ok _ hnow).trans (run_bind_of_error _ hrun)) ?_ (Match.api _)
      (h.of_same (fun q => rfl) rfl)
    rw [FakeBackend.create_site, hslug]
    dsimp only
    rw [hs]
    rfl

theorem delete_site_step (h : Agree cfg rt w s) (slug : Str) (confirm : Option Str) :
    Step cfg rt i (Routes.delete_site cfg rt slug confirm) (FakeBackend.delete_site rt slug confirm)
      w s := by
  rw [Routes.delete_site, FakeBackend.delete_site]
  refine Step.site h fun r fs hr hs hfs hname hslug hsame => ?_
  have hrslug : (Db._site slug r).slug = slug := rfl
  rw [hrslug, hfs]
  by_cases hconfirm : confirm = some slug
  · rw [if_neg (not_not.2 hconfirm), if_neg (not_not.2 hconfirm)]
    set root := site_dir cfg slug with hroot
    set w1 : World := taken w i slug with hw1
    set parked := parkedPath cfg slug ((w.oracle i).token_hex 4 (w.drawn i)) with hparked
    have hpne : parked ≠ [] := by simp [hparked, parkedPath]
    have hsp : ¬ root <+: parked := by
      have := not_site_prefix_staging cfg slug []
        [slug ++ lit ".deleting-" ++ (w.oracle i).token_hex 4 (w.drawn i)]
      rwa [List.append_nil] at this
    have hempty : ∀ q, w.disk.get (parked ++ q) = none := by
      intro q
      rw [hparked, parkedPath, List.append_assoc]
      exact h.staging _ (by simp)
    have hpempty : w.disk.get parked = none := by
      have := hempty []
      rwa [List.append_nil] at this
    obtain ⟨t, hrun, ht⟩ := run_replace_folder (i := i) (w := drew w1 i) hsame.folder
      (by simp [hroot, site_dir]) hpne (by
        rw [hparked, parkedPath, List.dropLast_concat]
        exact h.staging_dir) hpempty hsp
    set w2 : World := { drew w1 i with
      disk := t
      db := w.db.set_sites (w.db.sites.erase slug) } with hw2
    have hpark : run (exec i) (parkSite cfg slug) w1 = (.ok (some parked), w2) := by
      rw [parkSite]
      refine (run_bind_of_ok _ (run_kind_folder (w := w1) hsame.folder)).trans ?_
      rw [if_pos (by simp)]
      have hmove : run (exec i) (token_hex 4 >>= fun hex =>
          disk (.replace root (parkedPath cfg slug hex)) >>= fun _ =>
            Prog.ret (some (parkedPath cfg slug hex))) w1 =
          (.ok (some parked), { drew w1 i with disk := t }) := by
        refine (run_bind_of_ok _ (rfl : run (exec i) (token_hex 4) w1 =
          (.ok ((w.oracle i).token_hex 4 (w.drawn i)), drew w1 i))).trans ?_
        exact run_bind_of_ok _ hrun
      exact (run_bind_of_ok _ hmove).trans (run_bind_of_ok _ (run_query ..))
    have hfolder : t.get parked = some .folder := by
      rw [ht, if_pos List.prefix_rfl, List.drop_length, List.append_nil]
      exact hsame.folder
    set w3 : World := { freed w2 slug with disk := t.prune parked } with hw3
    have hdelete : run (exec i) (Storage.delete_site cfg slug) w = (.ok (), w3) := by
      rw [Storage.delete_site]
      refine (run_bind_of_ok _ (run_held _ _ hpark)).trans ?_
      refine (run_bind_of_ok _ (run_kind_folder (w := freed w2 slug) hfolder)).trans ?_
      rw [if_pos rfl]
      exact run_rmtree (w := freed w2 slug) true hpne hfolder
    have hget : ∀ q, w3.disk.get q = if root <+: q then none else w.disk.get q := by
      intro q
      refine (Tree.get_prune hpne q).trans ?_
      rw [ht]
      split_ifs with h1 h2
      · rfl
      · obtain ⟨x, rfl⟩ := h1
        exact (hempty x).symm
      · rfl
      · rfl
    refine Step.answered ⟨204, .empty⟩ ⟨204, .empty⟩ w3 { s with sites := s.sites.erase slug }
      (run_bind_of_ok _ hdelete) rfl (Alike.refl _) ⟨?_, ?_, fun p hp => ?_, fun slug' => ?_⟩
    · rw [hget, if_neg (not_site_prefix_sites_dir cfg slug)]
      exact h.sites_dir
    · have := not_site_prefix_staging cfg slug [] []
      rw [List.append_nil, List.append_nil] at this
      rw [hget, if_neg this]
      exact h.staging_dir
    · have := not_site_prefix_staging cfg slug [] p
      rw [List.append_nil] at this
      rw [hget, if_neg this]
      exact h.staging p hp
    · rcases eq_or_ne slug' slug with rfl | hne
      · unfold SameSite
        rw [show w3.db.sites[slug']? = none from get_erase_self .., get_erase_self]
        dsimp only
        rw [hget, if_pos List.prefix_rfl]
      · refine (h.site slug').congr (fun q => ?_) (get_erase_of_ne hne) (get_erase_of_ne hne)
        have := not_site_prefix_site cfg hne.symm [] q
        rw [List.append_nil] at this
        rw [hget, if_neg this]
  · rw [if_pos hconfirm, if_pos hconfirm]
    exact Step.refused (e := ⟨400, .confirm_mismatch, lit "pass ?confirm=" ++ slug ++
      lit " to delete the site"⟩) h rfl rfl

end PaperBoxing.Agreement.Sites
