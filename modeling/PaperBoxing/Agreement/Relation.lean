import PaperBoxing.Agreement.Shape

/-! # The backend and its fake, related

What is compared of two answers, and `Agree`, which relates the state of the backend to that of the
fake: the same sites, each the same below its folder (`Agreement.Shape`), and nothing in staging.

* `Step.site`, `Step.path`: the look-ups the routes begin with agree;
* `Agree.change`: one site changes, the same way on both sides. -/

namespace PaperBoxing.Agreement.Relation

open PaperBoxing.Lib PaperBoxing.Lib.Action PaperBoxing.Lib.Program PaperBoxing.Lib.Text
open PaperBoxing.Lib.IsoTime PaperBoxing.Lib.Tables PaperBoxing.Lib.Trees PaperBoxing.Lib.Disk
open PaperBoxing.Common PaperBoxing.Common.Schema PaperBoxing.Common.Naming
open PaperBoxing.Common.FakeBackend (FakeSite FakeState Fake Draw)
open PaperBoxing.Backend PaperBoxing.Backend.Db PaperBoxing.Backend.Calls PaperBoxing.Backend.Storage
open PaperBoxing.Backend.Alone PaperBoxing.Backend.Routes PaperBoxing.Agreement.Shape

/-! ### What is compared -/

/-- The instant that stands for every instant. -/
def someTime : Instant := ⟨0, zero_lt⟩

def untimedSite (site : Site) : Site := { site with created_at := someTime }

def untimedEntry (entry : FileEntry) : FileEntry := { entry with modified_at := someTime }

/-- A body without its time stamps. -/
def untimed : Body → Body
  | .site site => .site (untimedSite site)
  | .site_list sites => .site_list (sites.map untimedSite)
  | .listing listing => .listing { listing with entries := listing.entries.map untimedEntry }
  | body => body

/-- A body without its time stamps and without the text that tells the cap of an upload. -/
def shown : Body → Body
  | .error .payload_too_large _ => .error .payload_too_large []
  | body => untimed body

/-- Two answers that are alike. -/
def Alike (r r' : Response) : Prop := r.status = r'.status ∧ shown r.body = shown r'.body

theorem Alike.refl (r : Response) : Alike r r := ⟨rfl, rfl⟩

/-- Two outcomes that are answered alike. -/
def Match : Except Exn Response → Except Exn Response → Prop
  | .ok r, .ok r' => Alike r r'
  | .error e, .error e' => e ≠ .cancelled ∧ Alike (errorResponse e) (errorResponse e')
  | _, _ => False

theorem Match.api (e : ApiError) : Match (.error (.api e)) (.error (.api e)) :=
  ⟨by simp, Alike.refl _⟩

/-! ### The relation -/

/-- The site under a slug is the same one on both sides. -/
def SameSite (cfg : Config) (rt : Runtime) (w : World) (s : FakeState) (slug : Str) : Prop :=
  match w.db.sites[slug]?, s.sites[slug]? with
  | none, none => w.disk.get (site_dir cfg slug) = none
  | some r, some fs => fs.slug = slug ∧ r.name = fs.name ∧ IsSlug slug ∧
      Same rt w.disk (site_dir cfg slug) fs r.files
  | _, _ => False

/-- **The two backends agree.** -/
structure Agree (cfg : Config) (rt : Runtime) (w : World) (s : FakeState) : Prop where
  sites_dir : w.disk.get cfg.sites_dir = some .folder
  staging_dir : w.disk.get cfg.staging_dir = some .folder
  staging : ∀ p, p ≠ [] → w.disk.get (cfg.staging_dir ++ p) = none
  site : ∀ slug, SameSite cfg rt w s slug

variable {cfg : Config} {rt : Runtime} {i : ℕ} {w w' : World} {s s' : FakeState}

/-- **One step of each side**: alike outcomes, and the two agree again. -/
def Step (cfg : Config) (rt : Runtime) (i : ℕ) (p : Code Response) (q : Fake Response) (w : World)
    (s : FakeState) : Prop :=
  Match (run (exec i) p w).1 (q s).1 ∧ Agree cfg rt (run (exec i) p w).2 (q s).2

theorem Step.of_eq {p : Code Response} {q : Fake Response} {o o' : Except Exn Response}
    {w' : World} {s' : FakeState} (hp : run (exec i) p w = (o, w')) (hq : q s = (o', s')) (hm : Match o o')
    (ha : Agree cfg rt w' s') : Step cfg rt i p q w s := by
  rw [Step, hp, hq]
  exact ⟨hm, ha⟩

/-- An answer on both sides. -/
theorem Step.answered {p : Code Response} {q : Fake Response} (r r' : Response) (w' : World)
    (s' : FakeState) (hp : run (exec i) p w = (.ok r, w')) (hq : q s = (.ok r', s'))
    (hr : Alike r r') (ha : Agree cfg rt w' s') : Step cfg rt i p q w s := Step.of_eq hp hq hr ha

/-- The same refusal on both sides. -/
theorem Step.refused {p : Code Response} {q : Fake Response} {e : ApiError} (h : Agree cfg rt w s)
    (hp : run (exec i) p w = (.error (.api e), w)) (hq : q s = (.error (.api e), s)) :
    Step cfg rt i p q w s := Step.of_eq hp hq (Match.api e) h

/-- The case of a slug: a site on both sides, or on neither. -/
theorem Agree.cases (h : Agree cfg rt w s) (slug : Str) :
    (w.db.sites[slug]? = none ∧ s.sites[slug]? = none ∧ w.disk.get (site_dir cfg slug) = none) ∨
    ∃ r fs, w.db.sites[slug]? = some r ∧ s.sites[slug]? = some fs ∧ fs.slug = slug ∧
      r.name = fs.name ∧ IsSlug slug ∧ Same rt w.disk (site_dir cfg slug) fs r.files := by
  have := h.site slug
  unfold SameSite at this
  rcases hr : w.db.sites[slug]? with _ | r <;> rcases hs : s.sites[slug]? with _ | fs <;>
    rw [hr, hs] at this
  · exact Or.inl ⟨rfl, rfl, this⟩
  · exact this.elim
  · exact this.elim
  · exact Or.inr ⟨r, fs, rfl, rfl, this⟩

theorem SameSite.congr {slug : Str} (h : SameSite cfg rt w s slug)
    (hd : ∀ q, w'.disk.get (site_dir cfg slug ++ q) = w.disk.get (site_dir cfg slug ++ q))
    (hr : w'.db.sites[slug]? = w.db.sites[slug]?) (hf : s'.sites[slug]? = s.sites[slug]?) :
    SameSite cfg rt w' s' slug := by
  unfold SameSite at h ⊢
  rw [hr, hf]
  have hroot := hd []
  rw [List.append_nil] at hroot
  generalize w.db.sites[slug]? = o at h ⊢
  generalize s.sites[slug]? = o' at h ⊢
  rcases o with _ | r <;> rcases o' with _ | fs
  · exact hroot.trans h
  · exact h
  · exact h
  · exact ⟨h.1, h.2.1, h.2.2.1, h.2.2.2.congr (funext fun q => (hd q).symm)⟩

theorem Agree.locked (h : Agree cfg rt w s) (locks : Str → Option ℕ) :
    Agree cfg rt { w with locks := locks } s := ⟨h.sites_dir, h.staging_dir, h.staging, h.site⟩

theorem Agree.of_same (h : Agree cfg rt w s) (hd : ∀ q, w'.disk.get q = w.disk.get q)
    (hdb : w'.db = w.db) : Agree cfg rt w' s :=
  ⟨(hd _).trans h.sites_dir, (hd _).trans h.staging_dir, fun p hp => (hd _).trans (h.staging p hp),
    fun slug => (h.site slug).congr (fun _ => hd _) (by rw [hdb]) rfl⟩

/-- The relation looks at the tree and at the tables of sites only. -/
theorem Agree.transfer (h : Agree cfg rt w s) (hd : w'.disk = w.disk)
    (hdb : w'.db.sites = w.db.sites) (hs : s'.sites = s.sites) : Agree cfg rt w' s' :=
  ⟨by rw [hd]; exact h.sites_dir, by rw [hd]; exact h.staging_dir,
    fun p hp => by rw [hd]; exact h.staging p hp,
    fun slug => (h.site slug).congr (fun q => by rw [hd]) (by rw [hdb]) (by rw [hs])⟩

/-- **One site changes**, on both sides: the same site again below its folder, with nothing changed
outside it, makes the two agree again. -/
theorem Agree.change (h : Agree cfg rt w s) {slug : Str} {r : SiteRec} {fs : FakeSite}
    (fs' : FakeSite) (f : Index → Index) (hr : w.db.sites[slug]? = some r) (hname : r.name = fs.name)
    (hslug : IsSlug slug) (hfs : fs'.slug = slug) (hfn : fs'.name = fs.name)
    (hsame : Same rt w'.disk (site_dir cfg slug) fs' (f r.files))
    (hdb : w'.db = w.db.set_files slug f) (hs' : s'.sites = s.sites.insert fs'.slug fs')
    (hout : ∀ q, ¬ site_dir cfg slug <+: q → w'.disk.get q = w.disk.get q) :
    Agree cfg rt w' s' := by
  rw [hfs] at hs'
  refine ⟨?_, ?_, fun p hp => ?_, fun slug' => ?_⟩
  · rw [hout _ (not_site_prefix_sites_dir cfg slug), h.sites_dir]
  · have := not_site_prefix_staging cfg slug [] []
    rw [List.append_nil, List.append_nil] at this
    rw [hout _ this, h.staging_dir]
  · have := not_site_prefix_staging cfg slug [] p
    rw [List.append_nil] at this
    rw [hout _ this, h.staging p hp]
  · rcases eq_or_ne slug' slug with rfl | hne
    · unfold SameSite
      rw [hdb, get_sites_set_files, if_pos rfl, hr, hs', get_insert_self]
      exact ⟨hfs, hname.trans hfn.symm, hslug, hsame⟩
    · refine (h.site slug').congr (fun q => hout _ ?_) ?_ ?_
      · have := not_site_prefix_site cfg hne.symm [] q
        rwa [List.append_nil] at this
      · rw [hdb, get_sites_set_files, if_neg hne]
      · rw [hs', get_insert_of_ne hne]

/-- A held section that refuses. -/
theorem Step.refused_held {A : Type} {slug : Str} {p : Code A} {k : A → Code Response}
    {q : Fake Response} {e : ApiError} (h : Agree cfg rt w s)
    (hp : run (exec i) p (taken w i slug) = (.error (.api e), taken w i slug))
    (hq : q s = (.error (.api e), s)) : Step cfg rt i (hold slug p >>= k) q w s :=
  Step.of_eq (run_bind_of_error _ (run_held _ _ hp)) hq (Match.api e) ((h.locked _).locked _)

/-! ### Looking a site up -/

/-- What `_site` answers. -/
def siteFound (rt : Runtime) (w : World) (slug : Str) : Except Exn SiteRow :=
  match w.db.sites[slug]? with
  | some r => .ok (Db._site slug r)
  | none => .error (.api ⟨404, .not_found, lit "no site " ++ rt.repr slug⟩)

theorem run_site (h : Agree cfg rt w s) (slug : Str) :
    run (exec i) (Routes._site rt slug) w = (siteFound rt w slug, w) := by
  rw [Routes._site, siteFound]
  rcases h.cases slug with ⟨hr, -, -⟩ | ⟨r, fs, hr, -, -, -, hslug, -⟩
  · rw [hr]
    rcases validate_slug rt slug with e | u
    · rfl
    · refine (run_bind_of_ok _ (run_site_by_slug slug)).trans ?_
      rw [hr]
      rfl
  · rw [hr, hslug.validate rt]
    refine (run_bind_of_ok _ (run_site_by_slug slug)).trans ?_
    rw [hr]
    rfl

/-- **A route about a site**: it is looked up first, on both sides. -/
theorem Step.site (h : Agree cfg rt w s) {slug : Str} {p : SiteRow → Code Response}
    {q : FakeSite → Fake Response}
    (hpq : ∀ r fs, w.db.sites[slug]? = some r → s.sites[slug]? = some fs → fs.slug = slug →
      r.name = fs.name → IsSlug slug → Same rt w.disk (site_dir cfg slug) fs r.files →
      Step cfg rt i (p (Db._site slug r)) (q fs) w s) :
    Step cfg rt i (Routes._site rt slug >>= p) (FakeBackend._site rt slug >>= q) w s := by
  rcases h.cases slug with ⟨hr, hs, -⟩ | ⟨r, fs, hr, hs, hrest⟩
  · have hreal : run (exec i) (Routes._site rt slug) w =
        (.error (.api ⟨404, .not_found, lit "no site " ++ rt.repr slug⟩), w) := by
      rw [run_site h, siteFound, hr]
    have hfake : FakeBackend._site rt slug s =
        (.error (.api ⟨404, .not_found, lit "no site " ++ rt.repr slug⟩), s) := by
      rw [FakeBackend._site, hs]
      rfl
    exact Step.of_eq (run_bind_of_error _ hreal) (Act.bind_of_error hfake) (Match.api _) h
  · have hreal : run (exec i) (Routes._site rt slug) w = (.ok (Db._site slug r), w) := by
      rw [run_site h, siteFound, hr]
    have hfake : FakeBackend._site rt slug s = (.ok fs, s) := by
      rw [FakeBackend._site, hs]
    rw [Step, run_bind_of_ok _ hreal, Act.bind_of_ok hfake]
    exact hpq r fs hr hs hrest.1 hrest.2.1 hrest.2.2.1 hrest.2.2.2

/-- **A route about a path**: it is checked, on both sides. -/
theorem Step.path (h : Agree cfg rt w s) {raw : Str} {allow_root : Bool} {p : Str → Code Response}
    {q : Str → Fake Response}
    (hpq : ∀ segs, Valid segs → (segs = [] → allow_root = true) →
      Step cfg rt i (p (join segs)) (q (join segs)) w s) :
    Step cfg rt i (Routes._valid_path rt raw allow_root >>= p)
      (FakeBackend._valid_path rt raw allow_root >>= q) w s := by
  rw [Routes._valid_path, FakeBackend._valid_path]
  rcases hv : validate_site_path rt raw allow_root with e | path
  · exact Step.of_eq rfl rfl (Match.api _) h
  · obtain ⟨⟨segs, hs, rfl⟩, hroot⟩ := validate_site_path_ok hv
    exact hpq segs hs fun h0 => hroot (by rw [h0]; rfl)

/-- No path of a site that is the same on both sides passes through a link. -/
theorem resolved_same {fs : FakeSite} {idx : Index} {slug : Str} {segs : List Str}
    (h : Same rt w.disk (site_dir cfg slug) fs idx) (hv : Valid segs) :
    resolved cfg rt w.disk slug (join segs) = .ok (site_dir cfg slug ++ segs) := by
  have hclear : ∀ q, isLink (w.disk.get (site_dir cfg slug ++ q)) = false := by
    intro q
    rcases hg : w.disk.get (site_dir cfg slug ++ q) with _ | n
    · rfl
    · rcases h.plain q n hg with rfl | ⟨d, rfl⟩ <;> rfl
  have hroot := hclear []
  rw [List.append_nil] at hroot
  rw [resolved_of_clear hroot (linked_of_clear hclear _), segments_join hv]

end PaperBoxing.Agreement.Relation
