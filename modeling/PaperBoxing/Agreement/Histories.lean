import PaperBoxing.Agreement.Refinement

/-! # Volumes that only the API has changed

The worlds that requests leave, one after another, from a volume with no site: any request with any
header, an upload whose body breaks off or whose declared length is false included. Each of them
agrees with some state of the fake, and so is an `ApiVolume` for every site.

* `reached_agree`: every reached world agrees with a state of the fake;
* `reached_volume`: what an upload relies on holds of every reached world. -/

namespace PaperBoxing.Agreement.Histories

open PaperBoxing.Lib PaperBoxing.Lib.Program PaperBoxing.Lib.Text PaperBoxing.Lib.Tables
open PaperBoxing.Lib.Trees PaperBoxing.Lib.Disk PaperBoxing.Common PaperBoxing.Common.Schema
open PaperBoxing.Common.Naming
open PaperBoxing.Common.FakeBackend (FakeState)
open PaperBoxing.Backend PaperBoxing.Backend.Db PaperBoxing.Backend.Calls PaperBoxing.Backend.Storage
open PaperBoxing.Backend.Alone PaperBoxing.Backend.Routes PaperBoxing.Backend.Accounts
open PaperBoxing.Backend.Frames PaperBoxing.Backend.Uploads PaperBoxing.Agreement.Shape
open PaperBoxing.Agreement.Relation PaperBoxing.Agreement.Upload PaperBoxing.Agreement.Refinement

/-- **No site yet**: the two folders are there and empty, and there is no row. -/
structure NoSite (cfg : Config) (w : World) : Prop where
  sites_dir : w.disk.get cfg.sites_dir = some .folder
  staging_dir : w.disk.get cfg.staging_dir = some .folder
  no_tree : ∀ p, p ≠ [] → w.disk.get (cfg.sites_dir ++ p) = none
  no_staging : ∀ p, p ≠ [] → w.disk.get (cfg.staging_dir ++ p) = none
  no_row : w.db.sites = ∅

/-- **The worlds that requests leave.** -/
inductive Reached (cfg : Config) (rt : Runtime) (hasher : Hasher) : World → Prop
  | start {w : World} (h : NoSite cfg w) : Reached cfg rt hasher w
  | step {w : World} (h : Reached cfg rt hasher w) (i : ℕ) (header : Option Str) (request : Request) :
      Reached cfg rt hasher (run (exec i) (handle cfg rt hasher header request) w).2

variable {cfg : Config} {rt : Runtime} {hasher : Hasher} {i : ℕ} {w : World} {s : FakeState}

/-- A request is answered in the world it leaves. -/
theorem handle_world (header : Option Str) (request : Request) (w : World) :
    (run (exec i) (handle cfg rt hasher header request) w).2 =
      (run (exec i) (route cfg rt hasher header request) w).2 := by
  rw [handle, answering, run_except]
  generalize run (exec i) (route cfg rt hasher header request) w = o
  rcases o with ⟨e | r, w1⟩
  · dsimp only
    split_ifs <;> rfl
  · rfl

/-- What uses the accounts only keeps the agreement. -/
theorem Agree.of_accounts {A : Type} (h : Agree cfg rt w s) {p : Code A} (hp : Uses ofAccounts p) :
    Agree cfg rt (run (exec i) p w).2 s :=
  h.transfer (run_sameSites hp w).disk (run_sameSites hp w).sites rfl

/-- A body that breaks off is not received. -/
theorem collected_broken (cfg : Config) (e : Exn) (chunks : List Bytes) (received : Bytes) :
    ∃ e', collected cfg (some e) chunks received = .error e' := by
  induction chunks generalizing received with
  | nil => exact ⟨e, rfl⟩
  | cons chunk chunks ih =>
    rw [collected]
    split_ifs
    · exact ih _
    · exact ⟨_, rfl⟩
    · exact ih _

/-- An upload whose body breaks off changes nothing, and one whose declared length is false comes to
what it would with none declared, unless it is refused at once. -/
theorem upload_agree (h : Agree cfg rt w s) (slug path : Str) (body : Incoming)
    (declared_length : Option ℤ) (overwrite : Bool) : ∃ s',
      Agree cfg rt (run (exec i) (Routes.upload_file cfg rt slug path body declared_length overwrite)
        w).2 s' := by
  by_cases hbody : body.ending = none ∧
      (declared_length.any fun n => (cfg.max_upload_bytes : ℤ) < n) = false
  · -- as if no length were declared
    have heq : Routes.upload_file cfg rt slug path body declared_length overwrite =
        Routes.upload_file cfg rt slug path body none overwrite := by
      unfold Routes.upload_file Storage.write_file
      rw [hbody.2]
      rfl
    have hwhole : Whole body none := ⟨hbody.1, nofun⟩
    rw [heq]
    exact ⟨_, (upload_file_step h ⟨someTime, [], []⟩ slug path hwhole overwrite).2⟩
  · refine ⟨s, ?_⟩
    rw [Routes.upload_file, run_bind, run_site h slug]
    rcases siteFound rt w slug with e | site
    · exact h
    dsimp only
    rw [Routes._valid_path]
    rcases validate_site_path rt path false with e | target
    · exact h
    rw [Prog.ret_bind, run_bind]
    have hkept : Agree cfg rt (run (exec i) (Storage.write_file cfg rt site.slug target body overwrite
        declared_length) w).2 s := by
      rw [Storage.write_file, run_bind, run_resolve]
      rcases resolved cfg rt w.disk site.slug target with e | located
      · exact h
      dsimp only
      rcases hd : declared_length.any fun n => (cfg.max_upload_bytes : ℤ) < n with _ | _
      · have hfresh : w.disk.get (nextStaging cfg w i) = none := by
          rw [nextStaging, stagingPath]
          exact h.staging _ (by simp)
        obtain ⟨e, he⟩ := Option.ne_none_iff_exists'.1 fun hnone => hbody ⟨hnone, hd⟩
        obtain ⟨e', he'⟩ := collected_broken cfg e body.chunks []
        rw [← he] at he'
        obtain ⟨d, w1, hrun, hk, hget, -⟩ := run_stage (i := i) rt body h.staging_dir hfresh
        rw [stagedAs, he'] at hrun
        rw [if_neg Bool.false_ne_true, run_bind_of_error _ hrun]
        exact h.of_same (fun q => by rw [hget, he', if_neg (by simp [Except.toOption])]) hk.db
      · exact h
    generalize run (exec i) (Storage.write_file cfg rt site.slug target body overwrite
        declared_length) w = o at hkept ⊢
    rcases o with ⟨_ | _, w1⟩ <;> exact hkept

/-- **A request keeps the agreement**, with some state of the fake. -/
theorem serve_agree (h : Agree cfg rt w s) (actor : Actor) (request : Request) :
    ∃ s', Agree cfg rt (run (exec i) (serve cfg rt hasher actor request) w).2 s' := by
  cases hsites : aboutSites request with
  | true =>
    by_cases hup : ∃ slug path body n overwrite, request = .upload_file slug path body n overwrite
    · obtain ⟨slug, path, body, n, overwrite, rfl⟩ := hup
      exact upload_agree h slug path body n overwrite
    · have hon : OnSites request := by
        cases request <;> first
          | trivial
          | exact absurd hsites Bool.false_ne_true
          | exact absurd ⟨_, _, _, _, _, rfl⟩ hup
      exact ⟨_, (serve_step hasher h ⟨i, ⟨someTime, [], []⟩, none, none, request⟩ hon actor).2⟩
  | false =>
    refine ⟨s, Agree.of_accounts h ?_⟩
    by_cases hdel : ∃ user_id, request = .delete_user user_id
    · obtain ⟨user_id, rfl⟩ := hdel
      exact uses_delete_user user_id
    · exact (uses_serve_accounts actor hsites fun user_id hu => hdel ⟨user_id, hu⟩).mono
        fun c hc => only_mono onAccounts_of_routes hc

/-- **Every reached world agrees with a state of the fake.** -/
theorem reached_agree (h : Reached cfg rt hasher w) : ∃ s, Agree cfg rt w s := by
  induction h with
  | @start w h =>
    exact ⟨_, Fresh.agree (s := ⟨∅, ∅, ∅, ∅⟩) ⟨h.sites_dir, h.staging_dir, h.no_tree, h.no_staging,
      h.no_row, rfl⟩⟩
  | @step w _ i header request ih =>
    obtain ⟨s, hs⟩ := ih
    rw [handle_world]
    by_cases hlogin : ∃ body, request = .login body
    · obtain ⟨body, rfl⟩ := hlogin
      exact ⟨s, Agree.of_accounts hs ((uses_login_route body).mono fun c hc =>
        only_mono onAccounts_of_routes hc)⟩
    · have hroute : route cfg rt hasher header request =
          (requires cfg rt request.route header >>= fun actor => serve cfg rt hasher actor request) := by
        cases request <;> first | rfl | exact absurd ⟨_, rfl⟩ hlogin
      have hreq := Agree.of_accounts (i := i) hs (uses_requires cfg rt request.route header)
      rw [hroute, run_bind]
      generalize run (exec i) (requires cfg rt request.route header) w = o at hreq ⊢
      rcases o with ⟨e | actor, w1⟩
      · exact ⟨s, hreq⟩
      · exact serve_agree hreq actor request

/-- **What an upload relies on** holds of every reached world and site. -/
theorem reached_volume (h : Reached cfg rt hasher w) (i : ℕ) {slug : Str} {r : SiteRec}
    (hr : w.db.sites[slug]? = some r) : ApiVolume cfg i w slug := by
  obtain ⟨s, hs⟩ := reached_agree h
  rcases hs.cases slug with ⟨hnone, -⟩ | ⟨r', fs, -, -, -, -, -, hsame⟩
  · rw [hr] at hnone
    cases hnone
  · refine ⟨⟨hs.sites_dir, Or.inr hsame.folder, hsame.plain⟩, hs.staging_dir, ?_⟩
    rw [nextStaging, stagingPath]
    exact hs.staging _ (by simp)

end PaperBoxing.Agreement.Histories
