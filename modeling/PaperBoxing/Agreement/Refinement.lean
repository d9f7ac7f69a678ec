import PaperBoxing.Agreement.Sites
import PaperBoxing.Backend.Frames

/-! # The site routes refine the fake

Both backends start with no site and serve the same requests, one at a time, each let in on both
sides. The answers are alike at every step (`answers_alike`), up to the time stamps and up to the
text that tells the cap of an upload, which the two word differently (`cap_told_differently`). -/

namespace PaperBoxing.Agreement.Refinement

open PaperBoxing.Lib PaperBoxing.Lib.Action PaperBoxing.Lib.Program PaperBoxing.Lib.Text
open PaperBoxing.Lib.IsoTime PaperBoxing.Lib.Tables PaperBoxing.Lib.Trees PaperBoxing.Lib.Disk
open PaperBoxing.Common PaperBoxing.Common.Scopes PaperBoxing.Common.Schema PaperBoxing.Common.Naming
open PaperBoxing.Common.FakeBackend (FakeSite FakeState FakeUser FakeToken Fake Draw)
open PaperBoxing.Backend PaperBoxing.Backend.Db PaperBoxing.Backend.Calls PaperBoxing.Backend.Storage
open PaperBoxing.Backend.Accounts PaperBoxing.Backend.Alone PaperBoxing.Backend.Routes
open PaperBoxing.Backend.Frames PaperBoxing.Agreement.Shape PaperBoxing.Agreement.Relation
open PaperBoxing.Agreement.Upload PaperBoxing.Agreement.Sites

/-! ### Requests to both -/

/-- A request on a site or on its files, an upload arriving whole. -/
def OnSites : Request → Prop
  | .list_sites | .create_site _ | .get_site _ | .delete_site _ _ | .list_files _ _
  | .download_file _ _ | .delete_file _ _ | .delete_folder _ _ _ => True
  | .upload_file _ _ body declared_length _ => Whole body declared_length
  | _ => False

/-- A request, asked of both backends: the thread that serves it, what the fake draws, and the
headers that go with it on each side. -/
structure Asked : Type where
  tid : ℕ
  draw : Draw
  header : Option Str
  fake_header : Option Str
  request : Request

section
variable (cfg : Config) (rt : Runtime) (hasher : Hasher)

/-- What the backend does with a request. -/
def Asked.real (a : Asked) (w : World) : Except Exn Response × World :=
  run (exec a.tid) (handle cfg rt hasher a.header a.request) w

/-- What the fake does with a request. -/
def Asked.fake (a : Asked) (s : FakeState) : Response × FakeState :=
  FakeBackend.answer (FakeBackend.route cfg rt a.draw a.fake_header a.request) s

/-- The answers of the backend, one after another. -/
def realAnswers : List Asked → World → List (Except Exn Response)
  | [], _ => []
  | a :: as, w => (a.real cfg rt hasher w).1 :: realAnswers as (a.real cfg rt hasher w).2

/-- The answers of the fake, one after another. -/
def fakeAnswers : List Asked → FakeState → List Response
  | [], _ => []
  | a :: as, s => (a.fake cfg rt s).1 :: fakeAnswers as (a.fake cfg rt s).2

/-- Whether a request is let in, on both sides. -/
def Asked.letIn (a : Asked) (w : World) (s : FakeState) : Bool :=
  (run (exec a.tid) (requires cfg rt a.request.route a.header) w).1.toBool &&
    (FakeBackend._authorize cfg a.draw a.request.route a.fake_header s).1.toBool

/-- **Every request is fully authorised** when its turn comes. -/
def allLetIn : List Asked → World → FakeState → Bool
  | [], _, _ => true
  | a :: as, w, s =>
    a.letIn cfg rt w s && allLetIn as (a.real cfg rt hasher w).2 (a.fake cfg rt s).2

/-- **Both start with no site.** -/
structure Fresh (w : World) (s : FakeState) : Prop where
  sites_dir : w.disk.get cfg.sites_dir = some .folder
  staging_dir : w.disk.get cfg.staging_dir = some .folder
  no_tree : ∀ p, p ≠ [] → w.disk.get (cfg.sites_dir ++ p) = none
  no_staging : ∀ p, p ≠ [] → w.disk.get (cfg.staging_dir ++ p) = none
  no_row : w.db.sites = ∅
  no_fake : s.sites = ∅

end

variable {cfg : Config} {rt : Runtime} {hasher : Hasher} {w w' : World} {s s' : FakeState}

theorem Fresh.agree (h : Fresh cfg w s) : Agree cfg rt w s := by
  refine ⟨h.sites_dir, h.staging_dir, h.no_staging, fun slug => ?_⟩
  unfold SameSite
  rw [h.no_row, h.no_fake, get_empty, get_empty]
  exact h.no_tree [slug] (by simp)

/-! ### Being let in -/

theorem resolve_token_sites (cfg : Config) (s : FakeState) (d : Draw) (header : Option Str) :
    (FakeBackend._resolve_token cfg d header s).2.sites = s.sites := by
  unfold FakeBackend._resolve_token
  rcases FakeBackend._bearer header with _ | secret
  · rfl
  dsimp only
  rcases s.secrets[secret]? with _ | token_id
  · rfl
  dsimp only
  rcases s.tokens[token_id]? with _ | token
  · rfl
  dsimp only
  split_ifs
  · rfl
  · rcases d.now.add (days cfg.session_days) with _ | e <;> rfl
  · rfl

/-- **The fake's authorisation leaves the sites alone**, and finds a token on every route that is not
public. -/
theorem authorize_cases (cfg : Config) (s : FakeState) (d : Draw) {name : RouteName}
    (hname : route_access name ≠ .public_) (header : Option Str) :
    (FakeBackend._authorize cfg d name header s).2.sites = s.sites ∧
    ∀ o, (FakeBackend._authorize cfg d name header s).1 = .ok o → ∃ token, o = some token := by
  have hsites := resolve_token_sites cfg s d header
  rw [FakeBackend._authorize, Act.bind_apply]
  generalize FakeBackend._resolve_token cfg d header s = r at hsites ⊢
  obtain ⟨_ | token, s1⟩ := r
  · exact ⟨hsites, fun o ho => by cases ho⟩
  · dsimp only at hsites ⊢
    rw [if_neg hname]
    rcases token with _ | token
    · exact ⟨hsites, fun o ho => by cases ho⟩
    · dsimp only
      split_ifs
      · exact ⟨hsites, fun o ho => ⟨token, by cases ho; rfl⟩⟩
      · exact ⟨hsites, fun o ho => by cases ho⟩
      · exact ⟨hsites, fun o ho => by cases ho⟩

theorem access_of_onSites {request : Request} (h : OnSites request) :
    route_access request.route ≠ .public_ := by
  cases request <;> first | exact h.elim | exact Access.noConfusion

/-! ### One request, and a run -/

/-- **One step of every site route**, once the caller is let in. -/
theorem serve_step (hasher : Hasher) (h : Agree cfg rt w s) (a : Asked) (ha : OnSites a.request)
    (actor : Actor) :
    Step cfg rt a.tid (serve cfg rt hasher actor a.request)
      (FakeBackend.serveSites cfg rt a.draw a.request) w s := by
  obtain ⟨i, d, header, fake_header, request⟩ := a
  cases request with
  | list_sites => exact list_sites_step h
  | create_site name => exact create_site_step h d name
  | get_site slug => exact get_site_step h slug
  | delete_site slug confirm => exact delete_site_step h slug confirm
  | list_files slug path => exact Listing.list_files_step h slug path
  | upload_file slug path body declared_length overwrite =>
    exact upload_file_step h d slug path ha overwrite
  | download_file slug path => exact Files.download_file_step h slug path
  | delete_file slug path => exact Files.delete_file_step h slug path
  | delete_folder slug path recursive => exact Files.delete_folder_step h slug path recursive
  | _ => exact ha.elim

theorem route_eq (header : Option Str) {request : Request} (h : OnSites request) :
    route cfg rt hasher header request =
      (requires cfg rt request.route header >>= fun actor => serve cfg rt hasher actor request) := by
  cases request <;> first | exact h.elim | rfl

theorem fake_route_eq {d : Draw} {header : Option Str} {request : Request} (h : OnSites request)
    {token : FakeToken}
    (ht : FakeBackend._authorize cfg d request.route header s = (.ok (some token), s')) :
    FakeBackend.route cfg rt d header request s = FakeBackend.serveSites cfg rt d request s' := by
  rw [FakeBackend.route, Act.bind_of_ok ht]
  cases request <;> first | exact h.elim | rfl

/-- **One request on both sides**: alike answers, and the two agree again. -/
theorem asked_step (hasher : Hasher) (h : Agree cfg rt w s) {a : Asked} (ha : OnSites a.request)
    (hl : a.letIn cfg rt w s = true) :
    (∃ r, (a.real cfg rt hasher w).1 = .ok r ∧ Alike r (a.fake cfg rt s).1) ∧
    Agree cfg rt (a.real cfg rt hasher w).2 (a.fake cfg rt s).2 := by
  rw [Asked.letIn, Bool.and_eq_true] at hl
  obtain ⟨hreal, hfake⟩ := hl
  have hsame := run_sameSites (i := a.tid) (uses_requires cfg rt a.request.route a.header) w
  have hauth := authorize_cases cfg s a.draw (access_of_onSites ha) a.fake_header
  rcases hr : run (exec a.tid) (requires cfg rt a.request.route a.header) w with ⟨_ | actor, w1⟩
  · rw [hr] at hreal
    cases hreal
  rcases hf : FakeBackend._authorize cfg a.draw a.request.route a.fake_header s with ⟨_ | o, s1⟩
  · rw [hf] at hfake
    cases hfake
  rw [hr] at hsame
  rw [hf] at hauth
  obtain ⟨token, rfl⟩ := hauth.2 o rfl
  obtain ⟨hm, hagree⟩ := serve_step hasher
    (h.transfer hsame.disk hsame.sites hauth.1) a ha actor
  have hroute : run (exec a.tid) (route cfg rt hasher a.header a.request) w =
      run (exec a.tid) (serve cfg rt hasher actor a.request) w1 := by
    rw [route_eq _ ha, run_bind_of_ok _ hr]
  rw [Asked.real, Asked.fake, handle, answering, run_except, hroute, FakeBackend.answer,
    fake_route_eq ha hf]
  generalize run (exec a.tid) (serve cfg rt hasher actor a.request) w1 = o at hm hagree ⊢
  generalize FakeBackend.serveSites cfg rt a.draw a.request s1 = o' at hm hagree ⊢
  obtain ⟨_ | r, w2⟩ := o <;> obtain ⟨_ | r', s2⟩ := o'
  · obtain ⟨hne, halike⟩ := hm
    dsimp only
    rw [if_neg hne]
    exact ⟨⟨_, rfl, halike⟩, hagree⟩
  · exact hm.elim
  · exact hm.elim
  · exact ⟨⟨r, rfl, hm⟩, hagree⟩

/-- **A run on both sides**, from any two states that agree. -/
theorem agree_answers : ∀ (as : List Asked) {w : World} {s : FakeState}, Agree cfg rt w s →
    (∀ a ∈ as, OnSites a.request) → allLetIn cfg rt hasher as w s = true →
    List.Forall₂ (fun o r' => ∃ r, o = .ok r ∧ Alike r r') (realAnswers cfg rt hasher as w)
      (fakeAnswers cfg rt as s)
  | [], _, _, _, _, _ => .nil
  | a :: as, w, s, h, ha, hl => by
    rw [allLetIn, Bool.and_eq_true] at hl
    obtain ⟨hans, hnext⟩ := asked_step hasher h (ha a (by simp)) hl.1
    exact .cons hans (agree_answers as hnext (fun b hb => ha b (by simp [hb])) hl.2)

/-- **The site routes refine the fake**: from no site on, every answer has the status, the code and
the body of the fake's, apart from time stamps and from the text that tells the cap. -/
theorem answers_alike (as : List Asked) (h : Fresh cfg w s) (ha : ∀ a ∈ as, OnSites a.request)
    (hl : allLetIn cfg rt hasher as w s = true) :
    List.Forall₂ (fun o r' => ∃ r, o = .ok r ∧ Alike r r') (realAnswers cfg rt hasher as w)
      (fakeAnswers cfg rt as s) :=
  agree_answers as h.agree ha hl

/-! ### On the small backend -/

/-- The fake with the account and the agent token of the small backend. -/
def smallFake : FakeState where
  users := Tables.ofRows [(lit "usr_0", ⟨lit "usr_0", lit "ann", lit "secret", someTime⟩)]
  tokens := Tables.ofRows [(lit "tok_0", ⟨lit "tok_0", lit "t", .agent, .remove_destructive, lit "usr_0",
    someTime, none, none, false⟩)]
  secrets := Tables.ofRows [(lit "pb_s", lit "tok_0")]
  sites := ∅

/-- A request of the agent. -/
def byAgent (request : Request) : Asked :=
  ⟨0, ⟨someTime, lit "a", lit "a"⟩, some (lit "Bearer pb_s"), some (lit "Bearer pb_s"), request⟩

theorem small_fresh : Fresh smallConfig (smallWorld (smallDb .remove_destructive)) smallFake := by
  have hput : ∀ p, (smallWorld (smallDb .remove_destructive)).disk.get p =
      if p = smallConfig.staging_dir then some .folder
      else if p = smallConfig.sites_dir then some .folder
      else Tree.leaf.get p := by
    intro p
    rw [smallWorld, Tree.get_put (Tree.fits_iff.2 ⟨by decide, by decide, by decide⟩),
      Tree.get_put (Tree.fits_iff.2 ⟨by decide, by decide, by decide⟩)]
  refine ⟨by decide +kernel, by decide +kernel, fun p hp => ?_, fun p hp => ?_, rfl, rfl⟩
  all_goals
    obtain ⟨n, p, rfl⟩ := List.exists_cons_of_ne_nil hp
    rw [hput, if_neg (by simp [Config.staging_dir, Config.sites_dir, lit, ofChar]),
      if_neg (by simp [Config.staging_dir, Config.sites_dir, lit, ofChar])]
    exact Tree.get_leaf (by simp)

theorem answers_alike_small :
    List.Forall₂ (fun o r' => ∃ r, o = .ok r ∧ Alike r r')
      (realAnswers smallConfig plainRuntime plainHasher
        [byAgent (.create_site (lit "a")),
          byAgent (.upload_file (lit "a") (lit "a/b") ⟨[[97]], none⟩ none false),
          byAgent (.list_files (lit "a") [])]
        (smallWorld (smallDb .remove_destructive)))
      (fakeAnswers smallConfig plainRuntime
        [byAgent (.create_site (lit "a")),
          byAgent (.upload_file (lit "a") (lit "a/b") ⟨[[97]], none⟩ none false),
          byAgent (.list_files (lit "a") [])] smallFake) :=
  answers_alike _ small_fresh (by simp [byAgent, OnSites, Whole]) (by decide +kernel)

/-- Two answers with the same status and the same body, time stamps apart. -/
def Equal (r r' : Response) : Prop := r.status = r'.status ∧ untimed r.body = untimed r'.body

/-- What the fake says of an upload over the cap, once the site is found and the path is valid. -/
theorem fake_too_large (cfg : Config) (rt : Runtime) (a : Asked) {slug path : Str} {body : Incoming}
    {n : Option ℤ}
    {overwrite : Bool} (hreq : a.request = .upload_file slug path body n overwrite)
    (hl : (FakeBackend._authorize cfg a.draw .upload_file a.fake_header s).1.toBool = true)
    (hs : (s.sites[slug]?).isSome = true) (hp : (validate_site_path rt path false).toBool = true)
    (hcap : cfg.max_upload_bytes < body.chunks.flatten.length) :
    (a.fake cfg rt s).1.body = .error .payload_too_large
      (lit "the file exceeds the cap of " ++ dec cfg.max_upload_bytes ++ lit " bytes") := by
  have hauth := authorize_cases cfg s a.draw (Access.noConfusion : route_access .upload_file ≠ .public_)
    a.fake_header
  rcases hf : FakeBackend._authorize cfg a.draw .upload_file a.fake_header s with ⟨_ | o, s1⟩
  · rw [hf] at hl
    cases hl
  rw [hf] at hauth
  obtain ⟨token, rfl⟩ := hauth.2 o rfl
  obtain ⟨fs, hfs⟩ := Option.isSome_iff_exists.1 hs
  rcases hv : validate_site_path rt path false with e | target
  · rw [hv] at hp
    cases hp
  have hsite : FakeBackend._site rt slug s1 = (.ok fs, s1) := by
    rw [FakeBackend._site, hauth.1, hfs]
  have hpath : FakeBackend._valid_path rt path false s1 = (.ok target, s1) := by
    rw [FakeBackend._valid_path, hv]
    rfl
  have hupload : FakeBackend.upload_file cfg rt a.draw slug path body.chunks.flatten overwrite s1 =
      (.error (.api ⟨413, .payload_too_large,
        lit "the file exceeds the cap of " ++ dec cfg.max_upload_bytes ++ lit " bytes"⟩), s1) := by
    rw [FakeBackend.upload_file, Act.bind_of_ok hsite, Act.bind_of_ok hpath, if_pos hcap]
    rfl
  have hroute : FakeBackend.route cfg rt a.draw a.fake_header
      (.upload_file slug path body n overwrite) s =
      FakeBackend.upload_file cfg rt a.draw slug path body.chunks.flatten overwrite s1 := by
    rw [FakeBackend.route]
    exact Act.bind_of_ok hf
  rw [Asked.fake, FakeBackend.answer, hreq, hroute, hupload]
  rfl

/-- A body of one byte over one MiB. -/
def tooMuch : Bytes := List.replicate 1048577 97

/-- **The two word the cap differently**: the text of a 413 answer is not the fake's. -/
theorem cap_told_differently : ¬ ∀ (cfg : Config) (rt : Runtime) (hasher : Hasher) (as : List Asked)
    (w : World) (s : FakeState), Fresh cfg w s → (∀ a ∈ as, OnSites a.request) →
    allLetIn cfg rt hasher as w s = true →
    List.Forall₂ (fun o r' => ∃ r, o = .ok r ∧ Equal r r') (realAnswers cfg rt hasher as w)
      (fakeAnswers cfg rt as s) := by
  intro h
  have hlen : tooMuch.length = 1048577 := List.length_replicate
  set create := byAgent (.create_site (lit "a"))
  set upload := byAgent (.upload_file (lit "a") (lit "a") ⟨[tooMuch], none⟩ (some 1048577) false)
    with hupload
  have hrun := h smallConfig plainRuntime plainHasher [create, upload] _ _ small_fresh
    (by simp [create, upload, byAgent, OnSites, Whole, hlen]) (by decide +kernel)
  obtain ⟨-, hrest⟩ := List.forall₂_cons.1 hrun
  obtain ⟨⟨r, hr, -, hbody⟩, -⟩ := List.forall₂_cons.1 hrest
  have hreal : ((upload.real smallConfig plainRuntime plainHasher (create.real smallConfig plainRuntime
      plainHasher (smallWorld (smallDb .remove_destructive))).2).1.toOption.map Response.body) =
      some (.error .payload_too_large
        (lit "the file exceeds the cap of 1048576 bytes (1 MiB)")) := by decide +kernel
  have hfake := fake_too_large smallConfig plainRuntime upload
    (s := (create.fake smallConfig plainRuntime smallFake).2) rfl (by decide +kernel)
    (by decide +kernel) (by decide +kernel)
    (by simp [hlen, smallConfig, Config.max_upload_bytes])
  rw [hr] at hreal
  rw [hfake, Option.some.inj hreal] at hbody
  revert hbody
  decide +kernel

end PaperBoxing.Agreement.Refinement
