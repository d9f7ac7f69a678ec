import PaperBoxing.Agreement.Accounts
import PaperBoxing.Agreement.Refinement

/-! # The backend refines its fake

Both start with the same accounts, no token and no site, and serve the same requests of every route, one
at a time, each with any header. The backend answers what the fake answers (`backends_agree`), with the
one exception of a bearer that comes with a login: the fake honours it, and so lengthens the session it
belongs to (`bearer_at_login`).

* `Together`: the relation, of the sites and of the accounts;
* `asked_step`: one request. -/

namespace PaperBoxing.Agreement.Backends

open PaperBoxing.Lib PaperBoxing.Lib.Action PaperBoxing.Lib.Program PaperBoxing.Lib.Text
open PaperBoxing.Lib.IsoTime PaperBoxing.Lib.Tables PaperBoxing.Common PaperBoxing.Common.Scopes
open PaperBoxing.Common.Schema PaperBoxing.Common.Naming PaperBoxing.Backend
open PaperBoxing.Backend.Db PaperBoxing.Backend.Calls
open PaperBoxing.Backend.Accounts PaperBoxing.Backend.Alone PaperBoxing.Backend.Routes
open PaperBoxing.Backend.Bearer PaperBoxing.Backend.Frames PaperBoxing.Agreement.Relation
open PaperBoxing.Agreement.Refinement PaperBoxing.Agreement.Accounts
open PaperBoxing.Common.FakeBackend (FakeSite FakeState FakeUser FakeToken Fake Draw)
open PaperBoxing.Agreement.Credentials (SameUser)

variable {cfg : Config} {rt : Runtime} {hasher : Hasher} {K : Set Bytes} {now : Instant}
  {w w' : World} {s s' : FakeState} {A B : Type}

/-! ### The fake's sites and accounts -/

/-- The accounts and the secrets of the fake as they were. -/
structure SameHolders (s s' : FakeState) : Prop where
  users : s'.users = s.users
  tokens : s'.tokens = s.tokens
  secrets : s'.secrets = s.secrets

theorem SameHolders.refl (s : FakeState) : SameHolders s s := ⟨rfl, rfl, rfl⟩

/-- Code of the fake that leaves the accounts alone. -/
def OnlySites (p : Fake A) : Prop := ∀ s, SameHolders s (p s).2

theorem OnlySites.bind {p : Fake A} {f : A → Fake B} (hp : OnlySites p) (hf : ∀ a, OnlySites (f a)) :
    OnlySites (p >>= f) := by
  intro s
  have h := hp s
  rw [Act.bind_apply]
  generalize p s = r at h ⊢
  obtain ⟨e | a, s1⟩ := r
  · exact h
  · have h' := hf a s1
    exact ⟨h'.users.trans h.users, h'.tokens.trans h.tokens, h'.secrets.trans h.secrets⟩

theorem OnlySites.ret (a : A) : OnlySites (Act.ret a : Fake A) := fun s => SameHolders.refl s

theorem OnlySites.raise (e : Exn) : OnlySites (Act.raise e : Fake A) := fun s => SameHolders.refl s

theorem onlySites_refuse {status : ℕ} {code : ErrorCode} {message : Str} :
    OnlySites (FakeBackend.refuse status code message : Fake A) := OnlySites.raise _

theorem onlySites_site (rt : Runtime) (slug : Str) : OnlySites (FakeBackend._site rt slug) := by
  intro s
  rw [FakeBackend._site]
  rcases s.sites[slug]? with _ | site <;> exact SameHolders.refl s

theorem onlySites_path (rt : Runtime) (raw : Str) (allow_root : Bool) :
    OnlySites (FakeBackend._valid_path rt raw allow_root) := by
  rw [FakeBackend._valid_path]
  rcases validate_site_path rt raw allow_root with why | path
  · exact onlySites_refuse
  · exact OnlySites.ret path

theorem onlySites_put (site : FakeSite) : OnlySites (FakeBackend.putSite site) :=
  fun _ => ⟨rfl, rfl, rfl⟩

theorem onlySites_target (rt : Runtime) (site : FakeSite) (path : Str) (overwrite : Bool) :
    OnlySites (FakeBackend._check_write_target rt site path overwrite) := by
  rw [FakeBackend._check_write_target]
  split_ifs with h1 h2 h3
  · exact onlySites_refuse
  all_goals
    rcases FakeBackend.fileParent site path.length (path_parent path) with _ | parent
    · first | exact OnlySites.ret _ | exact onlySites_refuse
    · exact onlySites_refuse

/-- **The site routes of the fake leave its accounts alone.** -/
theorem onlySites_serve (cfg : Config) (rt : Runtime) (d : Draw) (request : Request) :
    OnlySites (FakeBackend.serveSites cfg rt d request) := by
  cases request with
  | list_sites => exact fun s => SameHolders.refl s
  | create_site name =>
    intro s
    rw [FakeBackend.serveSites, FakeBackend.create_site]
    rcases slug_from_name rt name with why | slug
    · exact SameHolders.refl s
    · dsimp only
      split_ifs
      · exact SameHolders.refl s
      · exact ⟨rfl, rfl, rfl⟩
  | get_site slug => exact (onlySites_site rt slug).bind fun _ => OnlySites.ret _
  | delete_site slug confirm =>
    refine (onlySites_site rt slug).bind fun site => ?_
    split_ifs
    · exact onlySites_refuse
    · refine OnlySites.bind ?_ fun _ => OnlySites.ret _
      exact fun _ => ⟨rfl, rfl, rfl⟩
  | list_files slug path =>
    refine (onlySites_site rt slug).bind fun site => (onlySites_path rt path true).bind fun folder => ?_
    split_ifs
    · exact onlySites_refuse
    · exact onlySites_refuse
    · exact OnlySites.ret _
  | upload_file slug path body declared_length overwrite =>
    refine (onlySites_site rt slug).bind fun site => (onlySites_path rt path false).bind fun target => ?_
    split_ifs
    · exact onlySites_refuse
    · refine (onlySites_target rt site target overwrite).bind fun replacing => ?_
      exact ((onlySites_put _).bind fun _ => OnlySites.ret _).bind fun _ => OnlySites.ret _
  | download_file slug path =>
    refine (onlySites_site rt slug).bind fun site => (onlySites_path rt path false).bind fun target => ?_
    split_ifs
    · exact onlySites_refuse
    · rcases site.files[target]? with _ | entry
      · exact onlySites_refuse
      · exact OnlySites.ret _
  | delete_file slug path =>
    refine (onlySites_site rt slug).bind fun site => (onlySites_path rt path false).bind fun target => ?_
    split_ifs
    · exact onlySites_refuse
    · exact onlySites_refuse
    · exact (onlySites_put _).bind fun _ => OnlySites.ret _
  | delete_folder slug path recursive =>
    refine (onlySites_site rt slug).bind fun site => (onlySites_path rt path false).bind fun target => ?_
    split_ifs
    · exact onlySites_refuse
    · exact onlySites_refuse
    · exact onlySites_refuse
    · exact (onlySites_put _).bind fun _ => OnlySites.ret _
  | _ => exact OnlySites.raise _

/-! ### One request -/

/-- **The relation at a time**: the same sites, and the same accounts and secrets. -/
structure Together (cfg : Config) (rt : Runtime) (hasher : Hasher) (K : Set Bytes) (now : Instant) (w : World)
    (s : FakeState) : Prop where
  sites : Relation.Agree cfg rt w s
  accounts : Credentials.Agree hasher rt K now w.db s

/-- **A request as both get it**: with one header, one clock and the same new names. The secrets it presents
or may give have encodings, in `K`; an upload arrives whole, and a login carries no bearer. -/
structure Asks (K : Set Bytes) (oracle : ℕ → Oracle) (a : Asked) : Prop where
  header : a.fake_header = a.header
  draws : Draws (oracle a.tid) a.draw
  presents : ∀ secret, parse_bearer a.header = some secret → ∃ bytes ∈ K, utf8 secret = some bytes
  gives : ∃ bytes ∈ K, utf8 (lit "pb_" ++ a.draw.token_urlsafe) = some bytes
  whole : aboutSites a.request = true → OnSites a.request
  bare : ∀ body, a.request = .login body → parse_bearer a.header = none

/-- **The same answer**; about the sites, up to the time stamps and up to the text that tells the cap of an
upload. -/
def SameAnswer (request : Request) (o : Except Exn Response) (r' : Response) : Prop :=
  ∃ r, o = .ok r ∧ if aboutSites request = true then Alike r r' else r = r'

theorem accounts_transfer {d d' : Database} (h : Credentials.Agree hasher rt K now d s)
    (hu : d'.users = d.users)
    (ht : d'.tokens = d.tokens) (hs : SameHolders s s') : Credentials.Agree hasher rt K now d' s' :=
  ⟨by rw [hu, hs.users]; exact h.users, by rw [ht, hs.tokens]; exact h.tokens,
    by rw [ht, hs.secrets]; exact h.issued, by rw [ht, hs.secrets, hs.tokens]; exact h.secrets⟩

/-- The same outcome is answered the same. -/
theorem answers_of_match {i : ℕ} {p : Code Response} {q : Fake Response}
    (hm : Accounts.Match (run (exec i) p w).1 (q s).1) : ∃ r,
    run (exec i) (answering p) w = (.ok r, (run (exec i) p w).2) ∧ FakeBackend.answer q s = (r, (q s).2) := by
  rw [answering, run_except, FakeBackend.answer]
  generalize run (exec i) p w = o at hm ⊢
  generalize q s = o' at hm ⊢
  obtain ⟨e | r, w1⟩ := o <;> obtain ⟨e' | r', s1⟩ := o' <;> dsimp only [Accounts.Match] at hm ⊢
  · obtain ⟨hne, rfl⟩ := hm
    rw [if_neg hne]
    exact ⟨_, rfl, rfl⟩
  · obtain rfl := hm
    exact ⟨r, rfl, rfl⟩

/-- Outcomes that match are answered alike. -/
theorem alike_of_match {i : ℕ} {p : Code Response} {q : Fake Response}
    (hm : Relation.Match (run (exec i) p w).1 (q s).1) : ∃ r r',
    run (exec i) (answering p) w = (.ok r, (run (exec i) p w).2) ∧ FakeBackend.answer q s = (r', (q s).2) ∧
      Alike r r' := by
  rw [answering, run_except, FakeBackend.answer]
  generalize run (exec i) p w = o at hm ⊢
  generalize q s = o' at hm ⊢
  obtain ⟨e | r, w1⟩ := o <;> obtain ⟨e' | r', s1⟩ := o' <;> dsimp only [Relation.Match] at hm ⊢
  · rw [if_neg hm.1]
    exact ⟨_, _, rfl, rfl, hm.2⟩
  · exact ⟨r, r', rfl, rfl, hm⟩

theorem SameAnswer.of_eq {request : Request} {o : Except Exn Response} {r r' : Response} (ho : o = .ok r)
    (hr : r = r') : SameAnswer request o r' := by
  refine ⟨r, ho, ?_⟩
  split_ifs
  · rw [hr]
    exact Alike.refl r'
  · exact hr

/-- What a request comes to: the same answer, the two agree again, and what is new to a request that draws
other names stays so. -/
def Lands (cfg : Config) (rt : Runtime) (hasher : Hasher) (K : Set Bytes) (a : Asked) (w : World)
    (s : FakeState) :
    Prop :=
  SameAnswer a.request (a.real cfg rt hasher w).1 (a.fake cfg rt s).1 ∧
    Together cfg rt hasher K a.draw.now (a.real cfg rt hasher w).2 (a.fake cfg rt s).2 ∧
    ∀ d : Draw, d.token_hex ≠ a.draw.token_hex → d.token_urlsafe ≠ a.draw.token_urlsafe → New d s →
      New d (a.fake cfg rt s).2

theorem uses_of_routes {p : Code A} (hp : Uses (only forRoutes) p) : Uses ofAccounts p :=
  hp.mono fun _ => only_mono fun q hq => by cases q <;> first | rfl | cases hq

theorem uses_serve_holders (cfg : Config) (rt : Runtime) (hasher : Hasher) (actor : Actor) {request : Request}
    (h : aboutSites request = false) : Uses ofAccounts (serve cfg rt hasher actor request) := by
  by_cases hd : ∃ user_id, request = .delete_user user_id
  · obtain ⟨user_id, rfl⟩ := hd
    exact uses_delete_user user_id
  · exact uses_of_routes (uses_serve_accounts actor h fun user_id hr => hd ⟨user_id, hr⟩)

/-- A login. -/
theorem login_lands {a : Asked} (h : Together cfg rt hasher K a.draw.now w s) (hinj : Set.InjOn rt.sha256 K)
    (hsound : hasher.Sound) (ha : Asks K w.oracle a) (hn : New a.draw s) {body : LoginRequest}
    (hreq : a.request = .login body) : Lands cfg rt hasher K a w s := by
  have hstep := login_step cfg h.accounts hinj hsound ha.draws hn ha.gives body
  have hsame := run_sameSites (i := a.tid) (uses_of_routes (@uses_login_route cfg rt hasher body)) w
  obtain ⟨r, hreal, hfake⟩ := answers_of_match hstep.answers
  have hroute : FakeBackend.route cfg rt a.draw a.fake_header a.request s =
    FakeBackend.login cfg a.draw body s := by
    have hnone : FakeBackend._authorize cfg a.draw .login a.fake_header s = (.ok none, s) := by
      rw [ha.header, FakeBackend._authorize,
        Act.bind_of_ok (resolve_token_bare (ha.bare body hreq))]
      rfl
    rw [FakeBackend.route, hreq]
    exact Act.bind_of_ok hnone
  have hr : a.real cfg rt hasher w = (.ok r, (run (exec a.tid) (Routes.login cfg rt hasher body) w).2) := by
    rw [Asked.real, handle, hreq]
    exact hreal
  have hf : a.fake cfg rt s = (r, (FakeBackend.login cfg a.draw body s).2) := by
    rw [Asked.fake, FakeBackend.answer, hroute]
    exact hfake
  rw [Lands, hr, hf]
  exact ⟨SameAnswer.of_eq rfl rfl, ⟨h.sites.transfer hsame.disk hsame.sites hstep.grows.sites, hstep.agree⟩,
    fun d h1 h2 hd => hd.of_grows hstep.grows h1 h2⟩

theorem access_of_caller {request : Request} (h : ∀ body, request ≠ .login body) :
    route_access request.route ≠ .public_ := by
  cases request <;> first | exact Access.noConfusion | exact absurd rfl (h _)

theorem fake_route_caller {d : Draw} {header : Option Str} {request : Request}
    (h : ∀ body, request ≠ .login body)
    {caller : FakeToken}
    (hf : FakeBackend._authorize cfg d request.route header s = (.ok (some caller), s')) :
    FakeBackend.route cfg rt d header request s = FakeBackend.serveAccounts cfg rt d caller request s' := by
  rw [FakeBackend.route, Act.bind_of_ok hf]
  cases request <;> first | rfl | exact absurd rfl (h _)

theorem serveAccounts_sites {d : Draw} {caller : FakeToken} {request : Request}
    (h : aboutSites request = true) :
    FakeBackend.serveAccounts cfg rt d caller request = FakeBackend.serveSites cfg rt d request := by
  cases request <;> first | rfl | exact absurd h Bool.false_ne_true

/-- A request of a caller that both let in. -/
theorem served_lands {a : Asked} (hinj : Set.InjOn rt.sha256 K) (hsound : hasher.Sound)
    (ha : Asks K w.oracle a)
    (hl : ∀ body, a.request ≠ .login body) {actor : Actor} {caller : FakeToken} {w1 : World} {s1 : FakeState}
    (hr : run (exec a.tid) (requires cfg rt a.request.route a.header) w = (.ok actor, w1))
    (hf : FakeBackend._authorize cfg a.draw a.request.route a.fake_header s = (.ok (some caller), s1))
    (h1 : Together cfg rt hasher K a.draw.now w1 s1) (hmet : Met hasher w1.db s1 actor caller)
    (hn1 : New a.draw s1)
    (hg : Quiet s s1) : Lands cfg rt hasher K a w s := by
  have ho1 : Draws (w1.oracle a.tid) a.draw := by
    rw [run_oracle hr]
    exact ha.draws
  have hreal : a.real cfg rt hasher w = run (exec a.tid) (answering (serve cfg rt hasher actor a.request))
      w1 :=
    App.run_handle_actor hl hr
  have hfake : a.fake cfg rt s =
      FakeBackend.answer (FakeBackend.serveAccounts cfg rt a.draw caller a.request) s1 := by
    rw [Asked.fake, FakeBackend.answer, fake_route_caller hl hf]
    rfl
  rw [Lands, hreal, hfake]
  rcases hs : aboutSites a.request with _ | _
  · -- a token or an account
    have hstep := serve_step cfg h1.accounts hinj hsound ho1 hn1 ha.gives hmet hs hl
    have hsame := run_sameSites (i := a.tid) (uses_serve_holders cfg rt hasher actor hs) w1
    obtain ⟨r, hp, hq⟩ := answers_of_match hstep.answers
    rw [hp, hq]
    exact ⟨SameAnswer.of_eq rfl rfl, ⟨h1.sites.transfer hsame.disk hsame.sites hstep.grows.sites,
      hstep.agree⟩,
      fun d hd1 hd2 hd => (hd.of_quiet hg).of_grows hstep.grows hd1 hd2⟩
  · -- a site
    obtain ⟨hm, hagree⟩ := Refinement.serve_step hasher h1.sites a (ha.whole hs) actor
    have hsame := run_sameAccounts (i := a.tid) (@uses_serve_sites cfg rt hasher actor _ hs) w1
    have hkept := onlySites_serve cfg rt a.draw a.request s1
    obtain ⟨r, r', hp, hq, halike⟩ := alike_of_match hm
    rw [serveAccounts_sites hs, hp, hq]
    refine ⟨⟨r, rfl, by rw [if_pos hs]; exact halike⟩, ⟨hagree, accounts_transfer h1.accounts hsame.users
      hsame.tokens hkept⟩, fun _ _ _ hd => ?_⟩
    have hnew := hd.of_quiet hg
    exact ⟨by rw [hkept.users]; exact hnew.user, by rw [hkept.tokens]; exact hnew.token,
      by rw [hkept.secrets]; exact hnew.secret⟩

/-- **One request on both sides.** -/
theorem asked_lands {a : Asked} (h : Together cfg rt hasher K a.draw.now w s) (hinj : Set.InjOn rt.sha256 K)
    (hsound : hasher.Sound) (ha : Asks K w.oracle a) (hn : New a.draw s) : Lands cfg rt hasher K a w s := by
  by_cases hl : ∃ body, a.request = .login body
  · obtain ⟨body, hreq⟩ := hl
    exact login_lands h hinj hsound ha hn hreq
  have hl' : ∀ body, a.request ≠ .login body := fun body hreq => hl ⟨body, hreq⟩
  have hadm := requires_step cfg (access_of_caller hl') h.accounts hinj ha.draws ha.presents
  have hsame := run_sameSites (i := a.tid) (uses_requires cfg rt a.request.route a.header) w
  rcases hr : run (exec a.tid) (requires cfg rt a.request.route a.header) w with ⟨e | actor, w1⟩ <;>
    rcases hf : FakeBackend._authorize cfg a.draw a.request.route a.header s with ⟨e' | _ | caller, s1⟩ <;>
    rw [hr, hf] at hadm <;> rw [hr] at hsame <;> obtain ⟨hagree, hquiet, hmatch⟩ := hadm
  · obtain ⟨hne, rfl⟩ := hmatch
    rw [← ha.header] at hf
    have hreal : a.real cfg rt hasher w = (.ok (errorResponse e), w1) := App.run_handle_refused hl' hne hr
    have hfake : a.fake cfg rt s = (errorResponse e, s1) := by
      rw [Asked.fake, FakeBackend.answer, FakeBackend.route, Act.bind_of_error hf]
    rw [Lands, hreal, hfake]
    exact ⟨SameAnswer.of_eq rfl rfl, ⟨h.sites.transfer hsame.disk hsame.sites hquiet.sites, hagree⟩,
      fun _ _ _ hd => hd.of_quiet hquiet⟩
  · exact hmatch.elim
  · exact hmatch.elim
  · exact hmatch.elim
  · exact hmatch.elim
  · rw [← ha.header] at hf
    exact served_lands hinj hsound ha hl' hr hf ⟨h.sites.transfer hsame.disk hsame.sites hquiet.sites, hagree⟩
      hmatch
      (hn.of_quiet hquiet) hquiet

/-! ### A run -/

/-- **Both start with the same accounts**, and with no token. -/
structure Started (hasher : Hasher) (d : Database) (s : FakeState) : Prop where
  users : ∀ id : Str, Option.Rel (SameUser hasher id) d.users[id]? s.users[id]?
  no_row : d.tokens = ∅
  no_token : s.tokens = ∅
  no_secret : s.secrets = ∅

theorem Started.agree {d : Database} (h : Started hasher d s) (rt : Runtime) (K : Set Bytes) (now : Instant) :
    Credentials.Agree hasher rt K now d s := by
  refine ⟨h.users, fun id => ?_, fun id r hr => ?_, fun secret id hs => ?_⟩
  · rw [h.no_row, h.no_token, get_empty, get_empty]
    trivial
  · rw [h.no_row, get_empty] at hr
    cases hr
  · rw [h.no_secret, get_empty] at hs
    cases hs

/-- The requests follow one clock, and each draws names of its own. -/
def InOrder (as : List Asked) : Prop := as.Pairwise fun a b =>
  a.draw.now.micros ≤ b.draw.now.micros ∧ b.draw.token_hex ≠ a.draw.token_hex ∧
    b.draw.token_urlsafe ≠ a.draw.token_urlsafe

theorem real_oracle (a : Asked) : (a.real cfg rt hasher w).2.oracle = w.oracle := run_oracle rfl

/-- **A run on both sides**, from any two states that agree. -/
theorem run_agrees (hinj : Set.InjOn rt.sha256 K) (hsound : hasher.Sound) :
    ∀ (as : List Asked) {now : Instant}
    {w : World} {s : FakeState}, Together cfg rt hasher K now w s →
    (∀ a ∈ as, Asks K w.oracle a ∧ New a.draw s ∧ now.micros ≤ a.draw.now.micros) → InOrder as →
    List.Forall₂ (fun a p => SameAnswer a.request p.1 p.2) as
      ((realAnswers cfg rt hasher as w).zip (fakeAnswers cfg rt as s))
  | [], _, _, _, _, _, _ => .nil
  | a :: as, now, w, s, h, ha, hord => by
    obtain ⟨hasks, hnew, hle⟩ := ha a (by simp)
    obtain ⟨hfirst, hrest⟩ := List.pairwise_cons.1 hord
    obtain ⟨hanswer, hnext, hkeeps⟩ :=
      asked_lands ⟨h.sites, h.accounts.later hle⟩ hinj hsound hasks hnew
    refine .cons hanswer (run_agrees hinj hsound as hnext (fun b hb => ?_) hrest)
    obtain ⟨hasks', hnew', -⟩ := ha b (by simp [hb])
    obtain ⟨htime, hhex, hurl⟩ := hfirst b hb
    rw [real_oracle]
    exact ⟨hasks', hkeeps b.draw hhex hurl hnew', htime⟩

/-- **The backend refines its fake**, over all its routes: from the same accounts, with no token and no site,
every answer to every sequence of requests is the fake's. A request comes with any header, so the two also
agree on whom they let in; a session ends on both sides at the same time, and a token that one revokes or
deletes is dead for the other. -/
theorem backends_agree (cfg : Config) (rt : Runtime) (hasher : Hasher) (K : Set Bytes) (as : List Asked)
    (w : World) (s : FakeState) (hinj : Set.InjOn rt.sha256 K) (hsound : hasher.Sound)
    (hstart : Started hasher w.db s) (hfresh : Fresh cfg w s)
    (ha : ∀ a ∈ as, Asks K w.oracle a ∧ New a.draw s)
    (hord : InOrder as) : List.Forall₂ (fun a p => SameAnswer a.request p.1 p.2) as
      ((realAnswers cfg rt hasher as w).zip (fakeAnswers cfg rt as s)) :=
  run_agrees hinj hsound as ⟨hfresh.agree, hstart.agree rt K someTime⟩
    (fun a hm => ⟨(ha a hm).1, (ha a hm).2, Nat.zero_le _⟩) hord

/-! ### On the small backend -/

section Small

/-- What the thread `i` draws; each comes twenty hours after the one before. -/
def twenty (i : ℕ) : Draw := ⟨(ofMicros (62135596800000000 + i * 72000000000)).getD someTime, dec i, dec i⟩

def twentyOracle (i : ℕ) : Oracle where
  now _ := (twenty i).now
  stamp n := 1000 * n
  token_hex _ _ := dec i
  token_urlsafe _ _ := dec i
  salt _ := []

/-- The start of the small backend. -/
def startTime : Instant := ⟨62135596800000000, unixStart_lt⟩

/-- The account `ann`, and no token. -/
def oneAccount : World :=
  { smallWorld (insert_user ⟨lit "usr_a", lit "ann", soundHasher.hash [] (lit "secret"), startTime⟩
      .empty).2 with
    oracle := twentyOracle }

/-- The same account of the fake. -/
def oneFake : FakeState where
  users := Tables.ofRows [(lit "usr_a", ⟨lit "usr_a", lit "ann", lit "secret", startTime⟩)]
  tokens := ∅
  secrets := ∅
  sites := ∅

/-- A request of the thread `i`. -/
def ask (i : ℕ) (bearer : Option Str) (request : Request) : Asked :=
  ⟨i, twenty i, bearer.map fun secret => lit "Bearer " ++ secret,
    bearer.map fun secret => lit "Bearer " ++ secret,
    request⟩

theorem started_small : Started soundHasher oneAccount.db oneFake := by
  refine ⟨fun id => ?_, ?_, rfl, rfl⟩
  · have husers : oneAccount.db.users = (∅ : Table Str UserRec).insert (lit "usr_a")
        ⟨lit "ann", soundHasher.hash [] (lit "secret"), .ofInstant startTime⟩ := by
      rw [oneAccount, smallWorld, insert_user, dif_neg (by decide +kernel)]
      rfl
    rw [husers, oneFake, Tables.ofRows, List.foldr_cons, List.foldr_nil, get_insert, get_insert,
      get_empty, get_empty]
    split_ifs with hid
    · rw [hid]
      exact .some ⟨rfl, rfl, (instant_ofInstant startTime).symm,
        fun q => soundHasher_sound [] (lit "secret") q⟩
    · exact .none
  · rw [oneAccount, smallWorld, insert_user, dif_neg (by decide +kernel)]
    rfl

/-- A login, a token for an agent, which makes a site, and a session that is given up. -/
def visit : List Asked :=
  [ask 0 none (.login ⟨lit "ann", lit "secret"⟩),
    ask 1 (some (lit "pb_0")) (.create_token ⟨lit "t", .read_write⟩),
    ask 2 (some (lit "pb_1")) (.create_site (lit "a")), ask 3 (some (lit "pb_0")) .list_tokens,
    ask 4 (some (lit "pb_0")) .logout, ask 5 (some (lit "pb_1")) .token_self]

/-- A second login that brings the bearer of the first session along. -/
def again : List Asked :=
  [ask 0 none (.login ⟨lit "ann", lit "secret"⟩),
    ask 1 (some (lit "pb_0")) (.login ⟨lit "ann", lit "secret"⟩), ask 2 (some (lit "pb_0")) .token_self]

theorem draws_ask (i : ℕ) (bearer : Option Str) (request : Request) :
    Draws (oneAccount.oracle (ask i bearer request).tid) (ask i bearer request).draw :=
      fun _ => ⟨rfl, rfl, rfl⟩

theorem backends_agree_visit : List.Forall₂ (fun a p => SameAnswer a.request p.1 p.2) visit
    ((realAnswers smallConfig apartRuntime soundHasher visit oneAccount).zip
      (fakeAnswers smallConfig apartRuntime visit oneFake)) := by
  have hsmall := small_fresh
  refine backends_agree smallConfig apartRuntime soundHasher Set.univ visit oneAccount oneFake
    (fun _ _ _ _ h => apartRuntime_injective h) soundHasher_sound started_small
    ⟨hsmall.sites_dir, hsmall.staging_dir, hsmall.no_tree, hsmall.no_staging, ?_, rfl⟩
    (fun a ha => ⟨?_, ?_⟩) ?_
  · rw [oneAccount, smallWorld, insert_user, dif_neg (by decide +kernel)]
    rfl
  · have hpresents : ∀ a ∈ visit, (parse_bearer a.header).all (fun x => (utf8 x).isSome) =
      true := by decide +kernel
    have hgives : ∀ a ∈ visit, (utf8 (lit "pb_" ++ a.draw.token_urlsafe)).isSome = true := by decide +kernel
    have hshape : ∀ a ∈ visit, a.fake_header = a.header ∧ Draws (oneAccount.oracle a.tid) a.draw ∧
        (aboutSites a.request = true → OnSites a.request) ∧
        ∀ body, a.request = .login body → parse_bearer a.header = none := by
      simp only [visit, List.forall_mem_cons]
      refine ⟨⟨rfl, draws_ask _ _ _, by rintro ⟨⟩, fun _ _ => rfl⟩,
        ⟨rfl, draws_ask _ _ _, by rintro ⟨⟩, by rintro _ ⟨⟩⟩,
        ⟨rfl, draws_ask _ _ _, fun _ => trivial, by rintro _ ⟨⟩⟩,
        ⟨rfl, draws_ask _ _ _, by rintro ⟨⟩, by rintro _ ⟨⟩⟩,
        ⟨rfl, draws_ask _ _ _, by rintro ⟨⟩, by rintro _ ⟨⟩⟩,
        ⟨rfl, draws_ask _ _ _, by rintro ⟨⟩, by rintro _ ⟨⟩⟩,
        fun _ hm => absurd hm List.not_mem_nil⟩
    obtain ⟨hheader, hdraws, hwhole, hbare⟩ := hshape a ha
    refine ⟨hheader, hdraws, fun secret hs => ?_, ?_, hwhole, hbare⟩
    · have := hpresents a ha
      rw [hs] at this
      obtain ⟨bytes, hb⟩ := Option.isSome_iff_exists.1 this
      exact ⟨bytes, Set.mem_univ _, hb⟩
    · obtain ⟨bytes, hb⟩ := Option.isSome_iff_exists.1 (hgives a ha)
      exact ⟨bytes, Set.mem_univ _, hb⟩
  · have hnew : ∀ a ∈ visit, oneFake.users[lit "usr" ++ lit "_" ++ a.draw.token_hex]? =
      none := by decide +kernel
    exact ⟨hnew a ha, get_empty _, get_empty _⟩
  · rw [InOrder]
    decide +kernel

/-- **A bearer at a login is honoured by the fake alone**: the session it belongs to, which has run
out for the backend, still lets its holder in with the fake. -/
theorem bearer_at_login :
    (realAnswers smallConfig apartRuntime soundHasher again oneAccount).map
        (fun o => o.toOption.map Response.status) = [some 200, some 200, some 401] ∧
      (fakeAnswers smallConfig apartRuntime again oneFake).map Response.status = [200, 200, 200] := by
  decide +kernel

end Small

end PaperBoxing.Agreement.Backends
