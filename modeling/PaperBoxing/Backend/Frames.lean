import PaperBoxing.Backend.Routes

/-! # What the backend's code leaves alone

The accounts use the tables of users and tokens and nothing else; the storage and the site routes use
everything but these; and what only looks leaves the tree and the table of sites as they are. Each is
a set of calls, a lemma on what those calls keep, and the programs that make no others. -/

namespace PaperBoxing.Backend.Frames

open PaperBoxing.Lib PaperBoxing.Lib.Action PaperBoxing.Lib.Program PaperBoxing.Lib.Text
open PaperBoxing.Lib.Trees PaperBoxing.Lib.Disk PaperBoxing.Lib.IsoTime
open PaperBoxing.Common.Scopes PaperBoxing.Common.Schema PaperBoxing.Common.Naming
open PaperBoxing.Backend PaperBoxing.Backend.Db PaperBoxing.Backend.Calls PaperBoxing.Backend.Accounts

/-! ### Accounts -/

/-- The queries on users and tokens. -/
def onAccounts : Query → Bool
  | .count_users | .insert_user _ | .user_by_id _ | .user_by_username _ | .list_users
  | .set_password_hash .. | .delete_user _ | .insert_token .. | .token_by_secret _ | .token_by_id _
  | .touch_token .. | .revoke_token .. | .revoke_other_sessions .. | .list_agent_tokens
  | .delete_dead_sessions _ => true
  | .insert_site _ | .site_by_slug _ | .list_sites | .delete_site _ | .upsert_file _
  | .delete_file_row .. | .delete_files_under .. | .files_in_folder .. | .folder_totals .. => false

/-- The calls that make certain queries and draw, and do nothing else. -/
def only (f : Query → Bool) : Calls.Call → Prop
  | .db q => f q = true
  | .now | .token_hex _ | .token_urlsafe _ | .salt => True
  | .disk _ | .receive _ | .acquire _ | .release _ => False

theorem only_mono {f g : Query → Bool} (h : ∀ q, f q = true → g q = true) {c : Calls.Call}
    (hc : only f c) : only g c := by
  cases c <;> first | exact h _ hc | exact hc

/-- The calls of the accounts. -/
def ofAccounts : Calls.Call → Prop := only onAccounts

/-- The calls of the storage and the site routes. -/
def ofSites : Calls.Call → Prop
  | .db q => onAccounts q = false
  | _ => True

theorem exec_sites {q : Query} (h : onAccounts q = true) (d : Database) :
    (Db.exec q d).2.sites = d.sites := by
  cases q <;> try first | rfl | cases h
  · simp only [Db.exec, insert_user]
    split <;> rfl
  · simp only [Db.exec, insert_token]
    split <;> rfl

theorem exec_users_tokens {q : Query} (h : onAccounts q = false) (d : Database) :
    (Db.exec q d).2.users = d.users ∧ (Db.exec q d).2.tokens = d.tokens := by
  cases q <;> try first | exact ⟨rfl, rfl⟩ | cases h
  · simp only [Db.exec, insert_site]
    split <;> exact ⟨rfl, rfl⟩
  · simp only [Db.exec, upsert_file]
    split
    · exact ⟨rfl, rfl⟩
    · exact ⟨users_set_files .., tokens_set_files ..⟩
  · exact ⟨users_set_files .., tokens_set_files ..⟩
  · exact ⟨users_set_files .., tokens_set_files ..⟩

/-- What the accounts leave alone. -/
structure SameSites (w w' : World) : Prop where
  disk : w'.disk = w.disk
  sites : w'.db.sites = w.db.sites
  locks : w'.locks = w.locks

/-- What the sites leave alone. -/
structure SameAccounts (w w' : World) : Prop where
  users : w'.db.users = w.db.users
  tokens : w'.db.tokens = w.db.tokens

theorem call_sameSites {i : ℕ} {c : Calls.Call} (hc : ofAccounts c) (w : World) :
    SameSites w (exec i c w).2 := by
  cases c with
  | db q => exact ⟨rfl, exec_sites hc _, rfl⟩
  | now => exact ⟨rfl, rfl, rfl⟩
  | token_hex n => exact ⟨rfl, rfl, rfl⟩
  | token_urlsafe n => exact ⟨rfl, rfl, rfl⟩
  | salt => exact ⟨rfl, rfl, rfl⟩
  | disk c => exact hc.elim
  | receive chunk => exact hc.elim
  | acquire slug => exact hc.elim
  | release slug => exact hc.elim

theorem call_sameAccounts {i : ℕ} {c : Calls.Call} (hc : ofSites c) (w : World) :
    SameAccounts w (exec i c w).2 := by
  cases c with
  | db q => exact ⟨(exec_users_tokens hc _).1, (exec_users_tokens hc _).2⟩
  | now => exact ⟨rfl, rfl⟩
  | token_hex n => exact ⟨rfl, rfl⟩
  | token_urlsafe n => exact ⟨rfl, rfl⟩
  | salt => exact ⟨rfl, rfl⟩
  | disk c => exact ⟨rfl, rfl⟩
  | receive chunk => exact ⟨rfl, rfl⟩
  | acquire slug => exact ⟨rfl, rfl⟩
  | release slug => exact ⟨rfl, rfl⟩

/-- **A run of the accounts leaves the sites alone.** -/
theorem run_sameSites {A : Type} {i : ℕ} {p : Code A} (hp : Uses ofAccounts p) (w : World) :
    SameSites w (run (exec i) p w).2 := by
  refine run_preserves (I := SameSites w) (fun c hc w' hw => ?_) hp ⟨rfl, rfl, rfl⟩
  have := call_sameSites (i := i) hc w'
  exact ⟨this.disk.trans hw.disk, this.sites.trans hw.sites, this.locks.trans hw.locks⟩

/-- **A run of the sites leaves the accounts alone.** -/
theorem run_sameAccounts {A : Type} {i : ℕ} {p : Code A} (hp : Uses ofSites p) (w : World) :
    SameAccounts w (run (exec i) p w).2 := by
  refine run_preserves (I := SameAccounts w) (fun c hc w' hw => ?_) hp ⟨rfl, rfl⟩
  have := call_sameAccounts (i := i) hc w'
  exact ⟨this.users.trans hw.users, this.tokens.trans hw.tokens⟩

section
variable {cfg : Config} {rt : Runtime} {hasher : Hasher} {P : Calls.Call → Prop}

theorem uses_query {q : Query} (h : P (.db q)) : Uses P (query q) := (uses_invoke (S := sig) _).2 h

theorem uses_disk {c : Disk.Call Str} (h : P (.disk c)) : Uses P (disk c) :=
  (uses_invoke (S := sig) _).2 h

theorem uses_now (h : P .now) : Uses P now := (uses_invoke (S := sig) _).2 h

theorem uses_token_hex {n : ℕ} (h : P (.token_hex n)) : Uses P (token_hex n) :=
  (uses_invoke (S := sig) _).2 h

theorem uses_token_urlsafe {n : ℕ} (h : P (.token_urlsafe n)) : Uses P (token_urlsafe n) :=
  (uses_invoke (S := sig) _).2 h

theorem uses_salt (h : P .salt) : Uses P salt := (uses_invoke (S := sig) _).2 h

theorem uses_receive {chunk : Option Bytes} (h : P (.receive chunk)) : Uses P (receive chunk) :=
  (uses_invoke (S := sig) _).2 h

theorem uses_refuse {A : Type} (status : ℕ) (code : ErrorCode) (message : Str) :
    Uses P (refuse status code message : Code A) := trivial

theorem uses_secret_digest (secret : Str) : Uses P (secret_digest rt secret) := by
  unfold secret_digest
  rcases utf8 secret with _ | bytes
  · exact uses_raise _
  · exact uses_ret _

theorem uses_slide (now : Instant) : Uses P (slide cfg now) := by
  rw [slide]
  generalize now.add (days cfg.session_days) = o
  rcases o with _ | e
  · exact uses_raise _
  · exact uses_ret _

theorem uses_only {f : Query → Bool} {q : Query} (h : f q = true) : Uses (only f) (query q) :=
  uses_query (P := only f) h

/-- The queries of `resolve_bearer`. -/
def forBearer : Query → Bool
  | .token_by_secret _ | .user_by_id _ | .touch_token .. | .revoke_token .. => true
  | _ => false

theorem onAccounts_of_bearer (q : Query) (h : forBearer q = true) : onAccounts q = true := by
  cases q <;> first | rfl | cases h

/-- A query of `resolve_bearer`. -/
theorem uses_bearer {q : Query} (h : forBearer q = true) : Uses (only forBearer) (query q) :=
  uses_only h

theorem uses_honour (token : TokenRow) (now : Instant) :
    Uses (only forBearer) (honour cfg token now) := by
  unfold honour
  split_ifs
  · trivial
  · exact Uses.bind (uses_bearer rfl) fun _ => trivial
  · refine Uses.bind (uses_bearer rfl) fun user => ?_
    rcases user with _ | user
    · trivial
    · exact ((uses_slide _).bind fun _ => uses_ret _).bind fun _ =>
        Uses.bind (uses_bearer rfl) fun _ => uses_ret _
  · refine Uses.bind (uses_bearer rfl) fun user => ?_
    rcases user with _ | user
    · exact uses_ret _
    · exact (uses_ret _).bind fun _ => Uses.bind (uses_bearer rfl) fun _ => uses_ret _

theorem uses_resolve_bearer (header : Option Str) :
    Uses (only forBearer) (resolve_bearer cfg rt header) := by
  unfold resolve_bearer
  split
  · trivial
  · refine (uses_secret_digest _).bind fun _ => Uses.bind (uses_bearer rfl) fun token => ?_
    rcases token with _ | token
    · trivial
    · exact (uses_now (P := only forBearer) trivial).bind fun now => uses_honour token now

/-- **The dependency of a route** makes the calls of `resolve_bearer`. -/
theorem uses_dependency (name : RouteName) (header : Option Str) :
    Uses (only forBearer) (Routes.requires cfg rt name header) := by
  refine (uses_resolve_bearer header).bind fun actor => ?_
  rcases actor with _ | actor
  · trivial
  · dsimp only
    split_ifs <;> trivial

theorem uses_requires (cfg : Config) (rt : Runtime) (name : RouteName) (header : Option Str) :
    Uses ofAccounts (Routes.requires cfg rt name header) :=
  (uses_dependency name header).mono fun _ => only_mono onAccounts_of_bearer

/-! ### The routes of the accounts -/

/-- The queries of the account routes but `delete_user` and those that issue a token: no use is
recorded, and no token inserted or removed. -/
def settled : Query → Bool
  | .touch_token .. | .delete_user _ | .delete_dead_sessions _ | .insert_token .. => false
  | q => onAccounts q

/-- The queries of the account routes but `delete_user`: no use is recorded, and no token removed. -/
def forRoutes : Query → Bool
  | .touch_token .. | .delete_user _ | .delete_dead_sessions _ => false
  | q => onAccounts q

theorem forRoutes_of_settled (q : Query) (h : settled q = true) : forRoutes q = true := by
  cases q <;> first | rfl | cases h

theorem onAccounts_of_routes (q : Query) (h : forRoutes q = true) : onAccounts q = true := by
  cases q <;> first | rfl | cases h

/-- A query that inserts and removes no token. -/
theorem uses_settled {q : Query} (h : settled q = true) : Uses (only settled) (query q) :=
  uses_only h

/-- A query of the account routes. -/
theorem uses_routes {q : Query} (h : forRoutes q = true) : Uses (only forRoutes) (query q) :=
  uses_only h

theorem uses_accounts {q : Query} (h : onAccounts q = true) : Uses ofAccounts (query q) :=
  uses_only h

theorem toRoutes {A : Type} {p : Code A} (h : Uses (only settled) p) : Uses (only forRoutes) p :=
  h.mono fun _ => only_mono forRoutes_of_settled

section
variable {A : Type}

theorem uses_new_id (kind : Str) : Uses (only settled) (new_id kind) :=
  (uses_token_hex (P := only settled) trivial).bind fun _ => uses_ret _

theorem uses_new_secret : Uses (only settled) new_secret :=
  (uses_token_urlsafe (P := only settled) trivial).bind fun _ => uses_ret _

theorem uses_create_user (username password : Str) :
    Uses (only settled) (create_user hasher username password) :=
  (uses_new_id _).bind fun _ => (uses_salt (P := only settled) trivial).bind fun _ =>
    (uses_now (P := only settled) trivial).bind fun _ =>
      Uses.bind (uses_settled rfl) fun _ => uses_ret _

theorem uses_verify_password (user : UserRow) (password : Str) :
    Uses (only settled) (verify_password hasher user password) := by
  unfold verify_password
  split_ifs
  · exact uses_ret _
  · exact (uses_salt (P := only settled) trivial).bind fun _ =>
      Uses.bind (uses_settled rfl) fun _ => uses_ret _
  · exact uses_ret _

theorem uses_bootstrap (username password : Option Str) :
    Uses (only settled) (bootstrap hasher username password) := by
  refine Uses.bind (uses_settled rfl) fun count => ?_
  split_ifs
  · exact uses_ret _
  · rcases username with _ | username
    · exact uses_ret _
    · rcases password with _ | password
      · exact uses_ret _
      · dsimp only
        split_ifs
        · exact (uses_create_user _ _).bind fun _ => uses_ret _
        · exact uses_raise _

theorem uses_login (username password : Str) :
    Uses (only forRoutes) (Accounts.login cfg rt hasher username password) := by
  refine Uses.bind (uses_routes rfl) fun user => ?_
  rcases user with _ | user
  · exact uses_ret _
  refine (toRoutes (uses_verify_password user password)).bind fun verified => ?_
  dsimp only
  split_ifs
  · exact uses_ret _
  · exact (uses_now (P := only forRoutes) trivial).bind fun _ => (toRoutes (uses_new_id _)).bind fun _ =>
      (uses_slide _).bind fun _ => (toRoutes uses_new_secret).bind fun _ =>
        (uses_secret_digest _).bind fun _ => Uses.bind (uses_routes rfl) fun _ => uses_ret _

theorem uses_create_agent_token (owner : UserRow) (name : Str) (scope : Scope) :
    Uses (only forRoutes) (create_agent_token rt owner name scope) :=
  (toRoutes (uses_new_id _)).bind fun _ => (uses_now (P := only forRoutes) trivial).bind fun _ =>
    (toRoutes uses_new_secret).bind fun _ => (uses_secret_digest _).bind fun _ =>
      Uses.bind (uses_routes rfl) fun _ => uses_ret _

theorem uses_revoke_agent_token (token_id : Str) :
    Uses (only settled) (revoke_agent_token token_id) := by
  refine Uses.bind (uses_settled rfl) fun token => ?_
  rcases token with _ | token
  · exact uses_ret _
  dsimp only
  split_ifs
  · exact uses_ret _
  · exact (uses_now (P := only settled) trivial).bind fun _ =>
      Uses.bind (uses_settled rfl) fun _ => uses_ret _

/-- The requests about sites and their files. -/
def aboutSites : Routes.Request → Bool
  | .list_sites | .create_site _ | .get_site _ | .delete_site .. | .list_files .. | .upload_file ..
  | .download_file .. | .delete_file .. | .delete_folder .. => true
  | .login _ | .logout | .list_tokens | .create_token _ | .token_self | .revoke_token _ | .list_users
  | .create_user _ | .change_password _ | .delete_user _ => false

theorem uses_login_route (body : LoginRequest) :
    Uses (only forRoutes) (Routes.login cfg rt hasher body) := by
  refine (uses_login _ _).bind fun result => ?_
  rcases result with _ | ⟨user, session, secret⟩
  · trivial
  dsimp only
  rcases session.expires_at with _ | expires_at
  · trivial
  · trivial

theorem uses_create_user_route (body : CreateUserRequest) :
    Uses (only settled) (Routes.create_user rt hasher body) := by
  refine ((uses_create_user _ _).except fun e => ?_).bind fun _ => uses_ret _
  rcases e with _ | _ | _ | _ | _ | _ | _ | _ <;> trivial

theorem uses_change_hash (user : UserRow) (new_password : Str) :
    Uses (only settled) (Accounts.change_password hasher user new_password) :=
  (uses_salt (P := only settled) trivial).bind fun _ => uses_settled rfl

theorem uses_change_password (actor : Actor) (body : ChangePasswordRequest) :
    Uses (only settled) (Routes.change_password hasher actor body) := by
  refine (uses_verify_password _ _).bind fun verified => ?_
  split_ifs
  · trivial
  · refine (uses_change_hash _ _).bind fun _ => ?_
    exact Uses.bind ((uses_now (P := only settled) trivial).bind fun _ => uses_settled rfl)
      fun _ => uses_ret _

theorem uses_delete_user (user_id : Str) : Uses ofAccounts (Routes.delete_user rt user_id) := by
  refine Uses.bind (uses_accounts rfl) fun user => ?_
  split_ifs
  · trivial
  · refine Uses.bind (uses_accounts rfl) fun count => ?_
    split_ifs
    · trivial
    · exact Uses.bind (uses_accounts rfl) fun _ => uses_ret _

/-- The requests that may insert or remove a token, beyond the caller's own. -/
def issuesOrRemoves : Routes.Request → Bool
  | .login _ | .create_token _ | .delete_user _ => true
  | _ => false

/-- **The other routes of the accounts** record no use, and insert and remove no token. -/
theorem uses_serve_settled (actor : Actor) {request : Routes.Request}
    (h : aboutSites request = false) (hi : issuesOrRemoves request = false) :
    Uses (only settled) (Routes.serve cfg rt hasher actor request) := by
  cases request <;> try first
    | exact absurd h.symm Bool.false_ne_true
    | exact absurd hi.symm Bool.false_ne_true
  case logout =>
    exact Uses.bind ((uses_now (P := only settled) trivial).bind fun _ => uses_settled rfl)
      fun _ => uses_ret _
  case list_tokens =>
    exact Uses.bind (Uses.bind (uses_settled rfl) fun _ => uses_ret _) fun _ => uses_ret _
  case token_self => exact uses_ret _
  case revoke_token token_id =>
    refine (uses_revoke_agent_token token_id).bind fun revoked => ?_
    split_ifs
    · trivial
    · exact uses_ret _
  case list_users => exact Uses.bind (uses_settled rfl) fun _ => uses_ret _
  case create_user body => exact uses_create_user_route body
  case change_password body => exact uses_change_password actor body

/-- **The routes of the accounts** but `delete_user` record no use and remove no token. -/
theorem uses_serve_accounts (actor : Actor) {request : Routes.Request}
    (h : aboutSites request = false) (hd : ∀ user_id, request ≠ .delete_user user_id) :
    Uses (only forRoutes) (Routes.serve cfg rt hasher actor request) := by
  rcases hi : issuesOrRemoves request with _ | _
  · exact toRoutes (uses_serve_settled actor h hi)
  · cases request <;> try exact absurd hi Bool.false_ne_true
    case login body => exact uses_login_route body
    case create_token body => exact (uses_create_agent_token _ _ _).bind fun _ => uses_ret _
    case delete_user user_id => exact absurd rfl (hd user_id)

end

/-! ### The routes of the sites -/

/-- The queries that leave the table of sites alone; they may write the file index. -/
def onIndex : Query → Bool
  | .site_by_slug _ | .list_sites | .upsert_file _ | .delete_file_row .. | .files_in_folder ..
  | .folder_totals .. => true
  | _ => false

/-- The calls that look at the sites: they change nothing but the file index. -/
def looks : Calls.Call → Prop
  | .disk c => writes c = []
  | .db q => onIndex q = true
  | .acquire _ | .release _ => False
  | _ => True

/-- The calls that look at the disk, and do nothing else. -/
def glances : Calls.Call → Prop
  | .disk c => writes c = []
  | _ => False

theorem looks_of_glances {c : Calls.Call} (h : glances c) : looks c := by
  cases c <;> first | exact h | cases h

theorem ofSites_of_looks {c : Calls.Call} (h : looks c) : ofSites c := by
  cases c with
  | db q => cases q <;> first | rfl | cases h
  | _ => trivial

/-- A query that leaves the table of sites alone. -/
theorem uses_index {q : Query} (h : onIndex q = true) : Uses looks (query q) :=
  uses_query (P := looks) h

/-- A query of the sites. -/
theorem uses_sites {q : Query} (h : onAccounts q = false) : Uses ofSites (query q) :=
  uses_query (P := ofSites) h

theorem uses_glance {c : Disk.Call Str} (h : writes c = []) : Uses glances (disk c) :=
  uses_disk (P := glances) h

theorem uses_look {c : Disk.Call Str} (h : writes c = []) : Uses looks (disk c) :=
  uses_disk (P := looks) h

theorem uses_any (c : Disk.Call Str) : Uses ofSites (disk c) := uses_disk (P := ofSites) trivial

theorem uses_suppressOs {p : Code Unit} (hp : Uses P p) : Uses P (suppressOs p) := by
  refine hp.except fun e => ?_
  rcases e with _ | _ | _ | _ | _ | _ | _ | _ <;> trivial

theorem uses_hold {A : Type} {slug : Str} {p : Code A} (hp : Uses ofSites p) :
    Uses ofSites (hold slug p) :=
  Uses.bind ((uses_invoke (S := sig) (P := ofSites) _).2 trivial) fun _ =>
    hp.finallyDo ((uses_invoke (S := sig) (P := ofSites) _).2 trivial)

section Looking
open Storage

theorem uses_lstat_at {path : Path Str} (h : P (.disk (.lstat path))) : Uses P (lstat path) := by
  refine (Uses.attempt (uses_disk h)).bind fun r => ?_
  rcases r with e | mode
  · dsimp only
    split_ifs
    · exact uses_ret _
    · exact uses_raise _
  · exact uses_ret _

theorem uses_kind_at {path : Path Str} (h : P (.disk (.lstat path))) : Uses P (kind_of path) :=
  (uses_lstat_at h).bind fun _ => uses_ret _

theorem uses_checkLinks_at (path : Str) : ∀ (root : Path Str) (segs : List Str),
    (∀ q, root <+: q → q <+: root ++ segs → P (.disk (.lstat q))) →
      Uses P (checkLinks rt path root segs)
  | _, [], _ => uses_ret _
  | root, segment :: rest, h => by
    have hstep : root ++ [segment] ++ rest = root ++ segment :: rest := List.append_cons .. |>.symm
    have hrest := uses_checkLinks_at path (root ++ [segment]) rest fun q hq hle =>
      h q ((List.prefix_append _ _).trans hq) (by rwa [← hstep])
    refine (uses_lstat_at (h _ (List.prefix_append _ _)
      (by rw [← hstep]; exact List.prefix_append _ _))).bind fun mode => ?_
    rcases mode with _ | _ | _ | _ | _
    · exact uses_ret _
    · exact hrest
    · exact hrest
    · exact uses_raise _
    · exact hrest

/-- **`resolve` looks at its site's folder and on the way to its target**, and at real paths. -/
theorem uses_resolve_at (slug path : Str) (h : ∀ q, site_dir cfg slug <+: q →
      q <+: site_dir cfg slug ++ segments path → P (.disk (.lstat q)))
    (hr : ∀ q, P (.disk (.realpath q))) : Uses P (resolve cfg rt slug path) := by
  refine (uses_lstat_at (h _ List.prefix_rfl (List.prefix_append _ _))).bind fun mode => ?_
  split_ifs
  · exact uses_raise _
  · refine (uses_checkLinks_at _ _ _ h).bind fun _ => (uses_disk (hr _)).bind fun real =>
      (uses_disk (hr _)).bind fun root => ?_
    split_ifs
    · exact uses_ret _
    · exact uses_raise _

theorem glances_kind_of (path : Path Str) : Uses glances (kind_of path) := uses_kind_at rfl

theorem glances_resolve (slug path : Str) : Uses glances (resolve cfg rt slug path) :=
  uses_resolve_at slug path (fun _ _ _ => rfl) fun _ => rfl

theorem uses_lstat (path : Path Str) : Uses looks (lstat path) := uses_lstat_at rfl

theorem uses_kind_of (path : Path Str) : Uses looks (kind_of path) :=
  (glances_kind_of path).mono fun _ => looks_of_glances

theorem uses_resolve (slug path : Str) : Uses looks (resolve cfg rt slug path) :=
  (glances_resolve slug path).mono fun _ => looks_of_glances

theorem uses_rewrite (slug rel : Str) (path : Path Str) (st : Stat) :
    Uses looks (reconcile.rewrite rt slug rel path st) :=
  (uses_look rfl).bind fun _ => Uses.bind (uses_index rfl) fun _ => uses_ret _

theorem uses_reconcile (slug rel : Str) (path : Path Str) (st : Stat) (indexed : List FileRow) :
    Uses looks (reconcile rt slug rel path st indexed) := by
  unfold reconcile
  split
  · split_ifs
    · exact uses_rewrite ..
    · exact uses_ret _
  · exact uses_rewrite ..

theorem uses_gather (slug folder : Str) (target : Path Str) (indexed : List FileRow) (name : Str)
    (g : Gathered) : Uses looks (gather rt slug folder target indexed name g) := by
  refine (Uses.attempt (uses_look rfl)).bind fun r => ?_
  rcases r with e | st
  · rcases e with _ | _ | _ | _ | _ | _ | _ | _ <;> trivial
  · obtain ⟨mode, size, mtime⟩ := st
    rcases mode with _ | _ | _ | _
    · exact (uses_reconcile ..).bind fun _ => uses_ret _
    · exact Uses.bind (uses_index rfl) fun _ => uses_ret _
    · exact uses_ret _
    · exact uses_ret _

theorem uses_gatherAll (slug folder : Str) (target : Path Str) (indexed : List FileRow) :
    ∀ (names : List Str) (g : Gathered),
      Uses looks (gatherAll rt slug folder target indexed names g)
  | [], _ => uses_ret _
  | _ :: names, _ =>
    (uses_gather ..).bind fun g => uses_gatherAll slug folder target indexed names g

theorem uses_dropStale_at {slug : Str} (h : ∀ path, P (.db (.delete_file_row slug path))) :
    ∀ paths : List Str, Uses P (dropStale slug paths)
  | [] => uses_ret _
  | _ :: rest => (uses_query (h _)).bind fun _ => uses_dropStale_at h rest

theorem uses_dropStale (slug : Str) (paths : List Str) : Uses looks (dropStale slug paths) :=
  uses_dropStale_at (fun _ => rfl) paths

theorem uses_list_folder (slug folder : Str) : Uses looks (list_folder cfg rt slug folder) := by
  refine (uses_resolve _ _).bind fun target => (uses_kind_of target).bind fun kind => ?_
  rcases kind with _ | _ | _ | _
  · dsimp only
    split_ifs <;> trivial
  · trivial
  · exact Uses.bind (uses_index rfl) fun indexed => (uses_look rfl).bind fun names =>
      (uses_gatherAll ..).bind fun g => (uses_dropStale _ _).bind fun _ => uses_ret _
  · trivial

theorem uses_file_path (slug path : Str) : Uses looks (file_path cfg rt slug path) := by
  refine (uses_resolve _ _).bind fun target => (uses_kind_of target).bind fun kind => ?_
  rcases kind with _ | _ | _ | _ <;> trivial

theorem uses_site_at {slug : Str} (h : ∀ s, P (.db (.site_by_slug s))) :
    Uses P (Routes._site rt slug) := by
  unfold Routes._site
  rcases validate_slug rt slug with _ | _
  · trivial
  · refine (uses_query (h _)).bind fun site => ?_
    rcases site with _ | _ <;> trivial

theorem uses_site (slug : Str) : Uses looks (Routes._site rt slug) := uses_site_at fun _ => rfl

theorem uses_public_site (site : SiteRow) : Uses looks (Routes._public_site cfg site) :=
  Uses.bind (Uses.bind (uses_index rfl) fun _ => uses_ret _) fun _ => uses_ret _

theorem uses_publicSites : ∀ sites : List SiteRow, Uses looks (Routes.publicSites cfg sites)
  | [] => uses_ret _
  | _ :: sites => (uses_public_site _).bind fun _ => (uses_publicSites sites).bind fun _ => uses_ret _

theorem uses_valid_path (raw : Str) (allow_root : Bool) :
    Uses P (Routes._valid_path rt raw allow_root) := by
  unfold Routes._valid_path
  rcases validate_site_path rt raw allow_root with _ | _ <;> trivial

/-- The requests that only read. -/
def reads : Routes.Request → Bool
  | .list_sites | .get_site _ | .list_files .. | .download_file .. => true
  | _ => false

/-- **The routes that read** look at the sites, and change nothing but the file index. -/
theorem uses_serve_reads (actor : Actor) {request : Routes.Request} (h : reads request = true) :
    Uses looks (Routes.serve cfg rt hasher actor request) := by
  cases request <;> try cases h
  case list_sites =>
    exact Uses.bind (uses_index rfl) fun rows => (uses_publicSites rows).bind fun _ => uses_ret _
  case get_site slug =>
    exact (uses_site slug).bind fun site => (uses_public_site site).bind fun _ => uses_ret _
  case list_files slug path =>
    exact (uses_site slug).bind fun _ => (uses_valid_path _ _).bind fun _ =>
      (uses_list_folder _ _).bind fun _ => uses_ret _
  case download_file slug path =>
    exact (uses_site slug).bind fun _ => (uses_valid_path _ _).bind fun _ =>
      (uses_file_path _ _).bind fun _ => (uses_look rfl).bind fun _ => uses_ret _

end Looking

section Changing
open Storage

theorem uses_unlink {path : Path Str} (h : P (.disk (.unlink path))) : Uses P (_unlink path) :=
  uses_suppressOs (uses_disk h)

theorem uses_mkdirOnce (exist_ok : Bool) {path : Path Str} (hm : P (.disk (.mkdir path)))
    (hd : P (.disk (.isDir path))) : Uses P (mkdirOnce exist_ok path) := by
  refine (uses_disk hm).except fun e => ?_
  rcases e with _ | e | _ | _ | _ | _ | _ | _ <;> try trivial
  rcases e with _ | _ | _ | _ | _ | _ | _ | _ | _ <;> try trivial
  all_goals
    cases exist_ok
    · trivial
    · refine (uses_disk hd).bind fun is_dir => ?_
      cases is_dir <;> trivial

/-- The folders made are those on the way to the path. -/
theorem uses_mkdirParents : ∀ (exist_ok : Bool) (up : List Str),
    (∀ q, q <+: up.reverse → P (.disk (.mkdir q)) ∧ P (.disk (.isDir q))) →
      Uses P (mkdirParents exist_ok up)
  | exist_ok, [], h => uses_mkdirOnce exist_ok (h [] List.nil_prefix).1 (h [] List.nil_prefix).2
  | exist_ok, name :: up, h => by
    have hself := h _ List.prefix_rfl
    have hup : ∀ q, q <+: up.reverse → P (.disk (.mkdir q)) ∧ P (.disk (.isDir q)) := fun q hq =>
      h q (hq.trans (by rw [List.reverse_cons]; exact List.prefix_append _ _))
    refine (uses_disk hself.1).except fun e => ?_
    rcases e with _ | e | _ | _ | _ | _ | _ | _ <;> try trivial
    rcases e with _ | _ | _ | _ | _ | _ | _ | _ | _ <;>
      try exact (uses_mkdirParents true up hup).bind fun _ =>
        uses_mkdirOnce exist_ok hself.1 hself.2
    all_goals
      cases exist_ok
      · trivial
      · refine (uses_disk hself.2).bind fun is_dir => ?_
        cases is_dir <;> trivial

theorem uses_removeAll (ignore_errors : Bool) : ∀ entries : List (Path Str × Bool),
    (∀ e ∈ entries, P (.disk (.rmdir e.1)) ∧ P (.disk (.unlink e.1))) →
      Uses P (removeAll ignore_errors entries)
  | [], _ => uses_ret _
  | (path, is_dir) :: rest, h => by
    obtain ⟨hr, hu⟩ := h _ List.mem_cons_self
    refine Uses.bind ?_ fun _ => uses_removeAll ignore_errors rest fun e he =>
      h e (List.mem_cons_of_mem _ he)
    cases ignore_errors <;> cases is_dir
    · exact uses_disk hu
    · exact uses_disk hr
    · exact uses_suppressOs (uses_disk hu)
    · exact uses_suppressOs (uses_disk hr)

theorem uses_rmtree (ignore_errors : Bool) (path : Path Str) :
    Uses ofSites (rmtree ignore_errors path) := by
  refine (Uses.attempt (uses_any _)).bind fun r => ?_
  rcases r with e | entries
  · rcases e with _ | _ | _ | _ | _ | _ | _ | _ <;> cases ignore_errors <;> trivial
  · exact uses_removeAll _ _ fun _ _ => ⟨trivial, trivial⟩

theorem uses_create_site (slug name : Str) (created_at : Instant) :
    Uses ofSites (Storage.create_site cfg rt slug name created_at) := by
  refine uses_hold (Uses.bind (uses_sites rfl) fun existing => ?_)
  split_ifs
  · trivial
  refine ((uses_mkdirParents _ _ fun _ _ => ⟨trivial, trivial⟩).except fun e => ?_).bind fun _ =>
    (Uses.except (uses_sites rfl) fun e => ?_).bind fun _ => uses_ret _
  · rcases e with _ | e | _ | _ | _ | _ | _ | _ <;> try trivial
    rcases e with _ | _ | _ | _ | _ | _ | _ | _ | _ <;> trivial
  · refine (uses_suppressOs (uses_any _)).bind fun _ => ?_
    rcases e with _ | _ | _ | _ | _ | _ | _ | _ <;> trivial

theorem uses_parkSite (slug : Str) : Uses ofSites (parkSite cfg slug) := by
  refine ((uses_kind_of _).mono fun _ => ofSites_of_looks).bind fun kind => ?_
  refine Uses.bind ?_ fun _ => Uses.bind (uses_sites rfl) fun _ => uses_ret _
  split_ifs
  · exact (uses_token_hex (P := ofSites) trivial).bind fun _ => (uses_any _).bind fun _ => uses_ret _
  · exact uses_ret _

theorem uses_delete_site (slug : Str) : Uses ofSites (Storage.delete_site cfg slug) := by
  refine (uses_hold (uses_parkSite slug)).bind fun parked => ?_
  rcases parked with _ | parked
  · exact uses_ret _
  refine ((uses_kind_of _).mono fun _ => ofSites_of_looks).bind fun kind => ?_
  split_ifs
  · exact uses_rmtree _ _
  · exact uses_unlink (P := ofSites) trivial

theorem uses_stageChunks {staging : Path Str} (hw : ∀ bytes, P (.disk (.write staging bytes)))
    (hr : ∀ chunk, P (.receive chunk)) (ending : Option Exn) :
    ∀ (chunks : List Bytes) (received : Bytes),
      Uses P (stageChunks cfg staging ending chunks received)
  | [], received => by
    rcases ending with _ | e
    · exact (uses_receive (hr _)).bind fun _ => uses_ret _
    · exact uses_raise _
  | chunk :: chunks, received => by
    refine (uses_receive (hr _)).bind fun _ => ?_
    split_ifs
    · exact uses_stageChunks hw hr ending chunks received
    · exact uses_raise _
    · exact (uses_disk (hw _)).bind fun _ => uses_stageChunks hw hr ending chunks _

/-- **A staging writes in the staging folder only.** -/
theorem uses_stage (hd : ∀ c hex, (∀ p ∈ writes c, p = stagingPath cfg hex) → P (.disk c))
    (hr : ∀ chunk, P (.receive chunk)) (ht : ∀ n, P (.token_hex n)) (body : Incoming) :
    Uses P (_stage cfg rt body) := by
  refine (uses_token_hex (ht _)).bind fun hex => Uses.bind ?_ fun _ => uses_ret _
  have hdisk : ∀ c, (∀ p ∈ writes c, p = stagingPath cfg hex) → P (.disk c) := fun c => hd c hex
  refine Uses.except ?_ fun e =>
    (uses_unlink (hdisk _ (by simp [writes]))).bind fun _ => uses_raise _
  exact (uses_disk (hdisk _ (by simp [writes]))).bind fun _ =>
    (uses_stageChunks (fun bytes => hdisk _ (by simp [writes])) hr _ _ _).bind fun _ =>
      (uses_disk (hdisk _ (by simp [writes]))).bind fun _ => uses_ret _

theorem uses_checkParents_at (slug path : Str) : ∀ up : List Str,
    (∀ q, site_dir cfg slug <+: q → q <+: site_dir cfg slug ++ up.reverse → P (.disk (.lstat q))) →
      Uses P (checkParents cfg rt slug path up)
  | [], _ => uses_ret _
  | _ :: up, h => by
    have hup := uses_checkParents_at slug path up fun q hq hle => h q hq (hle.trans
      ((List.prefix_append_right_inj _).2 (by rw [List.reverse_cons]; exact List.prefix_append _ _)))
    refine (uses_kind_at (h _ (List.prefix_append _ _) List.prefix_rfl)).bind fun kind => ?_
    rcases kind with _ | _ | _ | _
    · exact hup
    · trivial
    · exact hup
    · trivial

/-- **`_check_write_target` looks at the parents of its target**, and at the target. -/
theorem uses_check_write_target_at (slug : Str) (target : Path Str) (path : Str) (overwrite : Bool)
    (h : ∀ q, site_dir cfg slug <+: q →
      q <+: site_dir cfg slug ++ (target.drop (site_dir cfg slug).length).dropLast →
        P (.disk (.lstat q)))
    (ht : P (.disk (.lstat target))) :
    Uses P (_check_write_target cfg rt slug target path overwrite) := by
  refine (uses_checkParents_at _ _ _ fun q hq hle => h q hq (by rwa [List.reverse_reverse] at hle)).bind
    fun _ => (uses_kind_at ht).bind fun kind => ?_
  rcases kind with _ | _ | _ | _
  · exact uses_ret _
  · cases overwrite <;> trivial
  · trivial
  · trivial

theorem glances_check_write_target (slug : Str) (target : Path Str) (path : Str) (overwrite : Bool) :
    Uses glances (_check_write_target cfg rt slug target path overwrite) :=
  uses_check_write_target_at slug target path overwrite (fun _ _ _ => rfl) rfl

theorem uses_check_write_target (slug : Str) (target : Path Str) (path : Str) (overwrite : Bool) :
    Uses looks (_check_write_target cfg rt slug target path overwrite) :=
  (glances_check_write_target slug target path overwrite).mono fun _ => looks_of_glances

theorem uses_landFile (slug path : Str) (overwrite : Bool) (staged : Staged) :
    Uses ofSites (landFile cfg rt slug path overwrite staged) := by
  refine Uses.bind (uses_sites rfl) fun site => ?_
  split_ifs
  · trivial
  · exact ((uses_resolve _ _).mono fun _ => ofSites_of_looks).bind fun target =>
      ((uses_check_write_target _ _ _ _).mono fun _ => ofSites_of_looks).bind fun replaced =>
        (uses_mkdirParents _ _ fun _ _ => ⟨trivial, trivial⟩).bind fun _ =>
          (uses_any _).bind fun _ => (uses_any _).bind fun _ =>
          Uses.bind (uses_sites rfl) fun _ => uses_ret _

theorem uses_write_file (slug path : Str) (body : Incoming) (overwrite : Bool)
    (declared_length : Option ℤ) :
    Uses ofSites (write_file cfg rt slug path body overwrite declared_length) := by
  refine ((uses_resolve _ _).mono fun _ => ofSites_of_looks).bind fun _ => ?_
  split_ifs
  · trivial
  · exact (uses_stage (P := ofSites) (fun _ _ _ => trivial) (fun _ => trivial) (fun _ => trivial)
        body).bind fun staged => ((uses_hold (uses_landFile ..)).except fun e =>
          (uses_unlink (P := ofSites) trivial).bind fun _ => uses_raise _).bind fun _ => uses_ret _

theorem uses_removeFile (slug path : Str) : Uses ofSites (removeFile cfg rt slug path) := by
  refine ((uses_resolve _ _).mono fun _ => ofSites_of_looks).bind fun target =>
    ((uses_kind_of _).mono fun _ => ofSites_of_looks).bind fun kind => ?_
  rcases kind with _ | _ | _ | _
  · trivial
  · exact (uses_any _).bind fun _ => uses_sites rfl
  · trivial
  · trivial

theorem uses_removeFolder (slug path : Str) (recursive : Bool) :
    Uses ofSites (removeFolder cfg rt slug path recursive) := by
  refine ((uses_resolve _ _).mono fun _ => ofSites_of_looks).bind fun target =>
    ((uses_kind_of _).mono fun _ => ofSites_of_looks).bind fun kind => ?_
  rcases kind with _ | _ | _ | _
  · trivial
  · trivial
  · refine (uses_any _).bind fun entries => ?_
    split_ifs
    · trivial
    · exact (uses_rmtree _ _).bind fun _ => Uses.bind (uses_sites rfl) fun _ => uses_ret _
  · trivial

/-- **The routes of the sites** use everything but the tables of users and tokens. -/
theorem uses_serve_sites (actor : Actor) {request : Routes.Request}
    (h : aboutSites request = true) :
    Uses ofSites (Routes.serve cfg rt hasher actor request) := by
  have hsite : ∀ slug, Uses ofSites (Routes._site rt slug) := fun slug =>
    (uses_site slug).mono fun _ => ofSites_of_looks
  cases request <;> try cases h
  case list_sites => exact (uses_serve_reads actor rfl).mono fun _ => ofSites_of_looks
  case get_site slug => exact (uses_serve_reads actor rfl).mono fun _ => ofSites_of_looks
  case list_files slug path => exact (uses_serve_reads actor rfl).mono fun _ => ofSites_of_looks
  case download_file slug path => exact (uses_serve_reads actor rfl).mono fun _ => ofSites_of_looks
  case create_site name =>
    change Uses ofSites (Routes.create_site cfg rt name)
    unfold Routes.create_site
    rcases slug_from_name rt name with _ | slug
    · trivial
    · exact (uses_now (P := ofSites) trivial).bind fun _ => (uses_create_site _ _ _).bind fun site =>
        ((uses_public_site site).mono fun _ => ofSites_of_looks).bind fun _ => uses_ret _
  case delete_site slug confirm =>
    refine (hsite slug).bind fun site => ?_
    split_ifs
    · trivial
    · exact (uses_delete_site _).bind fun _ => uses_ret _
  case upload_file slug path body declared_length overwrite =>
    exact (hsite slug).bind fun _ => (uses_valid_path _ _).bind fun _ =>
      (uses_write_file ..).bind fun _ => uses_ret _
  case delete_file slug path =>
    exact (hsite slug).bind fun _ => (uses_valid_path _ _).bind fun _ =>
      (uses_hold (uses_removeFile ..)).bind fun _ => uses_ret _
  case delete_folder slug path recursive =>
    exact (hsite slug).bind fun _ => (uses_valid_path _ _).bind fun _ =>
      (uses_hold (uses_removeFolder ..)).bind fun _ => uses_ret _

end Changing

end

end PaperBoxing.Backend.Frames
