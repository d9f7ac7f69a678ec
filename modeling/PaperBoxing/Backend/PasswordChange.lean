import PaperBoxing.Backend.Service
import PaperBoxing.Lib.Faults

/-! # Changing a password

A `change_password` request touches the caller's token, may hash the password again, stores the new
hash, and revokes the other sessions, each in a transaction of its own. `change_stages` says where it
may end when one of them fails; `one_change_iff` says when the new password and the end of the other
sessions are one change: but for the bulk revocation failing, always. -/

namespace PaperBoxing.Backend.PasswordChange

open PaperBoxing.Lib PaperBoxing.Lib.Action PaperBoxing.Lib.Program PaperBoxing.Lib.Text
open PaperBoxing.Lib.IsoTime PaperBoxing.Lib.Tables PaperBoxing.Lib.Faults
open PaperBoxing.Common.Scopes PaperBoxing.Common.Schema
open PaperBoxing.Backend PaperBoxing.Backend.Db PaperBoxing.Backend.Calls
open PaperBoxing.Backend.Accounts PaperBoxing.Backend.Frames
open PaperBoxing.Backend.Bearer PaperBoxing.Backend.App PaperBoxing.Backend.Service

variable {cfg : Config} {rt : Runtime} {hasher : Hasher} {w w' v : World} {i : ℕ}

/-! ### What is accepted -/

/-- The world with every clock at the time `t`. -/
def showing (t : Instant) (w : World) : World :=
  { w with oracle := fun i => { w.oracle i with now := fun _ => t } }

/-- `resolve_bearer` accepts the header at the time `t`. -/
def Accepts (cfg : Config) (rt : Runtime) (header : Option Str) (t : Instant) (w : World) : Prop :=
  ∃ actor, (run (exec 0) (resolve_bearer cfg rt header) (showing t w)).1 = .ok (some actor)

/-- The header carries the secret of the token `id`. -/
structure Presents (rt : Runtime) (header : Option Str) (id : Str) (r : TokenRec) (w : World) : Prop where
  row : w.db.tokens[id]? = some r
  secret : carried rt header = some r.secret_sha256

/-- **A token is accepted** while it is not revoked and not expired. -/
theorem accepts_iff {header : Option Str} {id : Str} {r : TokenRec} {t : Instant}
    (h : Presents rt header id r w) : Accepts cfg rt header t w ↔
      r.revoked_at = none ∧ expired r t = false ∧
        (r.type = .session → t.add (days cfg.session_days) ≠ none) := by
  have hrun : (run (exec 0) (resolve_bearer cfg rt header) (showing t w)).1 =
      (honoured cfg id r t w.db).1 := by
    have hrow : (showing t w).db.tokens[id]? = some r := h.row
    rw [run_resolve_row h.secret hrow]
    rfl
  obtain ⟨u, hu⟩ := Option.ne_none_iff_exists'.1 (w.db.owners id r h.row)
  rw [Accepts, hrun, honoured, hu]
  by_cases hrev : r.revoked_at = none
  swap
  · rw [if_pos hrev]
    exact ⟨by rintro ⟨_, ⟨⟩⟩, fun ha => absurd ha.1 hrev⟩
  rw [if_neg (not_not.2 hrev)]
  rcases hexp : expired r t with _ | _
  swap
  · rw [if_pos rfl]
    exact ⟨by rintro ⟨_, ⟨⟩⟩, by rintro ⟨-, ⟨⟩, -⟩⟩
  rw [if_neg Bool.false_ne_true]
  rcases ht : r.type with _ | _
  · rcases hadd : t.add (days cfg.session_days) with _ | e
    · exact ⟨by rintro ⟨_, ⟨⟩⟩, fun ha => absurd rfl (ha.2.2 rfl)⟩
    · exact ⟨fun _ => ⟨hrev, rfl, fun _ => Option.some_ne_none _⟩, fun _ => ⟨_, rfl⟩⟩
  · exact ⟨fun _ => ⟨hrev, rfl, fun h => by cases h⟩, fun _ => ⟨_, rfl⟩⟩

/-! ### Stored hashes -/

/-- Every stored hash was made by the hasher. -/
def Hashed (hasher : Hasher) (w : World) : Prop :=
  ∀ (id : Str) (u : UserRec), w.db.users[id]? = some u → ∃ salt p, u.password_hash = hasher.hash salt p

/-- The calls that store no hash but the hasher's. -/
def stores (hasher : Hasher) : Calls.Call → Prop
  | .db (.insert_user user) => ∃ salt p, user.password_hash = hasher.hash salt p
  | .db (.set_password_hash _ hash) => ∃ salt p, hash = hasher.hash salt p
  | _ => True

/-- Whether a query stores a hash. -/
def storing : Query → Bool
  | .insert_user _ | .set_password_hash .. => true
  | _ => false

theorem stores_of_not {q : Query} (h : storing q = false) : stores hasher (.db q) := by
  cases q <;> trivial

theorem uses_stores {q : Query} (h : storing q = false) : Uses (stores hasher) (query q) :=
  uses_query (stores_of_not h)

theorem stores_of_only {f : Query → Bool} (hf : ∀ q, f q = true → storing q = false) {c : Calls.Call}
    (h : only f c) : stores hasher c := by
  cases c with
  | db q => exact stores_of_not (hf q h)
  | _ => trivial

theorem stores_of_sites {c : Calls.Call} (h : ofSites c) : stores hasher c := by
  cases c with
  | db q => cases q <;> trivial
  | _ => trivial

theorem call_hashed {c : Calls.Call} (hc : stores hasher c) (h : Hashed hasher w) :
    Hashed hasher (exec i c w).2 := by
  cases c with
  | db q =>
    by_cases hacc : onAccounts q = true
    swap
    · intro id u hu
      change (Db.exec q w.db).2.users[id]? = some u at hu
      rw [(exec_users_tokens (Bool.eq_false_iff.2 hacc) w.db).1] at hu
      exact h id u hu
    cases q <;> try first | exact h | exact absurd hacc Bool.false_ne_true
    case insert_user user =>
      intro id u hu
      change (Db.insert_user user w.db).2.users[id]? = some u at hu
      rw [Db.insert_user] at hu
      split at hu
      · exact h id u hu
      · change (w.db.users.insert user.id (userRec user))[id]? = some u at hu
        rw [get_insert] at hu
        split_ifs at hu
        · obtain rfl := Option.some.inj hu
          exact hc
        · exact h id u hu
    case set_password_hash user_id hash =>
      intro id u hu
      change (w.db.users.map _)[id]? = some u at hu
      rw [get_map, Option.map_eq_some_iff] at hu
      obtain ⟨u0, hu0, rfl⟩ := hu
      split_ifs
      · exact hc
      · exact h id u0 hu0
    case delete_user user_id =>
      intro id u hu
      change (w.db.users.erase user_id)[id]? = some u at hu
      rw [get_erase] at hu
      split_ifs at hu
      exact h id u hu
    case insert_token token digest =>
      intro id u hu
      change (Db.insert_token token digest w.db).2.users[id]? = some u at hu
      rw [Db.insert_token] at hu
      split at hu <;> exact h id u hu
  | _ => exact h

theorem stores_new_id (kind : Str) : Uses (stores hasher) (new_id kind) :=
  (uses_token_hex (P := stores hasher) trivial).bind fun _ => uses_ret _

theorem stores_new_secret : Uses (stores hasher) new_secret :=
  (uses_token_urlsafe (P := stores hasher) trivial).bind fun _ => uses_ret _

theorem stores_create_user (username password : Str) :
    Uses (stores hasher) (Accounts.create_user hasher username password) :=
  (stores_new_id _).bind fun _ => (uses_salt (P := stores hasher) trivial).bind fun salt =>
    (uses_now (P := stores hasher) trivial).bind fun _ =>
      Uses.bind (uses_query (P := stores hasher) ⟨salt, password, rfl⟩) fun _ => uses_ret _

theorem stores_verify_password (user : UserRow) (password : Str) :
    Uses (stores hasher) (verify_password hasher user password) := by
  unfold verify_password
  split_ifs
  · exact uses_ret _
  · exact (uses_salt (P := stores hasher) trivial).bind fun salt =>
      Uses.bind (uses_query (P := stores hasher) ⟨salt, password, rfl⟩) fun _ => uses_ret _
  · exact uses_ret _

theorem stores_change_hash (user : UserRow) (new_password : Str) :
    Uses (stores hasher) (Accounts.change_password hasher user new_password) :=
  (uses_salt (P := stores hasher) trivial).bind fun salt =>
    uses_query (P := stores hasher) ⟨salt, new_password, rfl⟩

theorem stores_bootstrap (username password : Option Str) :
    Uses (stores hasher) (bootstrap hasher username password) := by
  refine Uses.bind (uses_stores rfl) fun count => ?_
  split_ifs
  · exact uses_ret _
  · rcases username with _ | username
    · exact uses_ret _
    · rcases password with _ | password
      · exact uses_ret _
      · dsimp only
        split_ifs
        · exact (stores_create_user _ _).bind fun _ => uses_ret _
        · exact uses_raise _

theorem stores_login (body : LoginRequest) :
    Uses (stores hasher) (Routes.login cfg rt hasher body) := by
  refine Uses.bind (Uses.bind (uses_stores rfl) fun user => ?_) fun result => ?_
  · rcases user with _ | user
    · exact uses_ret _
    refine (stores_verify_password _ _).bind fun verified => ?_
    dsimp only
    split_ifs
    · exact uses_ret _
    · exact (uses_now (P := stores hasher) trivial).bind fun _ => (stores_new_id _).bind fun _ =>
        (uses_slide _).bind fun _ => stores_new_secret.bind fun _ => (uses_secret_digest _).bind
          fun _ => Uses.bind (uses_stores rfl) fun _ => uses_ret _
  · rcases result with _ | ⟨user, session, secret⟩
    · trivial
    dsimp only
    rcases session.expires_at with _ | e
    · trivial
    · trivial

theorem stores_serve (actor : Actor) (request : Routes.Request) :
    Uses (stores hasher) (Routes.serve cfg rt hasher actor request) := by
  rcases hs : aboutSites request with _ | _
  swap
  · exact (uses_serve_sites actor hs).mono fun _ => stores_of_sites
  cases request <;> try exact absurd hs.symm Bool.false_ne_true
  case login body => exact stores_login body
  case logout =>
    exact Uses.bind ((uses_now (P := stores hasher) trivial).bind fun _ => uses_stores rfl)
      fun _ => uses_ret _
  case list_tokens =>
    exact Uses.bind (Uses.bind (uses_stores rfl) fun _ => uses_ret _) fun _ => uses_ret _
  case create_token body =>
    exact Uses.bind ((stores_new_id _).bind fun _ =>
      (uses_now (P := stores hasher) trivial).bind fun _ => stores_new_secret.bind fun _ =>
        (uses_secret_digest _).bind fun _ => Uses.bind (uses_stores rfl) fun _ => uses_ret _)
      fun _ => uses_ret _
  case token_self => exact uses_ret _
  case revoke_token token_id =>
    refine Uses.bind (Uses.bind (uses_stores rfl) fun token => ?_) fun revoked => ?_
    · rcases token with _ | token
      · exact uses_ret _
      · dsimp only
        split_ifs
        · exact uses_ret _
        · exact (uses_now (P := stores hasher) trivial).bind fun _ =>
            Uses.bind (uses_stores rfl) fun _ => uses_ret _
    · split_ifs <;> trivial
  case list_users => exact Uses.bind (uses_stores rfl) fun _ => uses_ret _
  case create_user body =>
    refine ((stores_create_user _ _).except fun e => ?_).bind fun _ => uses_ret _
    rcases e with _ | _ | _ | _ | _ | _ | _ | _ <;> trivial
  case change_password body =>
    refine (stores_verify_password _ _).bind fun verified => ?_
    split_ifs
    · trivial
    · exact (stores_change_hash _ _).bind fun _ => Uses.bind
        ((uses_now (P := stores hasher) trivial).bind fun _ => uses_stores rfl) fun _ => uses_ret _
  case delete_user user_id =>
    refine Uses.bind (uses_stores rfl) fun user => ?_
    split_ifs
    · trivial
    · refine Uses.bind (uses_stores rfl) fun count => ?_
      split_ifs
      · trivial
      · exact Uses.bind (uses_stores rfl) fun _ => uses_ret _

theorem block_hashed (b : Block) (h : Hashed hasher w) :
    Hashed hasher (run (exec i) (b.code cfg rt hasher) w).2 := by
  have huses : Uses (stores hasher) (b.code cfg rt hasher) := by
    cases b with
    | authorise name header =>
      refine (uses_dependency name header).mono fun _ => stores_of_only fun q hq => ?_
      cases q <;> first | rfl | exact absurd hq Bool.false_ne_true
    | login body => exact stores_login body
    | serve actor request => exact stores_serve actor request
    | bootstrap username password => exact stores_bootstrap username password
    | purge => exact (uses_now (P := stores hasher) trivial).bind fun _ => uses_stores rfl
  exact run_preserves (I := Hashed hasher) (fun _ hc _ hw => call_hashed hc hw) huses h

/-- **Over a whole life every stored hash is the hasher's.** -/
theorem life_hashed {w0 : World} {tr : Trace cfg rt hasher} (life : Life cfg rt hasher w0 tr w)
    (h0 : Hashed hasher w0) : Hashed hasher w := by
  refine (life.ordered (R := fun v v' => Hashed hasher v → Hashed hasher v') (fun _ => id)
    (fun _ _ _ h h' => h' ∘ h) ?_ fun _ => id).whole h0
  rintro i (b | c) v r v' hc ⟨-, he | ⟨_, _, hf⟩⟩ hv
  · rw [(Prod.mk.inj he).2]
    exact block_hashed b hv
  · exact hf.elim
  · rw [(Prod.mk.inj he).2]
    exact call_hashed (stores_of_sites hc) hv
  · exact hf.elim

/-! ### Where a request may end -/

/-- Any call of the database may raise anything. -/
def dbFails : Calls.Call → Exn → Prop
  | .db _, _ => True
  | _, _ => False

/-- Whether the failing call is the bulk revocation. -/
def atRevocation : Option (Failure Calls.sig World) → Bool
  | some (.db (.revoke_other_sessions ..), _) => true
  | _ => false

theorem uncaught_query (q : Query) : Uncaught (query q) := uncaught_invoke _

theorem uncaught_now : Uncaught now := uncaught_invoke _

theorem uncaught_salt : Uncaught salt := uncaught_invoke _

theorem uncaught_slide (now : Instant) : Uncaught (slide cfg now) := by
  rw [slide]
  generalize now.add (days cfg.session_days) = o
  rcases o with _ | e <;> trivial

theorem uncaught_honour (token : TokenRow) (now : Instant) : Uncaught (honour cfg token now) := by
  unfold honour
  split_ifs
  · trivial
  · exact Uncaught.bind (uncaught_query _) fun _ => trivial
  · refine Uncaught.bind (uncaught_query _) fun user => ?_
    rcases user with _ | user
    · trivial
    · exact Uncaught.bind ((uncaught_slide _).bind fun _ => trivial) fun _ =>
        Uncaught.bind (uncaught_query _) fun _ => trivial
  · refine Uncaught.bind (uncaught_query _) fun user => ?_
    rcases user with _ | user
    · trivial
    · exact Uncaught.bind (p := .ret none) trivial fun _ =>
        Uncaught.bind (uncaught_query _) fun _ => trivial

theorem uncaught_resolve (header : Option Str) : Uncaught (resolve_bearer cfg rt header) := by
  rw [resolve_bearer]
  rcases parse_bearer header with _ | secret
  · trivial
  dsimp only
  rw [secret_digest]
  rcases utf8 secret with _ | bytes
  · trivial
  refine Uncaught.bind (p := .ret _) trivial fun digest => Uncaught.bind (uncaught_query _) fun token => ?_
  rcases token with _ | token
  · trivial
  · exact uncaught_now.bind fun _ => uncaught_honour _ _

theorem uncaught_requires (name : RouteName) (header : Option Str) :
    Uncaught (Routes.requires cfg rt name header) := by
  refine (uncaught_resolve header).bind fun actor => ?_
  rcases actor with _ | actor
  · trivial
  · dsimp only
    split_ifs <;> trivial

theorem uncaught_verify_password (user : UserRow) (password : Str) :
    Uncaught (verify_password hasher user password) := by
  unfold verify_password
  split_ifs
  · trivial
  · exact uncaught_salt.bind fun _ => Uncaught.bind (uncaught_query _) fun _ => trivial
  · trivial

theorem uncaught_change_hash (user : UserRow) (new_password : Str) :
    Uncaught (Accounts.change_password hasher user new_password) :=
  uncaught_salt.bind fun _ => uncaught_query _

theorem uncaught_revoke_others (user : UserRow) (keep : TokenRow) :
    Uncaught (Accounts.revoke_other_sessions user keep) :=
  uncaught_now.bind fun _ => uncaught_query _

theorem makes_query {A : Type} {q : Query} {f : q.Answer → Code A} {c : Calls.Call}
    (h : Makes (exec i) (query q >>= f) w c v) :
    (c = .db q ∧ v = w) ∨ ∃ a, Makes (exec i) (f a) { w with db := (Db.exec q w.db).2 } c v := by
  rcases makes_bind.1 h with h | ⟨a, w1, hr, h⟩
  · exact Or.inl (makes_invoke.1 h)
  · rw [run_query_world hr] at h
    exact Or.inr ⟨a, h⟩

theorem makes_now {A : Type} {f : Instant → Code A} {c : Calls.Call}
    (h : Makes (exec i) (now >>= f) w c v) :
    v = w ∨ ∃ t, Makes (exec i) (f t) (Alone.drew w i) c v := by
  rcases makes_bind.1 h with h | ⟨a, w1, hr, h⟩
  · exact Or.inl (makes_invoke.1 h).2
  · obtain rfl : Alone.drew w i = w1 := congrArg Prod.snd hr
    exact Or.inr ⟨a, h⟩

theorem makes_honour {token : TokenRow} {now : Instant} {c : Calls.Call}
    (h : Makes (exec i) (honour cfg token now) w c v) : v.db = w.db := by
  have hslide : ∀ now c w v, ¬ Makes (exec i) (slide cfg now) w c v := by
    intro now c w v h
    rw [slide] at h
    generalize now.add (days cfg.session_days) = o at h
    rcases o with _ | e <;> cases h
  unfold honour at h
  split_ifs at h with h1 h2 h3
  · cases h
  · rcases makes_query h with ⟨-, rfl⟩ | ⟨_, h⟩
    · rfl
    · cases h
  · rcases makes_query h with ⟨-, rfl⟩ | ⟨user, h⟩
    · rfl
    rcases user with _ | user
    · cases h
    rcases makes_bind.1 h with h | ⟨e, w1, hr, h⟩
    · rcases makes_bind.1 h with h | ⟨_, _, -, h⟩
      · exact (hslide _ _ _ _ h).elim
      · cases h
    · rw [run_bind, run_slide] at hr
      rcases hadd : now.add (days cfg.session_days) with _ | e1
      · rw [hadd] at hr
        cases (Prod.mk.inj hr).1
      · rw [hadd] at hr
        obtain rfl := (Prod.mk.inj hr).2
        rcases makes_query h with ⟨-, rfl⟩ | ⟨_, h⟩
        · rfl
        · cases h
  · rcases makes_query h with ⟨-, rfl⟩ | ⟨user, h⟩
    · rfl
    rcases user with _ | user
    · cases h
    rcases makes_query h with ⟨-, rfl⟩ | ⟨_, h⟩
    · rfl
    · cases h

/-- **The dependency writes at its end only.** -/
theorem makes_requires {name : RouteName} {header : Option Str} {c : Calls.Call}
    (h : Makes (exec i) (Routes.requires cfg rt name header) w c v) : v.db = w.db := by
  rcases makes_bind.1 h with h | ⟨actor, w1, -, h⟩
  · rw [resolve_bearer] at h
    generalize parse_bearer header = o at h
    rcases o with _ | secret
    · cases h
    dsimp only at h
    rw [secret_digest] at h
    generalize utf8 secret = o at h
    rcases o with _ | bytes
    · cases h
    rcases makes_query (show Makes (exec i) (query _ >>= _) w c v from h) with ⟨-, rfl⟩ | ⟨token, h⟩
    · rfl
    rcases token with _ | token
    · cases h
    rcases makes_now h with rfl | ⟨t, h⟩
    · rfl
    · exact (makes_honour h).trans rfl
  · rcases actor with _ | actor
    · cases h
    dsimp only at h
    split_ifs at h <;> cases h

theorem makes_verify_password {user : UserRow} {password : Str} {c : Calls.Call}
    (h : Makes (exec i) (verify_password hasher user password) w c v) :
    v.db = w.db ∧ atRevocation (some (c, v)) = false := by
  unfold verify_password at h
  split_ifs at h
  · cases h
  · rcases makes_bind.1 h with h | ⟨salt, w1, hr, h⟩
    · obtain ⟨rfl, rfl⟩ := makes_invoke.1 h
      exact ⟨rfl, rfl⟩
    obtain rfl : Alone.drew w i = w1 := congrArg Prod.snd hr
    rcases makes_query h with ⟨rfl, rfl⟩ | ⟨_, h⟩
    · exact ⟨rfl, rfl⟩
    · cases h
  · cases h

theorem makes_change_hash {user : UserRow} {new_password : Str} {c : Calls.Call}
    (h : Makes (exec i) (Accounts.change_password hasher user new_password) w c v) :
    v.db = w.db ∧ atRevocation (some (c, v)) = false := by
  rcases makes_bind.1 h with h | ⟨salt, w1, hr, h⟩
  · obtain ⟨rfl, rfl⟩ := makes_invoke.1 h
    exact ⟨rfl, rfl⟩
  · obtain rfl : Alone.drew w i = w1 := congrArg Prod.snd hr
    obtain ⟨rfl, rfl⟩ := makes_invoke.1 h
    exact ⟨rfl, rfl⟩

/-- The users after the accepted password was hashed again, if it was. -/
def Rehashed (hasher : Hasher) (user : UserRow) (password : Str) (d d' : Database) : Prop :=
  d' = d ∨ (hasher.verify user.password_hash password = true ∧
    ∃ salt, d' = (set_password_hash user.id (hasher.hash salt password) d).2)

theorem run_verify_password (hasher : Hasher) (user : UserRow) (password : Str) (w : World) :
    ∃ w', run (exec i) (verify_password hasher user password) w =
        (.ok (hasher.verify user.password_hash password), w') ∧
      Rehashed hasher user password w.db w'.db := by
  unfold verify_password
  rcases hv : hasher.verify user.password_hash password with _ | _
  · exact ⟨w, rfl, Or.inl rfl⟩
  rw [if_neg (by decide)]
  split_ifs
  · exact ⟨_, rfl, Or.inr ⟨hv, _, rfl⟩⟩
  · exact ⟨w, rfl, Or.inl rfl⟩

/-- What the bulk revocation leaves. -/
def revoked (caller : Actor) (now : Instant) (d : Database) : Database :=
  (Db.revoke_other_sessions caller.user.id caller.token.id now d).2

/-- What the storing of a new hash leaves. -/
def renewed (hasher : Hasher) (caller : Actor) (salt new : Str) (d : Database) : Database :=
  (set_password_hash caller.user.id (hasher.hash salt new) d).2

/-- **Where the handler may end**: before the new hash is stored, between that and the bulk revocation,
when that fails, or after it. -/
theorem handler_stages {caller : Actor} {body : ChangePasswordRequest}
    {s : Option (Failure Calls.sig World)} {r : Except Exn Response}
    (ho : Outcome (exec i) dbFails (Routes.change_password hasher caller body) w s r w') :
    ∃ d2, Rehashed hasher caller.user body.current w.db d2 ∧
      ((atRevocation s = false ∧ w'.db = d2) ∨
        hasher.verify caller.user.password_hash body.current = true ∧ ∃ salt,
          (atRevocation s = true ∧ w'.db = renewed hasher caller salt body.new d2) ∨
          (atRevocation s = false ∧
            ∃ now, w'.db = revoked caller now (renewed hasher caller salt body.new d2))) := by
  obtain ⟨w1, hr1, hd1⟩ := run_verify_password (i := i) hasher caller.user body.current w
  rcases outcome_bind.1 ho with ⟨r1, v, hs, ho, hm⟩ | ⟨r1, v, hr, ho⟩
  · -- the failure is in the verification
    obtain ⟨⟨c, v'⟩, rfl⟩ := Option.ne_none_iff_exists'.1 hs
    obtain ⟨hmade, rfl, e, -, rfl⟩ := ho.made (uncaught_verify_password _ _)
    obtain ⟨-, rfl⟩ := hm
    obtain ⟨hd, hat⟩ := makes_verify_password hmade
    exact ⟨w.db, Or.inl rfl, Or.inl ⟨hat, hd⟩⟩
  rw [hr1] at hr
  obtain ⟨rfl, rfl⟩ := Prod.mk.inj hr
  dsimp only at ho
  refine ⟨w1.db, hd1, ?_⟩
  rcases hv : hasher.verify caller.user.password_hash body.current with _ | _
  · rw [hv] at ho
    cases ho
    exact Or.inl ⟨rfl, rfl⟩
  rw [hv, if_neg (by decide)] at ho
  rcases outcome_bind.1 ho with ⟨r2, v, hs, ho, hm⟩ | ⟨r2, v, hr, ho⟩
  · -- the failure is in the storing of the new hash
    obtain ⟨⟨c, v'⟩, rfl⟩ := Option.ne_none_iff_exists'.1 hs
    obtain ⟨hmade, rfl, e, -, rfl⟩ := ho.made (uncaught_change_hash _ _)
    obtain ⟨-, rfl⟩ := hm
    obtain ⟨hd, hat⟩ := makes_change_hash hmade
    exact Or.inl ⟨hat, hd⟩
  obtain ⟨rfl, rfl⟩ := Prod.mk.inj hr
  refine Or.inr ⟨rfl, (w1.oracle i).salt (w1.drawn i), ?_⟩
  rcases outcome_bind.1 ho with ⟨r3, v, hs, ho, hm⟩ | ⟨r3, v, hr, ho⟩
  · -- the failure is in the bulk revocation
    obtain ⟨⟨c, v'⟩, rfl⟩ := Option.ne_none_iff_exists'.1 hs
    obtain ⟨hmade, rfl, e, hfail, rfl⟩ := ho.made (uncaught_revoke_others _ _)
    obtain ⟨-, rfl⟩ := hm
    rcases makes_bind.1 hmade with hmade | ⟨t, w2, hr2, hmade⟩
    · obtain ⟨rfl, -⟩ := makes_invoke.1 hmade
      exact hfail.elim
    · obtain rfl : _ = w2 := congrArg Prod.snd hr2
      obtain ⟨rfl, rfl⟩ := makes_invoke.1 hmade
      exact Or.inl ⟨rfl, rfl⟩
  · obtain ⟨rfl, rfl⟩ := Prod.mk.inj hr
    cases ho
    exact Or.inr ⟨rfl, _, rfl⟩

/-- **Where the request may end**, the presentation of the caller's secret included. -/
theorem change_stages {header : Option Str} {caller : Actor} {presented : World}
    {body : ChangePasswordRequest} {s : Option (Failure Calls.sig World)} {r : Except Exn Response}
    (hcaller : run (exec i) (resolve_bearer cfg rt header) w = (.ok (some caller), presented))
    (session : caller.token.type = .session)
    (ho : Outcome (exec i) dbFails (Routes.handle cfg rt hasher header (.change_password body)) w s r
      w') :
    ∃ d1 d2, (d1 = w.db ∨ d1 = presented.db) ∧ Rehashed hasher caller.user body.current d1 d2 ∧
      ((atRevocation s = false ∧ w'.db = d2) ∨
        hasher.verify caller.user.password_hash body.current = true ∧ ∃ salt,
          (atRevocation s = true ∧ w'.db = renewed hasher caller salt body.new d2) ∨
          (atRevocation s = false ∧
            ∃ now, w'.db = revoked caller now (renewed hasher caller salt body.new d2))) := by
  obtain ⟨r1, ho⟩ := Outcome.except (fun e => by
    split_ifs
    · exact ⟨.error e, rfl⟩
    · exact ⟨.ok _, rfl⟩) ho
  have hrequires : run (exec i) (Routes.requires cfg rt .change_password header) w =
      (.ok caller, presented) := by
    have hallow : access_allows (route_access .change_password)
        (some (caller.token.type, caller.token.scope)) = true := by
      rw [session]
      cases caller.token.scope <;> rfl
    rw [Routes.requires, run_bind_of_ok _ hcaller]
    dsimp only
    rw [if_pos hallow]
    rfl
  rcases outcome_bind.1 (show Outcome (exec i) dbFails (Routes.requires cfg rt .change_password
      header >>= fun actor => Routes.change_password hasher actor body) w s r1 w' from ho) with
    ⟨r2, v, hs, ho, hm⟩ | ⟨r2, v, hr, ho⟩
  · -- the failure is in the presentation
    obtain ⟨⟨c, v'⟩, rfl⟩ := Option.ne_none_iff_exists'.1 hs
    obtain ⟨hmade, rfl, e, -, rfl⟩ := ho.made (uncaught_requires _ _)
    obtain ⟨-, rfl⟩ := hm
    have hat : ∀ v, atRevocation (some (c, v)) = false := by
      intro v
      have hc : only forBearer c := hmade.uses (uses_dependency .change_password header)
      cases c with
      | db q => cases q <;> first | rfl | exact absurd hc Bool.false_ne_true
      | _ => rfl
    exact ⟨w.db, w.db, Or.inl rfl, Or.inl rfl, Or.inl ⟨hat _, makes_requires hmade⟩⟩
  · rw [hrequires] at hr
    obtain ⟨rfl, rfl⟩ := Prod.mk.inj hr
    obtain ⟨d2, hd2, h⟩ := handler_stages ho
    exact ⟨_, d2, Or.inr rfl, hd2, h⟩

/-! ### One change -/

/-- The password of an account is `p`, and no other. -/
def PasswordIs (hasher : Hasher) (id p : Str) (w : World) : Prop :=
  ∃ u, w.db.users[id]? = some u ∧ ∀ q, hasher.verify u.password_hash q = true ↔ q = p

/-- The password of an account is the same in two worlds. -/
def SamePassword (hasher : Hasher) (id : Str) (w w' : World) : Prop :=
  ∃ u u', w.db.users[id]? = some u ∧ w'.db.users[id]? = some u' ∧
    ∀ q, hasher.verify u'.password_hash q = hasher.verify u.password_hash q

/-- Another session of the caller's. -/
structure Other (caller : Actor) (id : Str) (r : TokenRec) : Prop where
  session : r.type = .session
  user : r.user_id = caller.user.id
  other : id ≠ caller.token.id

/-- **The new password and the end of the other sessions are one change** from `w` to `w'`, made by a
caller whose presentation alone leads to `presented`. -/
structure OneChange (cfg : Config) (rt : Runtime) (hasher : Hasher) (caller : Actor)
    (header : Option Str) (new : Str) (w presented w' : World) : Prop where
  together : (PasswordIs hasher caller.user.id new w' ∧ ∀ header id r t, Presents rt header id r w →
      Other caller id r → ¬ Accepts cfg rt header t w') ∨
    (SamePassword hasher caller.user.id w w' ∧ ∀ header id r t, Presents rt header id r w →
      Other caller id r → (Accepts cfg rt header t w' ↔ Accepts cfg rt header t w))
  calling : (∀ t, Accepts cfg rt header t w' ↔ Accepts cfg rt header t w) ∨
    ∀ t, Accepts cfg rt header t w' ↔ Accepts cfg rt header t presented
  rest : ∀ header id r t, Presents rt header id r w → r.type = .agent ∨ r.user_id ≠ caller.user.id →
    (Accepts cfg rt header t w' ↔ Accepts cfg rt header t w)
  users : ∀ id, id ≠ caller.user.id → w'.db.users[id]? = w.db.users[id]?

/-- A token whose row is the same is accepted alike. -/
theorem accepts_same {header : Option Str} {id : Str} {r : TokenRec} {t : Instant}
    (h : Presents rt header id r w) (hw : w'.db.tokens[id]? = some r) :
    Accepts cfg rt header t w' ↔ Accepts cfg rt header t w := by
  rw [accepts_iff h, accepts_iff ⟨hw, h.secret⟩]

/-- What every stage of the handler keeps: the other accounts, and every row the bulk revocation is not
for. -/
structure Kept (caller : Actor) (d d' : Database) : Prop where
  users : ∀ id, id ≠ caller.user.id → d'.users[id]? = d.users[id]?
  tokens : ∀ (id : Str) (r : TokenRec), d.tokens[id]? = some r →
    isOther caller.user.id caller.token.id id r = false → d'.tokens[id]? = some r

theorem Kept.refl (caller : Actor) (d : Database) : Kept caller d d := ⟨fun _ _ => rfl, fun _ _ h _ => h⟩

theorem Kept.trans {caller : Actor} {d d' d'' : Database} (h : Kept caller d d')
    (h' : Kept caller d' d'') : Kept caller d d'' :=
  ⟨fun id hid => (h'.users id hid).trans (h.users id hid),
    fun id r hr ho => h'.tokens id r (h.tokens id r hr ho) ho⟩

theorem get_users_set {d : Database} {id user_id hash : Str} :
    (set_password_hash user_id hash d).2.users[id]? =
      d.users[id]?.map fun u => if id = user_id then { u with password_hash := hash } else u := get_map ..

theorem get_users_set_self {d : Database} {id hash : Str} {u : UserRec} (h : d.users[id]? = some u) :
    (set_password_hash id hash d).2.users[id]? = some { u with password_hash := hash } := by
  rw [get_users_set, h, Option.map_some, if_pos rfl]

theorem kept_set (caller : Actor) (hash : Str) (d : Database) :
    Kept caller d (set_password_hash caller.user.id hash d).2 := by
  refine ⟨fun id hid => ?_, fun _ _ h _ => h⟩
  rw [get_users_set]
  simp only [if_neg hid]
  exact Option.map_id' ..

theorem kept_rehashed {caller : Actor} {password : Str} {d d' : Database}
    (h : Rehashed hasher caller.user password d d') : Kept caller d d' := by
  rcases h with rfl | ⟨-, salt, rfl⟩
  · exact .refl caller _
  · exact kept_set ..

theorem kept_revoked (caller : Actor) (now : Instant) (d : Database) :
    Kept caller d (revoked caller now d) := by
  refine ⟨fun _ _ => rfl, fun id r hr ho => ?_⟩
  rw [revoked, Db.revoke_other_sessions, get_map_tokens, hr, Option.map_some, ho]
  rfl

/-- **What is kept is accepted as before.** -/
theorem OneChange.of_kept {header : Option Str} {caller : Actor} {presented : World} {new : Str}
    {t : Instant} {r : TokenRec} {u : UserRec} {d1 : Database}
    (found : Found rt header t caller r u w.db presented.db) (session : caller.token.type = .session)
    (hd1 : d1 = w.db ∨ d1 = presented.db) (kept : Kept caller d1 w'.db)
    (together : (PasswordIs hasher caller.user.id new w' ∧ ∀ header id r t,
        Presents rt header id r w → Other caller id r → ¬ Accepts cfg rt header t w') ∨
      (SamePassword hasher caller.user.id w w' ∧ ∀ header id r t, Presents rt header id r w →
        Other caller id r → (Accepts cfg rt header t w' ↔ Accepts cfg rt header t w))) :
    OneChange cfg rt hasher caller header new w presented w' where
  together := together
  calling := by
    have hself : ∀ r, isOther caller.user.id caller.token.id caller.token.id r = false := fun r => by
      simp [isOther]
    rcases hd1 with rfl | rfl
    · exact Or.inl fun t => accepts_same ⟨found.row, found.secret⟩
        (kept.tokens _ _ found.row (hself _))
    · obtain ⟨e, hrow⟩ := found.touched
      exact Or.inr fun t => accepts_same ⟨hrow, found.secret⟩ (kept.tokens _ _ hrow (hself _))
  rest header id r' t h hr := by
    have hother : isOther caller.user.id caller.token.id id r' = false := by
      rcases hr with hr | hr <;> simp [isOther, hr]
    refine accepts_same h (kept.tokens id r' ?_ hother)
    rcases hd1 with rfl | rfl
    · exact h.row
    · rw [found.others id ?_]
      · exact h.row
      rintro rfl
      have hsame := Option.some.inj (h.row.symm.trans found.row)
      rcases hr with hr | hr
      · rw [hsame, found.type, session] at hr
        cases hr
      · exact hr (hsame ▸ found.owner)
  users id hid := by
    rw [kept.users id hid]
    rcases hd1 with rfl | rfl
    · rfl
    · rw [found.users]

/-! ### The password -/

theorem tokens_rehashed {user : UserRow} {password : Str} {d d' : Database}
    (h : Rehashed hasher user password d d') : d'.tokens = d.tokens := by
  rcases h with rfl | ⟨-, salt, rfl⟩ <;> rfl

/-- Hashing the accepted password again accepts the same password. -/
theorem same_rehashed (sound : hasher.Sound) {user : UserRow} {password : Str} {d d' : Database}
    {u : UserRec} (hu : d.users[user.id]? = some u) (huser : user = _user user.id u)
    (hmade : ∃ salt p, u.password_hash = hasher.hash salt p) (h : Rehashed hasher user password d d') :
    ∃ u', d'.users[user.id]? = some u' ∧
      ∀ q, hasher.verify u'.password_hash q = hasher.verify u.password_hash q := by
  rcases h with rfl | ⟨hv, salt, rfl⟩
  · exact ⟨u, hu, fun _ => rfl⟩
  · refine ⟨_, get_users_set_self hu, fun q => ?_⟩
    obtain ⟨salt0, p0, hp⟩ := hmade
    rw [huser, show (_user user.id u).password_hash = u.password_hash from rfl, hp, sound] at hv
    rw [hp, Bool.eq_iff_iff, sound, sound, hv]

/-- Storing a new hash makes its password the accepted one. -/
theorem password_renewed (sound : hasher.Sound) {caller : Actor} {salt new : Str} {d : Database}
    {u : UserRec} (hu : d.users[caller.user.id]? = some u)
    (hw : w.db.users = (renewed hasher caller salt new d).users) :
    PasswordIs hasher caller.user.id new w := by
  refine ⟨_, hw ▸ get_users_set_self hu, fun q => ?_⟩
  rw [sound]
  exact eq_comm

/-- **When the password and the sessions change as one.** Over every reachable state, every calling
session and every request, with at most one query of it failing in whatever way: the new password and
the end of the other sessions are one change, unless the query that fails is the bulk revocation, the
new password differs from the current one, and another session of the account is accepted. -/
theorem one_change_iff (sound : hasher.Sound) {w0 : World} {tr : Trace cfg rt hasher}
    (life : Life cfg rt hasher w0 tr w) (h0 : Hashed hasher w0) {header : Option Str} {caller : Actor}
    {presented : World} {body : ChangePasswordRequest} {s : Option (Failure Calls.sig World)}
    {r : Except Exn Response}
    (hcaller : run (exec i) (resolve_bearer cfg rt header) w = (.ok (some caller), presented))
    (session : caller.token.type = .session)
    (ho : Outcome (exec i) dbFails (Routes.handle cfg rt hasher header (.change_password body)) w s r
      w') :
    OneChange cfg rt hasher caller header body.new w presented w' ↔
      ¬ (atRevocation s = true ∧ body.new ≠ body.current ∧ ∃ header id r t,
        Presents rt header id r w ∧ Other caller id r ∧ Accepts cfg rt header t w) := by
  obtain ⟨row, u, found⟩ := found_of_resolved hcaller
  obtain ⟨d1, d2, hd1, hd2, hstages⟩ := change_stages hcaller session ho
  have hmade := life_hashed life h0 _ _ found.user
  have hu1 : d1.users[caller.user.id]? = some u := by
    rcases hd1 with rfl | rfl
    · exact found.user
    · rw [found.users]
      exact found.user
  obtain ⟨u2, hu2, hsame⟩ := same_rehashed sound hu1 found.caller_user hmade hd2
  have hrows : ∀ id, id ≠ caller.token.id → d2.tokens[id]? = w.db.tokens[id]? := by
    intro id hid
    rw [tokens_rehashed hd2]
    rcases hd1 with rfl | rfl
    · rfl
    · exact found.others id hid
  have hkept := kept_rehashed hd2
  rcases hstages with ⟨hat, hw⟩ | ⟨hv, salt, ⟨hat, hw⟩ | ⟨hat, now, hw⟩⟩
  · -- nothing has changed
    refine iff_of_true (.of_kept found session hd1 (hw ▸ hkept) (Or.inr ⟨⟨u, u2, found.user, hw ▸ hu2,
      hsame⟩, fun header id r t h ho => accepts_same h (hw ▸ (hrows id ho.other).trans h.row)⟩)) ?_
    rw [hat]
    exact fun h => Bool.false_ne_true h.1
  · -- the new hash is stored, and no session ended
    have hnew : PasswordIs hasher caller.user.id body.new w' := password_renewed sound hu2
      (congrArg Database.users hw)
    have haccepts : ∀ header id r t, Presents rt header id r w → Other caller id r →
        (Accepts cfg rt header t w' ↔ Accepts cfg rt header t w) := fun header id r t h ho =>
      accepts_same h (hw ▸ (hrows id ho.other).trans h.row)
    have hcurrent : ∀ q, hasher.verify u.password_hash q = true ↔ q = body.current := by
      obtain ⟨salt0, p0, hp⟩ := hmade
      rw [found.caller_user, show (_user caller.user.id u).password_hash = u.password_hash from rfl, hp,
        sound] at hv
      intro q
      rw [hp, sound, hv]
      exact eq_comm
    constructor
    · rintro hone ⟨-, hne, header', id, r', t, hp, hoth, hacc⟩
      rcases hone.together with ⟨-, hrefused⟩ | ⟨⟨v, v', hv1, hv2, hq⟩, -⟩
      · exact hrefused header' id r' t hp hoth ((haccepts header' id r' t hp hoth).2 hacc)
      · obtain ⟨u3, hu3, hq3⟩ := hnew
        obtain rfl := Option.some.inj (found.user.symm.trans hv1)
        obtain rfl := Option.some.inj (hu3.symm.trans hv2)
        have := (hq3 body.new).2 rfl
        rw [hq, hcurrent] at this
        exact hne this
    · intro hnot
      refine .of_kept found session hd1 (hw ▸ hkept.trans (kept_set caller _ _)) ?_
      by_cases hne : body.new = body.current
      · obtain ⟨u3, hu3, hq3⟩ := hnew
        refine Or.inr ⟨⟨u, u3, found.user, hu3, fun q => ?_⟩, haccepts⟩
        rw [Bool.eq_iff_iff, hq3, hcurrent, hne]
      · refine Or.inl ⟨hnew, fun header' id r' t hp hoth hacc => hnot ⟨hat, hne, header', id, r', t, hp,
          hoth, (haccepts header' id r' t hp hoth).1 hacc⟩⟩
  · -- the new hash is stored, and the other sessions are revoked
    have husers : w'.db.users = (renewed hasher caller salt body.new d2).users := by
      rw [hw]
      rfl
    refine iff_of_true (.of_kept found session hd1 (hw ▸ (hkept.trans (kept_set caller _ _)).trans
      (kept_revoked caller now _)) (Or.inl ⟨password_renewed sound hu2 husers, ?_⟩)) ?_
    · intro header' id r' t hp hoth hacc
      have hrow : (renewed hasher caller salt body.new d2).tokens[id]? = some r' :=
        (hrows id hoth.other).trans hp.row
      by_cases hrev : r'.revoked_at = none
      · have hisOther : isOther caller.user.id caller.token.id id r' = true := by
          simp [isOther, hoth.session, hoth.user, hoth.other, hrev]
        have hrow' : w'.db.tokens[id]? = some { r' with revoked_at := some (.ofInstant now) } := by
          rw [hw]
          exact revoke_others_self hrow hisOther
        exact absurd ((accepts_iff ⟨hrow', hp.secret⟩).1 hacc).1 (Option.some_ne_none _)
      · obtain ⟨r2, hr2, ha, -⟩ := exec_row_stays (q := .revoke_other_sessions caller.user.id
          caller.token.id now) hrow rfl
        have hrow' : w'.db.tokens[id]? = some r2 := hw ▸ hr2
        have hrev' := ((accepts_iff ⟨hrow', hp.secret.trans (congrArg some ha.secret.symm)⟩).1 hacc).1
        exact hrev ((ha.revoked hrev).symm.trans hrev')
    · rw [hat]
      exact fun h => Bool.false_ne_true h.1

/-! ### Two sessions of one account -/

/-- The session `tok_n` of the account `usr_0`. -/
def sessionRow (n : ℕ) : TokenRow :=
  ⟨lit "tok_" ++ dec n, lit "session", .session, SESSION_SCOPE, lit "usr_0",
    ⟨62135596800000000, unixStart_lt⟩, none, some ⟨62135596800000001, afterUnixStart_lt⟩, none⟩

/-- One account with two sessions, whose secrets are `pb_s` and `pb_t`. -/
def twoSessions : World :=
  let digest (secret : String) : Str := plainRuntime.sha256 ((utf8 (lit secret)).getD [])
  smallWorld (insert_token (sessionRow 1) (digest "pb_t") (insert_token (sessionRow 0) (digest "pb_s")
    (insert_user ⟨lit "usr_0", lit "ann", soundHasher.hash (lit "0") (lit "secret"),
      ⟨62135596800000000, unixStart_lt⟩⟩ .empty).2).2).2

/-- The first of them changes the password. -/
def changing : Code Response := Routes.handle smallConfig plainRuntime soundHasher
  (some (lit "Bearer pb_s")) (.change_password ⟨lit "secret", lit "another one"⟩)

/-- Whether a call is a query. -/
def isQuery : Calls.Call → Bool
  | .db _ => true
  | _ => false

/-- The request, with its query number `n` failing. -/
def changingStruck (n : ℕ) : Option (Failure Calls.sig World) × Except Exn Response × World :=
  strike (exec 0) isQuery .database n changing twoSessions

theorem changingStruck_outcome (n : ℕ) : Outcome (exec 0) dbFails changing twoSessions
    (changingStruck n).1 (changingStruck n).2.1 (changingStruck n).2.2 :=
  strike_outcome (fun c hc => by cases c <;> trivial) n _ _

theorem twoSessions_hashed : Hashed soundHasher twoSessions := by
  intro id u hu
  have hall : ∀ e ∈ twoSessions.db.users.toList,
      e.2.password_hash = soundHasher.hash (lit "0") (lit "secret") := by decide +kernel
  exact ⟨_, _, hall (id, u) (mem_toList.2 hu)⟩

/-- What is known of the caller. -/
def isCaller : Except Exn (Option Actor) → Bool
  | .ok (some a) => a.token.id == lit "tok_0" && a.token.type == .session && a.user.id == lit "usr_0"
  | _ => false

theorem caller_of_isCaller {o : Except Exn (Option Actor)} (h : isCaller o = true) : ∃ a : Actor,
    o = .ok (some a) ∧ a.token.id = lit "tok_0" ∧ a.token.type = .session ∧ a.user.id = lit "usr_0" := by
  rcases o with _ | _ | a
  · cases h
  · cases h
  · simp only [isCaller, Bool.and_eq_true, beq_iff_eq] at h
    exact ⟨a, rfl, h.1.1, h.1.2, h.2⟩

theorem twoSessions_caller : ∃ caller presented,
    run (exec 0) (resolve_bearer smallConfig plainRuntime (some (lit "Bearer pb_s"))) twoSessions =
      (.ok (some caller), presented) ∧ caller.token.id = lit "tok_0" ∧
      caller.token.type = .session ∧ caller.user.id = lit "usr_0" := by
  have h : isCaller (run (exec 0) (resolve_bearer smallConfig plainRuntime
    (some (lit "Bearer pb_s"))) twoSessions).1 = true := by decide +kernel
  generalize run (exec 0) (resolve_bearer smallConfig plainRuntime (some (lit "Bearer pb_s")))
    twoSessions = o at h ⊢
  obtain ⟨caller, ho, hcaller⟩ := caller_of_isCaller h
  exact ⟨caller, o.2, Prod.ext ho rfl, hcaller⟩

/-- Whether `resolve_bearer` found somebody. -/
def isFound : Except Exn (Option Actor) → Bool
  | .ok (some _) => true
  | _ => false

theorem accepts_of_found {header : Option Str} {t : Instant}
    (h : isFound (run (exec 0) (resolve_bearer cfg rt header) (showing t w)).1 = true) :
    Accepts cfg rt header t w := by
  rw [Accepts]
  generalize (run (exec 0) (resolve_bearer cfg rt header) (showing t w)).1 = o at h
  rcases o with _ | _ | a
  · cases h
  · cases h
  · exact ⟨a, rfl⟩

/-- Whether a password is accepted. -/
def verified (password : Str) (w : World) : Option Bool :=
  w.db.users[lit "usr_0"]?.map fun u => soundHasher.verify u.password_hash password

/-- **When the bulk revocation fails**, the new password is stored, and the other session goes on. -/
theorem half_changed : ∃ caller presented,
    run (exec 0) (resolve_bearer smallConfig plainRuntime (some (lit "Bearer pb_s"))) twoSessions =
      (.ok (some caller), presented) ∧ caller.token.type = .session ∧
    Outcome (exec 0) dbFails changing twoSessions (changingStruck 4).1 (changingStruck 4).2.1
      (changingStruck 4).2.2 ∧
    ¬ OneChange smallConfig plainRuntime soundHasher caller (some (lit "Bearer pb_s"))
      (lit "another one") twoSessions presented (changingStruck 4).2.2 := by
  obtain ⟨caller, presented, hrun, hid, htype, huser⟩ := twoSessions_caller
  refine ⟨caller, presented, hrun, htype, changingStruck_outcome 4, fun hone => ?_⟩
  rcases hone.together with ⟨-, hrefused⟩ | ⟨⟨u, u', hu, hu', hsame⟩, -⟩
  · have hrow : twoSessions.db.tokens[lit "tok_1"]? = some (tokenRec (sessionRow 1)
        (plainRuntime.sha256 ((utf8 (lit "pb_t")).getD []))) := by decide +kernel
    refine hrefused (some (lit "Bearer pb_t")) (lit "tok_1") _ ⟨62135596800000000, unixStart_lt⟩
      ⟨hrow, by decide +kernel⟩ ⟨rfl, ?_, ?_⟩ (accepts_of_found (by decide +kernel))
    · rw [huser]
      rfl
    · rw [hid]
      decide
  · have hold : verified (lit "another one") twoSessions = some false := by decide +kernel
    have hnew : verified (lit "another one") (changingStruck 4).2.2 = some true := by decide +kernel
    rw [huser] at hu hu'
    rw [verified, hu, Option.map_some, Option.some.injEq] at hold
    rw [verified, hu', Option.map_some, Option.some.injEq, hsame, hold] at hnew
    cases hnew

/-- Without a failure, the other session has ended. -/
theorem one_change_whole : ∃ caller presented, caller.token.type = .session ∧
    OneChange smallConfig plainRuntime soundHasher caller (some (lit "Bearer pb_s"))
      (lit "another one") twoSessions presented (changingStruck 5).2.2 := by
  obtain ⟨caller, presented, hrun, -, htype, -⟩ := twoSessions_caller
  have hat : atRevocation (changingStruck 5).1 = false := by decide +kernel
  refine ⟨caller, presented, htype, (one_change_iff soundHasher_sound (.begin) twoSessions_hashed hrun
    htype (changingStruck_outcome 5)).2 fun h => ?_⟩
  exact absurd (hat.symm.trans h.1) Bool.false_ne_true

end PaperBoxing.Backend.PasswordChange
