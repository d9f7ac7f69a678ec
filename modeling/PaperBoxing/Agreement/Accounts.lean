import PaperBoxing.Agreement.Credentials
import PaperBoxing.Backend.PasswordChange

/-! # The routes of the tokens and the accounts, on both sides

The two backends serve one request, with the same clock and the same new ids and secrets: they answer the
same, bodies and time stamps included, and agree again.

* `resolve_step`, `requires_step`: who is behind a bearer, and whom a route lets in;
* `login_step`, `serve_step`: the routes. -/

namespace PaperBoxing.Agreement.Accounts

open PaperBoxing.Lib PaperBoxing.Lib.Action PaperBoxing.Lib.Program PaperBoxing.Lib.Text
open PaperBoxing.Lib.IsoTime PaperBoxing.Lib.Tables PaperBoxing.Common PaperBoxing.Common.Scopes
open PaperBoxing.Common.Schema PaperBoxing.Backend PaperBoxing.Backend.Db PaperBoxing.Backend.Calls
open PaperBoxing.Backend.Accounts PaperBoxing.Backend.Alone PaperBoxing.Backend.Routes
open PaperBoxing.Backend.Bearer PaperBoxing.Agreement.Credentials
open PaperBoxing.Common.FakeBackend (FakeState FakeUser FakeToken Fake Draw)
open PaperBoxing.Backend.PasswordChange (Rehashed run_verify_password)

/-! ### What a request draws -/

/-- The draws of a thread are those of the fake. -/
def Draws (o : Oracle) (d : Draw) : Prop :=
  ∀ n, o.now n = d.now ∧ o.token_hex 6 n = d.token_hex ∧ o.token_urlsafe 32 n = d.token_urlsafe

/-- The ids and the secret a request may give are new to the fake. -/
structure New (d : Draw) (s : FakeState) : Prop where
  user : s.users[lit "usr" ++ lit "_" ++ d.token_hex]? = none
  token : s.tokens[lit "tok" ++ lit "_" ++ d.token_hex]? = none
  secret : s.secrets[lit "pb_" ++ d.token_urlsafe]? = none

/-- The fake gives no id and no secret but those a request draws, and leaves the sites alone. -/
structure Grows (d : Draw) (s s' : FakeState) : Prop where
  sites : s'.sites = s.sites
  users : ∀ id : Str, s.users[id]? = none → s'.users[id]? ≠ none →
    id = lit "usr" ++ lit "_" ++ d.token_hex
  tokens : ∀ id : Str, s.tokens[id]? = none → s'.tokens[id]? ≠ none →
    id = lit "tok" ++ lit "_" ++ d.token_hex
  secrets : ∀ secret : Str, s.secrets[secret]? = none → s'.secrets[secret]? ≠ none →
    secret = lit "pb_" ++ d.token_urlsafe

variable {cfg : Config} {rt : Runtime} {hasher : Hasher} {K : Set Bytes} {i : ℕ} {d d' : Draw}
  {w w' : World} {s s' s'' : FakeState} {header : Option Str} {actor : Actor} {caller : FakeToken}

theorem Grows.refl (d : Draw) (s : FakeState) : Grows d s s :=
  ⟨rfl, fun _ h h' => absurd h h', fun _ h h' => absurd h h', fun _ h h' => absurd h h'⟩

/-- Tokens that change, with none added. -/
theorem Grows.of_tokens (d : Draw) {users : Table Str FakeUser} {tokens : Table Str FakeToken}
    (hu : ∀ id : Str, s.users[id]? = none → users[id]? = none)
    (ht : ∀ id : Str, s.tokens[id]? = none → tokens[id]? = none) :
    Grows d s { s with users := users, tokens := tokens } :=
  ⟨rfl, fun id h h' => absurd (hu id h) h', fun id h h' => absurd (ht id h) h', fun _ h h' => absurd h h'⟩

/-- The fake gives nothing: only tokens it has change. -/
structure Quiet (s s' : FakeState) : Prop where
  sites : s'.sites = s.sites
  users : s'.users = s.users
  secrets : s'.secrets = s.secrets
  tokens : ∀ id : Str, s.tokens[id]? = none → s'.tokens[id]? = none

theorem Quiet.refl (s : FakeState) : Quiet s s := ⟨rfl, rfl, rfl, fun _ h => h⟩

/-- One token changes. -/
theorem Quiet.of_change {id : Str} {t t' : FakeToken} (ht : s.tokens[id]? = some t) :
    Quiet s { s with tokens := s.tokens.insert id t' } := by
  refine ⟨rfl, rfl, rfl, fun id' h => ?_⟩
  rw [get_insert_of_ne, h]
  rintro rfl
  rw [h] at ht
  cases ht

theorem Quiet.grows (h : Quiet s s') (d : Draw) : Grows d s s' :=
  ⟨h.sites, fun _ hid hid' => absurd (h.users ▸ hid) hid', fun id hid hid' => absurd (h.tokens id hid) hid',
    fun _ hs hs' => absurd (h.secrets ▸ hs) hs'⟩

theorem New.of_quiet (h : New d s) (hq : Quiet s s') : New d s' :=
  ⟨by rw [hq.users]; exact h.user, hq.tokens _ h.token, by rw [hq.secrets]; exact h.secret⟩

/-- A token is given. -/
theorem Grows.of_issue (d : Draw) (s : FakeState) (t : FakeToken) (id : Str) : Grows d s { s with
    tokens := s.tokens.insert (lit "tok" ++ lit "_" ++ d.token_hex) t
    secrets := s.secrets.insert (lit "pb_" ++ d.token_urlsafe) id } := by
  refine ⟨rfl, fun _ h h' => absurd h h', fun id' h h' => ?_, fun secret h h' => ?_⟩
  · by_contra hne
    exact h' ((get_insert_of_ne hne).trans h)
  · by_contra hne
    exact h' ((get_insert_of_ne hne).trans h)

/-- An account is given. -/
theorem Grows.of_user (d : Draw) (s : FakeState) (f : FakeUser) : Grows d s { s with
    users := s.users.insert (lit "usr" ++ lit "_" ++ d.token_hex) f } := by
  refine ⟨rfl, fun id h h' => ?_, fun _ h h' => absurd h h', fun _ h h' => absurd h h'⟩
  by_contra hne
  exact h' ((get_insert_of_ne hne).trans h)

/-- **What is new to one request** stays so for another, which draws other names. -/
theorem New.of_grows (h : New d' s) (hg : Grows d s s') (hhex : d'.token_hex ≠ d.token_hex)
    (hurl : d'.token_urlsafe ≠ d.token_urlsafe) : New d' s' := by
  refine ⟨?_, ?_, ?_⟩
  · by_contra hc
    exact hhex (List.append_cancel_left (hg.users _ h.user hc))
  · by_contra hc
    exact hhex (List.append_cancel_left (hg.tokens _ h.token hc))
  · by_contra hc
    exact hurl (List.append_cancel_left (hg.secrets _ h.secret hc))

theorem run_now (ho : Draws (w.oracle i) d) : run (exec i) now w = (.ok d.now, drew w i) := by
  rw [← (ho (w.drawn i)).1]
  rfl

theorem run_new_id (ho : Draws (w.oracle i) d) (kind : Str) :
    run (exec i) (new_id kind) w = (.ok (kind ++ lit "_" ++ d.token_hex), drew w i) := by
  rw [← (ho (w.drawn i)).2.1]
  rfl

theorem run_new_secret (ho : Draws (w.oracle i) d) :
    run (exec i) new_secret w = (.ok (lit "pb_" ++ d.token_urlsafe), drew w i) := by
  rw [← (ho (w.drawn i)).2.2]
  rfl

theorem run_secret_digest {secret : Str} {bytes : Bytes} (hb : utf8 secret = some bytes) (w : World) :
    run (exec i) (secret_digest rt secret) w = (.ok (rt.sha256 bytes), w) := by
  rw [secret_digest, hb]
  rfl

/-! ### One step of each side -/

/-- Two outcomes that are answered the same. -/
def Match : Except Exn Response → Except Exn Response → Prop
  | .ok r, .ok r' => r = r'
  | .error e, .error e' => e ≠ .cancelled ∧ e = e'
  | _, _ => False

/-- **One step of each side**: the same outcome, and the two agree again; what the fake gave, the request
drew. -/
structure Step (hasher : Hasher) (rt : Runtime) (K : Set Bytes) (i : ℕ) (d : Draw) (p : Code Response)
    (q : Fake Response) (w : World) (s : FakeState) : Prop where
  answers : Match (run (exec i) p w).1 (q s).1
  agree : Agree hasher rt K d.now (run (exec i) p w).2.db (q s).2
  grows : Grows d s (q s).2

theorem Step.answered {p : Code Response} {q : Fake Response} (r : Response) {w' : World} {s' : FakeState}
    (hp : run (exec i) p w = (.ok r, w')) (hq : q s = (.ok r, s')) (h : Agree hasher rt K d.now w'.db s')
    (hg : Grows d s s') : Step hasher rt K i d p q w s := by
  refine ⟨?_, ?_, ?_⟩
  · rw [hp, hq]
    rfl
  · rw [hp, hq]
    exact h
  · rwa [hq]

theorem Step.raised {p : Code Response} {q : Fake Response} (e : Exn) {w' : World} {s' : FakeState}
    (he : e ≠ .cancelled) (hp : run (exec i) p w = (.error e, w')) (hq : q s = (.error e, s'))
    (h : Agree hasher rt K d.now w'.db s') (hg : Grows d s s') : Step hasher rt K i d p q w s := by
  refine ⟨?_, ?_, ?_⟩
  · rw [hp, hq]
    exact ⟨he, rfl⟩
  · rw [hp, hq]
    exact h
  · rwa [hq]

/-- The same refusal on both sides. -/
theorem Step.refused {p : Code Response} {q : Fake Response} {e : ApiError} {w' : World}
    (hp : run (exec i) p w = (.error (.api e), w')) (hq : q s = (.error (.api e), s))
    (h : Agree hasher rt K d.now w'.db s) : Step hasher rt K i d p q w s :=
  Step.raised _ (by rintro ⟨⟩) hp hq h (Grows.refl d s)

/-! ### Who is behind a bearer -/

/-- Whom a secret was presented by, on both sides. -/
structure Met (hasher : Hasher) (db : Database) (s : FakeState) (actor : Actor)
    (caller : FakeToken) : Prop where
  row : ∃ r, db.tokens[caller.id]? = some r
  found : s.tokens[caller.id]? = some caller
  id : actor.token.id = caller.id
  name : actor.token.name = caller.name
  type : actor.token.type = caller.type
  scope : actor.token.scope = caller.scope
  expires_at : actor.token.expires_at = caller.expires_at
  user : ∃ u f, db.users[caller.user_id]? = some u ∧ s.users[caller.user_id]? = some f ∧
    SameUser hasher caller.user_id u f ∧ actor.user = _user caller.user_id u

theorem bearer_eq (header : Option Str) : FakeBackend._bearer header = parse_bearer header := by
  rcases header with _ | header
  · rfl
  · rfl

/-- The fake's row after a use, at the end `e`. -/
def usedAt (now : Instant) (t : FakeToken) (e : Option Instant) : FakeToken :=
  { t with last_used_at := some now, expires_at := e }

/-- What the fake makes of a token that is live. -/
theorem resolve_token_live {secret id : Str} {t : FakeToken} (hp : parse_bearer header = some secret)
    (hs : s.secrets[secret]? = some id) (ht : s.tokens[id]? = some t) (hlive : ended d.now t = false) :
    FakeBackend._resolve_token cfg d header s =
      if t.type = .session then
        match d.now.add (days cfg.session_days) with
        | none => (.error .overflow, { s with tokens := s.tokens.insert id (usedAt d.now t t.expires_at) })
        | some e => (.ok (some (usedAt d.now t (some e))),
          { s with tokens := s.tokens.insert id (usedAt d.now t (some e)) })
      else (.ok (some (usedAt d.now t t.expires_at)),
        { s with tokens := s.tokens.insert id (usedAt d.now t t.expires_at) }) := by
  rw [FakeBackend._resolve_token, bearer_eq, hp]
  dsimp only
  rw [hs]
  dsimp only
  rw [ht]
  dsimp only
  rw [if_neg (by rw [← ended, hlive]; exact Bool.false_ne_true)]
  split_ifs
  · rcases d.now.add (days cfg.session_days) with _ | e <;> rfl
  · rfl

theorem resolve_token_ended {secret id : Str} {t : FakeToken} (hp : parse_bearer header = some secret)
    (hs : s.secrets[secret]? = some id) (ht : s.tokens[id]? = some t) (hend : ended d.now t = true) :
    FakeBackend._resolve_token cfg d header s = (.ok none, s) := by
  rw [FakeBackend._resolve_token, bearer_eq, hp]
  dsimp only
  rw [hs]
  dsimp only
  rw [ht]
  dsimp only
  rw [if_pos (by rw [← ended, hend])]

theorem resolve_token_unknown {secret : Str} (hp : parse_bearer header = some secret)
    (hs : s.secrets[secret]? = none) : FakeBackend._resolve_token cfg d header s = (.ok none, s) := by
  rw [FakeBackend._resolve_token, bearer_eq, hp]
  dsimp only
  rw [hs]

theorem resolve_token_bare (hp : parse_bearer header = none) :
    FakeBackend._resolve_token cfg d header s = (.ok none, s) := by
  rw [FakeBackend._resolve_token, bearer_eq, hp]

/-- **What resolving a bearer comes to**, on both sides. -/
def Resolved (hasher : Hasher) (rt : Runtime) (K : Set Bytes) (d : Draw) (s : FakeState)
    (o : Except Exn (Option Actor)) (db : Database) (q : Except Exn (Option FakeToken) × FakeState) : Prop :=
  Agree hasher rt K d.now db q.2 ∧ Quiet s q.2 ∧
    match o, q.1 with
    | .error e, .error e' => e ≠ .cancelled ∧ e = e'
    | .ok none, .ok none => True
    | .ok (some actor), .ok (some caller) => Met hasher db q.2 actor caller
    | _, _ => False

/-- The token that a live row and the fake's token make after a use. -/
theorem sameToken_used {now : Instant} {id : Str} {r : TokenRec} {t : FakeToken}
    (h : SameToken now id r t) {r' : TokenRec} {e : Option Instant}
    (hr : r' = { r with last_used_at := r'.last_used_at, expires_at := r'.expires_at })
    (hused : t.type = .agent → r'.last_used_at = some (.ofInstant now)) (he : e = _dt r'.expires_at)
    (hagent : t.type = .agent → e = none) (hrev : r.revoked_at = none) :
    SameToken now id r' (usedAt now t e) := by
  have hlive : t.revoked = true → False := fun hc => h.revoked hc hrev
  rw [hr]
  refine ⟨h.id, h.name, h.type, h.scope, h.user_id, h.created_at, he, fun ht => ?_, hagent,
    fun hc => (hlive hc).elim, fun hc => absurd hrev hc⟩
  change some now = _dt r'.last_used_at
  rw [hused ht]
  exact congrArg some (instant_ofInstant now).symm

/-- The use of a live token is recorded alike. -/
theorem touch_step {db : Database} (h : Agree hasher rt K d.now db s) {id : Str}
    {r : TokenRec} {t : FakeToken}
    {u : UserRec} (hr : db.tokens[id]? = some r) (hsame : SameToken d.now id r t) (hrev : r.revoked_at = none)
    (hu : db.users[r.user_id]? = some u) (e : Option Instant) (r' : TokenRec) (db' : Database)
    (hagent : t.type = .agent → e = none) (husers : db'.users = db.users)
    (hmade : r' = { r with last_used_at := some (.ofInstant d.now), expires_at := r'.expires_at })
    (he : e = _dt r'.expires_at)
    (hdb : ∀ id' : Str, db'.tokens[id']? = if id' = id then some r' else db.tokens[id']?) :
    Agree hasher rt K d.now db' { s with tokens := s.tokens.insert id (usedAt d.now t e) } ∧
      Met hasher db' { s with tokens := s.tokens.insert id (usedAt d.now t e) } (actorOf id r u d.now e)
        (usedAt d.now t e) := by
  have hlast : r'.last_used_at = some (.ofInstant d.now) := by rw [hmade]
  have hrow : r' = { r with last_used_at := r'.last_used_at, expires_at := r'.expires_at } := by
    rw [hlast]
    exact hmade
  have hsec : r'.secret_sha256 = r.secret_sha256 := by rw [hmade]
  have hid : (usedAt d.now t e).id = id := hsame.id
  obtain ⟨f, hf, huser⟩ := h.user hu
  refine ⟨h.change hr db' r' husers hdb hsec (sameToken_used hsame hrow (fun _ => hlast) he hagent hrev),
    ⟨⟨r', by rw [hid, hdb, if_pos rfl]⟩, by rw [hid]; exact get_insert_self ..,
      hsame.id.symm, hsame.name.symm,
      hsame.type.symm, hsame.scope.symm, rfl, u, f, ?_, ?_, ?_, ?_⟩⟩
  · rw [husers, show (usedAt d.now t e).user_id = r.user_id from hsame.user_id, hu]
  · rw [show (usedAt d.now t e).user_id = r.user_id from hsame.user_id]
    exact hf
  · rw [show (usedAt d.now t e).user_id = r.user_id from hsame.user_id]
    exact huser
  · rw [show (usedAt d.now t e).user_id = r.user_id from hsame.user_id]
    rfl

/-- **A token that both have is honoured alike.** -/
theorem honoured_step (cfg : Config) {db : Database} (h : Agree hasher rt K d.now db s) {secret id : Str}
    {r : TokenRec} {t : FakeToken} (hp : parse_bearer header = some secret)
    (hs : s.secrets[secret]? = some id) (hr : db.tokens[id]? = some r) (ht : s.tokens[id]? = some t)
    (hsame : SameToken d.now id r t) :
    Resolved hasher rt K d s (honoured cfg id r d.now db).1 (honoured cfg id r d.now db).2
      (FakeBackend._resolve_token cfg d header s) := by
  have hexp : expired r d.now = t.expires_at.any fun e => e.micros ≤ d.now.micros := by
    rw [expired, ← hsame.expires_at]
  by_cases hrev : r.revoked_at = none
  swap
  · -- revoked: ended for both
    rw [honoured, if_pos hrev, resolve_token_ended hp hs ht (hsame.ended hrev)]
    exact ⟨h, Quiet.refl s, trivial⟩
  have hnrev : t.revoked = false := by
    rw [← Bool.not_eq_true]
    exact fun hc => hsame.revoked hc hrev
  rcases he : expired r d.now with _ | _
  swap
  · -- run out: the backend ends the session
    have hend : ended d.now t = true := by rw [ended, ← hexp, he, Bool.or_true]
    rw [honoured, if_neg (by simpa using hrev), if_pos he, resolve_token_ended hp hs ht hend]
    refine ⟨?_, Quiet.refl s, trivial⟩
    have hmade : SameToken d.now id { r with revoked_at := some (.ofInstant d.now) } t :=
      ⟨hsame.id, hsame.name, hsame.type, hsame.scope, hsame.user_id, hsame.created_at, hsame.expires_at,
        hsame.last_used_at, hsame.lasting, fun _ => Option.some_ne_none _, fun _ => hend⟩
    have hnext := h.change hr (Db.revoke_token id d.now db).2
      { r with revoked_at := some (.ofInstant d.now) } rfl (fun id' => ?_) rfl hmade
    · rwa [insert_of_some ht] at hnext
    · rw [Db.revoke_token, get_map_tokens]
      split_ifs with hid
      · rw [hid, hr, Option.map_some, if_pos ⟨rfl, hrev⟩]
      · rcases db.tokens[id']? with _ | x
        · rfl
        · rw [Option.map_some, if_neg fun hc => hid hc.1]
  -- live on both sides
  have hlive : ended d.now t = false := by rw [ended, hnrev, ← hexp, he]; rfl
  obtain ⟨u, f, hu, hf, huser⟩ := h.owner hr
  have hother : ∀ (x : Option Instant) (id' : Str), id' ≠ id →
      (touch_token id d.now x db).2.tokens[id']? = db.tokens[id']? := by
    intro x id' hid
    rw [touch_token, get_map_tokens]
    rcases db.tokens[id']? with _ | y
    · rfl
    · rw [Option.map_some, if_neg hid]
  rw [honoured, if_neg (by simpa using hrev), if_neg (by rw [he]; exact Bool.false_ne_true), hu,
    resolve_token_live hp hs ht hlive]
  dsimp only
  rcases htype : r.type with _ | _
  · have hsession : t.type = .session := hsame.type.trans htype
    have hnot : ∀ {P : Prop}, t.type = .agent → P := fun hc => by rw [hsession] at hc; cases hc
    rw [if_pos hsession]
    dsimp only
    rcases hadd : d.now.add (days cfg.session_days) with _ | e
    · -- past the last year: the backend has recorded nothing yet
      refine ⟨?_, Quiet.of_change ht, by rintro ⟨⟩, rfl⟩
      have hmade : SameToken d.now id r (usedAt d.now t t.expires_at) :=
        sameToken_used hsame rfl hnot hsame.expires_at hnot hrev
      refine h.change hr db r rfl (fun id' => ?_) rfl hmade
      split_ifs with hid
      · rw [hid, hr]
      · rfl
    · obtain ⟨hagree, hmet⟩ := touch_step h hr hsame hrev hu (some e)
        { r with last_used_at := some (.ofInstant d.now), expires_at := some (.ofInstant e) }
        (touch_token id d.now (some e) db).2 hnot rfl rfl
        (congrArg some (instant_ofInstant e).symm) fun id' => by
          split_ifs with hid
          · rw [hid, touch_token_session hr]
          · exact hother (some e) id' hid
      exact ⟨hagree, Quiet.of_change ht, hmet⟩
  · have hagent : t.type = .agent := hsame.type.trans htype
    rw [if_neg (by rw [hagent]; rintro ⟨⟩)]
    have hnone : t.expires_at = none := hsame.lasting hagent
    obtain ⟨hagree, hmet⟩ := touch_step h hr hsame hrev hu none
      { r with last_used_at := some (.ofInstant d.now) } (touch_token id d.now none db).2
      (fun _ => rfl) rfl rfl (hnone ▸ hsame.expires_at) fun id' => by
        split_ifs with hid
        · rw [hid, touch_token_agent hr]
        · exact hother none id' hid
    rw [hnone]
    exact ⟨hagree, Quiet.of_change ht, hmet⟩

/-- **A bearer is resolved alike.** -/
theorem resolve_step (cfg : Config) (h : Agree hasher rt K d.now w.db s) (hinj : Set.InjOn rt.sha256 K)
    (ho : Draws (w.oracle i) d)
    (hheader : ∀ secret, parse_bearer header = some secret → ∃ bytes ∈ K, utf8 secret = some bytes) :
    Resolved hasher rt K d s (run (exec i) (resolve_bearer cfg rt header) w).1
      (run (exec i) (resolve_bearer cfg rt header) w).2.db (FakeBackend._resolve_token cfg d header s) := by
  have hnow : (w.oracle i).now (w.drawn i) = d.now := (ho _).1
  rcases hp : parse_bearer header with _ | secret
  · rw [run_resolve_bare hp, resolve_token_bare hp]
    exact ⟨h, Quiet.refl s, trivial⟩
  obtain ⟨bytes, hK, hb⟩ := hheader secret hp
  have hcar : carried rt header = some (rt.sha256 bytes) := by
    rw [carried, hp, Option.bind_some, hb]
    rfl
  rcases h.find hinj hK hb with ⟨hs, hno⟩ | ⟨id, t, hs, ht, ⟨hrev, hno⟩ | ⟨r, hr, hdigest, hsame⟩⟩
  · rw [run_resolve_unknown hcar hno, resolve_token_unknown hp hs]
    exact ⟨h, Quiet.refl s, trivial⟩
  · rw [run_resolve_unknown hcar hno, resolve_token_ended hp hs ht (by rw [ended, hrev]; rfl)]
    exact ⟨h, Quiet.refl s, trivial⟩
  · rw [← hdigest] at hcar
    rw [run_resolve_row hcar hr, hnow]
    exact honoured_step cfg h hp hs hr ht hsame

/-- Whom the dependency of a route lets in, on both sides. -/
def Admits (hasher : Hasher) (rt : Runtime) (K : Set Bytes) (d : Draw) (s : FakeState)
    (o : Except Exn Actor) (db : Database) (q : Except Exn (Option FakeToken) × FakeState) : Prop :=
  Agree hasher rt K d.now db q.2 ∧ Quiet s q.2 ∧
    match o, q.1 with
    | .error e, .error e' => e ≠ .cancelled ∧ e = e'
    | .ok actor, .ok (some caller) => Met hasher db q.2 actor caller
    | _, _ => False

/-- **The dependency of a route** lets in alike. -/
theorem requires_step (cfg : Config) {name : RouteName} (hname : route_access name ≠ .public_)
    (h : Agree hasher rt K d.now w.db s) (hinj : Set.InjOn rt.sha256 K) (ho : Draws (w.oracle i) d)
    (hheader : ∀ secret, parse_bearer header = some secret → ∃ bytes ∈ K, utf8 secret = some bytes) :
    Admits hasher rt K d s (run (exec i) (requires cfg rt name header) w).1
      (run (exec i) (requires cfg rt name header) w).2.db (FakeBackend._authorize cfg d name header s) := by
  have hres := resolve_step cfg h hinj ho hheader
  rw [requires, run_bind, FakeBackend._authorize, Act.bind_apply]
  generalize run (exec i) (resolve_bearer cfg rt header) w = o at hres ⊢
  generalize FakeBackend._resolve_token cfg d header s = q at hres ⊢
  obtain ⟨hagree, hquiet, hmatch⟩ := hres
  obtain ⟨_ | _ | actor, w'⟩ := o <;> obtain ⟨_ | _ | caller, s'⟩ := q <;>
    dsimp only at hmatch hagree hquiet ⊢
  · exact ⟨hagree, hquiet, hmatch⟩
  · rw [if_neg hname]
    exact ⟨hagree, hquiet, by rintro ⟨⟩, rfl⟩
  · rw [if_neg hname, hmatch.type, hmatch.scope]
    split_ifs
    · exact ⟨hagree, hquiet, hmatch⟩
    · exact ⟨hagree, hquiet, by rintro ⟨⟩, rfl⟩
    · exact ⟨hagree, hquiet, by rintro ⟨⟩, rfl⟩

/-! ### The routes of the sessions -/

theorem user_shown {id : Str} {u : UserRec} {f : FakeUser} (h : SameUser hasher id u f) :
    f.public = public_user (_user id u) := by
  rw [FakeBackend.FakeUser.public, h.id, h.username, h.created_at]
  rfl

/-- Verifying a password may hash it again. -/
theorem agree_rehashed {now : Instant} {db db' : Database} (h : Agree hasher rt K now db s)
    (hsound : hasher.Sound)
    {id : Str} {u : UserRec} {f : FakeUser} (hu : db.users[id]? = some u) (hf : s.users[id]? = some f)
    (hsame : SameUser hasher id u f) {password : Str} (hre : Rehashed hasher (_user id u) password db db') :
    Agree hasher rt K now db' s := by
  rcases hre with rfl | ⟨hv, salt, rfl⟩
  · exact h
  · have hpw : f.password = password := (hsame.password password).1 hv
    exact h.rehash hu hf hsame fun q => by rw [hpw]; exact hsound salt password q

/-- **A password is verified alike.** -/
theorem verify_step (h : Agree hasher rt K d.now w.db s) (hsound : hasher.Sound) {id : Str} {u : UserRec}
    {f : FakeUser} (hu : w.db.users[id]? = some u) (hf : s.users[id]? = some f)
    (hsame : SameUser hasher id u f)
    (password : Str) : ∃ w', run (exec i) (verify_password hasher (_user id u) password) w =
        (.ok (decide (f.password = password)), w') ∧
      w'.oracle = w.oracle ∧ Agree hasher rt K d.now w'.db s := by
  obtain ⟨w', hrun, hre⟩ := run_verify_password (i := i) hasher (_user id u) password w
  refine ⟨w', ?_, run_oracle hrun, agree_rehashed h hsound hu hf hsame hre⟩
  rw [hrun, show hasher.verify (_user id u).password_hash password = decide (f.password = password) from
    Bool.eq_iff_iff.2 ((hsame.password password).trans decide_eq_true_iff.symm)]

/-- **A token is given alike**: how the code of a login and of a new agent token ends, and what the fake
stores. -/
theorem issue_step {A : Type} (h : Agree hasher rt K d.now w.db s) (hinj : Set.InjOn rt.sha256 K)
    (ho : Draws (w.oracle i) d) (hn : New d s)
    (hgive : ∃ bytes ∈ K, utf8 (lit "pb_" ++ d.token_urlsafe) = some bytes) (token : TokenRow) (t : FakeToken)
    (hid : token.id = lit "tok" ++ lit "_" ++ d.token_hex) (howner : w.db.users[token.user_id]? ≠ none)
    (hsame : ∀ digest, SameToken d.now token.id (tokenRec token digest) t) (x : Str → A) :
    ∃ w', run (exec i) (do
        let secret ← new_secret
        let digest ← secret_digest rt secret
        query (.insert_token token digest)
        .ret (x secret)) w = (.ok (x (lit "pb_" ++ d.token_urlsafe)), w') ∧
      w'.db.users = w.db.users ∧ FakeBackend._store d t s = (.ok (lit "pb_" ++ d.token_urlsafe), { s with
        tokens := s.tokens.insert t.id t
        secrets := s.secrets.insert (lit "pb_" ++ d.token_urlsafe) t.id }) ∧
      Agree hasher rt K d.now w'.db { s with
        tokens := s.tokens.insert t.id t
        secrets := s.secrets.insert (lit "pb_" ++ d.token_urlsafe) t.id } ∧
      Grows d s { s with
        tokens := s.tokens.insert t.id t
        secrets := s.secrets.insert (lit "pb_" ++ d.token_urlsafe) t.id } := by
  obtain ⟨bytes, hK, hb⟩ := hgive
  have htid : t.id = token.id := (hsame []).id
  obtain ⟨hok, hnext⟩ := h.issue hinj token t (by rw [hid]; exact hn.token) hn.secret hK hb howner (hsame _)
  have hq : run (exec i) (query (.insert_token token (rt.sha256 bytes))) (drew w i) =
      (.ok (), { drew w i with db := (insert_token token (rt.sha256 bytes) w.db).2 }) := by
    rw [run_query]
    exact Prod.ext hok rfl
  refine ⟨_, (run_bind_of_ok _ (run_new_secret ho)).trans ((run_bind_of_ok _
    (run_secret_digest hb (drew w i))).trans ((run_bind_of_ok _ hq).trans rfl)), ?_, rfl, ?_, ?_⟩
  · change (insert_token token (rt.sha256 bytes) w.db).2.users = w.db.users
    rw [insert_token]
    split_ifs <;> rfl
  · rw [htid]
    exact hnext
  · rw [htid, hid]
    exact Grows.of_issue d s t _

/-- The session a login gives. -/
def sessionRow (d : Draw) (user_id : Str) (e : Instant) : TokenRow :=
  ⟨lit "tok" ++ lit "_" ++ d.token_hex, lit "session", .session, SESSION_SCOPE, user_id, d.now, none, some e,
    none⟩

/-- The session the fake stores. -/
def fakeSession (d : Draw) (user_id : Str) (e : Instant) : FakeToken :=
  ⟨lit "tok" ++ lit "_" ++ d.token_hex, lit "session", .session, SESSION_SCOPE, user_id, d.now, none, some e,
    false⟩

theorem session_same (d : Draw) (user_id digest : Str) (e : Instant) : SameToken d.now
    (sessionRow d user_id e).id (tokenRec (sessionRow d user_id e) digest) (fakeSession d user_id e) :=
  ⟨rfl, rfl, rfl, rfl, rfl, (instant_ofInstant d.now).symm, congrArg some (instant_ofInstant e).symm,
    by rintro ⟨⟩, by rintro ⟨⟩, by rintro ⟨⟩, fun hc => absurd rfl hc⟩

/-- **`login`**, without a bearer. -/
theorem login_step (cfg : Config) (h : Agree hasher rt K d.now w.db s) (hinj : Set.InjOn rt.sha256 K)
    (hsound : hasher.Sound) (ho : Draws (w.oracle i) d) (hn : New d s)
    (hgive : ∃ bytes ∈ K, utf8 (lit "pb_" ++ d.token_urlsafe) = some bytes) (body : LoginRequest) :
    Step hasher rt K i d (Routes.login cfg rt hasher body) (FakeBackend.login cfg d body) w s := by
  rcases h.by_name body.username with ⟨hno, hf⟩ | ⟨id, u, f, hu, hf, hsame, hname, hfound⟩
  · have hq : run (exec i) (query (.user_by_username body.username)) w = (.ok none, w) := by
      rw [run_query, Db.exec, user_by_username_of_none hno]
    have hlogin : run (exec i) (Accounts.login cfg rt hasher body.username body.password) w = (.ok none, w) :=
      run_bind_of_ok _ hq
    refine Step.refused (run_bind_of_ok _ hlogin) ?_ h
    rw [FakeBackend.login, hf]
    rfl
  have hq : run (exec i) (query (.user_by_username body.username)) w = (.ok (some (_user id u)), w) := by
    rw [run_query, ← hname, Db.exec, user_by_username_of_row hu]
  obtain ⟨w1, hv, horacle, h1⟩ := verify_step (i := i) h hsound hu hf hsame body.password
  by_cases hp : f.password = body.password
  swap
  · have hlogin : run (exec i) (Accounts.login cfg rt hasher body.username body.password) w =
      (.ok none, w1) := by
      refine (run_bind_of_ok _ hq).trans ((run_bind_of_ok _ hv).trans ?_)
      rw [if_pos (by simpa using hp)]
      rfl
    refine Step.refused (run_bind_of_ok _ hlogin) ?_ h1
    rw [FakeBackend.login, hfound]
    dsimp only
    rw [if_pos hp]
    rfl
  -- the password is right: a session, if the calendar has its end
  rw [decide_eq_true hp] at hv
  have ho1 : Draws (w1.oracle i) d := horacle ▸ ho
  have hreal : ∀ r, run (exec i) (slide cfg d.now >>= fun expires_at => new_secret >>= fun secret =>
      secret_digest rt secret >>= fun digest => query (.insert_token (sessionRow d id expires_at) digest) >>=
        fun _ => .ret (some (_user id u, sessionRow d id expires_at, secret))) (drew (drew w1 i) i) = r →
      run (exec i) (Accounts.login cfg rt hasher body.username body.password) w = r := by
    intro r hr
    refine (run_bind_of_ok _ hq).trans ((run_bind_of_ok _ hv).trans ?_)
    rw [if_neg (by simp)]
    exact (run_bind_of_ok _ (run_now ho1)).trans
      ((run_bind_of_ok _ (@run_new_id i d (drew w1 i) ho1 _)).trans hr)
  have hfake : FakeBackend.login cfg d body s = (do
      let expires_at ← FakeBackend.slide cfg d.now
      let secret ← FakeBackend._store d (fakeSession d id expires_at)
      Act.ret ⟨200, .login secret expires_at (public_user (_user id u))⟩ : Fake Response) s := by
    rw [FakeBackend.login, hfound]
    dsimp only
    rw [if_neg (not_not_intro hp), user_shown hsame, hsame.id]
    rfl
  have hslide := @run_slide cfg i d.now (drew (drew w1 i) i)
  rcases hadd : d.now.add (days cfg.session_days) with _ | e
  · rw [hadd] at hslide
    refine Step.raised .overflow (by rintro ⟨⟩)
      (run_bind_of_error _ (hreal _ (run_bind_of_error _ hslide))) ?_ h1
      (Grows.refl d s)
    rw [hfake, Act.bind_apply, FakeBackend.slide, hadd]
    rfl
  rw [hadd] at hslide
  have howner : (drew (drew w1 i) i).db.users[(sessionRow d id e).user_id]? ≠ none := by
    obtain ⟨u1, hu1, -⟩ := h1.of_fake_user hf
    rw [show (drew (drew w1 i) i).db.users[(sessionRow d id e).user_id]? = some u1 from hu1]
    exact Option.some_ne_none _
  have h2 : Agree hasher rt K d.now (drew (drew w1 i) i).db s := h1
  obtain ⟨w2, hrun, -, hstore, hnext, hgrows⟩ := issue_step h2 hinj ho1 hn hgive (sessionRow d id e)
    (fakeSession d id e) rfl howner (fun digest => session_same d id digest e)
    fun secret => some (_user id u, sessionRow d id e, secret)
  refine Step.answered ⟨200, .login (lit "pb_" ++ d.token_urlsafe) e (public_user (_user id u))⟩
    (run_bind_of_ok _ (hreal _ ((run_bind_of_ok _ hslide).trans hrun))) ?_ hnext hgrows
  rw [hfake, Act.bind_apply, FakeBackend.slide, hadd]
  exact Act.bind_of_ok hstore

theorem logout_step (h : Agree hasher rt K d.now w.db s) (ho : Draws (w.oracle i) d)
    (hmet : Met hasher w.db s actor caller) :
    Step hasher rt K i d (Routes.logout actor) (FakeBackend.logout caller) w s := by
  obtain ⟨r, hr⟩ := hmet.row
  have hlogout : run (exec i) (Accounts.logout actor.token) w =
      (.ok (), { drew w i with db := (Db.revoke_token caller.id d.now w.db).2 }) := by
    rw [← hmet.id]
    exact (run_bind_of_ok _ (run_now ho)).trans (run_query ..)
  exact Step.answered ⟨204, .empty⟩ (run_bind_of_ok _ hlogout) rfl (h.revoke hr hmet.found d.now)
    ((Quiet.of_change hmet.found).grows d)

/-! ### The routes of the tokens -/

/-- The order of `list_tokens`, on what is shown. -/
def shownLE (a b : Token) : Bool :=
  ((compare a.created_at.micros b.created_at.micros).then (compare a.id b.id)).isLE

/-- A token of the fake, as it is shown. -/
def shownToken (s : FakeState) (t : FakeToken) : Token :=
  ⟨t.id, t.name, t.type, t.scope, ((s.users[t.user_id]?).map FakeUser.username).getD [], t.created_at,
    t.last_used_at, t.expires_at⟩

theorem public_token_ok {t : FakeToken} {f : FakeUser} (hf : s.users[t.user_id]? = some f) :
    FakeBackend.public_token t s = (.ok (shownToken s t), s) := by
  have huser : FakeBackend.userOf t.user_id s = (.ok f, s) := by
    rw [FakeBackend.userOf, hf]
  rw [FakeBackend.public_token, Act.bind_of_ok huser, shownToken, hf]
  rfl

theorem publicTokens_ok : ∀ {tokens : List FakeToken}, (∀ t ∈ tokens, s.users[t.user_id]? ≠ none) →
    FakeBackend.publicTokens tokens s = (.ok (tokens.map (shownToken s)), s)
  | [], _ => rfl
  | t :: tokens, h => by
    obtain ⟨f, hf⟩ := Option.ne_none_iff_exists'.1 (h t (by simp))
    rw [FakeBackend.publicTokens, Act.bind_of_ok (public_token_ok hf),
      Act.bind_of_ok (publicTokens_ok fun t' ht' => h t' (List.mem_cons_of_mem _ ht'))]
    rfl

/-- The live agent token under an id, as it is shown. -/
theorem shown_alike {now : Instant} {db : Database} (h : Agree hasher rt K now db s) (id : Str) :
    (db.tokens[id]?.bind fun r => if r.type = .agent ∧ r.revoked_at = none then
        db.users[r.user_id]?.map fun u => Accounts.public_token (_token id r) u.username else none) =
      s.tokens[id]?.bind fun t => if t.type = .agent ∧ t.revoked = false then some (shownToken s t)
        else none := by
  rcases hr : db.tokens[id]? with _ | r
  · rcases ht : s.tokens[id]? with _ | t
    · rfl
    · rcases h.of_fake_token ht with ⟨-, hrev⟩ | ⟨r, hr', -⟩
      · rw [Option.bind_some, if_neg (by rw [hrev]; rintro ⟨-, ⟨⟩⟩)]
        rfl
      · rw [hr] at hr'
        cases hr'
  · obtain ⟨t, ht, hsame⟩ := h.token hr
    obtain ⟨u, f, hu, hf, huser⟩ := h.owner hr
    rw [ht, Option.bind_some, Option.bind_some, hsame.type]
    by_cases hagent : r.type = .agent
    swap
    · rw [if_neg fun hc => hagent hc.1, if_neg fun hc => hagent hc.1]
    have htype : t.type = .agent := hsame.type.trans hagent
    have hrevoked : r.revoked_at = none ↔ t.revoked = false := by
      constructor
      · intro hc
        rw [← Bool.not_eq_true]
        exact fun ht => hsame.revoked ht hc
      · intro hc
        by_contra hne
        have hend := hsame.ended hne
        rw [ended, hc, hsame.lasting htype] at hend
        cases hend
    rw [if_congr (and_congr_right' hrevoked) rfl rfl]
    split_ifs
    · rw [hu, shownToken, hsame.user_id, hf, Option.map_some, hsame.id, hsame.name, hsame.type, hsame.scope,
        hsame.created_at, hsame.expires_at, hsame.last_used_at htype, Option.map_some, huser.username]
      rfl
    · rfl

theorem map_filter_eq {A B C : Type} (f : A → B) (p : B → Bool) (g : B → C) (l : List A) :
    ((l.map f).filter p).map g = l.filterMap fun a => if p (f a) then some (g (f a)) else none := by
  induction l with
  | nil => rfl
  | cons a l ih =>
    rw [List.map_cons, List.filter_cons, List.filterMap_cons]
    split_ifs
    · rw [List.map_cons, ih]
    · exact ih

theorem list_tokens_step (h : Agree hasher rt K d.now w.db s) :
    Step hasher rt K i d Routes.list_tokens FakeBackend.list_tokens w s := by
  -- both sort what they show
  have hreal : ∃ rows : List (Str × TokenRec × UserRec), run (exec i) Accounts.list_agent_tokens w =
      (.ok ((rows.map fun r => Accounts.public_token (_token r.1 r.2.1) r.2.2.username).insertionSort
        fun a b => shownLE a b = true), w) ∧
      rows.map (fun r => Accounts.public_token (_token r.1 r.2.1) r.2.2.username) =
        w.db.tokens.toList.filterMap fun r => if r.2.type = .agent ∧ r.2.revoked_at = none then
          w.db.users[r.2.user_id]?.map fun u => Accounts.public_token (_token r.1 r.2) u.username
            else none := by
    refine ⟨w.db.tokens.toList.filterMap fun r => if r.2.type = .agent ∧ r.2.revoked_at = none then
      w.db.users[r.2.user_id]?.map fun u => (r.1, r.2, u) else none, ?_, ?_⟩
    · refine (run_bind_of_ok _ (run_query ..)).trans ?_
      rw [run_ret, ← List.map_insertionSort (fun a b => tokenLE a b = true) (fun a b => shownLE a b = true)]
      · rw [List.map_map]
        rfl
      · intro a _ b _
        rw [tokenLE, compare_isoText]
        rfl
    · rw [List.map_filterMap]
      refine List.filterMap_congr fun r _ => ?_
      split_ifs
      · rw [Option.map_map]
        rfl
      · rfl
  have hfake : FakeBackend.list_tokens s = (.ok ⟨200, .token_list ((s.tokens.toList.filterMap fun r =>
      if r.2.type = .agent ∧ r.2.revoked = false then some (shownToken s r.2) else none).insertionSort
        fun a b => shownLE a b = true)⟩, s) := by
    have howned : ∀ t ∈ ((s.tokens.toList.map Prod.snd).filter fun t =>
          t.type == .agent && !t.revoked).insertionSort
        fun a b => FakeBackend.tokenLE a b = true, s.users[t.user_id]? ≠ none := by
      intro t ht
      rw [List.mem_insertionSort, List.mem_filter, List.mem_map] at ht
      obtain ⟨⟨⟨id, t⟩, hm, rfl⟩, hlive⟩ := ht
      rw [Bool.and_eq_true, Bool.not_eq_true'] at hlive
      rcases h.of_fake_token (mem_toList.1 hm) with ⟨-, hrev⟩ | ⟨r, hr, hsame⟩
      · rw [hrev] at hlive
        cases hlive.2
      · obtain ⟨u, f, -, hf, -⟩ := h.owner hr
        rw [hsame.user_id, hf]
        exact Option.some_ne_none _
    rw [FakeBackend.list_tokens]
    refine (Act.bind_of_ok rfl).trans ((Act.bind_of_ok (publicTokens_ok howned)).trans ?_)
    rw [List.map_insertionSort (fun a b => FakeBackend.tokenLE a b = true) (fun a b => shownLE a b = true)
      (shownToken s) _ fun _ _ _ _ => Iff.rfl, map_filter_eq]
    simp only [Bool.and_eq_true, beq_iff_eq, Bool.not_eq_true']
    rfl
  obtain ⟨rows, hrun, hrows⟩ := hreal
  rw [hrows, selected_congr (shown_alike h)] at hrun
  exact Step.answered _ (run_bind_of_ok _ hrun) hfake h (Grows.refl d s)

theorem userOf_ok {f : FakeUser} {user_id : Str} (hf : s.users[user_id]? = some f) :
    FakeBackend.userOf user_id s = (.ok f, s) := by
  rw [FakeBackend.userOf, hf]

/-- The agent token a route gives. -/
def agentRow (d : Draw) (user_id : Str) (body : CreateTokenRequest) : TokenRow :=
  ⟨lit "tok" ++ lit "_" ++ d.token_hex, strip isSpace body.name, .agent, body.scope, user_id,
    d.now, none, none,
    none⟩

/-- The agent token the fake stores. -/
def fakeAgent (d : Draw) (user_id : Str) (body : CreateTokenRequest) : FakeToken :=
  ⟨lit "tok" ++ lit "_" ++ d.token_hex, strip isSpace body.name, .agent, body.scope, user_id,
    d.now, none, none,
    false⟩

theorem agent_same (d : Draw) (user_id digest : Str) (body : CreateTokenRequest) : SameToken d.now
    (agentRow d user_id body).id (tokenRec (agentRow d user_id body) digest) (fakeAgent d user_id body) :=
  ⟨rfl, rfl, rfl, rfl, rfl, (instant_ofInstant d.now).symm, rfl, fun _ => rfl, fun _ => rfl, by rintro ⟨⟩,
    fun hc => absurd rfl hc⟩

theorem create_token_step (h : Agree hasher rt K d.now w.db s) (hinj : Set.InjOn rt.sha256 K)
    (ho : Draws (w.oracle i) d) (hn : New d s)
    (hgive : ∃ bytes ∈ K, utf8 (lit "pb_" ++ d.token_urlsafe) = some bytes)
    (hmet : Met hasher w.db s actor caller) (body : CreateTokenRequest) :
    Step hasher rt K i d (Routes.create_token rt actor body) (FakeBackend.create_token d caller body)
      w s := by
  obtain ⟨u, f, hu, hf, hsame, huser⟩ := hmet.user
  have h1 : Agree hasher rt K d.now (drew (drew w i) i).db s := h
  have howner : (drew (drew w i) i).db.users[(agentRow d caller.user_id body).user_id]? ≠ none := by
    rw [show (drew (drew w i) i).db.users[(agentRow d caller.user_id body).user_id]? = some u from hu]
    exact Option.some_ne_none _
  obtain ⟨w2, hrun, -, hstore, hnext, hgrows⟩ := issue_step h1 hinj ho hn hgive
    (agentRow d caller.user_id body)
    (fakeAgent d caller.user_id body) rfl howner (fun digest => agent_same d caller.user_id digest body)
    fun secret => (agentRow d caller.user_id body, secret)
  have hreal : run (exec i) (create_agent_token rt actor.user (strip isSpace body.name) body.scope) w =
      (.ok (agentRow d caller.user_id body, lit "pb_" ++ d.token_urlsafe), w2) := by
    rw [huser]
    exact (run_bind_of_ok _ (run_new_id ho _)).trans
      ((run_bind_of_ok _ (@run_now i d (drew w i) ho)).trans hrun)
  refine Step.answered ⟨201, .token_created
    (Accounts.public_token (agentRow d caller.user_id body) u.username)
    (lit "pb_" ++ d.token_urlsafe)⟩ ((run_bind_of_ok _ hreal).trans (by rw [huser]; rfl)) ?_ hnext hgrows
  have hname : FakeBackend.user_by_name s f.username = some f := by
    rcases h.by_name f.username with ⟨hno, -⟩ | ⟨id, u', f', hu', hf', hsame', hname, hfound⟩
    · exact absurd (taken_iff.2 ⟨_, u, hu, hsame.username.symm⟩) (Bool.eq_false_iff.1 hno)
    · obtain rfl := w.db.usernames _ _ _ _ hu' hu (hname.trans hsame.username)
      rw [hf] at hf'
      rw [hfound, Option.some.inj hf']
  rw [FakeBackend.create_token]
  refine (Act.bind_of_ok (userOf_ok hf)).trans ((Act.bind_of_ok rfl).trans ?_)
  rw [hname]
  dsimp only
  rw [hsame.id]
  refine (Act.bind_of_ok hstore).trans ((Act.bind_of_ok (public_token_ok (f := f) ?_)).trans ?_)
  · exact hf
  · rw [shownToken]
    change (Except.ok (⟨201, .token_created ⟨_, _, _, _,
      ((s.users[caller.user_id]?).map FakeUser.username).getD [],
      _, _, _⟩ _⟩ : Response), _) = _
    rw [hf, Option.map_some, hsame.username]
    rfl

theorem token_self_step (h : Agree hasher rt K d.now w.db s) (hmet : Met hasher w.db s actor caller) :
    Step hasher rt K i d (Routes.token_self actor) (FakeBackend.token_self caller) w s := by
  obtain ⟨u, f, hu, hf, hsame, huser⟩ := hmet.user
  refine Step.answered ⟨200, .token_self (Accounts.token_self actor)⟩ rfl ?_ h (Grows.refl d s)
  rw [FakeBackend.token_self]
  refine (Act.bind_of_ok (userOf_ok hf)).trans ?_
  rw [Accounts.token_self, hmet.id, hmet.name, hmet.type, hmet.scope, hmet.expires_at, huser, hsame.username]
  rfl

theorem revoke_token_step (rt' : Runtime) (h : Agree hasher rt K d.now w.db s) (ho : Draws (w.oracle i) d)
    (token_id : Str) : Step hasher rt K i d (Routes.revoke_token rt' token_id)
      (FakeBackend.revoke_token rt' token_id) w s := by
  have hq : run (exec i) (query (.token_by_id token_id)) w =
      (.ok (w.db.tokens[token_id]?.map (_token token_id)), w) := run_query ..
  have hnone : run (exec i) (revoke_agent_token token_id) w = (.ok false, w) →
      run (exec i) (Routes.revoke_token rt' token_id) w =
        (.error (.api ⟨404, .not_found, lit "no agent token " ++ rt'.repr token_id⟩), w) :=
    fun hrun => run_bind_of_ok _ hrun
  rcases hr : w.db.tokens[token_id]? with _ | r
  · have hrun : run (exec i) (revoke_agent_token token_id) w = (.ok false, w) := by
      rw [hr] at hq
      exact run_bind_of_ok _ hq
    refine Step.refused (hnone hrun) ?_ h
    rw [FakeBackend.revoke_token]
    rcases ht : s.tokens[token_id]? with _ | t
    · rfl
    · rcases h.of_fake_token ht with ⟨-, hrev⟩ | ⟨r, hr', -⟩
      · dsimp only
        rw [if_pos (Or.inr hrev)]
        rfl
      · rw [hr] at hr'
        cases hr'
  obtain ⟨t, ht, hsame⟩ := h.token hr
  rw [hr] at hq
  have hcond : (_token token_id r).type ≠ .agent ∨ (_token token_id r).revoked_at ≠ none ↔
      t.type ≠ .agent ∨ t.revoked = true := by
    have htype : t.type = r.type := hsame.type
    have hrev : (_token token_id r).revoked_at ≠ none ↔ r.revoked_at ≠ none := by
      rw [show (_token token_id r).revoked_at = _dt r.revoked_at from rfl, _dt]
      simp
    rw [hrev, show (_token token_id r).type = t.type from htype.symm]
    by_cases hagent : t.type = .agent
    · refine or_congr_right ⟨fun hc => ?_, hsame.revoked⟩
      have hend := hsame.ended hc
      rwa [ended, hsame.lasting hagent, Option.any_none, Bool.or_false] at hend
    · exact ⟨fun _ => Or.inl hagent, fun _ => Or.inl hagent⟩
  by_cases hc : t.type ≠ .agent ∨ t.revoked = true
  · have hrun : run (exec i) (revoke_agent_token token_id) w = (.ok false, w) := by
      refine (run_bind_of_ok _ hq).trans ?_
      dsimp only [Option.map_some]
      rw [if_pos (hcond.2 hc)]
      rfl
    refine Step.refused (hnone hrun) ?_ h
    rw [FakeBackend.revoke_token, ht]
    dsimp only
    rw [if_pos hc]
    rfl
  · have hrun : run (exec i) (revoke_agent_token token_id) w =
        (.ok true, { drew w i with db := (Db.revoke_token token_id d.now w.db).2 }) := by
      refine (run_bind_of_ok _ hq).trans ?_
      dsimp only [Option.map_some]
      rw [if_neg fun hx => hc (hcond.1 hx)]
      exact (run_bind_of_ok _ (run_now ho)).trans (run_bind_of_ok _ (run_query ..))
    refine Step.answered ⟨204, .empty⟩ (run_bind_of_ok _ hrun) ?_
      (h.revoke hr ht d.now) ((Quiet.of_change ht).grows d)
    rw [FakeBackend.revoke_token, ht]
    dsimp only
    rw [if_neg hc]

/-! ### The routes of the accounts -/

/-- The order of `list_users`, on what is shown. -/
def usernameLE (a b : User) : Bool := (compare a.username b.username).isLE

theorem list_users_step (h : Agree hasher rt K d.now w.db s) :
    Step hasher rt K i d Routes.list_users FakeBackend.list_users w s := by
  have hrows : w.db.users.toList.map (fun r => public_user (_user r.1 r.2)) =
      s.users.toList.map fun r => FakeBackend.FakeUser.public r.2 := by
    refine rows_congr (f := fun id u => public_user (_user id u))
      (g := fun _ f => FakeBackend.FakeUser.public f)
      fun id => ?_
    have hrel := h.users id
    generalize w.db.users[id]? = o at hrel ⊢
    generalize s.users[id]? = o' at hrel ⊢
    cases hrel with
    | none => rfl
    | some hsame => exact congrArg some (user_shown hsame).symm
  have hreal : run (exec i) Routes.list_users w = (.ok ⟨200, .user_list ((w.db.users.toList.map fun r =>
      public_user (_user r.1 r.2)).insertionSort fun a b => usernameLE a b = true)⟩, w) := by
    refine (run_bind_of_ok _ (run_query ..)).trans ?_
    rw [run_ret, List.map_insertionSort (fun a b : UserRow => (compare a.username b.username).isLE = true)
      (fun a b => usernameLE a b = true) public_user _ fun _ _ _ _ => Iff.rfl, List.map_map]
    rfl
  have hfake : FakeBackend.list_users s = (.ok ⟨200, .user_list ((s.users.toList.map fun r =>
      FakeBackend.FakeUser.public r.2).insertionSort fun a b => usernameLE a b = true)⟩, s) := by
    rw [FakeBackend.list_users, List.map_insertionSort
      (fun a b : FakeUser => (compare a.username b.username).isLE = true) (fun a b => usernameLE a b = true)
      FakeBackend.FakeUser.public _ fun _ _ _ _ => Iff.rfl, List.map_map]
    rfl
  rw [hrows] at hreal
  exact Step.answered _ hreal hfake h (Grows.refl d s)

theorem create_user_step (rt' : Runtime) (h : Agree hasher rt K d.now w.db s) (hsound : hasher.Sound)
    (ho : Draws (w.oracle i) d) (hn : New d s) (body : CreateUserRequest) :
    Step hasher rt K i d (Routes.create_user rt' hasher body) (FakeBackend.create_user rt' d body) w s := by
  obtain ⟨hash, hsalt, hmade⟩ : ∃ hash, (∃ salt, hash = hasher.hash salt body.password) ∧
      ∀ r, run (exec i) (query (.insert_user ⟨lit "usr" ++ lit "_" ++ d.token_hex, body.username,
          hash, d.now⟩) >>=
          fun _ => .ret (⟨lit "usr" ++ lit "_" ++ d.token_hex, body.username, hash, d.now⟩ : UserRow))
          (drew (drew (drew w i) i) i) = r →
        run (exec i) (Accounts.create_user hasher body.username body.password) w = r :=
    ⟨_, ⟨_, rfl⟩, fun r hr => (run_bind_of_ok _ (run_new_id ho _)).trans ((run_bind_of_ok _ rfl).trans
      ((run_bind_of_ok _ (@run_now i d (drew (drew w i) i) ho)).trans hr))⟩
  generalize huser : (⟨lit "usr" ++ lit "_" ++ d.token_hex, body.username, hash, d.now⟩ : UserRow)
    = user at hmade
  have hq : run (exec i) (query (.insert_user user)) (drew (drew (drew w i) i) i) =
    ((insert_user user w.db).1, { drew (drew (drew w i) i) i with db := (insert_user user w.db).2 })
      := run_query ..
  rcases h.by_name body.username with ⟨hno, hfree⟩ | ⟨id, u, f, hu, hf, hsame, hname, hfound⟩
  · obtain ⟨salt, rfl⟩ := hsalt
    have hrow : SameUser hasher user.id (userRec user)
        ⟨lit "usr" ++ lit "_" ++ d.token_hex, body.username, body.password, d.now⟩ := by
      rw [← huser]
      exact ⟨rfl, rfl, (instant_ofInstant d.now).symm, fun q => hsound salt body.password q⟩
    have hid : user.id = lit "usr" ++ lit "_" ++ d.token_hex := by rw [← huser]
    obtain ⟨hok, hnext⟩ := h.add_user (by rw [hid]; exact hn.user) (by rw [← huser]; exact hno) hrow
    rw [hok] at hq
    refine Step.answered ⟨201, .user (public_user user)⟩
      (run_bind_of_ok _ (run_except_of_ok _ (hmade _ (run_bind_of_ok _ hq)))) ?_ hnext
      (by rw [hid]; exact Grows.of_user d s _)
    rw [FakeBackend.create_user, hfree, hid, ← huser]
    rfl
  · have htaken : w.db.users[user.id]? ≠ none ∨ w.db.taken user.username = true :=
      Or.inr (taken_iff.2 ⟨id, u, hu, by rw [hname, ← huser]⟩)
    rw [insert_user, dif_pos htaken] at hq
    have hraised : run (exec i) (Routes.create_user rt' hasher body) w = (.error (.api ⟨409, .user_exists,
        lit "the username " ++ rt'.repr body.username ++ lit " is taken"⟩), drew (drew (drew w i) i) i) :=
      run_bind_of_error _ ((run_except_of_error _ (hmade _ (run_bind_of_error _ hq))).trans rfl)
    refine Step.refused hraised ?_ h
    rw [FakeBackend.create_user, hfound]
    rfl

/-- What a new password leaves. -/
theorem run_new_hash (hasher : Hasher) (i : ℕ) (user : UserRow) (new_password : Str) (w : World) :
    ∃ w' salt, run (exec i) (Accounts.change_password hasher user new_password) w = (.ok (), w') ∧
      w'.oracle = w.oracle ∧ w'.db = (set_password_hash user.id (hasher.hash salt new_password) w.db).2 :=
  ⟨_, _, rfl, rfl, rfl⟩

theorem run_revoke_others (ho : Draws (w.oracle i) d) (user : UserRow) (keep : TokenRow) :
    ∃ w' n, run (exec i) (Accounts.revoke_other_sessions user keep) w = (.ok n, w') ∧
      w'.db = (Db.revoke_other_sessions user.id keep.id d.now w.db).2 :=
  ⟨_, _, (run_bind_of_ok _ (run_now ho)).trans (run_query ..), rfl⟩

theorem change_password_step (h : Agree hasher rt K d.now w.db s) (hsound : hasher.Sound)
    (ho : Draws (w.oracle i) d) (hmet : Met hasher w.db s actor caller) (body : ChangePasswordRequest) :
    Step hasher rt K i d (Routes.change_password hasher actor body) (FakeBackend.change_password caller body)
      w s := by
  obtain ⟨u, f, hu, hf, hsame, huser⟩ := hmet.user
  obtain ⟨w1, hv, horacle, h1⟩ := verify_step (i := i) h hsound hu hf hsame body.current
  rw [← huser] at hv
  by_cases hp : f.password = body.current
  swap
  · have hraised : run (exec i) (Routes.change_password hasher actor body) w =
        (.error (.api ⟨403, .wrong_password, lit "the current password is wrong"⟩), w1) := by
      refine (run_bind_of_ok _ hv).trans ?_
      rw [if_pos (by simpa using hp)]
      rfl
    refine Step.refused hraised ?_ h1
    rw [FakeBackend.change_password]
    refine (Act.bind_of_ok (userOf_ok hf)).trans ?_
    rw [if_pos (Ne.symm hp)]
    rfl
  rw [decide_eq_true hp] at hv
  -- the new hash, then the other sessions
  obtain ⟨w2, salt, hset, horacle2, hdb2⟩ := run_new_hash hasher i actor.user body.new w1
  have ho2 : Draws (w2.oracle i) d := by rw [horacle2, horacle]; exact ho
  obtain ⟨w3, n, hrevoke, hdb3⟩ := run_revoke_others ho2 actor.user actor.token
  have hid : actor.user.id = caller.user_id := by rw [huser]; rfl
  obtain ⟨u1, hu1, hsame1⟩ := h1.of_fake_user hf
  have h3 := (h1.set_password hu1 hsame1 fun q => hsound salt body.new q).revoke_others
    caller.user_id caller.id d.now
  rw [hdb2, hid, hmet.id] at hdb3
  rw [← hdb3] at h3
  refine Step.answered ⟨204, .empty⟩ ((run_bind_of_ok _ hv).trans ?_) ?_ h3 ?_
  · rw [if_neg (by simp)]
    exact (run_bind_of_ok _ hset).trans ((run_bind_of_ok _ hrevoke).trans rfl)
  · rw [FakeBackend.change_password]
    refine (Act.bind_of_ok (userOf_ok hf)).trans ?_
    rw [if_neg (not_not_intro hp.symm), hsame.id]
    rfl
  · refine Grows.of_tokens d (fun id hid => ?_) fun id hid => ?_
    · rw [get_insert_of_ne, hid]
      rintro rfl
      rw [hf] at hid
      cases hid
    · rw [get_map, hid]
      rfl

theorem delete_user_step (rt' : Runtime) (h : Agree hasher rt K d.now w.db s) (user_id : Str) :
    Step hasher rt K i d (Routes.delete_user rt' user_id) (FakeBackend.delete_user rt' user_id) w s := by
  have hq := run_user_by_id (i := i) user_id w
  have hcount : run (exec i) (query .count_users) w = (.ok s.users.size, w) := by
    rw [run_query, Db.exec, count_users, h.count]
  rcases hu : w.db.users[user_id]? with _ | u
  · have hf := (h.user_none user_id).1 hu
    rw [hu] at hq
    have hraised : run (exec i) (Routes.delete_user rt' user_id) w =
        (.error (.api ⟨404, .not_found, lit "no user " ++ rt'.repr user_id⟩), w) := run_bind_of_ok _ hq
    refine Step.refused hraised ?_ h
    rw [FakeBackend.delete_user, if_pos hf]
    rfl
  obtain ⟨f, hf, -⟩ := h.user hu
  have hne : s.users[user_id]? ≠ none := by rw [hf]; exact Option.some_ne_none _
  have hpos := size_pos hf
  rw [hu] at hq
  by_cases hlast : s.users.size = 1
  · have hraised : run (exec i) (Routes.delete_user rt' user_id) w =
        (.error (.api ⟨409, .last_user, lit "the last account cannot be deleted"⟩), w) := by
      refine (run_bind_of_ok _ hq).trans ?_
      rw [if_neg (by simp)]
      refine (run_bind_of_ok _ hcount).trans ?_
      rw [if_pos (show s.users.size ≤ 1 by omega)]
      rfl
    refine Step.refused hraised ?_ h
    rw [FakeBackend.delete_user, if_neg hne, if_pos hlast]
    rfl
  · have hreal : run (exec i) (Routes.delete_user rt' user_id) w =
        (.ok ⟨204, .empty⟩, { w with db := (Db.delete_user user_id w.db).2 }) := by
      refine (run_bind_of_ok _ hq).trans ?_
      rw [if_neg (by simp)]
      refine (run_bind_of_ok _ hcount).trans ?_
      rw [if_neg (show ¬ s.users.size ≤ 1 by omega)]
      exact run_bind_of_ok _ (run_query ..)
    refine Step.answered ⟨204, .empty⟩ hreal ?_ (h.delete_user user_id) ?_
    · rw [FakeBackend.delete_user, if_neg hne, if_neg hlast]
    · refine Grows.of_tokens d (fun id hid => ?_) fun id hid => ?_
      · rw [get_erase, hid, ite_self]
      · rw [get_map, hid]
        rfl

/-- **Every route of the tokens and the accounts** that asks for a caller. -/
theorem serve_step (cfg : Config) (h : Agree hasher rt K d.now w.db s) (hinj : Set.InjOn rt.sha256 K)
    (hsound : hasher.Sound) (ho : Draws (w.oracle i) d) (hn : New d s)
    (hgive : ∃ bytes ∈ K, utf8 (lit "pb_" ++ d.token_urlsafe) = some bytes)
    (hmet : Met hasher w.db s actor caller) {request : Request} (hr : Frames.aboutSites request = false)
    (hl : ∀ body, request ≠ .login body) :
    Step hasher rt K i d (serve cfg rt hasher actor request)
      (FakeBackend.serveAccounts cfg rt d caller request)
      w s := by
  cases request with
  | login body => exact absurd rfl (hl body)
  | logout => exact logout_step h ho hmet
  | list_tokens => exact list_tokens_step h
  | create_token body => exact create_token_step h hinj ho hn hgive hmet body
  | token_self => exact token_self_step h hmet
  | revoke_token token_id => exact revoke_token_step rt h ho token_id
  | list_users => exact list_users_step h
  | create_user body => exact create_user_step rt h hsound ho hn body
  | change_password body => exact change_password_step h hsound ho hmet body
  | delete_user user_id => exact delete_user_step rt h user_id
  | _ => exact absurd hr.symm Bool.false_ne_true

end PaperBoxing.Agreement.Accounts
