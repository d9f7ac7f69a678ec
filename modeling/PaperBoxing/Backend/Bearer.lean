import PaperBoxing.Backend.Alone
import PaperBoxing.Backend.Frames

/-! # The bearer of a secret

What `resolve_bearer` answers and leaves when it runs alone, and what a query may do to the row of a
token.

* `run_resolve_row`: the row that has the digest of the secret decides, as `honoured` says;
* `exec_token_row`: every row was there before with the same digest, type, scope and owner, or is
  inserted now; what is revoked stays so, and only the record of a use moves an expiry;
* `run_keeps_row`: the same over the run of an account route. -/

namespace PaperBoxing.Backend.Bearer

open PaperBoxing.Lib PaperBoxing.Lib.Action PaperBoxing.Lib.Program PaperBoxing.Lib.Text
open PaperBoxing.Lib.IsoTime PaperBoxing.Lib.Tables PaperBoxing.Common.Scopes
open PaperBoxing.Common.Schema PaperBoxing.Backend PaperBoxing.Backend.Db PaperBoxing.Backend.Calls
open PaperBoxing.Backend.Accounts PaperBoxing.Backend.Alone PaperBoxing.Backend.Frames

variable {cfg : Config} {rt : Runtime} {hasher : Hasher} {i : ℕ} {w : World}

/-! ### What `resolve_bearer` answers -/

/-- The digest of the secret a header carries. -/
def carried (rt : Runtime) (header : Option Str) : Option Str :=
  (parse_bearer header).bind fun secret => (utf8 secret).map rt.sha256

/-- Whether a row has expired at a time. -/
def expired (r : TokenRec) (now : Instant) : Bool :=
  (_dt r.expires_at).any fun e => e.micros ≤ now.micros

/-- The actor behind a row that is honoured. -/
def actorOf (id : Str) (r : TokenRec) (u : UserRec) (now : Instant) (expires_at : Option Instant) :
    Actor :=
  ⟨{ _token id r with last_used_at := some now, expires_at := expires_at }, _user r.user_id u⟩

/-- What `honour` answers, and what it leaves of the database. -/
def honoured (cfg : Config) (id : Str) (r : TokenRec) (now : Instant) (d : Database) :
    Except Exn (Option Actor) × Database :=
  if r.revoked_at ≠ none then (.ok none, d)
  else if expired r now then (.ok none, (Db.revoke_token id now d).2)
  else
    match d.users[r.user_id]? with
    | none => (.ok none, d)
    | some u =>
      match r.type with
      | .agent => (.ok (some (actorOf id r u now none)), (touch_token id now none d).2)
      | .session =>
        match now.add (days cfg.session_days) with
        | none => (.error .overflow, d)
        | some e => (.ok (some (actorOf id r u now (some e))), (touch_token id now (some e) d).2)

theorem run_user_by_id (user_id : Str) (w : World) :
    run (exec i) (query (.user_by_id user_id)) w =
      (.ok (w.db.users[user_id]?.map (_user user_id)), w) := run_query ..

theorem run_slide (now : Instant) (w : World) : run (exec i) (slide cfg now) w =
    match now.add (days cfg.session_days) with
    | some e => (.ok e, w)
    | none => (.error .overflow, w) := by
  rw [slide]
  rcases now.add (days cfg.session_days) with _ | e <;> rfl

theorem run_honour (id : Str) (r : TokenRec) (now : Instant) (w : World) :
    run (exec i) (honour cfg (_token id r) now) w =
      ((honoured cfg id r now w.db).1, { w with db := (honoured cfg id r now w.db).2 }) := by
  have hrev : (_token id r).revoked_at ≠ none ↔ r.revoked_at ≠ none := by
    rcases h : r.revoked_at with _ | x <;> simp [_token, _dt, h]
  rw [honour, honoured]
  by_cases h1 : r.revoked_at ≠ none
  · rw [if_pos (hrev.2 h1), if_pos h1]
    rfl
  have hexp : ((_token id r).expires_at.any fun e => decide (e.micros ≤ now.micros)) =
    expired r now := rfl
  rw [if_neg fun h => h1 (hrev.1 h), if_neg h1, hexp]
  by_cases h2 : expired r now = true
  · rw [if_pos h2, if_pos h2]
    exact run_bind_of_ok _ (run_query ..)
  rw [if_neg h2, if_neg h2]
  refine (run_bind_of_ok _ (run_user_by_id ..)).trans ?_
  rw [show (_token id r).user_id = r.user_id from rfl]
  rcases w.db.users[r.user_id]? with _ | u
  · rfl
  dsimp only [Option.map_some]
  rcases ht : r.type with _ | _
  · rw [if_pos (show (_token id r).type = .session from ht)]
    dsimp only
    rw [run_bind, run_bind, run_slide]
    rcases now.add (days cfg.session_days) with _ | e
    · rfl
    · exact run_bind_of_ok _ (run_query ..)
  · have hagent : (_token id r).type ≠ .session := fun h => by
      rw [show (_token id r).type = r.type from rfl, ht] at h
      cases h
    rw [if_neg hagent]
    exact (run_bind_of_ok _ rfl).trans (run_bind_of_ok _ (run_query ..))

/-- **A header that carries no secret** has no bearer. -/
theorem run_resolve_bare {header : Option Str} (h : parse_bearer header = none) :
    run (exec i) (resolve_bearer cfg rt header) w = (.ok none, w) := by
  rw [resolve_bearer, h]
  rfl

/-- A secret that has no encoding raises. -/
theorem run_resolve_unencodable {header : Option Str} {secret : Str}
    (h : parse_bearer header = some secret) (hu : utf8 secret = none) :
    run (exec i) (resolve_bearer cfg rt header) w = (.error .other, w) := by
  rw [resolve_bearer, h]
  dsimp only
  rw [secret_digest, hu]
  rfl

theorem carried_cases {header : Option Str} {digest : Str} (h : carried rt header = some digest) :
    ∃ secret bytes, parse_bearer header = some secret ∧ utf8 secret = some bytes ∧
      rt.sha256 bytes = digest := by
  rw [carried, Option.bind_eq_some_iff] at h
  obtain ⟨secret, hs, h⟩ := h
  obtain ⟨bytes, hb, h⟩ := Option.map_eq_some_iff.1 h
  exact ⟨secret, bytes, hs, hb, h⟩

/-- **A secret nobody was given** has no bearer. -/
theorem run_resolve_unknown {header : Option Str} {digest : Str} (h : carried rt header = some digest)
    (hd : w.db.issued digest = false) :
    run (exec i) (resolve_bearer cfg rt header) w = (.ok none, w) := by
  obtain ⟨secret, bytes, hs, hb, rfl⟩ := carried_cases h
  rw [resolve_bearer, hs]
  dsimp only
  rw [secret_digest, hb]
  have hq : run (exec i) (query (.token_by_secret (rt.sha256 bytes))) w = (.ok none, w) := by
    rw [run_query, Db.exec, token_by_secret_of_none hd]
  exact (run_bind_of_ok _ rfl).trans (run_bind_of_ok _ hq)

/-- **The row that has the digest decides.** -/
theorem run_resolve_row {header : Option Str} {id : Str} {r : TokenRec}
    (h : carried rt header = some r.secret_sha256) (hr : w.db.tokens[id]? = some r) :
    run (exec i) (resolve_bearer cfg rt header) w =
      ((honoured cfg id r ((w.oracle i).now (w.drawn i)) w.db).1, { drew w i with
        db := (honoured cfg id r ((w.oracle i).now (w.drawn i)) w.db).2 }) := by
  obtain ⟨secret, bytes, hs, hb, hd⟩ := carried_cases h
  rw [resolve_bearer, hs]
  dsimp only
  rw [secret_digest, hb]
  have hq : run (exec i) (query (.token_by_secret (rt.sha256 bytes))) w =
      (.ok (some (_token id r)), w) := by
    rw [run_query, hd, Db.exec, token_by_secret_of_row hr]
  refine (run_bind_of_ok _ rfl).trans ((run_bind_of_ok _ hq).trans ?_)
  exact (run_bind_of_ok _ rfl).trans (run_honour ..)

/-- No call changes what a thread will draw. -/
theorem run_oracle {A : Type} {p : Code A} {r : Except Exn A} {w' : World}
    (h : run (exec i) p w = (r, w')) : w'.oracle = w.oracle := by
  induction p generalizing w with
  | ret a => rw [← (Prod.mk.inj h).2]
  | raise e => rw [← (Prod.mk.inj h).2]
  | call c k ih =>
    rw [run_call] at h
    rw [ih _ h]
    cases c <;> rfl

theorem run_query_world {q : Query} {r : Except Exn q.Answer} {w' : World}
    (h : run (exec i) (query q) w = (r, w')) : w' = { w with db := (Db.exec q w.db).2 } :=
  (congrArg Prod.snd h).symm.trans (congrArg Prod.snd (run_query ..))

/-! ### The row of a token -/

/-- **A row as it was before, or later**: what identifies a token stays, and a revocation stays. -/
structure Aged (r r' : TokenRec) : Prop where
  secret : r'.secret_sha256 = r.secret_sha256
  type : r'.type = r.type
  scope : r'.scope = r.scope
  user : r'.user_id = r.user_id
  revoked : r.revoked_at ≠ none → r'.revoked_at = r.revoked_at

theorem Aged.refl (r : TokenRec) : Aged r r := ⟨rfl, rfl, rfl, rfl, fun _ => rfl⟩

theorem Aged.trans {r r' r'' : TokenRec} (h : Aged r r') (h' : Aged r' r'') : Aged r r'' where
  secret := h'.secret.trans h.secret
  type := h'.type.trans h.type
  scope := h'.scope.trans h.scope
  user := h'.user.trans h.user
  revoked hr := (h'.revoked (by rwa [h.revoked hr])).trans (h.revoked hr)

/-- Whether a query records the use of the token `id`. -/
def touches (id : Str) : Query → Bool
  | .touch_token token_id .. => token_id == id
  | _ => false

/-- Whether a query removes tokens. -/
def removes : Query → Bool
  | .delete_user _ | .delete_dead_sessions _ => true
  | _ => false

/-- Whether a query issues a token under the id and the digest. -/
def issues (id digest : Str) : Query → Prop
  | .insert_token token secret_sha256 => token.id = id ∧ secret_sha256 = digest
  | _ => False

theorem get_map_tokens {d : Database} {f : Str → TokenRec → TokenRec}
    {hf : ∀ id r, (f id r).secret_sha256 = r.secret_sha256 ∧ (f id r).user_id = r.user_id} {id : Str} :
    (d.map_tokens f hf).tokens[id]? = d.tokens[id]?.map (f id) := get_map ..

theorem revoke_token_self {d : Database} {id : Str} {r : TokenRec} {now : Instant}
    (h : d.tokens[id]? = some r) (hr : r.revoked_at = none) :
    (Db.revoke_token id now d).2.tokens[id]? =
      some { r with revoked_at := some (.ofInstant now) } := by
  rw [Db.revoke_token, get_map_tokens, h, Option.map_some, if_pos ⟨rfl, hr⟩]

theorem revoke_others_self {d : Database} {id user_id keep : Str} {r : TokenRec} {now : Instant}
    (h : d.tokens[id]? = some r) (hr : isOther user_id keep id r = true) :
    (Db.revoke_other_sessions user_id keep now d).2.tokens[id]? =
      some { r with revoked_at := some (.ofInstant now) } := by
  rw [Db.revoke_other_sessions, get_map_tokens, h, Option.map_some, if_pos hr]

theorem touch_token_session {d : Database} {id : Str} {r : TokenRec} {now e : Instant}
    (h : d.tokens[id]? = some r) : (touch_token id now (some e) d).2.tokens[id]? =
      some { r with last_used_at := some (.ofInstant now), expires_at := some (.ofInstant e) } := by
  rw [touch_token, get_map_tokens, h, Option.map_some, if_pos rfl]

theorem touch_token_agent {d : Database} {id : Str} {r : TokenRec} {now : Instant}
    (h : d.tokens[id]? = some r) : (touch_token id now none d).2.tokens[id]? =
      some { r with last_used_at := some (.ofInstant now) } := by
  rw [touch_token, get_map_tokens, h, Option.map_some, if_pos rfl]

/-- **Where a row comes from**: it was there before the query, only older, or the query issued it. -/
theorem exec_token_row {q : Query} {d : Database} {id : Str} {r' : TokenRec}
    (h : (Db.exec q d).2.tokens[id]? = some r') :
    (∃ r, d.tokens[id]? = some r ∧ Aged r r' ∧
      (touches id q = false → r'.expires_at = r.expires_at)) ∨
    (d.tokens[id]? = none ∧ d.issued r'.secret_sha256 = false ∧ issues id r'.secret_sha256 q) := by
  have same : d.tokens[id]? = some r' → ∃ r, d.tokens[id]? = some r ∧ Aged r r' ∧
      (touches id q = false → r'.expires_at = r.expires_at) :=
    fun h => ⟨r', h, Aged.refl r', fun _ => rfl⟩
  by_cases hacc : onAccounts q = true
  swap
  · rw [(exec_users_tokens (Bool.not_eq_true _ ▸ hacc) d).2] at h
    exact Or.inl (same h)
  cases q <;> try first | exact Or.inl (same h) | exact absurd hacc Bool.false_ne_true
  case insert_user user =>
    simp only [Db.exec, insert_user] at h
    split at h <;> exact Or.inl (same h)
  case delete_user user_id =>
    change (d.tokens.filter fun _ r => r.user_id != user_id)[id]? = some r' at h
    rw [get_filter, Option.filter_eq_some_iff] at h
    exact Or.inl (same h.1)
  case delete_dead_sessions now =>
    change (d.tokens.filter fun _ r => !isDead now r)[id]? = some r' at h
    rw [get_filter, Option.filter_eq_some_iff] at h
    exact Or.inl (same h.1)
  case insert_token token digest =>
    simp only [Db.exec, insert_token] at h
    split at h
    · exact Or.inl (same h)
    · next hnew =>
      rw [not_or, not_or, not_not] at hnew
      change (d.tokens.insert token.id (tokenRec token digest))[id]? = some r' at h
      rw [get_insert] at h
      split_ifs at h with hid
      · obtain rfl := Option.some.inj h
        subst hid
        exact Or.inr ⟨hnew.1, Bool.not_eq_true _ ▸ hnew.2.1, rfl, rfl⟩
      · exact Or.inl (same h)
  case touch_token token_id last_used_at expires_at =>
    rw [Db.exec, Db.touch_token, get_map_tokens, Option.map_eq_some_iff] at h
    obtain ⟨r, hr, rfl⟩ := h
    refine Or.inl ⟨r, hr, ?_⟩
    by_cases hid : id = token_id
    · rw [if_pos hid]
      refine ⟨?_, fun ht => ?_⟩
      · cases expires_at <;> exact ⟨rfl, rfl, rfl, rfl, fun _ => rfl⟩
      · simp [touches, hid] at ht
    · rw [if_neg hid]
      exact ⟨Aged.refl r, fun _ => rfl⟩
  case revoke_token token_id now =>
    rw [Db.exec, Db.revoke_token, get_map_tokens, Option.map_eq_some_iff] at h
    obtain ⟨r, hr, rfl⟩ := h
    refine Or.inl ⟨r, hr, ?_⟩
    by_cases hid : id = token_id ∧ r.revoked_at = none
    · rw [if_pos hid]
      exact ⟨⟨rfl, rfl, rfl, rfl, fun hrev => absurd hid.2 hrev⟩, fun _ => rfl⟩
    · rw [if_neg hid]
      exact ⟨Aged.refl r, fun _ => rfl⟩
  case revoke_other_sessions user_id keep now =>
    rw [Db.exec, Db.revoke_other_sessions, get_map_tokens, Option.map_eq_some_iff] at h
    obtain ⟨r, hr, rfl⟩ := h
    refine Or.inl ⟨r, hr, ?_⟩
    by_cases ho : isOther user_id keep id r = true
    · rw [if_pos ho]
      refine ⟨⟨rfl, rfl, rfl, rfl, fun hrev => ?_⟩, fun _ => rfl⟩
      simp only [isOther, Bool.and_eq_true] at ho
      exact absurd (Option.isNone_iff_eq_none.1 ho.2) hrev
    · rw [if_neg ho]
      exact ⟨Aged.refl r, fun _ => rfl⟩

/-- **A row stays** while no query removes tokens, and ages. -/
theorem exec_row_stays {q : Query} {d : Database} {id : Str} {r : TokenRec}
    (h : d.tokens[id]? = some r) (hq : removes q = false) :
    ∃ r', (Db.exec q d).2.tokens[id]? = some r' ∧ Aged r r' ∧
      (touches id q = false → r'.expires_at = r.expires_at) := by
  have hsome : ∃ r', (Db.exec q d).2.tokens[id]? = some r' := by
    have hmap : ∀ f : Str → TokenRec → TokenRec, ∃ r', (d.tokens.map f)[id]? = some r' := fun f =>
      ⟨f id r, by rw [get_map, h]; rfl⟩
    by_cases hacc : onAccounts q = true
    swap
    · rw [(exec_users_tokens (Bool.not_eq_true _ ▸ hacc) d).2]
      exact ⟨r, h⟩
    cases q <;> try first
      | exact ⟨r, h⟩
      | exact hmap _
      | exact absurd hacc Bool.false_ne_true
      | exact absurd hq.symm Bool.false_ne_true
    case insert_user user =>
      simp only [Db.exec, insert_user]
      split <;> exact ⟨r, h⟩
    case insert_token token digest =>
      simp only [Db.exec, insert_token]
      split
      · exact ⟨r, h⟩
      · change ∃ r', (d.tokens.insert token.id (tokenRec token digest))[id]? = some r'
        rw [get_insert]
        split_ifs
        · exact ⟨_, rfl⟩
        · exact ⟨r, h⟩
  obtain ⟨r', hr'⟩ := hsome
  rcases exec_token_row hr' with ⟨r0, hr0, haged, he⟩ | ⟨hn, -, -⟩
  · rw [h] at hr0
    obtain rfl := Option.some.inj hr0
    exact ⟨r', hr', haged, he⟩
  · rw [h] at hn
    cases hn

/-- **A row stays over a run of the account routes**, and ages; its expiry is not moved. -/
theorem run_row_stays {A : Type} {p : Code A} (hp : Uses (only forRoutes) p) {id : Str} {r : TokenRec}
    (h : w.db.tokens[id]? = some r) : ∃ r', (run (exec i) p w).2.db.tokens[id]? = some r' ∧
      Aged r r' ∧ r'.expires_at = r.expires_at := by
  refine run_preserves (I := fun w' : World => ∃ r', w'.db.tokens[id]? = some r' ∧ Aged r r' ∧
    r'.expires_at = r.expires_at) ?_ hp ⟨r, h, Aged.refl r, rfl⟩
  rintro c hc w' ⟨r1, h1, ha1, he1⟩
  cases c with
  | db q =>
    have hq : removes q = false ∧ touches id q = false := by
      cases q <;> first | exact ⟨rfl, rfl⟩ | cases hc
    obtain ⟨r2, h2, ha2, he2⟩ := exec_row_stays h1 hq.1
    exact ⟨r2, h2, ha1.trans ha2, (he2 hq.2).trans he1⟩
  | now => exact ⟨r1, h1, ha1, he1⟩
  | token_hex n => exact ⟨r1, h1, ha1, he1⟩
  | token_urlsafe n => exact ⟨r1, h1, ha1, he1⟩
  | salt => exact ⟨r1, h1, ha1, he1⟩
  | disk c => exact hc.elim
  | receive chunk => exact hc.elim
  | acquire slug => exact hc.elim
  | release slug => exact hc.elim

/-- What the route that removes an account leaves of the database. -/
theorem run_delete_user (rt : Runtime) (i : ℕ) (user_id : Str) (w : World) :
    (∃ e, run (exec i) (Routes.delete_user rt user_id) w = (.error e, w)) ∨
      (2 ≤ w.db.users.size ∧ (w.db.users[user_id]?).isSome ∧
        run (exec i) (Routes.delete_user rt user_id) w =
          (.ok ⟨204, .empty⟩, { w with db := (Db.delete_user user_id w.db).2 })) := by
  rw [Routes.delete_user, run_bind_of_ok _ (run_user_by_id ..)]
  rcases hu : w.db.users[user_id]? with _ | u
  · exact Or.inl ⟨_, rfl⟩
  dsimp only [Option.map_some]
  rw [if_neg (by simp)]
  have hcount : run (exec i) (query .count_users) w = (.ok w.db.users.size, w) := run_query ..
  rw [run_bind_of_ok _ hcount]
  by_cases hc : w.db.users.size ≤ 1
  · rw [if_pos hc]
    exact Or.inl ⟨_, rfl⟩
  · rw [if_neg hc]
    exact Or.inr ⟨by omega, rfl, run_bind_of_ok _ (run_query ..)⟩

/-- The rows of a user's tokens go with the user. -/
theorem delete_user_row {d : Database} {user_id id : Str} {r : TokenRec} :
    (Db.delete_user user_id d).2.tokens[id]? = some r ↔
      d.tokens[id]? = some r ∧ r.user_id ≠ user_id := by
  change (d.tokens.filter fun _ r => r.user_id != user_id)[id]? = some r ↔ _
  rw [get_filter, Option.filter_eq_some_iff, bne_iff_ne]

/-- **What a route does to a row that is there before and after**: it ages, and its expiry stays. -/
theorem serve_row (actor : Actor) (request : Routes.Request) {id : Str} {r r' : TokenRec}
    (h : w.db.tokens[id]? = some r)
    (h' : (run (exec i) (Routes.serve cfg rt hasher actor request) w).2.db.tokens[id]? = some r') :
    Aged r r' ∧ r'.expires_at = r.expires_at := by
  by_cases hs : aboutSites request = true
  · rw [(run_sameAccounts (uses_serve_sites actor hs) w).tokens, h] at h'
    obtain rfl := Option.some.inj h'
    exact ⟨Aged.refl r, rfl⟩
  by_cases hd : ∃ user_id, request = .delete_user user_id
  · obtain ⟨user_id, rfl⟩ := hd
    obtain ⟨_, hr⟩ | ⟨-, -, hr⟩ := run_delete_user rt i user_id w
    · rw [Routes.serve, hr, h] at h'
      obtain rfl := Option.some.inj h'
      exact ⟨Aged.refl r, rfl⟩
    · rw [Routes.serve, hr, delete_user_row, h] at h'
      obtain rfl := Option.some.inj h'.1
      exact ⟨Aged.refl r, rfl⟩
  · have huses : Uses (only forRoutes) (Routes.serve cfg rt hasher actor request) :=
      uses_serve_accounts actor (Bool.not_eq_true _ ▸ hs) fun u hu => hd ⟨u, hu⟩
    obtain ⟨r1, h1, ha, he⟩ := run_row_stays (i := i) huses h
    rw [h1] at h'
    obtain rfl := Option.some.inj h'
    exact ⟨ha, he⟩

/-- **A bearer's presentation leaves the rows of the other tokens alone.** -/
theorem honoured_other {id id' : Str} {r : TokenRec} {now : Instant} {d : Database} (h : id' ≠ id) :
    (honoured cfg id r now d).2.tokens[id']? = d.tokens[id']? := by
  have hmap : ∀ f : Str → TokenRec → TokenRec, (∀ s, f id' s = s) →
      (d.tokens.map f)[id']? = d.tokens[id']? := by
    intro f hid
    rw [get_map]
    rcases d.tokens[id']? with _ | s
    · rfl
    · exact congrArg some (hid s)
  unfold honoured
  split_ifs
  · rfl
  · exact hmap _ fun s => if_neg fun hc => h hc.1
  · rcases d.users[r.user_id]? with _ | u
    · rfl
    dsimp only
    rcases r.type with _ | _
    · dsimp only
      rcases now.add (days cfg.session_days) with _ | e
      · rfl
      · exact hmap _ fun s => if_neg h
    · exact hmap _ fun s => if_neg h

/-- What it takes to be honoured, and what it leaves. -/
theorem honoured_found {id : Str} {r : TokenRec} {now : Instant} {d : Database} {caller : Actor}
    (hr : d.tokens[id]? = some r) (h : (honoured cfg id r now d).1 = .ok (some caller)) :
    r.revoked_at = none ∧ expired r now = false ∧
      ∃ u e e', d.users[r.user_id]? = some u ∧ caller = actorOf id r u now e ∧
        (honoured cfg id r now d).2.users = d.users ∧ (honoured cfg id r now d).2.tokens[id]? =
          some { r with last_used_at := some (.ofInstant now), expires_at := e' } := by
  rw [honoured] at h ⊢
  by_cases h1 : r.revoked_at = none
  swap
  · rw [if_pos h1] at h
    cases h
  rw [if_neg (not_not.2 h1)] at h ⊢
  rcases h2 : expired r now with _ | _
  swap
  · rw [h2, if_pos rfl] at h
    cases h
  rw [h2, if_neg Bool.false_ne_true] at h
  rw [if_neg Bool.false_ne_true]
  obtain ⟨u, hu⟩ := Option.ne_none_iff_exists'.1 (d.owners id r hr)
  rw [hu] at h ⊢
  dsimp only at h ⊢
  refine ⟨h1, rfl, u, ?_⟩
  rcases ht : r.type with _ | _ <;> rw [ht] at h
  · dsimp only at h ⊢
    rcases hadd : now.add (days cfg.session_days) with _ | e <;> rw [hadd] at h
    · cases h
    · obtain rfl := Option.some.inj (Except.ok.inj h)
      exact ⟨_, _, rfl, rfl, rfl, (touch_token_session hr).trans (by rw [ht])⟩
  · obtain rfl := Option.some.inj (Except.ok.inj h)
    exact ⟨_, _, rfl, rfl, rfl, (touch_token_agent hr).trans (by rw [ht])⟩

/-- **A token that was found is refused** when it was revoked or has expired. -/
theorem honoured_refused {id : Str} {r : TokenRec} {now : Instant} {d : Database}
    (hr : d.tokens[id]? = some r) :
    (honoured cfg id r now d).1 = .ok none ↔ r.revoked_at ≠ none ∨ expired r now = true := by
  rw [honoured]
  by_cases h1 : r.revoked_at ≠ none
  · rw [if_pos h1]
    exact iff_of_true rfl (Or.inl h1)
  rw [if_neg h1]
  by_cases h2 : expired r now = true
  · rw [if_pos h2]
    exact iff_of_true rfl (Or.inr h2)
  rw [if_neg h2]
  -- the owner is there, and a session whose expiry would overflow raises
  obtain ⟨u, hu⟩ := Option.ne_none_iff_exists'.1 (d.owners id r hr)
  rw [hu]
  refine iff_of_false (fun h => ?_) (not_or.2 ⟨h1, h2⟩)
  rcases ht : r.type with _ | _ <;> rw [ht] at h
  · dsimp only at h
    rcases hadd : now.add (days cfg.session_days) with _ | e <;> rw [hadd] at h <;> cases h
  · cases h

/-- **The bearer that was found**: its row and its owner's, and what its presentation left. -/
structure Found (rt : Runtime) (header : Option Str) (now : Instant) (caller : Actor) (r : TokenRec)
    (u : UserRec) (d d' : Database) : Prop where
  row : d.tokens[caller.token.id]? = some r
  secret : carried rt header = some r.secret_sha256
  user : d.users[caller.user.id]? = some u
  caller_user : caller.user = _user caller.user.id u
  owner : r.user_id = caller.user.id
  type : r.type = caller.token.type
  scope : r.scope = caller.token.scope
  unrevoked : r.revoked_at = none
  current : expired r now = false
  users : d'.users = d.users
  others : ∀ id, id ≠ caller.token.id → d'.tokens[id]? = d.tokens[id]?
  touched : ∃ e, d'.tokens[caller.token.id]? =
    some { r with last_used_at := some (.ofInstant now), expires_at := e }

theorem found_of_resolved {header : Option Str} {caller : Actor} {w' : World}
    (h : run (exec i) (resolve_bearer cfg rt header) w = (.ok (some caller), w')) :
    ∃ r u, Found rt header ((w.oracle i).now (w.drawn i)) caller r u w.db w'.db := by
  rcases hc : carried rt header with _ | digest
  · rcases hp : parse_bearer header with _ | secret
    · rw [run_resolve_bare hp] at h
      cases (Prod.mk.inj h).1
    · have hu : utf8 secret = none := by
        rw [carried, hp, Option.bind_some] at hc
        exact Option.map_eq_none_iff.1 hc
      rw [run_resolve_unencodable hp hu] at h
      cases (Prod.mk.inj h).1
  rcases hi : w.db.issued digest with _ | _
  · rw [run_resolve_unknown hc hi] at h
    cases (Prod.mk.inj h).1
  obtain ⟨id, r, hr, rfl⟩ := issued_iff.1 hi
  rw [run_resolve_row hc hr] at h
  obtain ⟨hans, rfl⟩ := Prod.mk.inj h
  obtain ⟨h1, h2, u, e, e', hu, rfl, husers, hrow⟩ := honoured_found hr hans
  exact ⟨r, u, hr, hc, hu, rfl, rfl, rfl, rfl, h1, h2, husers, fun id' hne => honoured_other hne, e',
    hrow⟩

/-! ### The bearer that a client forwards -/

theorem partitionAt_append {sep : CodePoint} {u v : Str} (h : sep ∉ u) :
    partitionAt sep (u ++ sep :: v) = (u, v) := by
  have hu : ∀ c ∈ u, (c != sep) = true := fun c hc => bne_iff_ne.2 fun he => h (he ▸ hc)
  rw [partitionAt, List.takeWhile_append_of_pos hu, List.dropWhile_append_of_pos hu,
    List.takeWhile_cons_of_neg (by simp), List.dropWhile_cons_of_neg (by simp), List.append_nil]
  rfl

/-- **A bearer that was stripped** is read back from the header it is sent in. -/
theorem parse_bearer_forwarded {bearer : Str} (hs : strip isSpace bearer = bearer)
    (hne : bearer ≠ []) : parse_bearer (some (lit "Bearer " ++ bearer)) = some bearer := by
  have hlit : lit "Bearer " ++ bearer = lit "Bearer" ++ space :: bearer := by
    rw [show lit "Bearer " = lit "Bearer" ++ [space] by decide, List.append_assoc]
    rfl
  rw [parse_bearer, hlit]
  have hscheme : (lit "Bearer").map asciiLower = lit "bearer" := by decide
  dsimp only
  rw [partitionAt_append (by decide), hs]
  exact if_neg (not_or.2 ⟨not_not.2 hscheme, hne⟩)

/-- **A live token**, of which a bearer is the secret. -/
structure LiveBearer (rt : Runtime) (d : Database) (now : Instant) (bearer id : Str) (r : TokenRec) :
    Prop where
  row : d.tokens[id]? = some r
  secret : (utf8 bearer).map rt.sha256 = some r.secret_sha256
  unrevoked : r.revoked_at = none
  current : expired r now = false

theorem carried_forwarded (rt : Runtime) {bearer : Str} (hs : strip isSpace bearer = bearer)
    (hne : bearer ≠ []) :
    carried rt (some (lit "Bearer " ++ bearer)) = (utf8 bearer).map rt.sha256 := by
  rw [carried, parse_bearer_forwarded hs hne, Option.bind_some]

/-- **A bearer of no live token** is nobody's. -/
theorem resolved_dead {bearer : Str} {bytes : Bytes} (hs : strip isSpace bearer = bearer)
    (hne : bearer ≠ []) (hu : utf8 bearer = some bytes)
    (hdead : ∀ id r, ¬ LiveBearer rt w.db ((w.oracle i).now (w.drawn i)) bearer id r) :
    ∃ w', run (exec i) (resolve_bearer cfg rt (some (lit "Bearer " ++ bearer))) w = (.ok none, w') := by
  have hc := carried_forwarded rt hs hne
  rw [hu, Option.map_some] at hc
  rcases hi : w.db.issued (rt.sha256 bytes) with _ | _
  · exact ⟨w, run_resolve_unknown hc hi⟩
  obtain ⟨id, r, hr, hd⟩ := issued_iff.1 hi
  rw [← hd] at hc
  rw [run_resolve_row hc hr]
  refine ⟨_, Prod.ext ((honoured_refused hr).2 ?_) rfl⟩
  by_contra hcon
  rw [not_or, not_not] at hcon
  refine hdead id r ⟨hr, ?_, hcon.1, Bool.eq_false_iff.2 hcon.2⟩
  rw [hu, hd]
  rfl

theorem honoured_live (cfg : Config) {id : Str} {r : TokenRec} {now : Instant} {d : Database}
    (hr : d.tokens[id]? = some r) (hrev : r.revoked_at = none) (hexp : expired r now = false) :
    ∃ u, d.users[r.user_id]? = some u ∧ honoured cfg id r now d = match r.type with
      | .agent => (.ok (some (actorOf id r u now none)), (touch_token id now none d).2)
      | .session => match now.add (days cfg.session_days) with
        | none => (.error .overflow, d)
        | some e => (.ok (some (actorOf id r u now (some e))), (touch_token id now (some e) d).2) := by
  obtain ⟨u, hu⟩ := Option.ne_none_iff_exists'.1 (d.owners id r hr)
  refine ⟨u, hu, ?_⟩
  rw [honoured, if_neg (not_not.2 hrev), hexp, if_neg Bool.false_ne_true, hu]

/-- **A bearer of a live token** is its owner's, unless the expiry of a session overflows. -/
theorem resolved_live {bearer id : Str} {r : TokenRec} (hs : strip isSpace bearer = bearer)
    (hne : bearer ≠ [])
    (h : LiveBearer rt w.db ((w.oracle i).now (w.drawn i)) bearer id r) :
    ∃ w', (∃ u expires_at, w.db.users[r.user_id]? = some u ∧
        run (exec i) (resolve_bearer cfg rt (some (lit "Bearer " ++ bearer))) w =
          (.ok (some (actorOf id r u ((w.oracle i).now (w.drawn i)) expires_at)), w')) ∨
      (r.type = .session ∧
        run (exec i) (resolve_bearer cfg rt (some (lit "Bearer " ++ bearer))) w =
          (.error .overflow, w')) := by
  have hc := (carried_forwarded rt hs hne).trans h.secret
  rw [run_resolve_row hc h.row]
  obtain ⟨u, hu, hhon⟩ := honoured_live cfg h.row h.unrevoked h.current
  rw [hhon]
  rcases ht : r.type with _ | _
  · dsimp only
    rcases ((w.oracle i).now (w.drawn i)).add (days cfg.session_days) with _ | e
    · exact ⟨_, Or.inr ⟨rfl, rfl⟩⟩
    · exact ⟨_, Or.inl ⟨u, some e, hu, rfl⟩⟩
  · exact ⟨_, Or.inl ⟨u, none, hu, rfl⟩⟩

/-! ### The bearer of an agent -/

/-- **An agent's token as it is issued**, of which a bearer is the secret: it does not expire. -/
structure AgentBearer (rt : Runtime) (d : Database) (bearer id : Str) (r : TokenRec) : Prop where
  row : d.tokens[id]? = some r
  secret : (utf8 bearer).map rt.sha256 = some r.secret_sha256
  type : r.type = .agent
  unrevoked : r.revoked_at = none
  unexpiring : r.expires_at = none

theorem AgentBearer.current {d : Database} {bearer id : Str} {r : TokenRec}
    (h : AgentBearer rt d bearer id r) (now : Instant) : expired r now = false := by
  rw [expired, h.unexpiring]
  rfl

/-- An agent's token stays what it is while the tokens do. -/
theorem AgentBearer.congr {d d' : Database} {bearer id : Str} {r : TokenRec}
    (h : AgentBearer rt d bearer id r) (ht : d'.tokens = d.tokens) : AgentBearer rt d' bearer id r :=
  ⟨by rw [ht]; exact h.row, h.secret, h.type, h.unrevoked, h.unexpiring⟩

/-- **The bearer of an agent is resolved**, each time. -/
theorem resolved_agent (cfg : Config) {bearer id : Str} {r : TokenRec}
    (hs : strip isSpace bearer = bearer) (hne : bearer ≠ []) (h : AgentBearer rt w.db bearer id r) :
    ∃ u w' r', run (exec i) (resolve_bearer cfg rt (some (lit "Bearer " ++ bearer))) w =
        (.ok (some (actorOf id r u ((w.oracle i).now (w.drawn i)) none)), w') ∧
      AgentBearer rt w'.db bearer id r' ∧ r'.scope = r.scope := by
  have hc := (carried_forwarded rt hs hne).trans h.secret
  obtain ⟨u, -, hhon⟩ := honoured_live cfg h.row h.unrevoked (h.current ((w.oracle i).now (w.drawn i)))
  rw [h.type] at hhon
  refine ⟨u, _, { r with last_used_at := some (.ofInstant ((w.oracle i).now (w.drawn i))) },
    (run_resolve_row hc h.row).trans (by rw [hhon]), ?_, rfl⟩
  exact ⟨touch_token_agent h.row, h.secret, h.type, h.unrevoked, h.unexpiring⟩

end PaperBoxing.Backend.Bearer
