import PaperBoxing.Backend.Bearer
import PaperBoxing.Common.FakeBackend
import PaperBoxing.Lib.Percent

/-! # The same accounts, twice

The backend deletes the tokens of a deleted account, keeps the time of a revocation, and ends a session
that has run out when it is next presented. The fake only ever marks a token, and looks at the clock for
a session that has run out. `Agree` says of a time that the two keep the same accounts and honour the same
secrets.

* `Agree.update`, `Agree.issue`: the changes both go through, a new token among them;
* `Agree.find`: what a secret stands for, on both sides. -/

namespace PaperBoxing.Agreement.Credentials

open Std PaperBoxing.Lib PaperBoxing.Lib.Text PaperBoxing.Lib.IsoTime PaperBoxing.Lib.Tables
open PaperBoxing.Common PaperBoxing.Common.Scopes PaperBoxing.Common.Schema
open PaperBoxing.Common.FakeBackend (FakeState FakeUser FakeToken)
open PaperBoxing.Backend PaperBoxing.Backend.Db

/-! ### The relation -/

/-- The account under an id: the hash verifies the password and nothing else. -/
structure SameUser (hasher : Hasher) (id : Str) (u : UserRec) (f : FakeUser) : Prop where
  id : f.id = id
  username : f.username = u.username
  created_at : f.created_at = u.created_at.instant
  password : ∀ q, hasher.verify u.password_hash q = true ↔ f.password = q

/-- Whether the fake counts a token as ended. -/
def ended (now : Instant) (t : FakeToken) : Bool :=
  t.revoked || t.expires_at.any fun e => e.micros ≤ now.micros

/-- **The token under an id.** The backend may have ended a session that the fake only finds expired;
when a session was last used is shown to nobody. -/
structure SameToken (now : Instant) (id : Str) (r : TokenRec) (t : FakeToken) : Prop where
  id : t.id = id
  name : t.name = r.name
  type : t.type = r.type
  scope : t.scope = r.scope
  user_id : t.user_id = r.user_id
  created_at : t.created_at = r.created_at.instant
  expires_at : t.expires_at = _dt r.expires_at
  last_used_at : t.type = .agent → t.last_used_at = _dt r.last_used_at
  lasting : t.type = .agent → t.expires_at = none
  revoked : t.revoked = true → r.revoked_at ≠ none
  ended : r.revoked_at ≠ none → ended now t = true

/-- What the two have under an id: a token that the backend has no row of is revoked. -/
def SameSlot (now : Instant) (id : Str) : Option TokenRec → Option FakeToken → Prop
  | some r, some t => SameToken now id r t
  | none, some t => t.revoked = true
  | none, none => True
  | some _, none => False

/-- **The two keep the same accounts and honour the same secrets**, whose encodings are in `K`. -/
structure Agree (hasher : Hasher) (rt : Runtime) (K : Set Bytes) (now : Instant) (d : Database)
    (s : FakeState) : Prop where
  users : ∀ id : Str, Option.Rel (SameUser hasher id) d.users[id]? s.users[id]?
  tokens : ∀ id : Str, SameSlot now id d.tokens[id]? s.tokens[id]?
  /-- every row has its secret with the fake -/
  issued : ∀ (id : Str) (r : TokenRec), d.tokens[id]? = some r →
    ∃ secret : Str, s.secrets[secret]? = some id
  /-- every secret of the fake stands for a token, and its digest is the one of the row, if there is one -/
  secrets : ∀ secret id : Str, s.secrets[secret]? = some id → s.tokens[id]? ≠ none ∧
    ∃ bytes ∈ K, utf8 secret = some bytes ∧
      ∀ r : TokenRec, d.tokens[id]? = some r → r.secret_sha256 = rt.sha256 bytes

variable {hasher : Hasher} {rt : Runtime} {K : Set Bytes} {now now' : Instant} {d d' : Database}
  {s s' : FakeState} {id : Str} {r : TokenRec} {t : FakeToken}

/-! ### Looking up -/

theorem Agree.user_none (h : Agree hasher rt K now d s) (id : Str) :
    d.users[id]? = none ↔ s.users[id]? = none := by
  have hrel := h.users id
  generalize d.users[id]? = o at hrel ⊢
  generalize s.users[id]? = o' at hrel ⊢
  cases hrel <;> simp

theorem Agree.user (h : Agree hasher rt K now d s) {id : Str} {u : UserRec} (hu : d.users[id]? = some u) :
    ∃ f, s.users[id]? = some f ∧ SameUser hasher id u f := by
  have hrel := h.users id
  rw [hu] at hrel
  generalize s.users[id]? = o at hrel ⊢
  cases hrel with
  | some hsame => exact ⟨_, rfl, hsame⟩

theorem Agree.of_fake_user (h : Agree hasher rt K now d s) {id : Str} {f : FakeUser}
    (hf : s.users[id]? = some f) : ∃ u, d.users[id]? = some u ∧ SameUser hasher id u f := by
  have hrel := h.users id
  rw [hf] at hrel
  generalize d.users[id]? = o at hrel ⊢
  cases hrel with
  | some hsame => exact ⟨_, rfl, hsame⟩

theorem Agree.token (h : Agree hasher rt K now d s) (hr : d.tokens[id]? = some r) :
    ∃ t, s.tokens[id]? = some t ∧ SameToken now id r t := by
  have hslot := h.tokens id
  rw [hr] at hslot
  generalize s.tokens[id]? = o at hslot ⊢
  cases o with
  | none => exact hslot.elim
  | some t => exact ⟨t, rfl, hslot⟩

theorem Agree.of_fake_token (h : Agree hasher rt K now d s) (ht : s.tokens[id]? = some t) :
    (d.tokens[id]? = none ∧ t.revoked = true) ∨ ∃ r, d.tokens[id]? = some r ∧ SameToken now id r t := by
  have hslot := h.tokens id
  rw [ht] at hslot
  generalize d.tokens[id]? = o at hslot ⊢
  cases o with
  | none => exact Or.inl ⟨rfl, hslot⟩
  | some r => exact Or.inr ⟨r, rfl, hslot⟩

/-- A free id is free on both sides. -/
theorem Agree.token_free (h : Agree hasher rt K now d s) (ht : s.tokens[id]? = none) :
    d.tokens[id]? = none := by
  rcases hr : d.tokens[id]? with _ | r
  · rfl
  · obtain ⟨t, ht', -⟩ := h.token hr
    rw [ht] at ht'
    cases ht'

/-- The owner of a token's row is an account of the fake. -/
theorem Agree.owner (h : Agree hasher rt K now d s) (hr : d.tokens[id]? = some r) :
    ∃ u f, d.users[r.user_id]? = some u ∧ s.users[r.user_id]? = some f ∧ SameUser hasher r.user_id u f := by
  obtain ⟨u, hu⟩ := Option.ne_none_iff_exists'.1 (d.owners id r hr)
  obtain ⟨f, hf, hsame⟩ := h.user hu
  exact ⟨u, f, hu, hf, hsame⟩

theorem Agree.count (h : Agree hasher rt K now d s) : d.users.size = s.users.size := by
  rw [size_eq_total, size_eq_total]
  refine total_congr fun id => ?_
  have hrel := h.users id
  generalize d.users[id]? = o at hrel ⊢
  generalize s.users[id]? = o' at hrel ⊢
  cases hrel <;> rfl

/-- The texts with one encoding are one. -/
theorem utf8_injective {s t : Str} {bytes : Bytes} (hs : utf8 s = some bytes) (ht : utf8 t = some bytes) :
    s = t :=
  Option.some.inj ((Percent.decodeUtf8_utf8 hs).symm.trans (Percent.decodeUtf8_utf8 ht))

/-- **A digest that no row has**: the secret is unknown to the fake, or its token has no row. -/
theorem Agree.not_issued (h : Agree hasher rt K now d s) (hinj : Set.InjOn rt.sha256 K) {secret : Str}
    {bytes : Bytes} (hK : bytes ∈ K) (hb : utf8 secret = some bytes)
    (hno : ∀ id : Str, s.secrets[secret]? = some id → d.tokens[id]? = none) :
    d.issued (rt.sha256 bytes) = false := by
  by_contra hc
  obtain ⟨id, r, hr, hdigest⟩ := issued_iff.1 (Bool.not_eq_false _ ▸ hc)
  obtain ⟨secret', hsecret⟩ := h.issued id r hr
  obtain ⟨-, bytes', hK', hb', hrow⟩ := h.secrets secret' id hsecret
  obtain rfl : bytes' = bytes := hinj hK' hK ((hrow r hr).symm.trans hdigest)
  obtain rfl := utf8_injective hb' hb
  rw [hno id hsecret] at hr
  cases hr

/-- **What a secret stands for**: nothing, on both sides, or a token that the backend has no row of and
the fake counts as revoked, or the same token. -/
theorem Agree.find (h : Agree hasher rt K now d s) (hinj : Set.InjOn rt.sha256 K) {secret : Str}
    {bytes : Bytes} (hK : bytes ∈ K) (hb : utf8 secret = some bytes) :
    (s.secrets[secret]? = none ∧ d.issued (rt.sha256 bytes) = false) ∨
    ∃ id t, s.secrets[secret]? = some id ∧ s.tokens[id]? = some t ∧
      ((t.revoked = true ∧ d.issued (rt.sha256 bytes) = false) ∨
        ∃ r, d.tokens[id]? = some r ∧ r.secret_sha256 = rt.sha256 bytes ∧ SameToken now id r t) := by
  rcases hs : s.secrets[secret]? with _ | id
  · refine Or.inl ⟨rfl, h.not_issued hinj hK hb fun id hid => ?_⟩
    rw [hs] at hid
    cases hid
  obtain ⟨hne, bytes', -, hb', hrow⟩ := h.secrets secret id hs
  obtain rfl : bytes' = bytes := Option.some.inj (hb'.symm.trans hb)
  obtain ⟨t, ht⟩ := Option.ne_none_iff_exists'.1 hne
  refine Or.inr ⟨id, t, rfl, ht, ?_⟩
  rcases h.of_fake_token ht with ⟨hno, hrev⟩ | ⟨r, hr, hsame⟩
  · refine Or.inl ⟨hrev, h.not_issued hinj hK hb fun id' hid => ?_⟩
    rw [hs] at hid
    rwa [← Option.some.inj hid]
  · exact Or.inr ⟨r, hr, hrow r hr, hsame⟩

/-- **Who has a username**: nobody, on both sides, or the same account. -/
theorem Agree.by_name (h : Agree hasher rt K now d s) (username : Str) :
    (d.taken username = false ∧ FakeBackend.user_by_name s username = none) ∨
    ∃ id u f, d.users[id]? = some u ∧ s.users[id]? = some f ∧ SameUser hasher id u f ∧
      u.username = username ∧ FakeBackend.user_by_name s username = some f := by
  have hname : ∀ id f, s.users[id]? = some f → ∃ u, d.users[id]? = some u ∧ SameUser hasher id u f :=
    fun id f hf => h.of_fake_user hf
  rcases ht : d.taken username with _ | _
  · refine Or.inl ⟨rfl, ?_⟩
    rw [FakeBackend.user_by_name, Option.map_eq_none_iff, find_eq_none]
    intro id f hf
    obtain ⟨u, hu, hsame⟩ := hname id f hf
    rw [← Bool.not_eq_true, beq_iff_eq, hsame.username]
    exact fun hc => Bool.eq_false_iff.1 ht (taken_iff.2 ⟨id, u, hu, hc⟩)
  · obtain ⟨id, u, hu, rfl⟩ := taken_iff.1 ht
    obtain ⟨f, hf, hsame⟩ := h.user hu
    refine Or.inr ⟨id, u, f, hu, hf, hsame, rfl, ?_⟩
    have hfind : s.users.toList.find? (fun r => r.2.username == u.username) = some (id, f) := by
      refine (find_eq_some (p := fun r => r.2.username == u.username) ?_).2
        ⟨hf, beq_iff_eq.2 hsame.username⟩
      intro k k' v v' hv hv' h1 h2
      obtain ⟨x, hx, hx'⟩ := hname k v hv
      obtain ⟨y, hy, hy'⟩ := hname k' v' hv'
      refine d.usernames k k' x y hx hy ?_
      rw [← hx'.username, ← hy'.username]
      exact (beq_iff_eq.1 h1).trans (beq_iff_eq.1 h2).symm
    rw [FakeBackend.user_by_name, hfind]
    rfl

/-! ### Changes on both sides -/

/-- **Rows that change alike**, under the secrets that were there. -/
theorem Agree.update (h : Agree hasher rt K now d s)
    (hu : ∀ id : Str, Option.Rel (SameUser hasher id) d'.users[id]? s'.users[id]?)
    (ht : ∀ id : Str, SameSlot now' id d'.tokens[id]? s'.tokens[id]?)
    (hd : ∀ (id : Str) (r' : TokenRec), d'.tokens[id]? = some r' →
      ∃ r, d.tokens[id]? = some r ∧ r'.secret_sha256 = r.secret_sha256)
    (hk : ∀ id : Str, s.tokens[id]? ≠ none → s'.tokens[id]? ≠ none) (hs : s'.secrets = s.secrets) :
    Agree hasher rt K now' d' s' := by
  refine ⟨hu, ht, fun id r' hr' => ?_, fun secret id hid => ?_⟩
  · obtain ⟨r, hr, -⟩ := hd id r' hr'
    rw [hs]
    exact h.issued id r hr
  · rw [hs] at hid
    obtain ⟨hne, bytes, hK, hb, hrow⟩ := h.secrets secret id hid
    refine ⟨hk id hne, bytes, hK, hb, fun r' hr' => ?_⟩
    obtain ⟨r, hr, hsec⟩ := hd id r' hr'
    rw [hsec, hrow r hr]

theorem ended_later {t : FakeToken} (hle : now.micros ≤ now'.micros) (h : ended now t = true) :
    ended now' t = true := by
  rw [ended, Bool.or_eq_true] at h ⊢
  refine h.imp_right fun he => ?_
  rcases hx : t.expires_at with _ | e
  · rw [hx] at he
    cases he
  · rw [hx, Option.any_some, decide_eq_true_eq] at he
    rw [Option.any_some, decide_eq_true_eq]
    exact he.trans hle

theorem SameToken.later (h : SameToken now id r t) (hle : now.micros ≤ now'.micros) :
    SameToken now' id r t :=
  ⟨h.id, h.name, h.type, h.scope, h.user_id, h.created_at, h.expires_at, h.last_used_at, h.lasting, h.revoked,
    fun hr => ended_later hle (h.ended hr)⟩

/-- **The clock moves on.** -/
theorem Agree.later (h : Agree hasher rt K now d s) (hle : now.micros ≤ now'.micros) :
    Agree hasher rt K now' d s := by
  refine h.update h.users (fun id => ?_) (fun id r hr => ⟨r, hr, rfl⟩) (fun _ hne => hne) rfl
  have hslot := h.tokens id
  generalize d.tokens[id]? = o at hslot ⊢
  generalize s.tokens[id]? = o' at hslot ⊢
  rcases o with _ | r <;> rcases o' with _ | t
  · trivial
  · exact hslot
  · exact hslot
  · exact SameToken.later hslot hle

/-- **One token changes.** -/
theorem Agree.change (h : Agree hasher rt K now d s) (hr : d.tokens[id]? = some r) (d' : Database)
    (r' : TokenRec) {t' : FakeToken} (hu : d'.users = d.users)
    (hd : ∀ id' : Str, d'.tokens[id']? = if id' = id then some r' else d.tokens[id']?)
    (hsec : r'.secret_sha256 = r.secret_sha256) (hsame : SameToken now id r' t') :
    Agree hasher rt K now d' { s with tokens := s.tokens.insert id t' } := by
  refine h.update (by rw [hu]; exact h.users) (fun id' => ?_) (fun id' x hx => ?_) (fun id' hne => ?_) rfl
  · rw [hd, get_insert]
    split_ifs with hid
    · rw [hid]
      exact hsame
    · exact h.tokens id'
  · rw [hd] at hx
    split_ifs at hx with hid
    · rw [hid, ← Option.some.inj hx]
      exact ⟨r, hr, hsec⟩
    · exact ⟨x, hx, rfl⟩
  · rw [get_insert]
    split_ifs
    · exact Option.some_ne_none _
    · exact hne

/-- **A token is revoked**; the backend keeps the time of the first revocation. -/
theorem Agree.revoke (h : Agree hasher rt K now d s) (hr : d.tokens[id]? = some r)
    (ht : s.tokens[id]? = some t) (at_ : Instant) : Agree hasher rt K now (Db.revoke_token id at_ d).2
      { s with tokens := s.tokens.insert id { t with revoked := true } } := by
  obtain ⟨t', ht', hsame⟩ := h.token hr
  obtain rfl : t = t' := Option.some.inj (ht.symm.trans ht')
  have hother : ∀ id' : Str, id' ≠ id → (Db.revoke_token id at_ d).2.tokens[id']? = d.tokens[id']? := by
    intro id' hid
    rw [Db.revoke_token, Bearer.get_map_tokens]
    rcases d.tokens[id']? with _ | x
    · rfl
    · rw [Option.map_some, if_neg fun hc => hid hc.1]
  rcases hrev : r.revoked_at with _ | x
  · refine h.change hr _ { r with revoked_at := some (.ofInstant at_) } rfl (fun id' => ?_) rfl
      ⟨hsame.id, hsame.name, hsame.type, hsame.scope, hsame.user_id, hsame.created_at, hsame.expires_at,
        hsame.last_used_at, hsame.lasting, fun _ => Option.some_ne_none _, fun _ => rfl⟩
    split_ifs with hid
    · rw [hid, Bearer.revoke_token_self hr hrev]
    · exact hother id' hid
  · refine h.change hr _ r rfl (fun id' => ?_) rfl
      ⟨hsame.id, hsame.name, hsame.type, hsame.scope, hsame.user_id, hsame.created_at, hsame.expires_at,
        hsame.last_used_at, hsame.lasting, fun _ => by rw [hrev]; exact Option.some_ne_none _, fun _ => rfl⟩
    split_ifs with hid
    · rw [hid, Db.revoke_token, Bearer.get_map_tokens, hr, Option.map_some,
        if_neg (by rw [hrev]; rintro ⟨-, ⟨⟩⟩)]
    · exact hother id' hid

/-- **A new token**, with a new id and a new secret, is stored on both sides. -/
theorem Agree.issue (h : Agree hasher rt K now d s) (hinj : Set.InjOn rt.sha256 K) (token : TokenRow)
    (t : FakeToken) {secret : Str} {bytes : Bytes} (hid : s.tokens[token.id]? = none)
    (hsec : s.secrets[secret]? = none) (hK : bytes ∈ K) (hb : utf8 secret = some bytes)
    (howner : d.users[token.user_id]? ≠ none)
    (hsame : SameToken now token.id (tokenRec token (rt.sha256 bytes)) t) :
    (insert_token token (rt.sha256 bytes) d).1 = .ok () ∧
    Agree hasher rt K now (insert_token token (rt.sha256 bytes) d).2 { s with
      tokens := s.tokens.insert token.id t
      secrets := s.secrets.insert secret token.id } := by
  have hfree := h.token_free hid
  have hnew := h.not_issued hinj hK hb fun id hid' => by rw [hsec] at hid'; cases hid'
  have hok : ¬ (d.tokens[token.id]? ≠ none ∨ d.issued (rt.sha256 bytes) = true ∨
      d.users[token.user_id]? = none) := by
    rw [hfree, hnew]
    simpa using howner
  rw [insert_token, dif_neg hok]
  refine ⟨rfl, h.users, fun id => ?_, fun id r hr => ?_, fun secret' id hs => ?_⟩
  · change SameSlot now id (d.tokens.insert token.id _)[id]? (s.tokens.insert token.id t)[id]?
    rw [get_insert, get_insert]
    split_ifs with hx
    · rw [hx]
      exact hsame
    · exact h.tokens id
  · change (d.tokens.insert token.id _)[id]? = some r at hr
    change ∃ x, (s.secrets.insert secret token.id)[x]? = some id
    rw [get_insert] at hr
    split_ifs at hr with hx
    · exact ⟨secret, by rw [get_insert_self, hx]⟩
    · obtain ⟨secret', hs⟩ := h.issued id r hr
      refine ⟨secret', ?_⟩
      rw [get_insert_of_ne, hs]
      rintro rfl
      rw [hsec] at hs
      cases hs
  · change (s.secrets.insert secret token.id)[secret']? = some id at hs
    change (s.tokens.insert token.id t)[id]? ≠ none ∧ ∃ bytes' ∈ K, utf8 secret' = some bytes' ∧
      ∀ r, (d.tokens.insert token.id _)[id]? = some r → r.secret_sha256 = rt.sha256 bytes'
    rw [get_insert] at hs
    split_ifs at hs with hx
    · obtain rfl := Option.some.inj hs
      refine ⟨by rw [get_insert_self]; exact Option.some_ne_none _, bytes, hK, hx ▸ hb, fun r hr => ?_⟩
      rw [get_insert_self] at hr
      rw [← Option.some.inj hr]
      rfl
    · obtain ⟨hne, bytes', hK', hb', hrow⟩ := h.secrets secret' id hs
      have hother : id ≠ token.id := fun hc => hne (hc ▸ hid)
      rw [get_insert_of_ne hother]
      exact ⟨hne, bytes', hK', hb', fun r hr => hrow r (by rwa [get_insert_of_ne hother] at hr)⟩

/-- A row of an account changes. -/
theorem Agree.user_change (h : Agree hasher rt K now d s) {u' : UserRec} {f' : FakeUser}
    (hsame : SameUser hasher id u' f') (ht : d'.tokens = d.tokens)
    (hd : ∀ id' : Str, d'.users[id']? = if id' = id then some u' else d.users[id']?) :
    Agree hasher rt K now d' { s with users := s.users.insert id f' } := by
  refine h.update (fun id' => ?_) (by rw [ht]; exact h.tokens) (fun id' r hr => ⟨r, ht ▸ hr, rfl⟩)
    (fun _ hne => hne) rfl
  rw [hd, get_insert]
  split_ifs with hid
  · rw [hid]
    exact .some hsame
  · exact h.users id'

/-- **A new password.** -/
theorem Agree.set_password (h : Agree hasher rt K now d s) {u : UserRec} {f : FakeUser}
    (hu : d.users[id]? = some u) (hsame : SameUser hasher id u f) {hash password : Str}
    (hp : ∀ q, hasher.verify hash q = true ↔ password = q) :
    Agree hasher rt K now (set_password_hash id hash d).2
      { s with users := s.users.insert id { f with password := password } } := by
  have hrow : SameUser hasher id { u with password_hash := hash } { f with password := password } :=
    ⟨hsame.id, hsame.username, hsame.created_at, hp⟩
  refine h.user_change hrow rfl fun id' => ?_
  change (d.users.map _)[id']? = _
  rw [get_map]
  split_ifs with hid
  · rw [hid, hu]
    rfl
  · exact Option.map_id' ..

/-- The hash of a password is made again. -/
theorem Agree.rehash (h : Agree hasher rt K now d s) {u : UserRec} {f : FakeUser}
    (hu : d.users[id]? = some u) (hf : s.users[id]? = some f) (hsame : SameUser hasher id u f) {hash : Str}
    (hp : ∀ q, hasher.verify hash q = true ↔ f.password = q) :
    Agree hasher rt K now (set_password_hash id hash d).2 s := by
  have := h.set_password hu hsame hp
  rwa [show { f with password := f.password } = f from rfl, insert_of_some hf] at this

/-- **A new account.** -/
theorem Agree.add_user (h : Agree hasher rt K now d s) {user : UserRow} {f : FakeUser}
    (hid : s.users[user.id]? = none) (hname : d.taken user.username = false)
    (hsame : SameUser hasher user.id (userRec user) f) :
    (insert_user user d).1 = .ok () ∧ Agree hasher rt K now (insert_user user d).2
      { s with users := s.users.insert user.id f } := by
  have hok : ¬ (d.users[user.id]? ≠ none ∨ d.taken user.username = true) := by
    rw [(h.user_none user.id).2 hid, hname]
    simp
  rw [insert_user, dif_neg hok]
  exact ⟨rfl, h.user_change hsame rfl fun id' => get_insert ..⟩

/-- **An account goes**: the backend deletes its tokens, the fake marks them. -/
theorem Agree.delete_user (h : Agree hasher rt K now d s) (user_id : Str) :
    Agree hasher rt K now (Db.delete_user user_id d).2 { s with
      users := s.users.erase user_id
      tokens := s.tokens.map fun _ t => if t.user_id = user_id then { t with revoked := true } else t } := by
  refine h.update (fun id => ?_) (fun id => ?_) (fun id r hr => ⟨r, (Bearer.delete_user_row.1 hr).1, rfl⟩)
    (fun id hne => ?_) rfl
  · change Option.Rel _ (d.users.erase user_id)[id]? (s.users.erase user_id)[id]?
    rw [get_erase, get_erase]
    split_ifs
    · exact .none
    · exact h.users id
  · change SameSlot now id (d.tokens.filter fun _ r => r.user_id != user_id)[id]? (s.tokens.map _)[id]?
    rw [get_filter, get_map]
    have hslot := h.tokens id
    generalize d.tokens[id]? = o at hslot ⊢
    generalize s.tokens[id]? = o' at hslot ⊢
    rcases o with _ | r <;> rcases o' with _ | t
    · trivial
    · rw [Option.filter_none, Option.map_some]
      change (if _ then _ else t : FakeToken).revoked = true
      split_ifs
      · rfl
      · exact hslot
    · exact hslot.elim
    · rw [Option.map_some, Option.filter_some, SameToken.user_id hslot]
      by_cases hid : r.user_id = user_id
      · rw [if_neg (by simp [hid]), if_pos hid]
        rfl
      · rw [if_pos (by simp [hid]), if_neg hid]
        exact hslot
  · change (s.tokens.map _)[id]? ≠ none
    rw [get_map]
    simpa using hne

/-- **The other sessions of an account end.** -/
theorem Agree.revoke_others (h : Agree hasher rt K now d s) (user_id keep : Str) (at_ : Instant) :
    Agree hasher rt K now (Db.revoke_other_sessions user_id keep at_ d).2 { s with
      tokens := s.tokens.map fun _ t =>
        if t.user_id = user_id ∧ t.type = .session ∧ t.id ≠ keep then { t with revoked := true }
          else t } := by
  refine h.update h.users (fun id => ?_) (fun id r' hr' => ?_) (fun id hne => ?_) rfl
  · change SameSlot now id (d.tokens.map _)[id]? (s.tokens.map _)[id]?
    rw [get_map, get_map]
    have hslot := h.tokens id
    generalize d.tokens[id]? = o at hslot ⊢
    generalize s.tokens[id]? = o' at hslot ⊢
    rcases o with _ | r <;> rcases o' with _ | t
    · trivial
    · change (if _ then _ else t : FakeToken).revoked = true
      split_ifs
      · rfl
      · exact hslot
    · exact hslot.elim
    · rw [Option.map_some, Option.map_some]
      have hsame : SameToken now id r t := hslot
      by_cases hc : t.user_id = user_id ∧ t.type = .session ∧ t.id ≠ keep
      · rw [if_pos hc]
        have hcond : r.user_id = user_id ∧ r.type = .session ∧ id ≠ keep := by
          rwa [hsame.user_id, hsame.type, hsame.id] at hc
        have hother : isOther user_id keep id r = r.revoked_at.isNone := by
          simp [isOther, hcond]
        have hmade : SameToken now id { r with revoked_at := some (.ofInstant at_) }
          { t with revoked := true } :=
          ⟨hsame.id, hsame.name, hsame.type, hsame.scope, hsame.user_id, hsame.created_at, hsame.expires_at,
            hsame.last_used_at, hsame.lasting, fun _ => Option.some_ne_none _, fun _ => rfl⟩
        rw [hother]
        rcases hrev : r.revoked_at with _ | x
        · exact hmade
        · exact ⟨hsame.id, hsame.name, hsame.type, hsame.scope, hsame.user_id,
            hsame.created_at, hsame.expires_at,
            hsame.last_used_at, hsame.lasting, fun _ =>
              by rw [if_neg (by simp), hrev]; exact Option.some_ne_none _,
            fun _ => rfl⟩
      · rw [if_neg hc]
        have hother : isOther user_id keep id r = false := by
          rw [← Bool.not_eq_true]
          intro ho
          simp only [isOther, Bool.and_eq_true, beq_iff_eq, bne_iff_ne] at ho
          refine hc ⟨?_, ?_, ?_⟩
          · rw [hsame.user_id, ho.1.1.1]
          · rw [hsame.type, ho.1.1.2]
          · rw [hsame.id]
            exact ho.1.2
        rw [hother, if_neg Bool.false_ne_true]
        exact hsame
  · change (d.tokens.map _)[id]? = some r' at hr'
    rw [get_map, Option.map_eq_some_iff] at hr'
    obtain ⟨r, hr, rfl⟩ := hr'
    refine ⟨r, hr, ?_⟩
    split_ifs <;> rfl
  · change (s.tokens.map _)[id]? ≠ none
    rw [get_map]
    simpa using hne

end PaperBoxing.Agreement.Credentials
