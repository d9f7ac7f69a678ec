import PaperBoxing.Common.Schema
import PaperBoxing.Lib.Action
import PaperBoxing.Lib.Tables

/-! # The database

`backend/db.py`: users, tokens, sites, and the file index. The constraints of the SQL schema are
fields of `Database`: usernames and secret digests are unique, and every token's owner exists; a
site's file index is part of the site's row, so that it goes with the site and no row is there
without one. Timestamps are stored as ISO texts, and compared as text. Every text and every number can
be stored: what SQLite refuses to, text that is not UTF-8 and numbers of more than 64 bits, is in
`Backend.Limits`.

* one action for each method of `Database`; `Query` names them, `exec` runs them;
* `user_by_username_of_row`, `token_by_secret_of_row`: what the searches find;
* `get_sites_set_files`, `files_set_files`: the file index of a site after a change. -/

namespace PaperBoxing.Backend.Db

open Std PaperBoxing.Lib.Action PaperBoxing.Lib.Text PaperBoxing.Lib.IsoTime PaperBoxing.Lib.Tables
open PaperBoxing.Common.Scopes PaperBoxing.Common.Schema

/-! ### Rows -/

structure UserRow : Type where
  id : Str
  username : Str
  password_hash : Str
  created_at : Instant
  deriving DecidableEq

structure TokenRow : Type where
  id : Str
  name : Str
  type : TokenType
  scope : Scope
  user_id : Str
  created_at : Instant
  last_used_at : Option Instant
  expires_at : Option Instant
  revoked_at : Option Instant
  deriving DecidableEq

structure SiteRow : Type where
  slug : Str
  name : Str
  created_at : Instant
  deriving DecidableEq

structure FileRow : Type where
  site : Str
  path : Str
  bytes : ℕ
  mtime_ns : ℕ
  sha256 : Str
  deriving DecidableEq

structure Totals : Type where
  file_count : ℕ
  bytes : ℕ
  newest_mtime_ns : Option ℕ
  deriving DecidableEq

/-! ### Tables -/

/-- A row of `users`, under its id. -/
structure UserRec : Type where
  username : Str
  password_hash : Str
  created_at : IsoText
  deriving DecidableEq

/-- A row of `tokens`, under its id. -/
structure TokenRec : Type where
  secret_sha256 : Str
  name : Str
  type : TokenType
  scope : Scope
  user_id : Str
  created_at : IsoText
  last_used_at : Option IsoText
  expires_at : Option IsoText
  revoked_at : Option IsoText
  deriving DecidableEq

/-- A row of `files`, under its path. -/
structure FileRec : Type where
  bytes : ℕ
  mtime_ns : ℕ
  sha256 : Str
  deriving DecidableEq

/-- The file index of a site. -/
abbrev Index : Type := Table Str FileRec

/-- A row of `sites`, under its slug, with the rows of `files` that refer to it. -/
structure SiteRec : Type where
  name : Str
  created_at : IsoText
  files : Index

/-- **The database**, with the constraints of its schema. -/
structure Database : Type where
  users : Table Str UserRec
  tokens : Table Str TokenRec
  sites : Table Str SiteRec
  /-- `UNIQUE (username)` -/
  usernames : ∀ (a b : Str) (u v : UserRec), users[a]? = some u → users[b]? = some v →
    u.username = v.username → a = b
  /-- `UNIQUE (secret_sha256)` -/
  secrets : ∀ (a b : Str) (r s : TokenRec), tokens[a]? = some r → tokens[b]? = some s →
    r.secret_sha256 = s.secret_sha256 → a = b
  /-- `REFERENCES users(id)` -/
  owners : ∀ (a : Str) (r : TokenRec), tokens[a]? = some r → users[r.user_id]? ≠ none

/-- The empty database. -/
def Database.empty : Database where
  users := ∅
  tokens := ∅
  sites := ∅
  usernames a b u v h := by rw [get_empty] at h; cases h
  secrets a b r s h := by rw [get_empty] at h; cases h
  owners a r h := by rw [get_empty] at h; cases h

/-- `_iso`. The program's own times are in UTC already. -/
def _iso (value : Option Aware) : Option IsoText := value.map fun a => .ofInstant a.astimezone

@[simp] theorem _iso_utc (value : Option Instant) : _iso (value.map .utc) = value.map .ofInstant := by
  cases value with
  | none => rfl
  | some i => exact congrArg (fun j => some (IsoText.ofInstant j)) (astimezone_utc i)

/-- `_dt`. -/
def _dt (value : Option IsoText) : Option Instant := value.map IsoText.instant

/-- `_user`. -/
def _user (id : Str) (r : UserRec) : UserRow :=
  ⟨id, r.username, r.password_hash, r.created_at.instant⟩

/-- `_token`. -/
def _token (id : Str) (r : TokenRec) : TokenRow :=
  ⟨id, r.name, r.type, r.scope, r.user_id, r.created_at.instant, _dt r.last_used_at,
    _dt r.expires_at, _dt r.revoked_at⟩

/-- `_site`. -/
def _site (slug : Str) (r : SiteRec) : SiteRow := ⟨slug, r.name, r.created_at.instant⟩

/-- `_file`. -/
def _file (site path : Str) (r : FileRec) : FileRow :=
  ⟨site, path, r.bytes, r.mtime_ns, r.sha256⟩

/-! ### Updates that keep the constraints -/

/-- `UPDATE tokens`: rows keep their digest and owner. -/
def Database.map_tokens (d : Database) (f : Str → TokenRec → TokenRec)
    (hf : ∀ id r, (f id r).secret_sha256 = r.secret_sha256 ∧ (f id r).user_id = r.user_id) :
    Database :=
  { d with
    tokens := d.tokens.map f
    secrets := by
      intro a b r s ha hb h
      rw [get_map, Option.map_eq_some_iff] at ha hb
      obtain ⟨r', ha, rfl⟩ := ha
      obtain ⟨s', hb, rfl⟩ := hb
      rw [(hf a r').1, (hf b s').1] at h
      exact d.secrets a b r' s' ha hb h
    owners := by
      intro a r ha
      rw [get_map, Option.map_eq_some_iff] at ha
      obtain ⟨r', ha, rfl⟩ := ha
      rw [(hf a r').2]
      exact d.owners a r' ha }

/-- `DELETE FROM tokens`. -/
def Database.filter_tokens (d : Database) (keep : Str → TokenRec → Bool) : Database :=
  { d with
    tokens := d.tokens.filter keep
    secrets := by
      intro a b r s ha hb h
      rw [get_filter, Option.filter_eq_some_iff] at ha hb
      exact d.secrets a b r s ha.1 hb.1 h
    owners := by
      intro a r ha
      rw [get_filter, Option.filter_eq_some_iff] at ha
      exact d.owners a r ha.1 }

/-- `UPDATE users`: rows keep their username. -/
def Database.map_users (d : Database) (f : Str → UserRec → UserRec)
    (hf : ∀ id r, (f id r).username = r.username) : Database :=
  { d with
    users := d.users.map f
    usernames := by
      intro a b u v ha hb h
      rw [get_map, Option.map_eq_some_iff] at ha hb
      obtain ⟨u', ha, rfl⟩ := ha
      obtain ⟨v', hb, rfl⟩ := hb
      rw [hf, hf] at h
      exact d.usernames a b u' v' ha hb h
    owners := by
      intro a r ha h
      rw [get_map, Option.map_eq_none_iff] at h
      exact d.owners a r ha h }

/-- `UPDATE sites`, the file index of one site included. -/
def Database.set_sites (d : Database) (sites : Table Str SiteRec) : Database :=
  { d with sites := sites }

/-! ### Users -/

/-- `count_users`. -/
def count_users : Act Exn Database ℕ := fun d => (.ok d.users.size, d)

/-- Whether a row has the username. -/
def Database.taken (d : Database) (username : Str) : Bool :=
  d.users.toList.any fun r => r.2.username == username

theorem taken_iff {d : Database} {username : Str} : d.taken username = true ↔
    ∃ (id : Str) (u : UserRec), d.users[id]? = some u ∧ u.username = username := by
  simp only [Database.taken, List.any_eq_true, beq_iff_eq, Prod.exists, mem_toList]

/-- What `insert_user` stores. -/
def userRec (user : UserRow) : UserRec :=
  ⟨user.username, user.password_hash, .ofInstant user.created_at⟩

/-- `insert_user`: `Conflict` when the id or the username is taken. -/
def insert_user (user : UserRow) : Act Exn Database Unit := fun d =>
  if h : d.users[user.id]? ≠ none ∨ d.taken user.username = true then (.error .conflict, d)
  else
    (.ok (), { d with
      users := d.users.insert user.id (userRec user)
      usernames := by
        rw [not_or] at h
        have hfresh : ∀ (id : Str) (u : UserRec), d.users[id]? = some u →
            u.username ≠ user.username := fun id u hu he => h.2 (taken_iff.2 ⟨id, u, hu, he⟩)
        intro a b u v ha hb huv
        rw [get_insert] at ha hb
        split_ifs at ha hb with h1 h2 h2
        · rw [h1, h2]
        · obtain rfl := Option.some.inj ha
          exact absurd huv.symm (hfresh b v hb)
        · obtain rfl := Option.some.inj hb
          exact absurd huv (hfresh a u ha)
        · exact d.usernames a b u v ha hb huv
      owners := by
        intro a r ha
        rw [get_insert]
        split_ifs
        · exact Option.some_ne_none _
        · exact d.owners a r ha })

/-- `user_by_id`. -/
def user_by_id (user_id : Str) : Act Exn Database (Option UserRow) := fun d =>
  (.ok (d.users[user_id]?.map (_user user_id)), d)

/-- `user_by_username`. -/
def user_by_username (username : Str) : Act Exn Database (Option UserRow) := fun d =>
  (.ok ((d.users.toList.find? fun r => r.2.username == username).map fun r => _user r.1 r.2), d)

/-- `list_users`, by username. -/
def list_users : Act Exn Database (List UserRow) := fun d =>
  (.ok ((d.users.toList.map fun r => _user r.1 r.2).insertionSort
    fun a b => (compare a.username b.username).isLE = true), d)

/-- `set_password_hash`. -/
def set_password_hash (user_id password_hash : Str) : Act Exn Database Unit := fun d =>
  (.ok (), d.map_users
    (fun id r => if id = user_id then { r with password_hash := password_hash } else r)
    (by intro id r; split_ifs <;> rfl))

/-- `delete_user`: the account, and through the foreign key every token it owned. -/
def delete_user (user_id : Str) : Act Exn Database Bool := fun d =>
  (.ok (d.users[user_id]?).isSome,
    { (d.filter_tokens fun _ r => r.user_id != user_id) with
      users := d.users.erase user_id
      usernames := by
        intro a b u v ha hb h
        rw [get_erase] at ha hb
        split_ifs at ha hb
        exact d.usernames a b u v ha hb h
      owners := by
        intro a r ha
        change (d.tokens.filter fun _ r => r.user_id != user_id)[a]? = some r at ha
        rw [get_filter, Option.filter_eq_some_iff] at ha
        rw [get_erase_of_ne (bne_iff_ne.1 ha.2)]
        exact d.owners a r ha.1 })

/-! ### Tokens -/

/-- Whether a row has the digest. -/
def Database.issued (d : Database) (secret_sha256 : Str) : Bool :=
  d.tokens.toList.any fun r => r.2.secret_sha256 == secret_sha256

theorem issued_iff {d : Database} {secret_sha256 : Str} : d.issued secret_sha256 = true ↔
    ∃ (id : Str) (r : TokenRec), d.tokens[id]? = some r ∧ r.secret_sha256 = secret_sha256 := by
  simp only [Database.issued, List.any_eq_true, beq_iff_eq, Prod.exists, mem_toList]

/-- What `insert_token` stores. -/
def tokenRec (token : TokenRow) (secret_sha256 : Str) : TokenRec :=
  ⟨secret_sha256, token.name, token.type, token.scope, token.user_id, .ofInstant token.created_at,
    _iso (token.last_used_at.map .utc), _iso (token.expires_at.map .utc),
    _iso (token.revoked_at.map .utc)⟩

/-- `insert_token`: an error of the database when the id or the digest is there, or the owner is
not. -/
def insert_token (token : TokenRow) (secret_sha256 : Str) : Act Exn Database Unit := fun d =>
  if h : d.tokens[token.id]? ≠ none ∨ d.issued secret_sha256 = true ∨
      d.users[token.user_id]? = none then (.error .database, d)
  else
    (.ok (), { d with
      tokens := d.tokens.insert token.id (tokenRec token secret_sha256)
      secrets := by
        rw [not_or, not_or] at h
        have hfresh : ∀ (id : Str) (r : TokenRec), d.tokens[id]? = some r →
            r.secret_sha256 ≠ secret_sha256 :=
          fun id r hr he => h.2.1 (issued_iff.2 ⟨id, r, hr, he⟩)
        intro a b r s ha hb hrs
        rw [get_insert] at ha hb
        split_ifs at ha hb with h1 h2 h2
        · rw [h1, h2]
        · obtain rfl := Option.some.inj ha
          exact absurd hrs.symm (hfresh b s hb)
        · obtain rfl := Option.some.inj hb
          exact absurd hrs (hfresh a r ha)
        · exact d.secrets a b r s ha hb hrs
      owners := by
        rw [not_or, not_or] at h
        intro a r ha
        rw [get_insert] at ha
        split_ifs at ha
        · obtain rfl := Option.some.inj ha
          exact h.2.2
        · exact d.owners a r ha })

/-- `token_by_secret`. -/
def token_by_secret (secret_sha256 : Str) : Act Exn Database (Option TokenRow) := fun d =>
  (.ok ((d.tokens.toList.find? fun r => r.2.secret_sha256 == secret_sha256).map
    fun r => _token r.1 r.2), d)

/-- `token_by_id`. -/
def token_by_id (token_id : Str) : Act Exn Database (Option TokenRow) := fun d =>
  (.ok (d.tokens[token_id]?.map (_token token_id)), d)

/-- `touch_token`: a use; a session's expiry slides, an agent token's stays null. -/
def touch_token (token_id : Str) (last_used_at : Instant) (expires_at : Option Instant) :
    Act Exn Database Unit := fun d =>
  (.ok (), d.map_tokens
    (fun id r =>
      if id = token_id then
        match expires_at with
        | none => { r with last_used_at := some (.ofInstant last_used_at) }
        | some e =>
          { r with last_used_at := some (.ofInstant last_used_at), expires_at := some (.ofInstant e) }
      else r)
    (by intro id r; split_ifs <;> cases expires_at <;> exact ⟨rfl, rfl⟩))

/-- `revoke_token`: the first revocation stays. -/
def revoke_token (token_id : Str) (at_ : Instant) : Act Exn Database Unit := fun d =>
  (.ok (), d.map_tokens
    (fun id r =>
      if id = token_id ∧ r.revoked_at = none then { r with revoked_at := some (.ofInstant at_) }
      else r)
    (by intro id r; split_ifs <;> exact ⟨rfl, rfl⟩))

/-- The rows `revoke_other_sessions` changes. -/
def isOther (user_id keep id : Str) (r : TokenRec) : Bool :=
  r.user_id == user_id && r.type == .session && id != keep && r.revoked_at.isNone

/-- `revoke_other_sessions`. -/
def revoke_other_sessions (user_id keep : Str) (at_ : Instant) : Act Exn Database ℕ := fun d =>
  (.ok (d.tokens.filter fun id r => isOther user_id keep id r).size, d.map_tokens
    (fun id r =>
      if isOther user_id keep id r then { r with revoked_at := some (.ofInstant at_) } else r)
    (by intro id r; split_ifs <;> exact ⟨rfl, rfl⟩))

/-- `ORDER BY tokens.created_at, tokens.id`: texts and ids compare as text. -/
def tokenLE (a b : Str × TokenRec × UserRec) : Bool :=
  ((compare a.2.1.created_at.text b.2.1.created_at.text).then (compare a.1 b.1)).isLE

/-- `list_agent_tokens`: every live agent token with its owner's username, oldest first. -/
def list_agent_tokens : Act Exn Database (List (TokenRow × Str)) := fun d =>
  let rows := d.tokens.toList.filterMap fun r =>
    if r.2.type = .agent ∧ r.2.revoked_at = none then
      d.users[r.2.user_id]?.map fun u => (r.1, r.2, u)
    else none
  (.ok ((rows.insertionSort fun a b => tokenLE a b = true).map fun r =>
    (_token r.1 r.2.1, r.2.2.username)), d)

/-- The rows `delete_dead_sessions` removes; a null `expires_at` compares false. -/
def isDead (now : Instant) (r : TokenRec) : Bool :=
  r.type == .session && (r.revoked_at.isSome ||
    match r.expires_at with
    | none => false
    | some e => (compare e.text (isoformat now)).isLE)

/-- `delete_dead_sessions`. -/
def delete_dead_sessions (now : Instant) : Act Exn Database ℕ := fun d =>
  (.ok (d.tokens.filter fun _ r => isDead now r).size, d.filter_tokens fun _ r => !isDead now r)

/-! ### Sites -/

/-- `insert_site`: `Conflict` when the slug is taken. -/
def insert_site (site : SiteRow) : Act Exn Database Unit := fun d =>
  match d.sites[site.slug]? with
  | some _ => (.error .conflict, d)
  | none =>
    (.ok (), d.set_sites (d.sites.insert site.slug ⟨site.name, .ofInstant site.created_at, ∅⟩))

/-- `site_by_slug`. -/
def site_by_slug (slug : Str) : Act Exn Database (Option SiteRow) := fun d =>
  (.ok (d.sites[slug]?.map (_site slug)), d)

/-- `list_sites`, by slug. -/
def list_sites : Act Exn Database (List SiteRow) := fun d =>
  (.ok (d.sites.toList.map fun r => _site r.1 r.2), d)

/-- `delete_site`: the row, and through the foreign key its file index. -/
def delete_site (slug : Str) : Act Exn Database Bool := fun d =>
  (.ok (d.sites[slug]?).isSome, d.set_sites (d.sites.erase slug))

/-! ### The file index -/

/-- The rows of `files` of a site. -/
def Database.files (d : Database) (site : Str) : Index := ((d.sites[site]?).map SiteRec.files).getD ∅

/-- Change the rows of `files` of a site. -/
def Database.set_files (d : Database) (site : Str) (f : Index → Index) : Database :=
  match d.sites[site]? with
  | none => d
  | some r => d.set_sites (d.sites.insert site { r with files := f r.files })

/-- `_below`: the test of the rows below a folder, which is the root when empty. -/
def _below (folder path : Str) : Bool :=
  if folder = [] then true
  else path.take (folder.length + 1) == folder ++ [slash]

/-- `upsert_file`: an error of the database when the site's row is not there. -/
def upsert_file (row : FileRow) : Act Exn Database Unit := fun d =>
  match d.sites[row.site]? with
  | none => (.error .database, d)
  | some _ =>
    (.ok (), d.set_files row.site fun t => t.insert row.path ⟨row.bytes, row.mtime_ns, row.sha256⟩)

/-- `delete_file_row`. -/
def delete_file_row (site path : Str) : Act Exn Database Unit := fun d =>
  (.ok (), d.set_files site fun t => t.erase path)

/-- `delete_files_under`. -/
def delete_files_under (site folder : Str) : Act Exn Database ℕ := fun d =>
  (.ok ((d.files site).filter fun path _ => _below folder path).size,
    d.set_files site fun t => t.filter fun path _ => !_below folder path)

/-- `files_in_folder`: `instr(substr(path, start), '/') = 0`, where `start` is one past the folder's
slash. -/
def files_in_folder (site folder : Str) : Act Exn Database (List FileRow) := fun d =>
  let start := if folder = [] then 1 else folder.length + 2
  (.ok (((d.files site).filter fun path _ =>
    _below folder path && !(path.drop (start - 1)).contains slash).toList.map
      fun r => _file site r.1 r.2), d)

/-- `folder_totals`. -/
def folder_totals (site folder : Str) : Act Exn Database Totals := fun d =>
  let rows := (d.files site).filter fun path _ => _below folder path
  (.ok ⟨rows.size, total (fun _ r => r.bytes) rows,
    (rows.toList.map fun r => r.2.mtime_ns).max?⟩, d)

/-! ### The queries -/

/-- **The methods of `Database`**, as calls. -/
inductive Query : Type where
  | count_users
  | insert_user (user : UserRow)
  | user_by_id (user_id : Str)
  | user_by_username (username : Str)
  | list_users
  | set_password_hash (user_id password_hash : Str)
  | delete_user (user_id : Str)
  | insert_token (token : TokenRow) (secret_sha256 : Str)
  | token_by_secret (secret_sha256 : Str)
  | token_by_id (token_id : Str)
  | touch_token (token_id : Str) (last_used_at : Instant) (expires_at : Option Instant)
  | revoke_token (token_id : Str) (at_ : Instant)
  | revoke_other_sessions (user_id keep : Str) (at_ : Instant)
  | list_agent_tokens
  | delete_dead_sessions (now : Instant)
  | insert_site (site : SiteRow)
  | site_by_slug (slug : Str)
  | list_sites
  | delete_site (slug : Str)
  | upsert_file (row : FileRow)
  | delete_file_row (site path : Str)
  | delete_files_under (site folder : Str)
  | files_in_folder (site folder : Str)
  | folder_totals (site folder : Str)
  deriving DecidableEq

/-- What each query answers. -/
@[reducible] def Query.Answer : Query → Type
  | .count_users | .revoke_other_sessions .. | .delete_dead_sessions _ | .delete_files_under .. => ℕ
  | .insert_user _ | .set_password_hash .. | .insert_token .. | .touch_token .. | .revoke_token ..
  | .insert_site _ | .upsert_file _ | .delete_file_row .. => Unit
  | .user_by_id _ | .user_by_username _ => Option UserRow
  | .list_users => List UserRow
  | .delete_user _ | .delete_site _ => Bool
  | .token_by_secret _ | .token_by_id _ => Option TokenRow
  | .list_agent_tokens => List (TokenRow × Str)
  | .site_by_slug _ => Option SiteRow
  | .list_sites => List SiteRow
  | .files_in_folder .. => List FileRow
  | .folder_totals .. => Totals

/-- What each query does. -/
def exec : (q : Query) → Act Exn Database q.Answer
  | .count_users => Db.count_users
  | .insert_user user => Db.insert_user user
  | .user_by_id user_id => Db.user_by_id user_id
  | .user_by_username username => Db.user_by_username username
  | .list_users => Db.list_users
  | .set_password_hash user_id password_hash => Db.set_password_hash user_id password_hash
  | .delete_user user_id => Db.delete_user user_id
  | .insert_token token secret_sha256 => Db.insert_token token secret_sha256
  | .token_by_secret secret_sha256 => Db.token_by_secret secret_sha256
  | .token_by_id token_id => Db.token_by_id token_id
  | .touch_token token_id last_used_at expires_at => Db.touch_token token_id last_used_at expires_at
  | .revoke_token token_id at_ => Db.revoke_token token_id at_
  | .revoke_other_sessions user_id keep at_ => Db.revoke_other_sessions user_id keep at_
  | .list_agent_tokens => Db.list_agent_tokens
  | .delete_dead_sessions now => Db.delete_dead_sessions now
  | .insert_site site => Db.insert_site site
  | .site_by_slug slug => Db.site_by_slug slug
  | .list_sites => Db.list_sites
  | .delete_site slug => Db.delete_site slug
  | .upsert_file row => Db.upsert_file row
  | .delete_file_row site path => Db.delete_file_row site path
  | .delete_files_under site folder => Db.delete_files_under site folder
  | .files_in_folder site folder => Db.files_in_folder site folder
  | .folder_totals site folder => Db.folder_totals site folder

/-! ### What the searches find -/

/-- **The username search finds the row with the username.** -/
theorem user_by_username_of_row {d : Database} {id : Str} {u : UserRec}
    (h : d.users[id]? = some u) :
    user_by_username u.username d = (.ok (some (_user id u)), d) := by
  have hf : d.users.toList.find? (fun r => r.2.username == u.username) = some (id, u) := by
    refine (find_eq_some (p := fun r => r.2.username == u.username) ?_).2 ⟨h, beq_self_eq_true _⟩
    intro k k' v v' hv hv' h1 h2
    exact d.usernames k k' v v' hv hv' ((beq_iff_eq.1 h1).trans (beq_iff_eq.1 h2).symm)
  rw [user_by_username, hf]
  rfl

theorem user_by_username_of_none {d : Database} {username : Str} (h : d.taken username = false) :
    user_by_username username d = (.ok none, d) := by
  have hf : d.users.toList.find? (fun r => r.2.username == username) = none :=
    find_eq_none.2 fun k v hv => by
      rw [← Bool.not_eq_true, beq_iff_eq]
      intro hu
      exact Bool.eq_false_iff.1 h (taken_iff.2 ⟨k, v, hv, hu⟩)
  rw [user_by_username, hf]
  rfl

/-- **The digest search finds the row with the digest.** -/
theorem token_by_secret_of_row {d : Database} {id : Str} {r : TokenRec}
    (h : d.tokens[id]? = some r) :
    token_by_secret r.secret_sha256 d = (.ok (some (_token id r)), d) := by
  have hf : d.tokens.toList.find? (fun s => s.2.secret_sha256 == r.secret_sha256) =
      some (id, r) := by
    refine (find_eq_some (p := fun s => s.2.secret_sha256 == r.secret_sha256) ?_).2
      ⟨h, beq_self_eq_true _⟩
    intro k k' v v' hv hv' h1 h2
    exact d.secrets k k' v v' hv hv' ((beq_iff_eq.1 h1).trans (beq_iff_eq.1 h2).symm)
  rw [token_by_secret, hf]
  rfl

theorem token_by_secret_of_none {d : Database} {secret_sha256 : Str}
    (h : d.issued secret_sha256 = false) :
    token_by_secret secret_sha256 d = (.ok none, d) := by
  have hf : d.tokens.toList.find? (fun s => s.2.secret_sha256 == secret_sha256) = none :=
    find_eq_none.2 fun k v hv => by
      rw [← Bool.not_eq_true, beq_iff_eq]
      intro hs
      exact Bool.eq_false_iff.1 h (issued_iff.2 ⟨k, v, hv, hs⟩)
  rw [token_by_secret, hf]
  rfl

/-! ### The file index after a change -/

theorem files_of_row {d : Database} {site : Str} {r : SiteRec} (h : d.sites[site]? = some r) :
    d.files site = r.files := by
  rw [Database.files, h]
  rfl

theorem set_files_of_row {d : Database} {site : Str} {r : SiteRec} (h : d.sites[site]? = some r)
    (f : Index → Index) :
    d.set_files site f = d.set_sites (d.sites.insert site { r with files := f r.files }) := by
  rw [Database.set_files, h]

theorem set_files_of_none {d : Database} {site : Str} (h : d.sites[site]? = none)
    (f : Index → Index) : d.set_files site f = d := by
  rw [Database.set_files, h]

/-- A change of one site's index keeps the rows of the other sites. -/
theorem get_sites_set_files {d : Database} {site slug : Str} (f : Index → Index) :
    (d.set_files site f).sites[slug]? = if slug = site then
      d.sites[slug]?.map (fun r => { r with files := f r.files }) else d.sites[slug]? := by
  rcases h : d.sites[site]? with _ | r
  · rw [set_files_of_none h]
    split_ifs with hs
    · rw [hs, h]
      rfl
    · rfl
  · rw [set_files_of_row h]
    change (d.sites.insert site _)[slug]? = _
    rw [get_insert]
    split_ifs with hs
    · rw [hs, h]
      rfl
    · rfl

/-- **What the index holds after it is changed**; a site without a row has none. -/
theorem files_set_files {d : Database} {site slug : Str} {f : Index → Index} (hf : f ∅ = ∅) :
    (d.set_files site f).files slug = if slug = site then f (d.files slug) else d.files slug := by
  rw [Database.files, get_sites_set_files]
  split_ifs with hs
  · rw [Database.files]
    rcases d.sites[slug]? with _ | r
    · exact hf.symm
    · rfl
  · rfl

@[simp] theorem users_set_files (d : Database) (site : Str) (f : Index → Index) :
    (d.set_files site f).users = d.users := by
  rw [Database.set_files]
  split <;> rfl

@[simp] theorem tokens_set_files (d : Database) (site : Str) (f : Index → Index) :
    (d.set_files site f).tokens = d.tokens := by
  rw [Database.set_files]
  split <;> rfl

end PaperBoxing.Backend.Db
