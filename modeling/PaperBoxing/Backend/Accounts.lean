import PaperBoxing.Backend.Calls
import PaperBoxing.Common.Naming

/-! # Accounts

`backend/accounts.py`: accounts, sessions and agent tokens over the database, under one clock and
one hasher. A secret is stored as its digest only. The verification of a decoy hash at an unknown
username changes nothing and is left out. -/

namespace PaperBoxing.Backend.Accounts

open PaperBoxing.Lib.Program PaperBoxing.Lib.Text PaperBoxing.Lib.IsoTime PaperBoxing.Lib.Patterns
open PaperBoxing.Common.Scopes PaperBoxing.Common.Schema PaperBoxing.Common.Naming
open PaperBoxing.Backend.Db PaperBoxing.Backend.Calls

/-- Who acts on a request: the token presented and the user who owns it. -/
structure Actor : Type where
  token : TokenRow
  user : UserRow

/-- `parse_bearer`: the secret in an `Authorization` header. The letters of `bearer` have no other
upper case than the ASCII one. -/
def parse_bearer (header : Option Str) : Option Str :=
  match header with
  | none => none
  | some header =>
    let (scheme, value) := partitionAt space header
    let value := strip isSpace value
    if scheme.map asciiLower ≠ lit "bearer" ∨ value = [] then none else some value

/-- `public_user`. -/
def public_user (user : UserRow) : User := ⟨user.id, user.username, user.created_at⟩

/-- `public_token`. -/
def public_token (token : TokenRow) (username : Str) : Token :=
  ⟨token.id, token.name, token.type, token.scope, username, token.created_at, token.last_used_at,
    token.expires_at⟩

/-- `new_id`. -/
def new_id (kind : Str) : Code Str := token_hex 6 >>= fun hex => .ret (kind ++ lit "_" ++ hex)

/-- `new_secret`. -/
def new_secret : Code Str := token_urlsafe 32 >>= fun bytes => .ret (lit "pb_" ++ bytes)

section
variable (cfg : Config) (rt : Runtime) (hasher : Hasher)

/-- `secret_digest`; an encoding that fails raises. -/
def secret_digest (secret : Str) : Code Str :=
  match utf8 secret with
  | some bytes => .ret (rt.sha256 bytes)
  | none => .raise .other

/-- `now + timedelta(days=session_days)`. -/
def slide (now : Instant) : Code Instant :=
  match now.add (days cfg.session_days) with
  | some expires_at => .ret expires_at
  | none => .raise .overflow

/-! ### Users -/

/-- `create_user`; raises `Conflict` when the username is taken. -/
def create_user (username password : Str) : Code UserRow := do
  let id ← new_id (lit "usr")
  let salt ← salt
  let created_at ← now
  let user : UserRow := ⟨id, username, hasher.hash salt password, created_at⟩
  query (.insert_user user)
  .ret user

/-- `verify_password`: a hash under lower settings is made again. -/
def verify_password (user : UserRow) (password : Str) : Code Bool :=
  if !hasher.verify user.password_hash password then .ret false
  else if hasher.check_needs_rehash user.password_hash then do
    let salt ← salt
    query (.set_password_hash user.id (hasher.hash salt password))
    .ret true
  else .ret true

/-- `change_password`. -/
def change_password (user : UserRow) (new_password : Str) : Code Unit := do
  let salt ← salt
  query (.set_password_hash user.id (hasher.hash salt new_password))

/-- `delete_user`. -/
def delete_user (user_id : Str) : Code Bool := query (.delete_user user_id)

/-- `bootstrap`: the first account, from the admin variables, only when no account exists. -/
def bootstrap (username password : Option Str) : Code (Option UserRow) := do
  let count ← query .count_users
  if 0 < count then .ret none
  else
    match username, password with
    | some username, some password =>
      if validUser username password then
        create_user hasher username password >>= fun user => .ret (some user)
      else .raise .other
    | _, _ => .ret none

/-! ### Sessions -/

/-- `login`: the user, the new session and its secret. -/
def login (username password : Str) : Code (Option (UserRow × TokenRow × Str)) := do
  let user ← query (.user_by_username username)
  match user with
  | none => .ret none
  | some user => do
    let verified ← verify_password hasher user password
    if !verified then .ret none
    else do
      let now ← now
      let id ← new_id (lit "tok")
      let expires_at ← slide cfg now
      let session : TokenRow :=
        ⟨id, lit "session", .session, SESSION_SCOPE, user.id, now, none, some expires_at, none⟩
      let secret ← new_secret
      let digest ← secret_digest rt secret
      query (.insert_token session digest)
      .ret (some (user, session, secret))

/-- `logout`. -/
def logout (session : TokenRow) : Code Unit := do
  let now ← now
  query (.revoke_token session.id now)

/-- `revoke_other_sessions`. -/
def revoke_other_sessions (user : UserRow) (keep : TokenRow) : Code ℕ := do
  let now ← now
  query (.revoke_other_sessions user.id keep.id now)

/-- What `resolve_bearer` does with a token that was found. -/
def honour (token : TokenRow) (now : Instant) : Code (Option Actor) :=
  if token.revoked_at ≠ none then .ret none
  else if token.expires_at.any fun e => e.micros ≤ now.micros then
    -- expiry is final: the session is ended when it is first presented expired
    query (.revoke_token token.id now) >>= fun _ => .ret none
  else do
    let user ← query (.user_by_id token.user_id)
    match user with
    | none => .ret none
    | some user => do
      let expires_at ← (if token.type = .session then slide cfg now >>= fun e => .ret (some e)
        else .ret none)
      query (.touch_token token.id now expires_at)
      .ret (some ⟨{ token with last_used_at := some now, expires_at := expires_at }, user⟩)

/-- `resolve_bearer`: the actor behind an `Authorization` header. -/
def resolve_bearer (header : Option Str) : Code (Option Actor) :=
  match parse_bearer header with
  | none => .ret none
  | some secret => do
    let digest ← secret_digest rt secret
    let token ← query (.token_by_secret digest)
    match token with
    | none => .ret none
    | some token => do
      let now ← now
      honour cfg token now

/-- `purge_dead_sessions`. -/
def purge_dead_sessions : Code ℕ := do
  let now ← now
  query (.delete_dead_sessions now)

/-! ### Agent tokens -/

/-- `create_agent_token`. -/
def create_agent_token (owner : UserRow) (name : Str) (scope : Scope) : Code (TokenRow × Str) := do
  let id ← new_id (lit "tok")
  let created_at ← now
  let token : TokenRow := ⟨id, name, .agent, scope, owner.id, created_at, none, none, none⟩
  let secret ← new_secret
  let digest ← secret_digest rt secret
  query (.insert_token token digest)
  .ret (token, secret)

/-- `revoke_agent_token`: false for an unknown, a revoked or a session token. -/
def revoke_agent_token (token_id : Str) : Code Bool := do
  let token ← query (.token_by_id token_id)
  match token with
  | none => .ret false
  | some token =>
    if token.type ≠ .agent ∨ token.revoked_at ≠ none then .ret false
    else do
      let now ← now
      query (.revoke_token token_id now)
      .ret true

/-- `list_agent_tokens`. -/
def list_agent_tokens : Code (List Token) := do
  let rows ← query .list_agent_tokens
  .ret (rows.map fun r => public_token r.1 r.2)

/-- `token_self`. -/
def token_self (actor : Actor) : TokenSelf :=
  ⟨actor.token.id, actor.token.name, actor.token.type, actor.token.scope, actor.user.username,
    actor.token.expires_at⟩

end

end PaperBoxing.Backend.Accounts
