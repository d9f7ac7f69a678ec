import Mathlib

/-! # Token types and permission tiers

`common/scopes.py`, and the access rules of `common/routes.py`: which routes there are, who may call
each, and what a token allows.

* `access_allows`: the decision of a call;
* `access_session`: only a session passes a session rule;
* `access_tier`: a rule that names a scope is passed by tokens of at least its tier. -/

namespace PaperBoxing.Common.Scopes

/-- The permission tiers, as the scope of an access token. -/
inductive Scope : Type where
  | read_only
  | read_write
  | remove_destructive
  deriving DecidableEq

/-- `session`: issued at sign-in; `agent`: created by a user. -/
inductive TokenType : Type where
  | session
  | agent
  deriving DecidableEq

def SCOPE_TIER : Scope → ℕ
  | .read_only => 0
  | .read_write => 1
  | .remove_destructive => 2

/-- A session acts with the full rights of its user. -/
def SESSION_SCOPE : Scope := .remove_destructive

/-- Whether a holder of `held` may do what requires `required`. -/
def scope_allows (held required : Scope) : Bool := SCOPE_TIER required ≤ SCOPE_TIER held

/-- Who may call a route. -/
inductive Access : Type where
  | public_
  | any_token
  | read_only
  | read_write
  | remove_destructive
  | session
  deriving DecidableEq

/-- `Access.value`. -/
def Access.value : Access → String
  | .public_ => "public"
  | .any_token => "any_token"
  | .read_only => "read_only"
  | .read_write => "read_write"
  | .remove_destructive => "remove_destructive"
  | .session => "session"

/-- `Scope.value`. -/
def Scope.value : Scope → String
  | .read_only => "read_only"
  | .read_write => "read_write"
  | .remove_destructive => "remove_destructive"

/-- `Scope(access.value)`, for the rules that name a scope. -/
def Access.scope : Access → Option Scope
  | .read_only => some .read_only
  | .read_write => some .read_write
  | .remove_destructive => some .remove_destructive
  | .public_ | .any_token | .session => none

/-- **The decision of a call**: `token` is none when no valid token was presented. -/
def access_allows (access : Access) (token : Option (TokenType × Scope)) : Bool :=
  match access, token with
  | .public_, _ => true
  | _, none => false
  | .any_token, some _ => true
  | .session, some (type, _) => type == .session
  | .read_only, some (_, scope) => scope_allows scope .read_only
  | .read_write, some (_, scope) => scope_allows scope .read_write
  | .remove_destructive, some (_, scope) => scope_allows scope .remove_destructive

/-- The routes of the API, in the table's order. -/
inductive RouteName : Type where
  | login
  | logout
  | list_sites
  | create_site
  | get_site
  | delete_site
  | list_files
  | upload_file
  | download_file
  | delete_file
  | delete_folder
  | list_tokens
  | create_token
  | token_self
  | revoke_token
  | list_users
  | create_user
  | change_password
  | delete_user
  deriving DecidableEq

/-- The access rule of each route, as the route table has it. -/
def route_access : RouteName → Access
  | .login => .public_
  | .logout => .session
  | .list_sites => .read_only
  | .create_site => .read_write
  | .get_site => .read_only
  | .delete_site => .remove_destructive
  | .list_files => .read_only
  | .upload_file => .read_write
  | .download_file => .read_only
  | .delete_file => .remove_destructive
  | .delete_folder => .remove_destructive
  | .list_tokens => .session
  | .create_token => .session
  | .token_self => .any_token
  | .revoke_token => .session
  | .list_users => .session
  | .create_user => .session
  | .change_password => .session
  | .delete_user => .session

/-- **An agent token never passes a session rule**, whatever its scope. -/
theorem access_session (scope : Scope) : access_allows .session (some (.agent, scope)) = false := rfl

/-- **A rule that names a scope is passed by tokens of at least its tier.** -/
theorem access_tier {access : Access} {required : Scope} (h : access.scope = some required)
    (type : TokenType) (held : Scope) :
    access_allows access (some (type, held)) = true ↔ SCOPE_TIER required ≤ SCOPE_TIER held := by
  cases access <;> cases h <;> simp [access_allows, scope_allows]

end PaperBoxing.Common.Scopes
