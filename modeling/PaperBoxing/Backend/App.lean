import PaperBoxing.Backend.Bearer

/-! # The service

The lifespan of `backend/app.py`, and what one request, or one start of the process, does to the
world when it runs alone.

* `answer_world`: what a request leaves behind;
* `admitted_cases`: whom the dependency of a route lets in, and what it leaves. -/

namespace PaperBoxing.Backend.App

open PaperBoxing.Lib PaperBoxing.Lib.Action PaperBoxing.Lib.Program PaperBoxing.Lib.Text
open PaperBoxing.Lib.Trees PaperBoxing.Common.Scopes PaperBoxing.Common.Schema
open PaperBoxing.Backend PaperBoxing.Backend.Db PaperBoxing.Backend.Calls
open PaperBoxing.Backend.Accounts PaperBoxing.Backend.Storage PaperBoxing.Backend.Routes
open PaperBoxing.Backend.Bearer (AgentBearer resolved_agent actorOf)
open PaperBoxing.Backend.Frames (SameSites run_sameSites uses_requires)

section
variable (cfg : Config) (rt : Runtime) (hasher : Hasher)

/-- `ensure_data_layout`. -/
def ensure_data_layout : Code Unit := do
  mkdirParents true cfg.sites_dir.reverse
  mkdirParents true cfg.staging_dir.reverse

/-- The start of the `lifespan`, up to serving. -/
def lifespan (admin_username admin_password : Option Str) : Code Unit := do
  ensure_data_layout cfg
  let _ ← clean_staging cfg
  let _ ← bootstrap hasher admin_username admin_password
  let _ ← purge_dead_sessions
  .ret ()

/-- **A request as it comes**: the thread that serves it, its `Authorization` header, and what it
asks. -/
structure Asked : Type where
  tid : ℕ
  header : Option Str
  request : Request

/-- The answer to a request, and the world it leaves. -/
def Asked.answer (a : Asked) (w : World) : Except Exn Response × World :=
  run (exec a.tid) (handle cfg rt hasher a.header a.request) w

/-- Whom the dependency of the route lets in, and the world it leaves. -/
def Asked.admitted (a : Asked) (w : World) : Except Exn Actor × World :=
  run (exec a.tid) (requires cfg rt a.request.route a.header) w

/-- Whether a request asks the public route. -/
def Asked.isLogin (a : Asked) : Bool :=
  match a.request with
  | .login _ => true
  | _ => false

/-- What `resolve_bearer` makes of the header of a request. -/
def Asked.resolved (a : Asked) (w : World) : Except Exn (Option Actor) × World :=
  run (exec a.tid) (resolve_bearer cfg rt a.header) w

/-- What the clock shows to a request that presents a secret. -/
def Asked.time (a : Asked) (w : World) : IsoTime.Instant := (w.oracle a.tid).now (w.drawn a.tid)

end

variable {cfg : Config} {rt : Runtime} {hasher : Hasher} {w : World}

/-- Every exception is answered by an error. -/
theorem errorResponse_code (e : Exn) : (errorResponse e).code ≠ none := by
  rcases e with _ | e | _ | _ | _ | _ | _ | _ <;> try exact Option.some_ne_none _
  rcases e with _ | _ | _ | _ | _ | _ | _ | _ | _ <;> exact Option.some_ne_none _

/-- **An answer that is no error** is the route's own. -/
theorem answer_ok {a : Asked} {r : Response} {w' : World}
    (h : a.answer cfg rt hasher w = (.ok r, w')) (hr : r.code = none) :
    run (exec a.tid) (Routes.route cfg rt hasher a.header a.request) w = (.ok r, w') := by
  rw [Asked.answer, handle, answering] at h
  rcases hroute : run (exec a.tid) (Routes.route cfg rt hasher a.header a.request) w with ⟨e | r', w1⟩
  · rw [run_except_of_error _ hroute] at h
    split_ifs at h
    · cases (Prod.mk.inj h).1
    · obtain rfl := Except.ok.inj (Prod.mk.inj h).1
      exact absurd hr (errorResponse_code e)
  · rw [run_except_of_ok _ hroute] at h
    exact hroute.trans h

/-- The error handlers leave the world as the route left it. -/
theorem answer_world (a : Asked) : (a.answer cfg rt hasher w).2 =
    (run (exec a.tid) (Routes.route cfg rt hasher a.header a.request) w).2 := by
  rcases h : run (exec a.tid) (Routes.route cfg rt hasher a.header a.request) w with ⟨e | r, w'⟩
  · rw [h, Asked.answer, handle, answering, run_except_of_error _ h]
    split_ifs <;> rfl
  · rw [h, Asked.answer, handle, answering, run_except_of_ok _ h]

theorem answer_login {a : Asked} {body : LoginRequest} (h : a.request = .login body) :
    (a.answer cfg rt hasher w).2 =
      (run (exec a.tid) (Routes.login cfg rt hasher body) w).2 := by
  rw [answer_world, h]
  rfl

theorem route_of_not_login {header : Option Str} {request : Request}
    (h : ∀ body, request ≠ .login body) :
    Routes.route cfg rt hasher header request = requires cfg rt request.route header >>= fun actor =>
      serve cfg rt hasher actor request := by
  cases request <;> first | rfl | exact absurd rfl (h _)

theorem isLogin_false {a : Asked} (h : a.isLogin = false) (body : LoginRequest) :
    a.request ≠ .login body := by
  intro hc
  rw [Asked.isLogin, hc] at h
  cases h

theorem isLogin_true {a : Asked} (h : a.isLogin = true) : ∃ body, a.request = .login body := by
  rcases a with ⟨_, _, _ | _⟩ <;> first | exact ⟨_, rfl⟩ | cases h

/-- **What a request leaves**: what its dependency left, when that refuses, and otherwise what the
route makes of it for the caller let in. -/
theorem answer_cases (cfg : Config) (rt : Runtime) (hasher : Hasher) {a : Asked} (w : World)
    (h : a.isLogin = false) :
    (∃ e, a.admitted cfg rt w = (.error e, (a.answer cfg rt hasher w).2)) ∨
    (∃ actor w', a.admitted cfg rt w = (.ok actor, w') ∧ (a.answer cfg rt hasher w).2 =
      (run (exec a.tid) (serve cfg rt hasher actor a.request) w').2) := by
  rw [answer_world, route_of_not_login (isLogin_false h)]
  rcases hr : a.admitted cfg rt w with ⟨e | actor, w'⟩
  · rw [run_bind_of_error _ hr]
    exact Or.inl ⟨e, rfl⟩
  · rw [run_bind_of_ok _ hr]
    exact Or.inr ⟨actor, w', rfl, rfl⟩

/-- **The dependency leaves what `resolve_bearer` leaves**, and lets in the actor it found, if it lets
anybody in. -/
theorem admitted_cases (a : Asked) : (a.admitted cfg rt w).2 = (a.resolved cfg rt w).2 ∧
    ∀ actor, (a.admitted cfg rt w).1 = .ok actor →
      (a.resolved cfg rt w).1 = .ok (some actor) ∧
        access_allows (route_access a.request.route) (some (actor.token.type, actor.token.scope)) =
          true := by
  rcases h : a.resolved cfg rt w with ⟨e | _ | actor, w'⟩
  · rw [Asked.admitted, requires, run_bind_of_error _ h]
    exact ⟨rfl, fun _ h => by cases h⟩
  · rw [Asked.admitted, requires, run_bind_of_ok _ h]
    exact ⟨rfl, fun _ h => by cases h⟩
  · rw [Asked.admitted, requires, run_bind_of_ok _ h]
    dsimp only
    split_ifs with h1 h2
    · refine ⟨rfl, fun _ h => ?_⟩
      obtain rfl := Except.ok.inj h
      exact ⟨rfl, h1⟩
    · exact ⟨rfl, fun _ h => by cases h⟩
    · exact ⟨rfl, fun _ h => by cases h⟩

/-! ### A caller whose bearer is known -/

section
variable {i : ℕ} {w' : World} {name : RouteName} {header : Option Str} {actor : Actor}
  {on : (c : Calls.Call) → Act Exn World (Calls.Resp c)}

theorem run_requires_nobody (h : run (exec i) (resolve_bearer cfg rt header) w = (.ok none, w')) :
    run (exec i) (requires cfg rt name header) w =
      (.error (.api ⟨401, .unauthorized, lit "a valid bearer token is required"⟩), w') := by
  rw [requires, run_bind_of_ok _ h]
  rfl

theorem run_requires_error {e : Exn}
    (h : run (exec i) (resolve_bearer cfg rt header) w = (.error e, w')) :
    run (exec i) (requires cfg rt name header) w = (.error e, w') := by
  rw [requires, run_bind_of_error _ h]

theorem run_requires_actor
    (h : run (exec i) (resolve_bearer cfg rt header) w = (.ok (some actor), w'))
    (hacc : access_allows (route_access name) (some (actor.token.type, actor.token.scope)) = true) :
    run (exec i) (requires cfg rt name header) w = (.ok actor, w') := by
  rw [requires, run_bind_of_ok _ h]
  dsimp only
  rw [if_pos hacc]
  rfl

/-- **An agent whose scope suffices is let in**, and stays one. -/
theorem run_requires_agent (cfg : Config) {bearer id : Str} {r : TokenRec}
    (hs : strip isSpace bearer = bearer) (hne : bearer ≠ []) (h : AgentBearer rt w.db bearer id r)
    (hacc : access_allows (route_access name) (some (.agent, r.scope)) = true) : ∃ actor w' r',
    run (exec i) (requires cfg rt name (some (lit "Bearer " ++ bearer))) w = (.ok actor, w') ∧
      SameSites w w' ∧ AgentBearer rt w'.db bearer id r' ∧ r'.scope = r.scope := by
  obtain ⟨u, w', r', hrun, h', hscope⟩ := resolved_agent (i := i) cfg hs hne h
  have hlet : access_allows (route_access name)
      (some ((actorOf id r u ((w.oracle i).now (w.drawn i)) none).token.type, r.scope)) = true := by
    rw [show (actorOf id r u ((w.oracle i).now (w.drawn i)) none).token.type = r.type from rfl, h.type]
    exact hacc
  have hrun' := run_requires_actor hrun hlet
  have hsame := run_sameSites (i := i)
    (uses_requires cfg rt name (some (lit "Bearer " ++ bearer))) w
  rw [hrun'] at hsame
  exact ⟨_, w', r', hrun', hsame, h', hscope⟩

/-- **The answer to a caller that is let in** is the route's, whatever the calls do. -/
theorem run_handle_actor {request : Request} (hr : ∀ body, request ≠ .login body)
    (h : run on (requires cfg rt request.route header) w = (.ok actor, w')) :
    run on (handle cfg rt hasher header request) w =
      run on (answering (serve cfg rt hasher actor request)) w' := by
  rw [handle, route_of_not_login hr, answering, answering, run_except, run_except,
    run_bind_of_ok _ h]

/-- **The answer to an agent whose scope suffices** is the route's, where its dependency is refused
nothing. -/
theorem run_handle_agent (cfg : Config) (hasher : Hasher) (request : Request) {bearer id : Str}
    {r : TokenRec}
    (hon : ∀ header, run on (requires cfg rt request.route header) w =
      run (exec i) (requires cfg rt request.route header) w)
    (hr : ∀ body, request ≠ .login body) (hs : strip isSpace bearer = bearer) (hne : bearer ≠ [])
    (h : AgentBearer rt w.db bearer id r)
    (hacc : access_allows (route_access request.route) (some (.agent, r.scope)) = true) :
    ∃ actor w' r', SameSites w w' ∧ AgentBearer rt w'.db bearer id r' ∧ r'.scope = r.scope ∧
      run on (handle cfg rt hasher (some (lit "Bearer " ++ bearer)) request) w =
        run on (answering (serve cfg rt hasher actor request)) w' := by
  obtain ⟨actor, w', r', hrun, hsame, h', hscope⟩ := run_requires_agent (i := i) cfg hs hne h hacc
  exact ⟨actor, w', r', hsame, h', hscope, run_handle_actor hr ((hon _).trans hrun)⟩

/-- **An agent that was answered by no error** was let in, and its route returned the answer. -/
theorem handle_agent_inv {request : Request} {bearer id : Str} {r : TokenRec} {response : Response}
    (hr : ∀ body, request ≠ .login body) (hs : strip isSpace bearer = bearer) (hne : bearer ≠ [])
    (h : AgentBearer rt w.db bearer id r) (hcode : response.code = none)
    (hrun : run (exec i) (handle cfg rt hasher (some (lit "Bearer " ++ bearer)) request) w =
      (.ok response, w')) :
    ∃ actor w1 r', AgentBearer rt w1.db bearer id r' ∧
      run (exec i) (serve cfg rt hasher actor request) w1 = (.ok response, w') := by
  have hroute := answer_ok (a := ⟨i, some (lit "Bearer " ++ bearer), request⟩) hrun hcode
  rw [route_of_not_login hr] at hroute
  obtain ⟨actor, w1, hreq, hserve⟩ := run_bind_inv _ hroute
  have hleft : (run (exec i) (requires cfg rt request.route (some (lit "Bearer " ++ bearer))) w).2 =
    (run (exec i) (resolve_bearer cfg rt (some (lit "Bearer " ++ bearer))) w).2 :=
      (admitted_cases ⟨i, some (lit "Bearer " ++ bearer), request⟩).1
  obtain ⟨u, w2, r', hresolved, h', -⟩ := resolved_agent (i := i) cfg hs hne h
  rw [hreq, hresolved] at hleft
  obtain rfl : w1 = w2 := hleft
  exact ⟨actor, w1, r', h', hserve⟩

theorem run_answering_ok {p : Code Response} {response : Response}
    (h : run on p w = (.ok response, w')) :
    run on (answering p) w = (.ok response, w') := run_except_of_ok _ h

theorem run_answering_error {p : Code Response} {e : Exn} (he : e ≠ .cancelled)
    (h : run on p w = (.error e, w')) :
    run on (answering p) w = (.ok (errorResponse e), w') := by
  refine (run_except_of_error _ h).trans ?_
  rw [if_neg he]
  rfl

/-- The answer to a caller that is refused. -/
theorem run_handle_refused {request : Request} (hr : ∀ body, request ≠ .login body) {e : Exn}
    (he : e ≠ .cancelled)
    (h : run (exec i) (requires cfg rt request.route header) w = (.error e, w')) :
    run (exec i) (handle cfg rt hasher header request) w = (.ok (errorResponse e), w') := by
  rw [handle, route_of_not_login hr, answering]
  refine (run_except_of_error _ (run_bind_of_error _ h)).trans ?_
  rw [if_neg he]
  rfl

end

end PaperBoxing.Backend.App
