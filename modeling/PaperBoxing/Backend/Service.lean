import PaperBoxing.Backend.App
import PaperBoxing.Lib.Atomic

/-! # The service over its whole life

Requests are coroutines on one event loop: the dependency of a route and the handler of an account
route run without interruption, and the handler of a site route may be interrupted at any of its
calls. A `Life` is any number of epochs, in each of which the process starts, or serves any requests
in any interleaving; an epoch may end at any moment.

* `flatten_visit`, `flatten_start`: the programs with turns in them are the code;
* `Later`: what one step, and so a whole life, does to the tokens: rows age, and a new row has the
  digest of a secret drawn meanwhile;
* `Life.events`, `Life.ordered`: every event of a life is a step of the event loop, and what every step
  keeps orders the worlds. -/

namespace PaperBoxing.Backend.Service

open PaperBoxing.Lib PaperBoxing.Lib.Action PaperBoxing.Lib.Program PaperBoxing.Lib.Text
open PaperBoxing.Lib.Threads PaperBoxing.Lib.Atomic PaperBoxing.Lib.Tables
open PaperBoxing.Common.Scopes PaperBoxing.Common.Schema
open PaperBoxing.Backend PaperBoxing.Backend.Db PaperBoxing.Backend.Calls
open PaperBoxing.Backend.Accounts PaperBoxing.Backend.Storage PaperBoxing.Backend.Routes
open PaperBoxing.Backend.Frames PaperBoxing.Backend.Bearer PaperBoxing.Backend.App

/-- **The sections** of the code in which no other request gets a turn. -/
inductive Block : Type where
  /-- the dependency of a route -/
  | authorise (name : RouteName) (header : Option Str)
  | login (body : LoginRequest)
  /-- the handler of an account route -/
  | serve (actor : Actor) (request : Request)
  | bootstrap (username password : Option Str)
  | purge

/-- What each section answers. -/
@[reducible] def Block.Answer : Block → Type
  | .authorise .. => Actor
  | .login _ | .serve .. => Response
  | .bootstrap .. => Option UserRow
  | .purge => ℕ

section
variable (cfg : Config) (rt : Runtime) (hasher : Hasher)

/-- The code of each section. -/
def Block.code : (b : Block) → Code b.Answer
  | .authorise name header => requires cfg rt name header
  | .login body => Routes.login cfg rt hasher body
  | .serve actor request => Routes.serve cfg rt hasher actor request
  | .bootstrap username password => Accounts.bootstrap hasher username password
  | .purge => purge_dead_sessions

@[reducible] def sections : Sections sig Exn := ⟨Block, Block.Answer, Block.code cfg rt hasher⟩

/-- The code of the service, with its turns. -/
abbrev Task (A : Type) : Type := Prog (sections cfg rt hasher).sig Exn A

/-- A section. -/
def whole (b : Block) : Task cfg rt hasher b.Answer := @block _ _ (sections cfg rt hasher) b

/-- Code with a turn at each of its calls. -/
def turns {A : Type} (p : Code A) : Task cfg rt hasher A := @lift _ _ _ (sections cfg rt hasher) p

theorem flatten_whole (b : Block) :
    flatten (whole cfg rt hasher b) = b.code cfg rt hasher :=
  @flatten_block _ _ (sections cfg rt hasher) b

theorem flatten_turns {A : Type} (p : Code A) : flatten (turns cfg rt hasher p) = p := flatten_lift p

/-- What the route of a request does. -/
def visitRoute (header : Option Str) (request : Request) : Task cfg rt hasher Response :=
  match request with
  | .login body => whole cfg rt hasher (.login body)
  | request => whole cfg rt hasher (.authorise request.route header) >>= fun actor =>
    if aboutSites request then turns cfg rt hasher (Routes.serve cfg rt hasher actor request)
    else whole cfg rt hasher (.serve actor request)

/-- **A request**, with its turns. -/
def visit (header : Option Str) (request : Request) : Task cfg rt hasher Response :=
  (visitRoute cfg rt hasher header request).except fun e =>
    if e = .cancelled then .raise e else .ret (errorResponse e)

/-- **The start of the process**, with its turns. -/
def start (admin_username admin_password : Option Str) : Task cfg rt hasher Unit :=
  turns cfg rt hasher (ensure_data_layout cfg) >>= fun _ =>
    turns cfg rt hasher (clean_staging cfg) >>= fun _ =>
      whole cfg rt hasher (.bootstrap admin_username admin_password) >>= fun _ =>
        whole cfg rt hasher .purge >>= fun _ => .ret ()

theorem flatten_visitRoute (header : Option Str) (request : Request) :
    flatten (visitRoute cfg rt hasher header request) = route cfg rt hasher header request := by
  have h : ∀ request, (∀ body, request ≠ .login body) →
      flatten (whole cfg rt hasher (.authorise request.route header) >>= fun actor =>
        if aboutSites request then turns cfg rt hasher (Routes.serve cfg rt hasher actor request)
        else whole cfg rt hasher (.serve actor request)) = route cfg rt hasher header request := by
    intro request hr
    rw [flatten_bind, flatten_whole, route_of_not_login hr]
    refine congrArg _ (funext fun actor => ?_)
    split_ifs
    · exact flatten_turns ..
    · exact flatten_whole ..
  cases request with
  | login body => exact flatten_whole ..
  | _ => exact h _ (by rintro _ ⟨⟩)

/-- **The flat program of a request is the code.** -/
theorem flatten_visit (header : Option Str) (request : Request) :
    flatten (visit cfg rt hasher header request) = handle cfg rt hasher header request := by
  rw [visit, flatten_except, flatten_visitRoute]
  refine congrArg _ (funext fun e => ?_)
  split_ifs <;> rfl

/-- **The flat program of the start is the code.** -/
theorem flatten_start (admin_username admin_password : Option Str) :
    flatten (start cfg rt hasher admin_username admin_password) =
      lifespan cfg hasher admin_username admin_password := by
  rw [start, flatten_bind, flatten_turns, lifespan]
  refine congrArg _ (funext fun _ => ?_)
  rw [flatten_bind, flatten_turns]
  refine congrArg _ (funext fun _ => ?_)
  rw [flatten_bind, flatten_whole]
  refine congrArg _ (funext fun _ => ?_)
  rw [flatten_bind, flatten_whole]
  rfl

/-- **The event loop.** -/
def loop : Machine (sections cfg rt hasher).sig Exn World where
  exec i := (sections cfg rt hasher).exec (exec i)
  ready i c w := match c with
    | .inl _ => true
    | .inr c => ready i c w
  fails _ _ _ _ _ := False

/-- What happened, in order. -/
abbrev Trace : Type := List (Event (sections cfg rt hasher).sig Exn World)

/-- The locks are in memory: a process starts without any. -/
def rebooted (w : World) : World := { w with locks := fun _ => none }

/-- **A life of the service**: the events so far, and the world they led to. -/
inductive Life (w0 : World) : Trace cfg rt hasher → World → Prop where
  | begin : Life w0 [] w0
  /-- any requests, served in any interleaving -/
  | serving {tr tr' : Trace cfg rt hasher} {w : World}
      {g : Threads.Config (sections cfg rt hasher).sig Exn Response World}
      (life : Life w0 tr w) (asked : ℕ → Option Str × Request)
      (run : Run (loop cfg rt hasher)
        ⟨w, fun i => visit cfg rt hasher (asked i).1 (asked i).2⟩ tr' g) :
      Life w0 (tr ++ tr') g.world
  /-- the process starts, with any admin variables -/
  | restart {tr tr' : Trace cfg rt hasher} {w : World}
      {g : Threads.Config (sections cfg rt hasher).sig Exn Unit World}
      (life : Life w0 tr w) (admin_username admin_password : Option Str)
      (run : Run (loop cfg rt hasher) ⟨rebooted w, fun i =>
        if i = 0 then start cfg rt hasher admin_username admin_password else .ret ()⟩ tr' g) :
      Life w0 (tr ++ tr') g.world

end

variable {cfg : Config} {rt : Runtime} {hasher : Hasher} {w w' w'' : World} {i : ℕ}

/-! ### What becomes of the tokens -/

/-- The digest of the secret that a draw of a thread gives. -/
def drawnDigest (rt : Runtime) (w : World) (i k : ℕ) : Option Str :=
  (utf8 (lit "pb_" ++ (w.oracle i).token_urlsafe 32 k)).map rt.sha256

/-- **A later world**: every row was there before, and has aged, or has the digest of a secret that was
drawn meanwhile. -/
structure Later (rt : Runtime) (w w' : World) : Prop where
  oracle : w'.oracle = w.oracle
  drawn : ∀ i, w.drawn i ≤ w'.drawn i
  rows : ∀ (id : Str) (r' : TokenRec), w'.db.tokens[id]? = some r' →
    (∃ r, w.db.tokens[id]? = some r ∧ Aged r r') ∨
    ∃ i k, w.drawn i ≤ k ∧ k < w'.drawn i ∧ drawnDigest rt w i k = some r'.secret_sha256

theorem Later.refl (w : World) : Later rt w w where
  oracle := rfl
  drawn _ := le_rfl
  rows _ r' h := Or.inl ⟨r', h, Aged.refl r'⟩

theorem Later.trans (h : Later rt w w') (h' : Later rt w' w'') : Later rt w w'' where
  oracle := h'.oracle.trans h.oracle
  drawn i := (h.drawn i).trans (h'.drawn i)
  rows id r'' hr := by
    rcases h'.rows id r'' hr with ⟨r', hr', ha'⟩ | ⟨i, k, h1, h2, hd⟩
    · rcases h.rows id r' hr' with ⟨r, hr, ha⟩ | ⟨i, k, h1, h2, hd⟩
      · exact Or.inl ⟨r, hr, ha.trans ha'⟩
      · exact Or.inr ⟨i, k, h1, h2.trans_le (h'.drawn i), by rw [hd, ha'.secret]⟩
    · exact Or.inr ⟨i, k, (h.drawn i).trans h1, h2, by rwa [drawnDigest, ← h.oracle]⟩

/-- Whether a call inserts a token. -/
def inserts : Calls.Call → Bool
  | .db (.insert_token ..) => true
  | _ => false

/-- One more draw. -/
theorem later_draw {A : Type} (rt : Runtime) (i : ℕ) (f : Oracle → ℕ → A) (w : World) :
    Later rt w (draw i f w).2 where
  oracle := rfl
  drawn j := by
    change _ ≤ Function.update w.drawn i (w.drawn i + 1) j
    rw [Function.update_apply]
    split_ifs with h
    · rw [h]
      omega
    · rfl
  rows _ r' h := Or.inl ⟨r', h, Aged.refl r'⟩

theorem later_call {c : Calls.Call} (hc : inserts c = false) (w : World) :
    Later rt w (exec i c w).2 := by
  cases c with
  | db q =>
    refine ⟨rfl, fun _ => le_rfl, fun id r' hr => ?_⟩
    rcases exec_token_row hr with ⟨r, h, ha, -⟩ | ⟨-, -, hi⟩
    · exact Or.inl ⟨r, h, ha⟩
    · cases q <;> first | exact hi.elim | exact absurd hc.symm Bool.false_ne_true
  | disk c =>
    refine ⟨rfl, fun j => ?_, fun _ r' h => Or.inl ⟨r', h, Aged.refl r'⟩⟩
    change _ ≤ (if isTimed c then Function.update w.drawn i (w.drawn i + 1) else w.drawn) j
    split_ifs
    · exact (later_draw rt i Oracle.now w).drawn j
    · rfl
  | now => exact later_draw rt i _ w
  | token_hex n => exact later_draw rt i _ w
  | token_urlsafe n => exact later_draw rt i _ w
  | salt => exact later_draw rt i _ w
  | receive chunk => exact Later.refl w
  | acquire slug => exact ⟨rfl, fun _ => le_rfl, fun _ r' h => Or.inl ⟨r', h, Aged.refl r'⟩⟩
  | release slug => exact ⟨rfl, fun _ => le_rfl, fun _ r' h => Or.inl ⟨r', h, Aged.refl r'⟩⟩

/-- Code after which the world is later. -/
def Keeps {A : Type} (rt : Runtime) (i : ℕ) (p : Code A) : Prop :=
  ∀ w, Later rt w (run (exec i) p w).2

theorem Keeps.of_uses {A : Type} {p : Code A} (h : Uses (fun c => inserts c = false) p) :
    Keeps rt i p := fun w =>
  run_preserves (I := Later rt w) (fun _ hc w' hw' => hw'.trans (later_call hc w')) h (.refl w)

theorem Keeps.bind {A B : Type} {p : Code A} {f : A → Code B} (hp : Keeps rt i p)
    (hf : ∀ a, Keeps rt i (f a)) : Keeps rt i (p >>= f) := by
  intro w
  have h := hp w
  rcases hr : run (exec i) p w with ⟨e | a, w'⟩
  · rw [run_bind_of_error _ hr]
    rwa [hr] at h
  · rw [run_bind_of_ok _ hr]
    rw [hr] at h
    exact h.trans (hf a w')

theorem inserts_of_settled {c : Calls.Call} (h : only settled c) : inserts c = false := by
  cases c with
  | db q => cases q <;> first | rfl | exact absurd h Bool.false_ne_true
  | _ => rfl

theorem Keeps.of_settled {A : Type} {p : Code A} (h : Uses (only settled) p) : Keeps rt i p :=
  .of_uses (h.mono fun _ => inserts_of_settled)

/-- **Issuing**: the row that is inserted has the digest of the secret just drawn. -/
theorem Keeps.issue {A : Type} (token : TokenRow) (x : Str → A) :
    Keeps rt i (new_secret >>= fun secret => secret_digest rt secret >>= fun digest =>
      query (.insert_token token digest) >>= fun _ => .ret (x secret)) := by
  intro w
  have hnew : run (exec i) new_secret w =
      (.ok (lit "pb_" ++ (w.oracle i).token_urlsafe 32 (w.drawn i)), (draw i Oracle.salt w).2) := rfl
  rw [run_bind_of_ok _ hnew]
  have hdraw := later_draw rt i Oracle.salt w
  rcases hu : utf8 (lit "pb_" ++ (w.oracle i).token_urlsafe 32 (w.drawn i)) with _ | bytes
  · rw [secret_digest, hu]
    exact hdraw
  rw [secret_digest, hu]
  set w1 := (draw i Oracle.salt w).2 with hw1
  have hinsert : (run (exec i) (query (.insert_token token (rt.sha256 bytes)) >>= fun _ =>
      .ret (x (lit "pb_" ++ (w.oracle i).token_urlsafe 32 (w.drawn i)))) w1).2 =
      { w1 with db := (Db.exec (.insert_token token (rt.sha256 bytes)) w1.db).2 } := by
    rcases h : run (exec i) (query (.insert_token token (rt.sha256 bytes))) w1 with ⟨e | u, w2⟩
    · rw [run_bind_of_error _ h]
      exact run_query_world h
    · rw [run_bind_of_ok _ h]
      exact run_query_world h
  change Later rt w (run (exec i) (query (.insert_token token (rt.sha256 bytes)) >>= fun _ =>
      .ret (x (lit "pb_" ++ (w.oracle i).token_urlsafe 32 (w.drawn i)))) w1).2
  rw [hinsert]
  refine ⟨rfl, hdraw.drawn, fun id r' hr => ?_⟩
  rcases exec_token_row hr with ⟨r, h, ha, -⟩ | ⟨-, -, -, hd⟩
  · exact Or.inl ⟨r, h, ha⟩
  · refine Or.inr ⟨i, w.drawn i, le_rfl, ?_, ?_⟩
    · change _ < Function.update w.drawn i (w.drawn i + 1) i
      rw [Function.update_self]
      omega
    · rw [drawnDigest, hu, Option.map_some, hd]

theorem keeps_login (body : LoginRequest) : Keeps rt i (Routes.login cfg rt hasher body) := by
  refine Keeps.bind (Keeps.bind (.of_settled (uses_settled rfl)) fun user => ?_) fun result => ?_
  · rcases user with _ | user
    · exact fun w => .refl w
    refine Keeps.bind (.of_settled (uses_verify_password _ _)) fun verified => ?_
    dsimp only
    split_ifs
    · exact fun w => .refl w
    · exact Keeps.bind (.of_settled (uses_now (P := only settled) trivial)) fun _ =>
        Keeps.bind (.of_settled (uses_new_id _)) fun _ =>
          Keeps.bind (.of_settled (uses_slide _)) fun _ => Keeps.issue _ _
  · rcases result with _ | ⟨user, session, secret⟩
    · exact fun w => .refl w
    dsimp only
    rcases session.expires_at with _ | e
    · exact fun w => .refl w
    · exact fun w => .refl w

theorem keeps_create_token (actor : Actor) (body : CreateTokenRequest) :
    Keeps rt i (Routes.create_token rt actor body) :=
  Keeps.bind (Keeps.bind (.of_settled (uses_new_id _)) fun _ =>
    Keeps.bind (.of_settled (uses_now (P := only settled) trivial)) fun _ => Keeps.issue _ _)
      fun _ w => .refl w

theorem inserts_of_accounts {c : Calls.Call} {f : Query → Bool} (hf : ∀ t d, f (.insert_token t d) = false)
    (h : only f c) : inserts c = false := by
  cases c with
  | db q =>
    cases q <;> try rfl
    exact absurd ((hf _ _).symm.trans h) Bool.false_ne_true
  | _ => rfl

theorem inserts_of_sites {c : Calls.Call} (h : ofSites c) : inserts c = false := by
  cases c with
  | db q => cases q <;> first | rfl | exact absurd h.symm Bool.false_ne_true
  | _ => rfl

/-- **Every handler** leaves a later world. -/
theorem keeps_serve (actor : Actor) (request : Request) :
    Keeps rt i (Routes.serve cfg rt hasher actor request) := by
  rcases hs : aboutSites request with _ | _
  swap
  · exact .of_uses ((uses_serve_sites actor hs).mono fun _ => inserts_of_sites)
  rcases hi : issuesOrRemoves request with _ | _
  · exact .of_settled (uses_serve_settled actor hs hi)
  · cases request <;> try exact absurd hi Bool.false_ne_true
    case login body => exact keeps_login body
    case create_token body => exact keeps_create_token actor body
    case delete_user user_id =>
      intro w
      rcases run_delete_user rt i user_id w with ⟨r, hr⟩ | ⟨-, -, hr⟩
      · rw [Routes.serve, hr]
        exact .refl w
      · rw [Routes.serve, hr]
        exact ⟨rfl, fun _ => le_rfl, fun id r' h =>
          Or.inl ⟨r', (delete_user_row.1 h).1, Aged.refl r'⟩⟩

/-- **Every section** leaves a later world. -/
theorem keeps_block (b : Block) : Keeps rt i (b.code cfg rt hasher) := by
  cases b with
  | authorise name header =>
    exact .of_uses ((uses_dependency name header).mono fun _ =>
      inserts_of_accounts fun _ _ => rfl)
  | login body => exact keeps_login body
  | serve actor request => exact keeps_serve actor request
  | bootstrap username password => exact .of_settled (uses_bootstrap username password)
  | purge =>
    exact .of_uses ((uses_now (P := fun c => inserts c = false) rfl).bind fun _ =>
      uses_query (P := fun c => inserts c = false) rfl)

/-! ### The events of a life -/

/-- The calls of the tasks: handlers of the accounts are whole sections, and the single calls are those
of the sites. -/
def ofTask : (sections cfg rt hasher).sig.Call → Prop
  | .inl (.serve _ request) => aboutSites request = false
  | .inl _ => True
  | .inr c => ofSites c

theorem uses_whole (b : Block) (h : ofTask (.inl b : (sections cfg rt hasher).sig.Call)) :
    Uses ofTask (whole cfg rt hasher b) := uses_block h

theorem uses_turns {A : Type} {p : Code A} (h : Uses ofSites p) :
    Uses ofTask (turns cfg rt hasher p) := uses_lift h

theorem uses_visit (header : Option Str) (request : Request) :
    Uses ofTask (visit cfg rt hasher header request) := by
  have h : ∀ request : Request, Uses ofTask (whole cfg rt hasher
      (.authorise request.route header) >>= fun actor => if aboutSites request then
        turns cfg rt hasher (Routes.serve cfg rt hasher actor request)
      else whole cfg rt hasher (.serve actor request)) := by
    intro request
    refine (uses_whole (.authorise request.route header) trivial).bind fun actor => ?_
    split_ifs with hs
    · exact uses_turns (uses_serve_sites actor hs)
    · exact uses_whole (.serve actor request) (Bool.eq_false_iff.2 hs)
  refine Uses.except ?_ fun e => ?_
  · cases request with
    | login body => exact uses_whole (.login body) trivial
    | _ => exact h _
  · split_ifs <;> trivial

theorem uses_cleanAll : ∀ names : List Str, Uses ofSites (cleanAll cfg names)
  | [] => uses_ret _
  | name :: names => by
    refine Uses.bind ((uses_any _).bind fun is_dir => ((uses_lstat _).mono fun _ =>
      ofSites_of_looks).bind fun mode => ?_) fun _ => uses_cleanAll names
    split_ifs
    · exact uses_rmtree _ _
    · exact uses_unlink (P := ofSites) trivial

theorem uses_clean_staging : Uses ofSites (clean_staging cfg) :=
  (uses_any _).bind fun names => (uses_cleanAll names).bind fun _ => uses_ret _

theorem uses_ensure_data_layout : Uses ofSites (ensure_data_layout cfg) :=
  (uses_mkdirParents _ _ fun _ _ => ⟨trivial, trivial⟩).bind fun _ =>
    uses_mkdirParents _ _ fun _ _ => ⟨trivial, trivial⟩

theorem uses_start (admin_username admin_password : Option Str) :
    Uses ofTask (start cfg rt hasher admin_username admin_password) :=
  (uses_turns uses_ensure_data_layout).bind fun _ => (uses_turns uses_clean_staging).bind fun _ =>
    (uses_whole (.bootstrap admin_username admin_password) trivial).bind fun _ =>
      (uses_whole .purge trivial).bind fun _ => uses_ret _

theorem uses_starting (username password : Option Str) (i : ℕ) : Uses ofTask ((fun i : ℕ =>
    if i = 0 then start cfg rt hasher username password else .ret ()) i) := by
  dsimp only
  split_ifs
  · exact uses_start _ _
  · trivial

/-- **Each event of a life is a step of the event loop.** -/
theorem Life.events {w0 : World} {tr : Trace cfg rt hasher} (h : Life cfg rt hasher w0 tr w) :
    ∀ e ∈ tr, ofTask e.call ∧ (loop cfg rt hasher).Answers e.tid e.call e.before e.resp e.after := by
  induction h with
  | begin => simp
  | serving life asked run ih =>
    exact fun e he => (List.mem_append.1 he).elim (ih e) ((run.uses fun i => uses_visit _ _).2 e)
  | restart life username password run ih =>
    exact fun e he => (List.mem_append.1 he).elim (ih e) ((run.uses (uses_starting _ _)).2 e)

/-- **A relation that every step keeps, and a restart, orders the worlds of a life.** -/
theorem Life.ordered {R : World → World → Prop} (refl : ∀ v, R v v)
    (trans : ∀ u v v', R u v → R v v' → R u v')
    (step : ∀ i (c : (sections cfg rt hasher).sig.Call) v r v', ofTask c →
      (loop cfg rt hasher).Answers i c v r v' → R v v') (boot : ∀ v, R v (rebooted v))
    {w0 : World} {tr : Trace cfg rt hasher} (h : Life cfg rt hasher w0 tr w) : Ordered R w0 tr w := by
  induction h with
  | begin => exact .nil (refl _)
  | serving life asked run ih =>
    exact ih.append trans (run.ordered refl trans step fun i => uses_visit _ _)
  | @restart _ _ w _ life username password run ih =>
    have hboot : Ordered R w ([] : Trace cfg rt hasher) (rebooted w) := .nil (boot w)
    exact ih.append trans (hboot.append trans (run.ordered refl trans step (uses_starting _ _)))

theorem later_answers {c : (sections cfg rt hasher).sig.Call} {r : Except Exn _} (hc : ofTask c)
    (h : (loop cfg rt hasher).Answers i c w r w') : Later rt w w' := by
  rcases h.2 with he | ⟨_, _, hf⟩
  · rw [(Prod.mk.inj he).2]
    rcases c with b | c
    · exact keeps_block b w
    · exact later_call (inserts_of_sites hc) w
  · exact hf.elim

/-- **The worlds of a life are in order.** -/
theorem Life.later {w0 : World} {tr : Trace cfg rt hasher} (h : Life cfg rt hasher w0 tr w) :
    Ordered (Later rt) w0 tr w :=
  h.ordered .refl (fun _ _ _ => .trans) (fun _ _ _ _ _ => later_answers)
    fun _ => ⟨rfl, fun _ => le_rfl, fun _ r' h => Or.inl ⟨r', h, Aged.refl r'⟩⟩

/-- **A life that begins with a request**: the dependency of its route comes first. -/
theorem Life.presentation (w : World) (header : Option Str) (request : Request)
    (h : ∀ body, request ≠ .login body) : Life cfg rt hasher w
      [⟨0, .inl (.authorise request.route header), (run (exec 0) (requires cfg rt request.route header)
        w).1, w, (run (exec 0) (requires cfg rt request.route header) w).2⟩]
      (run (exec 0) (requires cfg rt request.route header) w).2 := by
  obtain ⟨k, hk⟩ : ∃ k, visit cfg rt hasher header request =
      .call (.inl (.authorise request.route header)) k := by
    cases request with
    | login body => exact absurd rfl (h body)
    | _ => exact ⟨_, rfl⟩
  have first : Run (loop cfg rt hasher) ⟨w, fun _ => visit cfg rt hasher header request⟩ _ _ :=
    Run.refl.step (i := 0) hk (Machine.answers_exec rfl)
  exact Life.begin.serving (fun _ => (header, request)) first

end PaperBoxing.Backend.Service
