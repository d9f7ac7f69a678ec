import PaperBoxing.Common.Outages
import PaperBoxing.Mcp.Tools

/-! # What the gate's refusals say

The gate of the MCP server with its client and a backend at the other end of it: which refusal a POST
request gets, by its `Content-Length`, its bearer, and what the backend answers about the bearer. The
backend may be the real one in any state, or answer anything else, or not be reached.

* `run_check`: what the gate comes to, before it lets a request through;
* `causes_named`: when every refusal names its cause. A declared length that is made of digits and is
  no numeral, and a bearer that cannot be sent, are reported as an outage of the backend. -/

namespace PaperBoxing.Mcp.Refusals

open PaperBoxing.Lib PaperBoxing.Lib.Action PaperBoxing.Lib.Program PaperBoxing.Lib.Text
open PaperBoxing.Common PaperBoxing.Common.Scopes PaperBoxing.Common.Schema
open PaperBoxing.Common.RouteTable PaperBoxing.Common.Client PaperBoxing.Common.Outages
open PaperBoxing.Backend PaperBoxing.Backend.Db PaperBoxing.Backend.Calls PaperBoxing.Backend.Bearer
open PaperBoxing.Backend.Served
open PaperBoxing.Mcp.Auth hiding World
open PaperBoxing.Mcp.Tools (client headers_client)

/-! ### The surroundings -/

/-- The other end of the client's line. -/
structure Line : Type where
  backend : World
  /-- how the next request goes; none where the backend itself answers it -/
  way : Option Outcome
  /-- whether a request was handed over -/
  asked : Bool
  /-- the rest of the response -/
  rest : Except ClientExn Content

/-- **A request at the gate**: the line, the refusal that was sent, and the confirmation that was
left. -/
structure Scene : Type where
  line : Line
  sent : Option Refusal
  left : Option Confirmed

section
variable (cfg : Config) (rt : Runtime) (hasher : Hasher) (wire : Wire) (i : ℕ)
  (accepts : Str → Bool)

/-- How a request goes, and what it leaves of the backend. -/
def outcomeOf (r : Outgoing) (l : Line) : Outcome × World :=
  match l.way with
  | some outcome => (outcome, l.backend)
  | none => match answered cfg rt hasher wire (Calls.exec i) r l.backend with
    | (.ok response, w) => (.complete (headOf wire response) (contentOf wire response.body), w)
    | (.error _, w) => (.failed (lit "Server disconnected"), w)

/-- The client's calls. A bearer that the protocol library does not accept as the value of a header
is not sent; what it raises is a `TransportError` all the same. -/
def lineExec : (c : Client.Call) → Act ClientExn Line (Client.Resp c)
  | .send r => fun l =>
    if (authorization r).all accepts then
      let o := outcomeOf cfg rt hasher wire i r l
      (match o.1 with
        | .failed text => .error (.transport text)
        | .broken head _ | .complete head _ => .ok ⟨0, head⟩,
        { l with backend := o.2, asked := true, rest := o.1.rest })
    else (.error (.transport (lit "Illegal header value")), l)
  | .read _ => fun l => (l.rest, l)
  | .close _ | .yield _ => Act.ret ()

/-- What the gate meets of the client's exceptions. -/
def gateExn : ClientExn → GateExn
  | .backend e => .backend e.status
  | .unreachable _ => .unreachable
  | .decode .value | .decode .validation => .decode
  | _ => .other

/-- The gate's calls: the transport's check passes, and the client is open. -/
def gateExec : (c : Auth.Call) → Act GateExn Scene (Auth.Resp c)
  | .validate => Act.ret none
  | .client => Act.ret ()
  | .token_self bearer => fun s =>
    let r := run (lineExec cfg rt hasher wire i accepts) (client.perform (token_self bearer)) s.line
    (r.1.mapError gateExn, { s with line := r.2 })
  | .send r => Act.modify fun s => { s with sent := some r }
  | .leave c => Act.modify fun s => { s with left := some c }
  | .context => Act.ret (some i)
  | .state _ => fun s => (.ok s.left, s)
  | .transport | .listed _ | .handler _ _ => Act.ret ()

/-- A POST request with these headers. -/
def post (headers : List (Str × Str)) : HttpRequest := ⟨lit "http", lit "POST", headers⟩

/-- Before the request. -/
def arriving (w : World) (way : Option Outcome) : Scene := ⟨⟨w, way, false, .error .other⟩, none, none⟩

/-- **The scene after a request.** -/
def after (max_body_bytes : ℕ) (headers : List (Str × Str)) (messages : List Message) (w : World)
    (way : Option Outcome) : Scene :=
  (run (gateExec cfg rt hasher wire i accepts) (Auth.call rt max_body_bytes (post headers) messages)
    (arriving w way)).2

/-- The status of the refusal that a request got, if it got one. -/
def status (max_body_bytes : ℕ) (headers : List (Str × Str)) (messages : List Message) (w : World)
    (way : Option Outcome) : Option ℕ :=
  (after cfg rt hasher wire i accepts max_body_bytes headers messages w way).sent.map Refusal.status

/-! ### What a refusal should say -/

/-- A decimal numeral, of any length. -/
def numeral (s : Str) : Option ℕ :=
  if s ≠ [] ∧ s.all isDigit = true then some (s.foldl (fun n c => 10 * n + (c.val - 48)) 0) else none

/-- The declared length is a numeral above the limit. -/
def TooLong (max_body_bytes : ℕ) (headers : List (Str × Str)) : Prop :=
  ∃ declared n, (post headers).get (lit "content-length") = some declared ∧
    numeral declared = some n ∧ max_body_bytes < n

/-- An answer about a bearer that the contract has: a `TokenSelf`, or 401 with an error's body. -/
def InContract (o : Outcome) : Prop := ∃ head content, o = .complete head content ∧
  ((head.status = 200 ∧ ∃ token, content.validate .token_self = .ok token) ∨
    (head.status = 401 ∧ ∃ body, content.validate .error = .ok body))

/-- The request about a bearer. -/
def question (bearer : Str) : Outgoing :=
  ⟨.GET, lit "/api/v1/tokens/self", client._headers (some bearer), [], .empty⟩

/-- The answer about a bearer. -/
def answerAbout (bearer : Str) (w : World) (way : Option Outcome) : Outcome :=
  (outcomeOf cfg rt hasher wire i (question bearer) ⟨w, way, false, .error .other⟩).1

/-- What the clock shows to the backend when it is asked. -/
def clock (w : World) : IsoTime.Instant := (w.oracle i).now (w.drawn i)

/-- **Every refusal names its cause.** -/
structure Named (max_body_bytes : ℕ) (headers : List (Str × Str)) (messages : List Message)
    (w : World) (way : Option Outcome) : Prop where
  /-- 413 exactly for a declared length above the limit -/
  length : status cfg rt hasher wire i accepts max_body_bytes headers messages w way = some 413 ↔
    TooLong max_body_bytes headers
  /-- otherwise, 401 without a bearer -/
  missing : ¬ TooLong max_body_bytes headers → bearer_from (post headers) = none →
    status cfg rt hasher wire i accepts max_body_bytes headers messages w way = some 401
  /-- otherwise, 401 when the bearer is no live token of the backend that answers -/
  dead : ¬ TooLong max_body_bytes headers → ∀ bearer, bearer_from (post headers) = some bearer →
    way = none → (∀ id r, ¬ LiveBearer rt w.db (clock i w) bearer id r) →
    status cfg rt hasher wire i accepts max_body_bytes headers messages w way = some 401
  /-- 403 when it is a live session, and the backend answers within the contract -/
  session : ¬ TooLong max_body_bytes headers → ∀ bearer, bearer_from (post headers) = some bearer →
    way = none → InContract (answerAbout cfg rt hasher wire i bearer w way) →
    ∀ id r, LiveBearer rt w.db (clock i w) bearer id r → r.type = .session →
    status cfg rt hasher wire i accepts max_body_bytes headers messages w way = some 403
  /-- 503 only when the backend was asked about the bearer, and was not reached or answered outside
  the contract -/
  outage : status cfg rt hasher wire i accepts max_body_bytes headers messages w way = some 503 →
    (after cfg rt hasher wire i accepts max_body_bytes headers messages w way).line.asked = true ∧
    ∃ bearer, bearer_from (post headers) = some bearer ∧
      ¬ InContract (answerAbout cfg rt hasher wire i bearer w way)

end

/-- **What the gate can name**: a declared length of digits is a numeral that can be converted, and a
bearer it gets to ask about can be sent. -/
def Nameable (accepts : Str → Bool) (max_body_bytes : ℕ) (headers : List (Str × Str)) : Prop :=
  (∀ declared, (post headers).get (lit "content-length") = some declared →
    isdigit declared = true → int declared ≠ none) ∧
  (¬ TooLong max_body_bytes headers → ∀ bearer, bearer_from (post headers) = some bearer →
    (∀ c ∈ bearer, isAscii c = true) ∧ accepts (lit "Bearer " ++ bearer) = true)

variable {cfg : Config} {rt : Runtime} {hasher : Hasher} {wire : Wire} {i : ℕ} {accepts : Str → Bool}
  {max_body_bytes : ℕ} {headers : List (Str × Str)} {messages : List Message} {w : World}
  {way : Option Outcome}

/-! ### Behind the gate -/

/-- A call behind the gate: it neither refuses nor asks about a bearer. -/
def behind : Auth.Call → Prop
  | .send _ | .token_self _ => False
  | _ => True

theorem uses_ask {c : Auth.Call} (h : behind c) : Uses behind (ask c) :=
  (uses_invoke (S := Auth.sig) c).2 h

theorem uses_confirmed : Uses behind _confirmed := by
  refine Uses.bind (uses_ask (c := .context) trivial) fun request =>
    Uses.bind (?_ : Uses behind (confirmed_from request)) fun c => ?_
  · cases request with
    | none => trivial
    | some request => exact uses_ask trivial
  · cases c with
    | none => trivial
    | some c => trivial

theorem uses_handleAll (messages : List Message) : Uses behind (handleAll messages) := by
  induction messages with
  | nil => trivial
  | cons m messages ih =>
    refine Uses.bind ?_ fun _ => ih
    cases m with
    | list_tools =>
      exact Uses.except (Uses.bind uses_confirmed fun c => uses_ask (c := .listed _) trivial)
        fun _ => trivial
    | call_tool name =>
      refine Uses.except (Uses.bind uses_confirmed fun c => ?_) fun _ => trivial
      rw [dispatch]
      split
      · trivial
      · split_ifs
        · exact uses_ask trivial
        · trivial

/-- Behind the gate nothing is refused, and nobody is asked. -/
theorem app_keeps (messages : List Message) (s : Scene) :
    (run (gateExec cfg rt hasher wire i accepts) (Auth.app messages) s).2.sent = s.sent ∧
      (run (gateExec cfg rt hasher wire i accepts) (Auth.app messages) s).2.line = s.line := by
  have hcall : ∀ c, behind c → ∀ s' : Scene, (s'.sent = s.sent ∧ s'.line = s.line) →
      ((gateExec cfg rt hasher wire i accepts c s').2.sent = s.sent ∧
        (gateExec cfg rt hasher wire i accepts c s').2.line = s.line) := by
    intro c hc s' hs'
    cases c with
    | send | token_self => exact hc.elim
    | _ => exact hs'
  have huses : Uses behind (Auth.app messages) :=
    Uses.bind (uses_ask trivial) fun _ => uses_handleAll messages
  exact run_preserves (I := fun s' : Scene => s'.sent = s.sent ∧ s'.line = s.line) hcall huses
    ⟨rfl, rfl⟩

/-! ### From the gate's checks to the refusal -/

/-- The status of the refusal for what the checks came to. -/
def told : Except GateExn Confirmed → Option ℕ
  | .error (.refused e) => some e.status
  | .error _ => some 503
  | .ok _ => none

/-- **The refusal is what the checks came to.** -/
theorem told_checked (messages : List Message) {r : Except GateExn Confirmed} {s : Scene}
    (h : run (gateExec cfg rt hasher wire i accepts) (check rt max_body_bytes (post headers))
      (arriving w way) = (r, s)) (hs : s.sent = none) :
    status cfg rt hasher wire i accepts max_body_bytes headers messages w way = told r ∧
      (after cfg rt hasher wire i accepts max_body_bytes headers messages w way).line = s.line := by
  have hcall : run (gateExec cfg rt hasher wire i accepts)
      (Auth.call rt max_body_bytes (post headers) messages) (arriving w way) =
      run (gateExec cfg rt hasher wire i accepts) (match r with
        | .error (.refused e) => ask (.send e)
        | .error _ => ask (.send ⟨503, .backend_unreachable, MSG_UNCONFIRMED, []⟩)
        | .ok confirmed => ask (.leave confirmed) >>= fun _ => Auth.app messages) s := by
    have htype : ¬ (post headers).type ≠ lit "http" := not_not.2 rfl
    rw [Auth.call, if_neg htype]
    have hattempt : run (gateExec cfg rt hasher wire i accepts)
        (check rt max_body_bytes (post headers)).attempt (arriving w way) = (.ok r, s) := by
      rw [run_attempt, h]
    refine (run_bind_of_ok _ hattempt).trans ?_
    rcases r with _ | _ <;> rfl
  rw [status, after, hcall]
  rcases r with e | confirmed
  · cases e <;> exact ⟨rfl, rfl⟩
  · -- the request is let through, and what follows is behind the gate
    have hkeeps : (run (gateExec cfg rt hasher wire i accepts) (Auth.app messages)
        { s with left := some confirmed }).2.sent = s.sent ∧ (run (gateExec cfg rt hasher wire i
          accepts) (Auth.app messages) { s with left := some confirmed }).2.line = s.line :=
      app_keeps messages { s with left := some confirmed }
    have hleave : run (gateExec cfg rt hasher wire i accepts) (ask (.leave confirmed)) s =
        (.ok (), { s with left := some confirmed }) := run_invoke (S := Auth.sig) ..
    dsimp only
    rw [run_bind_of_ok _ hleave]
    exact ⟨by rw [hkeeps.1, hs]; rfl, hkeeps.2⟩

/-! ### The declared length -/

theorem numeral_isdigit {s : Str} {n : ℕ} (h : numeral s = some n) : isdigit s = true := by
  rw [numeral] at h
  split_ifs at h with hs
  rw [isdigit, Bool.and_eq_true, decide_eq_true_eq, List.all_eq_true]
  refine ⟨hs.1, fun c hc => ?_⟩
  rw [List.all_eq_true.1 hs.2 c hc]
  rfl

/-- What can be converted is a numeral. -/
theorem numeral_of_int {s : Str} {n : ℕ} (h : int s = some n) : numeral s = some n := by
  rw [int] at h
  split_ifs at h with hs
  rw [numeral, if_pos ⟨hs.1, hs.2.1⟩]
  exact h

section
variable {s : Scene}

theorem run_length_malformed {declared : Str}
    (hget : (post headers).get (lit "content-length") = some declared)
    (hdigit : isdigit declared = true) (hint : int declared = none) :
    run (gateExec cfg rt hasher wire i accepts) (_check_declared_length max_body_bytes
      (post headers)) s = (.error .other, s) := by
  rw [_check_declared_length, hget]
  dsimp only
  rw [if_pos hdigit, hint]
  rfl

theorem run_length_over (hint : ∀ declared, (post headers).get (lit "content-length") = some declared →
      isdigit declared = true → int declared ≠ none) (h : TooLong max_body_bytes headers) :
    ∃ r, r.status = 413 ∧ run (gateExec cfg rt hasher wire i accepts)
      (_check_declared_length max_body_bytes (post headers)) s = (.error (.refused r), s) := by
  obtain ⟨declared, n, hget, hn, hlt⟩ := h
  have hdigit := numeral_isdigit hn
  obtain ⟨m, hm⟩ := Option.ne_none_iff_exists'.1 (hint declared hget hdigit)
  obtain rfl := Option.some.inj ((numeral_of_int hm).symm.trans hn)
  rw [_check_declared_length, hget]
  dsimp only
  rw [if_pos hdigit, hm]
  dsimp only
  rw [if_pos hlt]
  exact ⟨_, rfl, rfl⟩

theorem run_length_within
    (hint : ∀ declared, (post headers).get (lit "content-length") = some declared →
      isdigit declared = true → int declared ≠ none) (h : ¬ TooLong max_body_bytes headers) :
    run (gateExec cfg rt hasher wire i accepts) (_check_declared_length max_body_bytes
      (post headers)) s = (.ok (), s) := by
  rw [_check_declared_length]
  rcases hget : (post headers).get (lit "content-length") with _ | declared
  · rfl
  dsimp only
  by_cases hdigit : isdigit declared = true
  swap
  · rw [if_neg hdigit]
    rfl
  obtain ⟨n, hn⟩ := Option.ne_none_iff_exists'.1 (hint declared hget hdigit)
  rw [if_pos hdigit, hn]
  dsimp only
  rw [if_neg fun hlt => h ⟨declared, n, hget, numeral_of_int hn, hlt⟩]
  rfl

/-- The transport's check lets a POST request pass. -/
theorem run_check (rt : Runtime) : run (gateExec cfg rt hasher wire i accepts)
    (check rt max_body_bytes (post headers)) s =
    run (gateExec cfg rt hasher wire i accepts)
      (_check_declared_length max_body_bytes (post headers) >>= fun _ =>
        match bearer_from (post headers) with
        | none => refuse 401 .unauthorized MSG_MISSING CHALLENGE_MISSING
        | some bearer => ask .client >>= fun _ => confirm bearer) s := by
  have htransport : run (gateExec cfg rt hasher wire i accepts)
      (_check_transport rt (post headers)) s = (.ok (), s) := by
    have hmethod : ¬ (post headers).method ≠ lit "POST" := not_not.2 rfl
    rw [_check_transport, if_neg hmethod]
    rfl
  rw [check]
  exact (run_bind_of_ok _ htransport).trans rfl

end

/-! ### The question -/

/-- What the gate makes of the client's answer about a bearer. -/
def judgement (bearer : Str) : Except ClientExn TokenSelf → Except GateExn Confirmed
  | .ok me =>
    if me.type ≠ .agent then .error (.refused ⟨403, .wrong_token_type, MSG_WRONG_TYPE, []⟩)
    else .ok ⟨bearer, me⟩
  | .error (.backend e) =>
    if e.status = 401 then
      .error (.refused ⟨401, .unauthorized, MSG_NOT_CONFIRMED, CHALLENGE_INVALID⟩)
    else .error (.refused ⟨503, .backend_unreachable, MSG_UNCONFIRMED, []⟩)
  | .error _ => .error (.refused ⟨503, .backend_unreachable, MSG_UNCONFIRMED, []⟩)

theorem run_confirm (bearer : Str) (s : Scene) :
    run (gateExec cfg rt hasher wire i accepts) (confirm bearer) s =
      (judgement bearer (run (lineExec cfg rt hasher wire i accepts)
          (client.perform (token_self bearer)) s.line).1,
        { s with line := (run (lineExec cfg rt hasher wire i accepts)
          (client.perform (token_self bearer)) s.line).2 }) := by
  have hask : run (gateExec cfg rt hasher wire i accepts) (ask (.token_self bearer)) s =
      ((run (lineExec cfg rt hasher wire i accepts)
          (client.perform (token_self bearer)) s.line).1.mapError gateExn,
        { s with line := (run (lineExec cfg rt hasher wire i accepts)
          (client.perform (token_self bearer)) s.line).2 }) := run_invoke (S := Auth.sig) ..
  rw [confirm, run_bind_of_ok _ (run_attempt ..), hask]
  generalize run (lineExec cfg rt hasher wire i accepts) (client.perform (token_self bearer)) s.line = o
  obtain ⟨e | me, l⟩ := o
  · cases e with
    | backend e =>
      change run _ (if e.status = 401 then _ else _) _ = _
      rw [judgement]
      split_ifs <;> rfl
    | decode e => cases e <;> rfl
    | _ => rfl
  · change run _ (if me.type ≠ .agent then _ else _) _ = _
    rw [judgement]
    split_ifs <;> rfl

section
variable {bearer : Str} {l : Line}

theorem authorization_question (bearer : Str) :
    authorization (question bearer) = some (lit "Bearer " ++ bearer) := by
  rw [authorization, question, headers_client]
  exact List.lookup_cons_self

theorem outgoing_question (bearer : Str) :
    (token_self bearer).outgoing client = build_request (question bearer) := by
  have hpath : build_path .token_self [] = .ok (lit "/api/v1/tokens/self") := by decide +kernel
  rw [Exchange.outgoing, token_self, hpath]
  rfl

/-- **A bearer is sent in ASCII**, or not at all. -/
theorem build_question (bearer : Str) : build_request (question bearer) =
    if ∀ c ∈ bearer, isAscii c = true then .ok (question bearer) else .error .unicode := by
  have hlit : (lit "Bearer ").all isAscii = true := by decide
  have hvia : VIA_MCP.all isAscii = true := by decide
  rw [build_request, question, headers_client]
  refine if_congr ?_ rfl rfl
  simp [hlit, hvia]

theorem run_fetch_accepted (h : accepts (lit "Bearer " ++ bearer) = true) :
    run (lineExec cfg rt hasher wire i accepts) (fetch (question bearer)) l =
      ((outcomeOf cfg rt hasher wire i (question bearer) l).1.answer,
        { l with
          backend := (outcomeOf cfg rt hasher wire i (question bearer) l).2
          asked := true
          rest := (outcomeOf cfg rt hasher wire i (question bearer) l).1.rest }) := by
  have hsend : ∀ c, lineExec cfg rt hasher wire i accepts (.send (question bearer)) c =
      (match (outcomeOf cfg rt hasher wire i (question bearer) c).1 with
        | .failed text => .error (.transport text)
        | .broken head _ | .complete head _ => .ok ⟨0, head⟩,
        { c with
          backend := (outcomeOf cfg rt hasher wire i (question bearer) c).2
          asked := true
          rest := (outcomeOf cfg rt hasher wire i (question bearer) c).1.rest }) := by
    intro c
    rw [lineExec, authorization_question, Option.all_some]
    exact if_pos h
  rw [fetch, run_bind, run_transport, hsend]
  generalize outcomeOf cfg rt hasher wire i (question bearer) l = o
  obtain ⟨o, w⟩ := o
  cases o <;> rfl

theorem run_fetch_unaccepted (h : accepts (lit "Bearer " ++ bearer) = false) :
    run (lineExec cfg rt hasher wire i accepts) (fetch (question bearer)) l =
      (.error (.transport (lit "Illegal header value")), l) := by
  have hsend : lineExec cfg rt hasher wire i accepts (.send (question bearer)) l =
      (.error (.transport (lit "Illegal header value")), l) := by
    rw [lineExec, authorization_question, Option.all_some, h]
    rfl
  rw [fetch, run_bind, run_transport, hsend]

/-- What the gate makes of an answer about a bearer. -/
def reply (bearer place : Str) (o : Outcome) : Except GateExn Confirmed :=
  judgement bearer ((verdict place o.answer).bind fun a => (validated .token_self a).mapError .decode)

theorem reply_token {place : Str} {head : Head} {content : Content} {token : TokenSelf}
    (hs : head.status = 200) (ht : content.validate .token_self = .ok token) :
    reply bearer place (.complete head content) = judgement bearer (.ok token) := by
  have hsuccess : head.is_success = true := by
    rw [Head.is_success, hs]
    rfl
  change judgement bearer ((judged ⟨head, content⟩).bind _) = _
  rw [judged, if_pos hsuccess]
  change judgement bearer ((content.validate .token_self).mapError ClientExn.decode) = _
  rw [ht]
  rfl

theorem reply_unauthorized {place : Str} {head : Head} {content : Content} {body : ErrorCode × Str}
    (hs : head.status = 401) (hb : content.validate .error = .ok body) :
    told (reply bearer place (.complete head content)) = some 401 := by
  have hsuccess : ¬ head.is_success = true := by
    rw [Head.is_success, hs]
    decide
  change told (judgement bearer ((judged ⟨head, content⟩).bind _)) = _
  rw [judged, if_neg hsuccess, _error_from, hb]
  change told (if head.status = 401 then _ else _) = _
  rw [if_pos hs]
  rfl

theorem told_judgement (r : Except ClientExn TokenSelf) :
    told (judgement bearer r) = none ∨ told (judgement bearer r) = some 401 ∨
      told (judgement bearer r) = some 403 ∨ told (judgement bearer r) = some 503 := by
  rcases r with e | me
  · cases e with
    | backend e =>
      rw [judgement]
      split_ifs
      · exact Or.inr (Or.inl rfl)
      · exact Or.inr (Or.inr (Or.inr rfl))
    | _ => exact Or.inr (Or.inr (Or.inr rfl))
  · rw [judgement]
    split_ifs
    · exact Or.inr (Or.inr (Or.inl rfl))
    · exact Or.inl rfl

/-- **An outage is reported** only for an answer outside the contract. -/
theorem reply_outside {place : Str} {o : Outcome} (h : told (reply bearer place o) = some 503) :
    ¬ InContract o := by
  rintro ⟨head, content, rfl, ⟨hs, token, ht⟩ | ⟨hs, body, hb⟩⟩
  · rw [reply_token hs ht, judgement] at h
    split_ifs at h
    · exact absurd h (by decide)
    · cases h
  · rw [reply_unauthorized hs hb] at h
    exact absurd h (by decide)

/-! ### What the backend answers -/

theorem requested_question (wire : Wire) (bearer : Str) :
    requested wire (question bearer) = some .token_self := by
  have hpath : (Percent.unquote (lit "/api/v1/tokens/self")).bind (select .GET) =
      some (.token_self, []) := by decide +kernel
  obtain ⟨path, hp, hselect⟩ := Option.bind_eq_some_iff.1 hpath
  rw [requested, question, hp]
  change (select .GET path).bind _ = _
  rw [hselect]
  rfl

theorem answered_question (bearer : Str) (w : World) :
    answered cfg rt hasher wire (Calls.exec i) (question bearer) w = run (Calls.exec i)
      (Routes.handle cfg rt hasher (some (lit "Bearer " ++ bearer)) .token_self) w := by
  rw [answered, requested_question, authorization_question]

/-- The answer about a bearer, from that of the route. -/
theorem answerAbout_handled {response : Schema.Response} {w' : World}
    (h : run (Calls.exec i) (Routes.handle cfg rt hasher (some (lit "Bearer " ++ bearer)) .token_self)
      w = (.ok response, w')) :
    answerAbout cfg rt hasher wire i bearer w none =
      .complete (headOf wire response) (contentOf wire response.body) := by
  rw [answerAbout, outcomeOf]
  dsimp only
  rw [answered_question, h]

/-- **The backend refuses a bearer of no live token.** -/
theorem answerAbout_dead (hs : strip isSpace bearer = bearer) (hne : bearer ≠ [])
    (hascii : ∀ c ∈ bearer, isAscii c = true)
    (hdead : ∀ id r, ¬ LiveBearer rt w.db (clock i w) bearer id r) :
    ∃ head content body, answerAbout cfg rt hasher wire i bearer w none = .complete head content ∧
      head.status = 401 ∧ content.validate .error = .ok body := by
  have hresolve : ∃ w', run (Calls.exec i)
      (Accounts.resolve_bearer cfg rt (some (lit "Bearer " ++ bearer))) w = (.ok none, w') :=
    resolved_dead hs hne (utf8_ascii hascii) hdead
  obtain ⟨w', hres⟩ := hresolve
  have hrequires : run (Calls.exec i) (Routes.requires cfg rt Routes.Request.token_self.route
      (some (lit "Bearer " ++ bearer))) w = (.error _, w') := App.run_requires_nobody hres
  have hhandle : run (Calls.exec i) (Routes.handle cfg rt hasher (some (lit "Bearer " ++ bearer))
      .token_self) w = (.ok _, w') :=
    App.run_handle_refused (by rintro _ ⟨⟩) (by rintro ⟨⟩) hrequires
  exact ⟨_, _, (.unauthorized, lit "a valid bearer token is required"), answerAbout_handled hhandle,
    rfl, rfl⟩

/-- **The backend says what a live token is**, if it answers within the contract. -/
theorem answerAbout_live (hs : strip isSpace bearer = bearer) (hne : bearer ≠ []) {id : Str}
    {r : TokenRec} (hlive : LiveBearer rt w.db (clock i w) bearer id r)
    (hin : InContract (answerAbout cfg rt hasher wire i bearer w none)) :
    ∃ head content token, answerAbout cfg rt hasher wire i bearer w none = .complete head content ∧
      head.status = 200 ∧ content.validate .token_self = .ok token ∧ token.type = r.type := by
  have hresolve : ∃ w', (∃ u expires_at, w.db.users[r.user_id]? = some u ∧
        run (Calls.exec i) (Accounts.resolve_bearer cfg rt (some (lit "Bearer " ++ bearer))) w =
          (.ok (some (actorOf id r u (clock i w) expires_at)), w')) ∨
      (r.type = .session ∧
        run (Calls.exec i) (Accounts.resolve_bearer cfg rt (some (lit "Bearer " ++ bearer))) w =
          (.error .overflow, w')) := resolved_live hs hne hlive
  obtain ⟨w', ⟨u, expires_at, -, hres⟩ | ⟨-, hres⟩⟩ := hresolve
  · have hrequires : run (Calls.exec i) (Routes.requires cfg rt Routes.Request.token_self.route
        (some (lit "Bearer " ++ bearer))) w = (.ok _, w') := App.run_requires_actor hres rfl
    have hhandle : run (Calls.exec i) (Routes.handle cfg rt hasher
        (some (lit "Bearer " ++ bearer)) .token_self) w = (.ok ⟨200, .token_self _⟩, w') :=
      (App.run_handle_actor (by rintro _ ⟨⟩) hrequires).trans rfl
    exact ⟨_, _, _, answerAbout_handled hhandle, rfl, rfl, rfl⟩
  · have hrequires : run (Calls.exec i) (Routes.requires cfg rt Routes.Request.token_self.route
        (some (lit "Bearer " ++ bearer))) w = (.error _, w') := App.run_requires_error hres
    have hhandle : run (Calls.exec i) (Routes.handle cfg rt hasher
        (some (lit "Bearer " ++ bearer)) .token_self) w = (.ok _, w') :=
      App.run_handle_refused (by rintro _ ⟨⟩) (by rintro ⟨⟩) hrequires
    -- an expiry after the year 9999 is answered by 500
    obtain ⟨head, content, ho, h⟩ := hin
    obtain ⟨rfl, rfl⟩ := Outcome.complete.inj ((answerAbout_handled hhandle).symm.trans ho)
    have hstatus : (headOf wire (Routes.errorResponse .overflow)).status = 500 := rfl
    rw [hstatus] at h
    rcases h with ⟨h, -⟩ | ⟨h, -⟩ <;> exact absurd h (by decide)

end

/-! ### When every refusal names its cause -/

theorem bearer_stripped {request : HttpRequest} {bearer : Str}
    (h : bearer_from request = some bearer) : strip isSpace bearer = bearer ∧ bearer ≠ [] := by
  rw [bearer_from] at h
  dsimp only at h
  split_ifs at h with hc
  obtain rfl := Option.some.inj h
  exact ⟨strip_strip .., fun hne => hc (Or.inr hne)⟩

/-- A refusal as an outage of a backend that was not asked. -/
theorem not_named (hstatus : status cfg rt hasher wire i accepts max_body_bytes headers messages w way =
      some 503)
    (hasked : (after cfg rt hasher wire i accepts max_body_bytes headers messages w way).line.asked =
      false) :
    ¬ Named cfg rt hasher wire i accepts max_body_bytes headers messages w way := fun h =>
  Bool.false_ne_true (hasked.symm.trans (h.outage hstatus).1)

/-- A declared length that is converted where it is made of digits. -/
def Converted (headers : List (Str × Str)) : Prop :=
  ∀ declared, (post headers).get (lit "content-length") = some declared →
    isdigit declared = true → int declared ≠ none

/-- **A declared length that cannot be converted** is reported as an outage. -/
theorem not_named_malformed {declared : Str}
    (hget : (post headers).get (lit "content-length") = some declared)
    (hdigit : isdigit declared = true) (hint : int declared = none) :
    ¬ Named cfg rt hasher wire i accepts max_body_bytes headers messages w way := by
  have hcheck : run (gateExec cfg rt hasher wire i accepts)
      (check rt max_body_bytes (post headers)) (arriving w way) = (.error .other, arriving w way) := by
    rw [run_check]
    exact run_bind_of_error _ (run_length_malformed hget hdigit hint)
  obtain ⟨hstatus, hline⟩ := told_checked messages hcheck rfl
  exact not_named hstatus (by rw [hline]; rfl)

/-- **A declared length above the limit** is answered by 413. -/
theorem named_over (hint : Converted headers) (h : TooLong max_body_bytes headers) :
    Named cfg rt hasher wire i accepts max_body_bytes headers messages w way := by
  obtain ⟨r, hr, hrun⟩ : ∃ r, r.status = 413 ∧ run (gateExec cfg rt hasher wire i accepts)
      (_check_declared_length max_body_bytes (post headers)) (arriving w way) =
      (.error (.refused r), arriving w way) := run_length_over hint h
  have hcheck : run (gateExec cfg rt hasher wire i accepts)
      (check rt max_body_bytes (post headers)) (arriving w way) =
      (.error (.refused r), arriving w way) := by
    rw [run_check]
    exact run_bind_of_error _ hrun
  obtain ⟨hstatus, -⟩ := told_checked messages hcheck rfl
  change _ = some r.status at hstatus
  rw [hr] at hstatus
  constructor
  · exact iff_of_true hstatus h
  · exact fun hn => absurd h hn
  · exact fun hn => absurd h hn
  · exact fun hn => absurd h hn
  · intro h503
    rw [hstatus] at h503
    exact absurd h503 (by decide)

/-- **No bearer** is answered by 401. -/
theorem named_bare (hint : Converted headers) (h : ¬ TooLong max_body_bytes headers)
    (hb : bearer_from (post headers) = none) :
    Named cfg rt hasher wire i accepts max_body_bytes headers messages w way := by
  have hcheck : run (gateExec cfg rt hasher wire i accepts)
      (check rt max_body_bytes (post headers)) (arriving w way) =
      (.error (.refused ⟨401, .unauthorized, MSG_MISSING, CHALLENGE_MISSING⟩), arriving w way) := by
    rw [run_check, run_bind_of_ok _ (run_length_within hint h), hb]
    rfl
  obtain ⟨hstatus, -⟩ := told_checked messages hcheck rfl
  change _ = some 401 at hstatus
  constructor
  · rw [hstatus]
    exact iff_of_false (by decide) h
  · exact fun _ _ => hstatus
  · intro _ bearer hbearer
    rw [hb] at hbearer
    cases hbearer
  · intro _ bearer hbearer
    rw [hb] at hbearer
    cases hbearer
  · intro h503
    rw [hstatus] at h503
    exact absurd h503 (by decide)

section
variable {bearer : Str}

/-- What a request with a bearer comes to, and whether the backend was asked. -/
theorem asked_bearer (messages : List Message) (hint : Converted headers)
    (h : ¬ TooLong max_body_bytes headers)
    (hb : bearer_from (post headers) = some bearer) {r : Except ClientExn TokenSelf} {l : Line}
    (hrun : run (lineExec cfg rt hasher wire i accepts) (client.perform (token_self bearer))
      (arriving w way).line = (r, l)) :
    status cfg rt hasher wire i accepts max_body_bytes headers messages w way =
        told (judgement bearer r) ∧
      (after cfg rt hasher wire i accepts max_body_bytes headers messages w way).line = l := by
  have hcheck : run (gateExec cfg rt hasher wire i accepts)
      (check rt max_body_bytes (post headers)) (arriving w way) =
      (judgement bearer r, { arriving w way with line := l }) := by
    rw [run_check, run_bind_of_ok _ (run_length_within hint h), hb]
    refine (run_bind_of_ok _ (run_invoke (S := Auth.sig) ..)).trans ?_
    rw [run_confirm, hrun]
  exact told_checked messages hcheck rfl

/-- **A bearer that cannot be sent** is reported as an outage. -/
theorem not_named_unsent (hint : Converted headers) (h : ¬ TooLong max_body_bytes headers)
    (hb : bearer_from (post headers) = some bearer)
    (hsend : ¬ ((∀ c ∈ bearer, isAscii c = true) ∧ accepts (lit "Bearer " ++ bearer) = true)) :
    ¬ Named cfg rt hasher wire i accepts max_body_bytes headers messages w way := by
  by_cases hascii : ∀ c ∈ bearer, isAscii c = true
  · have haccepts : accepts (lit "Bearer " ++ bearer) = false :=
      Bool.eq_false_iff.2 fun ha => hsend ⟨hascii, ha⟩
    have hout := (outgoing_question bearer).trans ((build_question bearer).trans (if_pos hascii))
    obtain ⟨place, hrun⟩ := run_perform (lineExec cfg rt hasher wire i accepts) hout
    have hperform := hrun (arriving w way).line
    rw [run_fetch_unaccepted haccepts] at hperform
    obtain ⟨hstatus, hline⟩ := asked_bearer messages hint h hb hperform
    exact not_named hstatus (by rw [hline]; rfl)
  · have hout := (outgoing_question bearer).trans ((build_question bearer).trans (if_neg hascii))
    obtain ⟨hstatus, hline⟩ := asked_bearer messages hint h hb
      (run_perform_unmade (lineExec cfg rt hasher wire i accepts) hout (arriving w way).line)
    exact not_named hstatus (by rw [hline]; rfl)

/-- **A bearer that is sent**: the refusal is the one for the answer about it. -/
theorem named_sent (hint : Converted headers) (h : ¬ TooLong max_body_bytes headers)
    (hb : bearer_from (post headers) = some bearer) (hascii : ∀ c ∈ bearer, isAscii c = true)
    (haccepts : accepts (lit "Bearer " ++ bearer) = true) :
    Named cfg rt hasher wire i accepts max_body_bytes headers messages w way := by
  have hout := (outgoing_question bearer).trans ((build_question bearer).trans (if_pos hascii))
  obtain ⟨place, hrun⟩ := run_perform (lineExec cfg rt hasher wire i accepts) hout
  have hperform := hrun (arriving w way).line
  rw [run_fetch_accepted haccepts] at hperform
  obtain ⟨hstatus, hline⟩ := asked_bearer messages hint h hb hperform
  replace hstatus : status cfg rt hasher wire i accepts max_body_bytes headers messages w way =
    told (reply bearer place (answerAbout cfg rt hasher wire i bearer w way)) := hstatus
  obtain ⟨hs, hne⟩ := bearer_stripped hb
  have hbearer : ∀ {b}, bearer_from (post headers) = some b → b = bearer :=
    fun hb' => Option.some.inj (hb'.symm.trans hb)
  constructor
  · refine iff_of_false (fun h413 => ?_) h
    rw [hstatus] at h413
    rcases told_judgement ((verdict place (answerAbout cfg rt hasher wire i bearer w way).answer).bind
      fun a => (validated .token_self a).mapError .decode) with ht | ht | ht | ht <;>
      exact absurd (h413.symm.trans ht) (by decide)
  · intro _ hnone
    rw [hb] at hnone
    cases hnone
  · rintro - b hb' rfl hdead
    obtain rfl := hbearer hb'
    obtain ⟨head, content, body, ho, h401, hbody⟩ := answerAbout_dead hs hne hascii hdead
    rw [hstatus, ho]
    exact reply_unauthorized h401 hbody
  · rintro - b hb' rfl hin id r hlive hsession
    obtain rfl := hbearer hb'
    obtain ⟨head, content, token, ho, h200, ht, htype⟩ := answerAbout_live hs hne hlive hin
    rw [hstatus, ho, reply_token h200 ht, judgement, if_pos (by rw [htype, hsession]; decide)]
    rfl
  · intro h503
    rw [hstatus] at h503
    exact ⟨by rw [hline], bearer, hb, reply_outside h503⟩

end

/-- **Every refusal names its cause**, for exactly the requests that have nothing in them that the gate
takes for an outage. -/
theorem causes_named (cfg : Config) (rt : Runtime) (hasher : Hasher) (wire : Wire) (i : ℕ)
    (accepts : Str → Bool) (max_body_bytes : ℕ) (headers : List (Str × Str)) (messages : List Message)
    (w : World) (way : Option Outcome) :
    Named cfg rt hasher wire i accepts max_body_bytes headers messages w way ↔
      Nameable accepts max_body_bytes headers := by
  by_cases hint : Converted headers
  swap
  · refine iff_of_false (fun hnamed => hint fun declared hget hdigit hnone => ?_) fun h => hint h.1
    exact not_named_malformed hget hdigit hnone hnamed
  by_cases htoo : TooLong max_body_bytes headers
  · exact iff_of_true (named_over hint htoo) ⟨hint, fun hn => absurd htoo hn⟩
  rcases hb : bearer_from (post headers) with _ | bearer
  · refine iff_of_true (named_bare hint htoo hb) ⟨hint, fun _ b hb' => ?_⟩
    rw [hb] at hb'
    cases hb'
  by_cases hsend : (∀ c ∈ bearer, isAscii c = true) ∧ accepts (lit "Bearer " ++ bearer) = true
  · refine iff_of_true (named_sent hint htoo hb hsend.1 hsend.2) ⟨hint, fun _ b hb' => ?_⟩
    rw [← Option.some.inj (hb.symm.trans hb')]
    exact hsend
  · exact iff_of_false (not_named_unsent hint htoo hb hsend) fun h => hsend (h.2 htoo bearer hb)

/-- The superscript two as a declared length, with the bearer of a live agent token. -/
theorem causes_named_superscript : ¬ Named smallConfig plainRuntime plainHasher plainWire 0
    (fun _ => true) 100 [(lit "content-length", [0xB2]), (lit "authorization", lit "Bearer pb_s")] []
    (smallWorld (smallDb .read_only)) none := by
  have hget : (post [(lit "content-length", [0xB2]), (lit "authorization", lit "Bearer pb_s")]).get
      (lit "content-length") = some [0xB2] := by decide +kernel
  exact not_named_malformed hget (by decide) (by decide)

end PaperBoxing.Mcp.Refusals
