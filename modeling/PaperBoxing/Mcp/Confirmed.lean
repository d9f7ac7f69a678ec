import PaperBoxing.Mcp.Auth

/-! # Nothing passes the gate unconfirmed

Any number of requests, interleaved call by call, whatever the backend answers. A request reaches the
transport at most once, and only with the confirmation of its own bearer, given to it by the backend
during this very request, on its state; every handler then works with that confirmation. A request
that does not reach it is answered by one refusal, and its thread ends without an exception.

The invariant is about the events of one request and its state (`Good`); no other thread touches
either, so it is kept by showing it for each call of the request's own code. -/

namespace PaperBoxing.Mcp.Confirmed

open PaperBoxing.Lib PaperBoxing.Lib.Action PaperBoxing.Lib.Program PaperBoxing.Lib.Threads
open PaperBoxing.Lib.Text PaperBoxing.Common.Scopes PaperBoxing.Common.Schema PaperBoxing.Mcp.Auth

abbrev Ev : Type := Event sig GateExn World

abbrev History : Type := Hist sig GateExn World

/-! ### What the events of a request show -/

def isSend : Auth.Call → Bool
  | .send _ => true
  | _ => false

/-- The calls of a request that is still being checked. -/
def isCheck : Auth.Call → Bool
  | .validate | .client | .token_self _ | .leave _ => true
  | _ => false

/-- A handler's call that works with `c`. -/
def UsesOnly (c : Confirmed) : Auth.Call → Prop
  | .listed tools => tools = toolsFor c.token.scope
  | .handler tool bearer => bearer = c.bearer ∧ tool ∈ toolsFor c.token.scope
  | .context | .state _ => True
  | _ => False

/-- A question to the backend is about the request's own bearer. -/
def AsksOwn (request : HttpRequest) (call : Auth.Call) : Prop :=
  ∀ bearer, call = .token_self bearer → bearer_from request = some bearer

/-- The backend was asked about the bearer of `c` and gave the answer of `c`, by these events. -/
def Answered (es : List Ev) (i : ℕ) (c : Confirmed) : Prop :=
  ∃ b a, (⟨i, .token_self c.bearer, .ok c.token, b, a⟩ : Ev) ∈ es

/-- **What lets a request through**: during this very request the backend was asked about its bearer,
and answered that it is an agent token's. -/
structure Passed (request : HttpRequest) (es : List Ev) (i : ℕ) (c : Confirmed) : Prop where
  bearer : bearer_from request = some c.bearer
  answered : Answered es i c
  agent : c.token.type = .agent

/-- The request is being checked. -/
def Checking (request : HttpRequest) (es : List Ev) : Prop :=
  ∀ e ∈ es, isCheck e.call = true ∧ AsksOwn request e.call

/-- The request was refused, once, and nothing else happened. -/
def Refused (request : HttpRequest) (es : List Ev) : Prop :=
  ∃ es' e, es = es' ++ [e] ∧ Checking request es' ∧ ∃ r, e.call = .send r ∧ 400 ≤ r.status

/-- The request went to the transport, once, with the confirmation `c`, and its handlers work with
`c`. -/
def Through (request : HttpRequest) (i : ℕ) (es : List Ev) (state : Option Confirmed)
    (c : Confirmed) : Prop :=
  state = some c ∧ ∃ es' e es'', es = es' ++ e :: es'' ∧ Checking request es' ∧
    Passed request es' i c ∧ e.call = .transport ∧ e.before.state i = some c ∧
    ∀ e ∈ es'', UsesOnly c e.call

/-- **The invariant of a request.** -/
def Good (request : HttpRequest) (i : ℕ) (es : List Ev) (state : Option Confirmed) : Prop :=
  Checking request es ∨ Refused request es ∨ ∃ c, Through request i es state c

section
variable (request : ℕ → HttpRequest)

/-- The setting: every request that comes by HTTP keeps its invariant, the SDK hands out no request
but a handler's own, and nobody touches the events or the state of another request. -/
def setting : Setting sig GateExn World where
  machine := machine
  inv h := OwnContext h.2 ∧
    ∀ i, (request i).type = lit "http" → Good (request i) i (h.mine i) (h.2.state i)
  rely i h h' := h'.mine i = h.mine i ∧ h'.2.state i = h.2.state i
  refl _ _ := ⟨rfl, rfl⟩
  trans _ _ _ _ h1 h2 := ⟨h2.1.trans h1.1, h2.2.trans h1.2⟩

end

variable {request : ℕ → HttpRequest} {i : ℕ} {h : History}

theorem exec_state {j : ℕ} (hij : j ≠ i) (c : Auth.Call) (w : World) :
    (exec i c w).2.state j = w.state j := by
  cases c with
  | leave c => exact Function.update_of_ne hij ..
  | _ => rfl

theorem exec_handed (c : Auth.Call) (w : World) : (exec i c w).2.handed = w.handed := by
  cases c <;> rfl

/-- **One call** owes the others nothing but the request's own invariant. -/
theorem owes {c : Auth.Call} {r : Except GateExn (Auth.Resp c)} {w : World} (hi : (setting request).inv h)
    (he : (r, w) = exec i c h.2) (hown : (request i).type = lit "http" →
      Good (request i) i (h.mine i ++ [⟨i, c, r, h.2, w⟩]) (w.state i)) :
    (setting request).Owes i h (h.push i c r w) := by
  have hw : w = (exec i c h.2).2 := congrArg Prod.snd he
  refine ⟨⟨?_, fun j hj => ?_⟩, fun j hj => ⟨Hist.mine_push_of_ne hj .., ?_⟩⟩
  · rw [Hist.push_world, hw, OwnContext, exec_handed]
    exact hi.1
  · rcases eq_or_ne j i with rfl | hne
    · rw [Hist.mine_push_self]
      exact hown hj
    · have hs : (h.push i c r w).2.state j = h.2.state j := by
        rw [Hist.push_world, hw, exec_state hne]
      rw [Hist.mine_push_of_ne hne, hs]
      exact hi.2 j hj
  · rw [Hist.push_world, hw, exec_state hj]

/-- A request that does not come by HTTP has no invariant to keep. -/
theorem safe_other (hne : (request i).type ≠ lit "http") {A : Type} (p : Gate A) :
    ∀ h, Safe (setting request) i (fun _ _ => True) p h := by
  induction p with
  | ret a => exact fun _ => trivial
  | raise e => exact fun _ => trivial
  | call c k ih =>
    intro h h' _ hi r w ha
    rcases ha.2 with he | ⟨e, -, hf⟩
    · exact ⟨owes hi he fun hj => absurd hj hne, ih r _⟩
    · exact hf.elim

theorem safe_call {c : Auth.Call} {Q : Except GateExn (Auth.Resp c) → History → Prop}
    (hc : ∀ h', (setting request).rely i h h' → OwnContext h'.2 → ∀ r w, (r, w) = exec i c h'.2 →
      Good (request i) i (h.mine i ++ [⟨i, c, r, h'.2, w⟩]) (w.state i) ∧ Q r (h'.push i c r w)) :
    Safe (setting request) i Q (ask c) h := by
  refine Safe.invoke fun h' hr hi r w ha => ?_
  rcases ha.2 with he | ⟨e, -, hf⟩
  swap
  · exact hf.elim
  obtain ⟨hown, hq⟩ := hc h' hr hi.1 r w he
  refine ⟨owes hi he fun _ => ?_, hq⟩
  rw [hr.1]
  exact hown

/-! ### While the request is checked -/

theorem Checking.snoc {req : HttpRequest} {es : List Ev} (h : Checking req es) {e : Ev}
    (he : isCheck e.call = true) (ho : AsksOwn req e.call) : Checking req (es ++ [e]) := by
  intro e' h'
  rcases List.mem_append.1 h' with h' | h'
  · exact h e' h'
  · rw [List.mem_singleton.1 h']
    exact ⟨he, ho⟩

/-- A call of the checks. -/
theorem safe_checking {c : Auth.Call} (hc : isCheck c = true) (ho : AsksOwn (request i) c)
    (hch : Checking (request i) (h.mine i)) :
    Safe (setting request) i (fun r h' => Checking (request i) (h'.mine i) ∧
      ∃ b, (⟨i, c, r, b, h'.2⟩ : Ev) ∈ h'.mine i ∧ r = (exec i c b).1) (ask c) h := by
  refine safe_call fun h' hr _ r w he => ?_
  have hmine : (h'.push i c r w).mine i = h.mine i ++ [⟨i, c, r, h'.2, w⟩] := by
    rw [Hist.mine_push_self, hr.1]
  refine ⟨Or.inl (hch.snoc hc ho), ?_, h'.2, ?_, congrArg Prod.fst he⟩
  · rw [hmine]
    exact hch.snoc hc ho
  · rw [hmine]
    simp

theorem asksOwn_of {c : Auth.Call} (hc : ∀ b, c ≠ .token_self b) (req : HttpRequest) : AsksOwn req c :=
  fun b h => absurd h (hc b)

/-- A program that leaves a request in its checks, and refuses with an error status only. -/
def KeepsChecking (request : HttpRequest) (i : ℕ) {A : Type} (r : Except GateExn A) (h : History) :
    Prop :=
  Checking request (h.mine i) ∧ ∀ e, r = .error (.refused e) → 400 ≤ e.status

theorem safe_check_transport (rt : Runtime) (hch : Checking (request i) (h.mine i)) :
    Safe (setting request) i (KeepsChecking (request i) i) (_check_transport rt (request i)) h := by
  rw [_check_transport]
  split_ifs
  · exact ⟨hch, fun e he => by cases he; exact Nat.le_of_ble_eq_true rfl⟩
  · refine Safe.bind ((safe_checking rfl (asksOwn_of (by simp) _) hch).mono ?_)
    rintro r h' ⟨h'ch, b, -, hr⟩
    rcases hs : b.security i with _ | status
    · obtain rfl : r = .ok none := hr.trans (congrArg Except.ok hs)
      exact ⟨h'ch, fun e he => by cases he⟩
    · obtain rfl : r = .ok (some status) := hr.trans (congrArg Except.ok hs)
      have hstatus := b.security_status i status hs
      dsimp only
      split_ifs
      · exact ⟨h'ch, fun e he => by cases he; exact Nat.le_of_ble_eq_true rfl⟩
      · exact ⟨h'ch, fun e he => by cases he; exact Nat.le_of_ble_eq_true rfl⟩
      · refine ⟨h'ch, fun e he => ?_⟩
        cases he
        change 400 ≤ status
        omega

theorem safe_check_declared_length (max_body_bytes : ℕ) (hch : Checking (request i) (h.mine i)) :
    Safe (setting request) i (KeepsChecking (request i) i)
      (_check_declared_length max_body_bytes (request i)) h := by
  rw [_check_declared_length]
  rcases (request i).get (lit "content-length") with _ | declared
  · exact ⟨hch, fun e he => by cases he⟩
  · dsimp only
    split_ifs
    · rcases int declared with _ | n
      · exact ⟨hch, fun e he => by cases he⟩
      · dsimp only
        split_ifs
        · exact ⟨hch, fun e he => by cases he; exact Nat.le_of_ble_eq_true rfl⟩
        · exact ⟨hch, fun e he => by cases he⟩
    · exact ⟨hch, fun e he => by cases he⟩

/-- The backend's word on the bearer. -/
theorem safe_confirm {bearer : Str} (hb : bearer_from (request i) = some bearer)
    (hch : Checking (request i) (h.mine i)) :
    Safe (setting request) i (fun r h' => KeepsChecking (request i) i r h' ∧
      ∀ c, r = .ok c → Passed (request i) (h'.mine i) i c) (confirm bearer) h := by
  refine Safe.bind (Safe.attempt ((safe_checking rfl ?_ hch).mono ?_))
  · rintro b ⟨⟩
    exact hb
  rintro r h' ⟨h'ch, b, hmem, -⟩
  have hrefused : ∀ (status : ℕ) (code : ErrorCode) (message : Str) (headers : List (Str × Str)),
      400 ≤ status → Safe (setting request) i (fun r h' => KeepsChecking (request i) i r h' ∧
        ∀ c, r = .ok c → Passed (request i) (h'.mine i) i c)
        (refuse status code message headers) h' :=
    fun status code message headers hs => ⟨⟨h'ch, fun e he => by cases he; exact hs⟩, fun c hc => by cases hc⟩
  rcases r with e | me
  · cases e with
    | backend status =>
      dsimp only
      split_ifs <;> exact hrefused _ _ _ _ (by decide)
    | _ => exact hrefused _ _ _ _ (by decide)
  · dsimp only
    split_ifs with ht
    · exact hrefused _ _ _ _ (by decide)
    · refine ⟨⟨h'ch, fun e he => by cases he⟩, fun c hc => ?_⟩
      obtain rfl := Except.ok.inj hc
      exact ⟨hb, ⟨b, h'.2, hmem⟩, not_not.1 ht⟩

/-- **The checks**: they keep to themselves, and end well only with a confirmation of the request's
own bearer. -/
theorem safe_check (rt : Runtime) (max_body_bytes : ℕ) (hch : Checking (request i) (h.mine i)) :
    Safe (setting request) i (fun r h' => KeepsChecking (request i) i r h' ∧
      ∀ c, r = .ok c → Passed (request i) (h'.mine i) i c) (check rt max_body_bytes (request i)) h := by
  have hraise : ∀ {A : Type} (e : GateExn) {h' : History},
      KeepsChecking (request i) i (.error e : Except GateExn A) h' →
      KeepsChecking (request i) i (.error e : Except GateExn Confirmed) h' :=
    fun e h' hk => ⟨hk.1, fun r hr => hk.2 r (by cases hr; rfl)⟩
  refine Safe.bind ((safe_check_transport rt hch).mono fun r h1 h1ch => ?_)
  rcases r with e | u
  · exact ⟨hraise e h1ch, fun c hc => by cases hc⟩
  refine Safe.bind ((safe_check_declared_length max_body_bytes h1ch.1).mono fun r h2 h2ch => ?_)
  rcases r with e | u
  · exact ⟨hraise e h2ch, fun c hc => by cases hc⟩
  rcases hb : bearer_from (request i) with _ | bearer
  · exact ⟨⟨h2ch.1, fun e he => by cases he; exact Nat.le_of_ble_eq_true rfl⟩, fun c hc => by cases hc⟩
  refine Safe.bind ((safe_checking rfl (asksOwn_of (by simp) _) h2ch.1).mono ?_)
  rintro r h3 ⟨h3ch, b, -, rfl⟩
  have hclient : (exec i .client b).1 =
      if b.client i = true then Except.ok () else Except.error GateExn.other := rfl
  rw [hclient]
  split_ifs
  · exact safe_confirm hb h3ch
  · exact ⟨⟨h3ch, fun e he => by cases he⟩, fun c hc => by cases hc⟩

/-! ### Behind the gate -/

/-- A handler's call with the confirmation of its request. -/
theorem safe_through {c : Confirmed} (call : Auth.Call) (hu : UsesOnly c call)
    (ht : Through (request i) i (h.mine i) (h.2.state i) c) :
    Safe (setting request) i (fun r h' => Through (request i) i (h'.mine i) (h'.2.state i) c ∧
      ∃ b : World, OwnContext b ∧ b.state i = some c ∧ r = (exec i call b).1) (ask call) h := by
  refine safe_call fun h' hr hown r w he => ?_
  obtain ⟨hs, es', e, es'', heq, hch, hpass, htr, hleft, huses⟩ := ht
  have hstate : w.state i = some c := by
    have hw : w = (exec i call h'.2).2 := congrArg Prod.snd he
    rw [← hs, ← hr.2, hw]
    cases call with
    | leave d => exact hu.elim
    | _ => rfl
  have hgood : Through (request i) i (h.mine i ++ [⟨i, call, r, h'.2, w⟩]) (w.state i) c := by
    refine ⟨hstate, es', e, es'' ++ [⟨i, call, r, h'.2, w⟩], by rw [heq]; simp, hch, hpass, htr, hleft,
      fun e' he' => ?_⟩
    rcases List.mem_append.1 he' with he' | he'
    · exact huses e' he'
    · rw [List.mem_singleton.1 he']
      exact hu
  refine ⟨Or.inr (Or.inr ⟨c, hgood⟩), ?_, h'.2, hown, hr.2.trans hs, congrArg Prod.fst he⟩
  rw [Hist.mine_push_self, hr.1]
  exact hgood

/-- A tool that is listed for a scope is one that `dispatch` runs under it. -/
theorem mem_toolsFor {name : Str} {spec : ToolSpec} {scope : Scope}
    (hf : (SPECS.find? fun s => s.name == name) = some spec)
    (hs : scope_allows scope spec.scope = true) : name ∈ toolsFor scope := by
  have hname := List.find?_some hf
  rw [beq_iff_eq] at hname
  exact List.mem_map.2 ⟨spec, List.mem_filter.2 ⟨List.mem_of_find?_eq_some hf, hs⟩, hname⟩

/-- What a handler takes for the confirmation of its request: the one on its own request's state. -/
theorem safe_confirmed {c : Confirmed} (ht : Through (request i) i (h.mine i) (h.2.state i) c) :
    Safe (setting request) i (fun r h' => Through (request i) i (h'.mine i) (h'.2.state i) c ∧
      ∀ d, r = .ok d → d = c) _confirmed h := by
  refine Safe.bind ((safe_through .context trivial ht).mono ?_)
  rintro r h1 ⟨h1t, b, hown, -, rfl⟩
  change Safe _ _ _ (confirmed_from (b.handed i) >>= _) h1
  rcases hj : b.handed i with _ | j
  · exact ⟨h1t, fun d hd => by cases hd⟩
  obtain rfl := hown i j hj
  refine Safe.bind ((safe_through (.state j) trivial h1t).mono ?_)
  rintro r h2 ⟨h2t, b', -, hb', rfl⟩
  have hstate : (exec j (.state j) b').1 = .ok (some c) := congrArg Except.ok hb'
  rw [hstate]
  exact ⟨h2t, fun d hd => (Except.ok.inj hd).symm⟩

theorem safe_handle (m : Message) {c : Confirmed}
    (ht : Through (request i) i (h.mine i) (h.2.state i) c) :
    Safe (setting request) i (fun _ h' => Through (request i) i (h'.mine i) (h'.2.state i) c)
      (handle m) h := by
  cases m with
  | list_tools =>
    refine Safe.bind (Safe.attempt ((?_ : Safe (setting request) i
      (fun _ h' => Through (request i) i (h'.mine i) (h'.2.state i) c) list_tools h).mono
        fun r h' h't => ?_))
    · refine Safe.bind ((safe_confirmed ht).mono fun r h' h't => ?_)
      rcases r with e | d
      · exact h't.1
      · obtain rfl := h't.2 d rfl
        exact (safe_through (.listed _) rfl h't.1).mono fun r h'' h''t => h''t.1
    · rcases r with e | u <;> exact h't
  | call_tool name =>
    refine Safe.bind (Safe.attempt ((?_ : Safe (setting request) i
      (fun _ h' => Through (request i) i (h'.mine i) (h'.2.state i) c) _ h).mono
        fun r h' h't => ?_))
    · refine Safe.bind ((safe_confirmed ht).mono fun r h' h't => ?_)
      rcases r with e | d
      · exact h't.1
      obtain rfl := h't.2 d rfl
      dsimp only
      rw [dispatch]
      split
      · exact h't.1
      · next spec hf =>
        split_ifs with hs
        · exact (safe_through (.handler _ _) ⟨rfl, mem_toolsFor hf hs⟩ h't.1).mono
            fun r h'' h''t => h''t.1
        · exact h't.1
    · rcases r with e | u <;> exact h't

theorem safe_handleAll {c : Confirmed} : ∀ (ms : List Message) (h : History),
    Through (request i) i (h.mine i) (h.2.state i) c →
    Safe (setting request) i (fun _ h' => Through (request i) i (h'.mine i) (h'.2.state i) c)
      (handleAll ms) h
  | [], _, ht => ht
  | m :: ms, h, ht => Safe.bind ((safe_handle m ht).mono fun r h' h't => by
      rcases r with e | u
      · exact h't
      · exact safe_handleAll ms h' h't)

/-- How a request's thread ends: it was let through, or refused without an exception. -/
def Final (request : HttpRequest) (i : ℕ) (r : Except GateExn Unit) (h : History) : Prop :=
  (∃ c, Through request i (h.mine i) (h.2.state i) c) ∨ r = .ok () ∧ Refused request (h.mine i)

/-- A refusal that is sent. -/
theorem safe_send (e : Refusal) (hs : 400 ≤ e.status) (hch : Checking (request i) (h.mine i)) :
    Safe (setting request) i (Final (request i) i) (ask (.send e)) h := by
  refine safe_call fun h' hr _ r w he => ?_
  have href : Refused (request i) (h.mine i ++ [⟨i, .send e, r, h'.2, w⟩]) :=
    ⟨h.mine i, _, rfl, hch, e, rfl, hs⟩
  refine ⟨Or.inr (Or.inl href), Or.inr ⟨congrArg Prod.fst he, ?_⟩⟩
  rw [Hist.mine_push_self, hr.1]
  exact href

/-- The confirmation is left on the request's state, and the request goes to the transport. -/
theorem safe_pass {c : Confirmed} (ms : List Message) (hch : Checking (request i) (h.mine i))
    (hpass : Passed (request i) (h.mine i) i c) :
    Safe (setting request) i (Final (request i) i) (ask (.leave c) >>= fun _ => app ms) h := by
  refine Safe.bind ((safe_call (Q := fun r h' => r = .ok () ∧ h'.2.state i = some c ∧
    Checking (request i) (h'.mine i) ∧ Passed (request i) (h'.mine i) i c)
    fun h' hr _ r w he => ?_).mono ?_)
  · have hsnoc : Checking (request i) (h.mine i ++ [⟨i, .leave c, r, h'.2, w⟩]) :=
      hch.snoc rfl (asksOwn_of (by simp) _)
    have hw : w = (exec i (.leave c) h'.2).2 := congrArg Prod.snd he
    refine ⟨Or.inl hsnoc, congrArg Prod.fst he, ?_, ?_⟩
    · rw [Hist.push_world, hw]
      exact Function.update_self ..
    · rw [Hist.mine_push_self, hr.1]
      obtain ⟨b, a, hmem⟩ := hpass.answered
      exact ⟨hsnoc, hpass.bearer, ⟨b, a, List.mem_append_left _ hmem⟩, hpass.agent⟩
  · rintro r h1 ⟨rfl, hs1, hch1, hpass1⟩
    refine Safe.bind ((safe_call (Q := fun _ h' => Through (request i) i (h'.mine i) (h'.2.state i) c)
      fun h' hr _ r w he => ?_).mono fun r h2 h2t => ?_)
    · have hw : w = h'.2 := congrArg Prod.snd he
      have hthrough : Through (request i) i (h1.mine i ++ [⟨i, .transport, r, h'.2, w⟩])
          (w.state i) c := by
        refine ⟨?_, h1.mine i, _, [], rfl, hch1, hpass1, rfl, hr.2.trans hs1, by simp⟩
        rw [hw, hr.2, hs1]
      refine ⟨Or.inr (Or.inr ⟨c, hthrough⟩), ?_⟩
      rw [Hist.mine_push_self, hr.1]
      exact hthrough
    · rcases r with e | u
      · exact Or.inl ⟨c, h2t⟩
      · exact (safe_handleAll ms h2 h2t).mono fun r h3 h3t => Or.inl ⟨c, h3t⟩

/-- **The whole of a request.** -/
theorem safe_gate (rt : Runtime) (max_body_bytes : ℕ) (hhttp : (request i).type = lit "http")
    (ms : List Message) (hch : Checking (request i) (h.mine i)) :
    Safe (setting request) i (Final (request i) i) (call rt max_body_bytes (request i) ms) h := by
  rw [call, if_neg (not_not.2 hhttp)]
  refine Safe.bind (Safe.attempt ((safe_check rt max_body_bytes hch).mono fun r h' h'ch => ?_))
  obtain ⟨⟨hch', hstatus⟩, hpass⟩ := h'ch
  rcases r with e | c
  · cases e with
    | refused r => exact safe_send r (hstatus r rfl) hch'
    | unreachable => exact safe_send _ (by decide) hch'
    | backend status => exact safe_send _ (by decide) hch'
    | decode => exact safe_send _ (by decide) hch'
    | other => exact safe_send _ (by decide) hch'
  · exact safe_pass ms hch' (hpass c rfl)

/-! ### Every run -/

/-- The gate's threads at the start: one for each request, with nothing on any request's state. -/
def start (rt : Runtime) (max_body_bytes : ℕ) (request : ℕ → HttpRequest)
    (messages : ℕ → List Message) (w : World) : Config sig GateExn Unit World :=
  ⟨w, fun i => call rt max_body_bytes (request i) (messages i)⟩

/-- How often a request reached the transport. -/
def passes (es : List Ev) : ℕ := es.countP fun e => e.call = .transport

/-- How often it was answered by a refusal. -/
def refusals (es : List Ev) : ℕ := es.countP fun e => isSend e.call

/-- **What is asked of the gate**, about one request: the events of its thread, its state, and the
outcome of its thread if it has ended. -/
structure Confirmable (request : HttpRequest) (i : ℕ) (es : List Ev) (state : Option Confirmed)
    (ended : Option (Except GateExn Unit)) : Prop where
  /-- the backend is asked about the request's own bearer only -/
  own : ∀ e ∈ es, AsksOwn request e.call
  /-- the transport is invoked at most once -/
  once : passes es ≤ 1
  /-- only after a confirmation, which is on the state then and later, and is what the handlers use -/
  confirmed : ∀ es' e es'', es = es' ++ e :: es'' → e.call = .transport →
    ∃ c, Passed request es' i c ∧ e.before.state i = some c ∧ state = some c ∧
      refusals es = 0 ∧ ∀ e ∈ es'', UsesOnly c e.call
  /-- no handler runs but behind the transport -/
  handlers : passes es = 0 → ∀ e ∈ es, isCheck e.call = true ∨ isSend e.call = true
  /-- what the gate sends is an error -/
  errors : ∀ e ∈ es, ∀ r, e.call = .send r → 400 ≤ r.status
  /-- a request that is not let through is answered once, and its thread ends well -/
  answered : ∀ r, ended = some r → passes es = 0 → r = .ok () ∧ refusals es = 1

/-- The outcome of a program that has ended. -/
def outcome : Gate Unit → Option (Except GateExn Unit)
  | .ret a => some (.ok a)
  | .raise e => some (.error e)
  | .call _ _ => none

theorem passes_eq_zero {es : List Ev} (h : ∀ e ∈ es, isCheck e.call = true ∨ isSend e.call = true) :
    passes es = 0 := by
  refine List.countP_eq_zero.2 fun e he => ?_
  rcases h e he with h | h <;> intro hc <;> rw [decide_eq_true_iff] at hc <;> rw [hc] at h <;> cases h

theorem refusals_eq_zero {es : List Ev} (h : ∀ e ∈ es, isSend e.call = false) : refusals es = 0 :=
  List.countP_eq_zero.2 fun e he => by rw [h e he]; simp

theorem isSend_of_check {c : Auth.Call} (h : isCheck c = true) : isSend c = false := by
  cases c <;> first | rfl | cases h

theorem UsesOnly.notSend {c : Confirmed} {call : Auth.Call} (h : UsesOnly c call) :
    isSend call = false ∧ call ≠ .transport ∧ ∀ b, call ≠ .token_self b := by
  cases call <;> first | exact h.elim | exact ⟨rfl, by simp, by simp⟩

variable {req : HttpRequest} {es : List Ev} {state : Option Confirmed}
  {ended : Option (Except GateExn Unit)}

/-- A request under its checks has done nothing yet that is asked about. -/
theorem Checking.confirmable (h : Checking req es) (hended : ended = none) :
    Confirmable req i es state ended where
  own e he := (h e he).2
  once := by
    rw [passes_eq_zero fun e he => Or.inl (h e he).1]
    exact Nat.zero_le _
  confirmed es' e es'' heq htr := by
    have := (h e (by rw [heq]; simp)).1
    rw [htr] at this
    cases this
  handlers _ e he := Or.inl (h e he).1
  errors e he r hr := by
    have := (h e he).1
    rw [hr] at this
    cases this
  answered r hr := by
    rw [hended] at hr
    cases hr

theorem Refused.confirmable (h : Refused req es) (hended : ∀ r, ended = some r → r = .ok ()) :
    Confirmable req i es state ended := by
  obtain ⟨es', e, rfl, hch, r, hr, hs⟩ := h
  have hsend : isSend e.call = true := by
    rw [hr]
    rfl
  have hall : ∀ e' ∈ es' ++ [e], isCheck e'.call = true ∨ isSend e'.call = true := by
    intro e' he'
    rcases List.mem_append.1 he' with he' | he'
    · exact Or.inl (hch e' he').1
    · rw [List.mem_singleton.1 he']
      exact Or.inr hsend
  refine ⟨fun e' he' => ?_, ?_, fun l e' l' heq htr => ?_, fun _ => hall, fun e' he' r' hr' => ?_,
    fun o ho _ => ⟨hended o ho, ?_⟩⟩
  · rcases List.mem_append.1 he' with he' | he'
    · exact (hch e' he').2
    · rw [List.mem_singleton.1 he', hr]
      exact asksOwn_of (by simp) _
  · rw [passes_eq_zero hall]
    exact Nat.zero_le _
  · have := hall e' (by rw [heq]; simp)
    rw [htr] at this
    rcases this with h | h <;> cases h
  · rcases List.mem_append.1 he' with he' | he'
    · have := (hch e' he').1
      rw [hr'] at this
      cases this
    · rw [List.mem_singleton.1 he', hr] at hr'
      obtain rfl := Call.send.inj hr'
      exact hs
  · have h0 : refusals es' = 0 := refusals_eq_zero fun e' he' => isSend_of_check (hch e' he').1
    rw [refusals, List.countP_append, ← refusals, h0, List.countP_singleton, hsend]
    rfl

theorem Through.confirmable {c : Confirmed} (h : Through req i es state c) :
    Confirmable req i es state ended := by
  obtain ⟨hstate, es', e, es'', rfl, hch, hpass, htr, hleft, huses⟩ := h
  have hbefore : ∀ e ∈ es', isCheck e.call = true ∨ isSend e.call = true :=
    fun e he => Or.inl (hch e he).1
  have hafter : passes es'' = 0 :=
    List.countP_eq_zero.2 fun e he => by simpa using (huses e he).notSend.2.1
  have hone : passes (es' ++ e :: es'') = 1 := by
    have hb := passes_eq_zero hbefore
    rw [passes, List.countP_append, List.countP_cons, ← passes, ← passes, hb, hafter, htr]
    rfl
  have hnone : ∀ e' ∈ es' ++ e :: es'', isSend e'.call = false := by
    intro e' he'
    rcases List.mem_append.1 he' with he' | he'
    · exact isSend_of_check (hch e' he').1
    · rcases List.mem_cons.1 he' with rfl | he'
      · rw [htr]
        rfl
      · exact (huses e' he').notSend.1
  refine ⟨fun e' he' => ?_, hone.le, fun l e' l' heq htr' => ?_, fun h0 => by omega,
    fun e' he' r hr => ?_, fun o _ h0 => by omega⟩
  · rcases List.mem_append.1 he' with he' | he'
    · exact (hch e' he').2
    · rcases List.mem_cons.1 he' with rfl | he'
      · rw [htr]
        exact asksOwn_of (by simp) _
      · exact asksOwn_of (huses e' he').notSend.2.2 _
  · -- the transport was invoked once, so this is where
    have hsplit : l = es' ∧ e' = e ∧ l' = es'' := by
      rcases List.append_eq_append_iff.1 heq with ⟨m, hl, hr⟩ | ⟨m, hl, hr⟩
      · rcases m with _ | ⟨x, m⟩
        · rw [List.append_nil] at hl
          rw [List.nil_append] at hr
          obtain ⟨rfl, rfl⟩ := List.cons.inj hr
          exact ⟨hl, rfl, rfl⟩
        · obtain ⟨rfl, rfl⟩ := List.cons.inj hr
          exact absurd htr' (huses e' (by simp)).notSend.2.1
      · rcases m with _ | ⟨x, m⟩
        · rw [List.append_nil] at hl
          rw [List.nil_append] at hr
          obtain ⟨rfl, rfl⟩ := List.cons.inj hr
          exact ⟨hl.symm, rfl, rfl⟩
        · obtain ⟨rfl, rfl⟩ := List.cons.inj hr
          have := (hch e' (by rw [hl]; simp)).1
          rw [htr'] at this
          cases this
    obtain ⟨rfl, rfl, rfl⟩ := hsplit
    exact ⟨c, hpass, hleft, hstate, refusals_eq_zero hnone, huses⟩
  · have := hnone e' he'
    rw [hr] at this
    cases this

/-- **Nothing passes the gate unconfirmed**: in every run of any requests, each request that comes by
HTTP is `Confirmable`, if the SDK hands its handlers that request. -/
theorem gate_confirms (rt : Runtime) (max_body_bytes : ℕ) (request : ℕ → HttpRequest)
    (messages : ℕ → List Message) (w : World) (hown : OwnContext w)
    {g : Config sig GateExn Unit World} {tr : List Ev}
    (hrun : Run machine (start rt max_body_bytes request messages w) tr g) (i : ℕ)
    (hhttp : (request i).type = lit "http") :
    Confirmable (request i) i (Hist.mine (hist tr g) i) (g.world.state i) (outcome (g.threads i)) := by
  have hsafe := Setting.run (R := setting request)
    (Q := fun i r h => (request i).type = lit "http" → Final (request i) i r h)
    (fun i r h h' hr hf hi => by
      have := hf hi
      rwa [Final, hr.1, hr.2])
    (g := start rt max_body_bytes request messages w)
    (⟨hown, fun i _ => Or.inl (by simp [Hist.mine, Checking])⟩)
    (fun j => by
      by_cases hj : (request j).type = lit "http"
      · exact (safe_gate rt max_body_bytes hj (messages j) (by simp [Hist.mine, Checking])).mono
          fun r h hf _ => hf
      · exact (safe_other hj _ _).mono fun r h _ hi => absurd hi hj) hrun
  obtain ⟨hinv, hthreads⟩ := hsafe
  have hth := hthreads i
  have hgood := hinv.2 i hhttp
  rcases ht : g.threads i with a | e | ⟨c, k⟩
  · rw [ht] at hth
    rcases hth hhttp with ⟨c, hc⟩ | ⟨hr, href⟩
    · exact hc.confirmable
    · exact href.confirmable fun r hr' => by
        obtain rfl := Option.some.inj hr'
        exact hr
  · rw [ht] at hth
    rcases hth hhttp with ⟨c, hc⟩ | ⟨hr, -⟩
    · exact hc.confirmable
    · cases hr
  · rcases hgood with h | h | ⟨d, h⟩
    · exact h.confirmable rfl
    · exact h.confirmable fun r hr => by cases hr
    · exact h.confirmable

/-- A POST with a bearer, from an agent that lists the sites. -/
def agentRequest : HttpRequest :=
  ⟨lit "http", lit "POST", [(lit "authorization", lit "Bearer pb_s")]⟩

/-- A backend that knows every bearer as an agent token. -/
def agentWorld : World where
  state _ := none
  handed i := some i
  security _ := none
  security_status _ _ h := by cases h
  client _ := true
  backend _ _ := .ok ⟨lit "tok_0", lit "t", .agent, .read_only, lit "ann", none⟩
  asked := 0
  transport _ := .ok ()
  tool _ := .ok ()

theorem gate_confirms_agent : ∃ tr g,
    Run machine (start plainRuntime 65536 (fun _ => agentRequest) (fun _ => [.call_tool (lit "list_sites")])
      agentWorld) tr g ∧
    Confirmable agentRequest 0 (Hist.mine (hist tr g) 0) (g.world.state 0) (outcome (g.threads 0)) := by
  obtain ⟨g, hg⟩ := Option.isSome_iff_exists.1 (by decide +kernel : (machine.play
    [0, 1, 0, 1, 0, 0, 1, 0, 0, 1, 0, 0]
    (start plainRuntime 65536 (fun _ => agentRequest) (fun _ => [.call_tool (lit "list_sites")])
      agentWorld)).isSome = true)
  obtain ⟨tr, hrun⟩ := Machine.play_run hg
  have hown : OwnContext agentWorld := fun i request h => (Option.some.inj h).symm
  exact ⟨tr, g, hrun, gate_confirms _ _ _ _ _ hown hrun 0 rfl⟩

end PaperBoxing.Mcp.Confirmed
