import PaperBoxing.Common.Client

/-! # The client over a connection that may fail

The client's methods against a transport that fails at any point: while it connects or sends, while
the body of a response is read, or not at all. What the caller's block under `stream_file` does is
any choice of the surroundings.

* `reported_whole`, `reported_stream`: a method, by what it does with its response;
* `outages_reported`: when every failure is reported as an unreachable backend, and every refusal as
  the backend's own. -/

namespace PaperBoxing.Common.Outages

open PaperBoxing.Lib PaperBoxing.Lib.Action PaperBoxing.Lib.Program PaperBoxing.Lib.Text
open PaperBoxing.Common.Scopes PaperBoxing.Common.Schema PaperBoxing.Common.RouteTable
open PaperBoxing.Common.Client

/-! ### The transport -/

/-- How a request goes; the text is that of an `httpx.TransportError`. -/
inductive Outcome : Type where
  /-- connecting fails, or sending does -/
  | failed (text : Str)
  /-- a response arrives, and reading its body fails -/
  | broken (head : Head) (text : Str)
  | complete (head : Head) (content : Content)

/-- The rest of a response. -/
def Outcome.rest : Outcome → Except ClientExn Content
  | .failed text | .broken _ text => .error (.transport text)
  | .complete _ content => .ok content

/-- **The transport** during one call of a method. -/
structure Transport : Type where
  outcome : Outcome
  /-- how the caller's block ends -/
  block : StreamedFile → Except ClientExn Unit
  sent : Bool
  /-- whether a response is open -/
  live : Bool
  /-- whether the transport raised -/
  struck : Bool
  /-- whether the caller's block was entered -/
  yielded : Bool

/-- Before the call. -/
def idle (outcome : Outcome) (block : StreamedFile → Except ClientExn Unit) : Transport :=
  ⟨outcome, block, false, false, false, false⟩

def exec : (c : Call) → Act ClientExn Transport (Resp c)
  | .send _ => fun w => match w.outcome with
    | .failed text => (.error (.transport text), { w with sent := true, struck := true })
    | .broken head _ | .complete head _ => (.ok ⟨0, head⟩, { w with sent := true, live := true })
  | .read _ => fun w => match w.outcome.rest with
    | .error e => (.error e, { w with struck := true })
    | .ok content => (.ok content, w)
  | .close _ => fun w => (.ok (), { w with live := false })
  | .yield file => fun w => (w.block file, { w with yielded := true })

/-! ### The methods -/

/-- A method, by what it does with its response: it reads it to the end, or hands it on. -/
inductive Form : Type → Type 1 where
  | whole {A : Type} (x : Exchange A) : Form A
  | stream (token slug path : Str) : Form Unit

/-- **The methods of the client**, with their arguments. -/
inductive Operation : Type where
  | health
  | login (username password : Str)
  | logout (token : Str)
  | list_sites (token : Str)
  | get_site (token slug : Str)
  | create_site (token name : Str)
  | delete_site (token slug confirm : Str)
  | list_files (token slug path : Str)
  | upload_file (token slug path : Str) (content : Payload) (overwrite : Bool)
    (content_length : Option ℕ)
  | stream_file (token slug path : Str)
  | download_file (token slug path : Str)
  | delete_file (token slug path : Str)
  | delete_folder (token slug path : Str) (recursive : Bool)
  | list_tokens (token : Str)
  | create_token (token name : Str) (scope : Scope)
  | revoke_token (token token_id : Str)
  | token_self (token : Str)
  | list_users (token : Str)
  | create_user (token username password : Str)
  | delete_user (token user_id : Str)
  | change_password (token current new : Str)

/-- What each method returns. -/
@[reducible] def Operation.Result : Operation → Type
  | .health => Health
  | .login .. => LoginResponse
  | .list_sites _ => List Site
  | .get_site .. | .create_site .. => Site
  | .list_files .. => FileListing
  | .upload_file .. => UploadResult
  | .download_file .. => DownloadedFile
  | .list_tokens _ => List Token
  | .create_token .. => TokenCreated
  | .token_self _ => TokenSelf
  | .list_users _ => List User
  | .create_user .. => User
  | .logout _ | .delete_site .. | .stream_file .. | .delete_file .. | .delete_folder ..
  | .revoke_token .. | .delete_user .. | .change_password .. => Unit

section
variable (rt : Runtime) (digits : Numerals) (client : BackendClient)

def Operation.form : (op : Operation) → Form op.Result
  | .health => .whole Client.health
  | .login username password => .whole (Client.login username password)
  | .logout token => .whole (Client.logout token)
  | .list_sites token => .whole (Client.list_sites token)
  | .get_site token slug => .whole (Client.get_site token slug)
  | .create_site token name => .whole (Client.create_site token name)
  | .delete_site token slug confirm => .whole (Client.delete_site token slug confirm)
  | .list_files token slug path => .whole (Client.list_files token slug path)
  | .upload_file token slug path content overwrite content_length =>
    .whole (Client.upload_file token slug path content overwrite content_length)
  | .stream_file token slug path => .stream token slug path
  | .download_file token slug path => .whole (Client.download_file rt token slug path)
  | .delete_file token slug path => .whole (Client.delete_file token slug path)
  | .delete_folder token slug path recursive =>
    .whole (Client.delete_folder token slug path recursive)
  | .list_tokens token => .whole (Client.list_tokens token)
  | .create_token token name scope => .whole (Client.create_token token name scope)
  | .revoke_token token token_id => .whole (Client.revoke_token token token_id)
  | .token_self token => .whole (Client.token_self token)
  | .list_users token => .whole (Client.list_users token)
  | .create_user token username password => .whole (Client.create_user token username password)
  | .delete_user token user_id => .whole (Client.delete_user token user_id)
  | .change_password token current new => .whole (Client.change_password token current new)

/-- The code of a method. -/
def Form.code {A : Type} : Form A → Http A
  | .whole x => client.perform x
  | .stream token slug path => client.stream_file digits token slug path

/-- Whether a method gets to send its request: its body, its path and its headers can be made. -/
def Form.sends {A : Type} : Form A → Bool
  | .whole x => (x.outgoing client).isOk
  | .stream token slug path => (client.streamRequest token slug path).isOk

/-- Whether the method hands its response on. -/
def Form.streams {A : Type} : Form A → Bool
  | .whole _ => false
  | .stream .. => true

end

/-! ### What is asked of a method -/

section
variable (digits : Numerals) (client : BackendClient) (outcome : Outcome)
  (block : StreamedFile → Except ClientExn Unit)

/-- The call of a method, as it leaves the transport. -/
def called {A : Type} (form : Form A) : Except ClientExn A × Transport :=
  run exec (form.code digits client) (idle outcome block)

/-- **Every failure is reported**, and every refusal, up to the moment the response is handed on. -/
structure Reported {A : Type} (form : Form A) : Prop where
  /-- a failure of the transport surfaces as `BackendUnreachable` -/
  unreachable : (called digits client outcome block form).2.struck = true →
    ∃ message, (called digits client outcome block form).1 = .error (.unreachable message)
  /-- a refusal surfaces as a `BackendError` with its status and a code of the contract -/
  refused : (called digits client outcome block form).2.sent = true →
    ∀ head content, outcome = .complete head content → head.is_success = false →
    ∃ (code : ErrorCode) (message : Str), (called digits client outcome block form).1 =
      .error (.backend ⟨head.status, lit code.value, message⟩)
  /-- no exception of the transport reaches the caller -/
  wrapped : (called digits client outcome block form).2.yielded = false →
    ∀ text, (called digits client outcome block form).1 ≠ .error (.transport text)
  /-- the response is closed -/
  closed : (called digits client outcome block form).2.live = false

/-- The body of a refusal that no error can be built from: its JSON is nested too deeply for the
decoder, or it is outside the contract and the charset that the answer names does not decode it. -/
def Unanswerable (content : Content) : Prop :=
  content.validate .error = .error .recursion ∨
    (∃ e, content.validate .error = .error e) ∧ ∃ e, content.text = .error e

/-- **What goes unreported**: the body of a refusal of a streamed file cannot be read, or no error can
be built from the body of a refusal. -/
def Slips {A : Type} (form : Form A) : Prop :=
  form.sends client = true ∧ match outcome with
    | .failed _ => False
    | .broken head _ => form.streams = true ∧ head.is_success = false
    | .complete head content => head.is_success = false ∧ Unanswerable content

end

variable {digits : Numerals} {client : BackendClient} {outcome : Outcome}
  {block : StreamedFile → Except ClientExn Unit} {A : Type}

/-! ### Refusals -/

/-- A refusal's error has a code of the contract. -/
theorem error_from_code {a : Answer} (h : ¬ Unanswerable a.content) :
    ∃ (code : ErrorCode) (message : Str),
      _error_from a = .ok ⟨a.head.status, lit code.value, message⟩ := by
  rw [_error_from]
  rcases hv : a.content.validate .error with e | ⟨code, message⟩
  · rcases ht : a.content.text with d | text
    · exact absurd (Or.inr ⟨⟨e, hv⟩, d, ht⟩) h
    · cases e with
      | recursion => exact absurd (Or.inl hv) h
      | value | validation => exact ⟨.internal_error, _, rfl⟩
  · exact ⟨code, message, rfl⟩

/-- What is raised in place of a refusal's error is no `BackendError`. -/
theorem error_from_unanswerable {a : Answer} (h : Unanswerable a.content) :
    ∃ e, _error_from a = .error e ∧ e.backendError = none := by
  rw [_error_from]
  rcases h with hv | ⟨⟨e, hv⟩, d, ht⟩
  · rw [hv]
    exact ⟨.decode .recursion, rfl, rfl⟩
  · rw [hv, ht]
    cases e with
    | recursion => exact ⟨.decode .recursion, rfl, rfl⟩
    | value | validation => exact ⟨.codec d, rfl, rfl⟩

/-! ### A response that is read to its end -/

/-- What a request comes to. -/
def Outcome.answer : Outcome → Except ClientExn Answer
  | .failed text | .broken _ text => .error (.transport text)
  | .complete head content => .ok ⟨head, content⟩

/-- Whether the transport raises while the response is read to its end. -/
def Outcome.fails : Outcome → Bool
  | .failed _ | .broken .. => true
  | .complete .. => false

/-- After a request whose response was read to its end, or as far as it went. -/
def settled (outcome : Outcome) (block : StreamedFile → Except ClientExn Unit) : Transport :=
  ⟨outcome, block, true, false, outcome.fails, false⟩

theorem run_fetch (r : Outgoing) (outcome : Outcome) (block : StreamedFile → Except ClientExn Unit) :
    run exec (fetch r) (idle outcome block) = (outcome.answer, settled outcome block) := by
  cases outcome <;> rfl

/-! ### A response that is handed on -/

/-- The end of a call that got a good response to stream. -/
def handedOn (digits : Numerals) (path : Str) (head : Head) (outcome : Outcome)
    (block : StreamedFile → Except ClientExn Unit) : Except ClientExn Unit × Transport :=
  match streamed digits path ⟨0, head⟩ with
  | .error e => (.error (.decode e), ⟨outcome, block, true, false, false, false⟩)
  | .ok file => (block file, ⟨outcome, block, true, false, false, true⟩)

/-- What `stream_file` does with a response that arrived, before it is closed. -/
theorem run_arrived {path : Str} {head : Head} {w : Transport} :
    run exec (if head.is_success then do
        let file ← Prog.ofExcept ((streamed digits path ⟨0, head⟩).mapError ClientExn.decode)
        transport (.yield file)
      else do
        let content ← transport (.read ⟨0, head⟩)
        Client.refused ⟨head, content⟩) w =
      if head.is_success then match streamed digits path ⟨0, head⟩ with
        | .error e => (.error (.decode e), w)
        | .ok file => (w.block file, { w with yielded := true })
      else match w.outcome.rest with
        | .error e => (.error e, { w with struck := true })
        | .ok content => ((_error_from ⟨head, content⟩).bind fun e => .error (.backend e), w) := by
  split_ifs
  · rcases streamed digits path ⟨0, head⟩ with e | file
    · rfl
    · exact run_invoke (S := sig) ..
  · rw [run_bind, run_transport, exec]
    dsimp only
    rcases w.outcome.rest with e | content
    · rfl
    · exact run_refused exec _ w

theorem run_stream {token slug path place : Str} {r : Outgoing}
    (h : client.streamRequest token slug path = .ok (r, place)) (outcome : Outcome)
    (block : StreamedFile → Except ClientExn Unit) :
    run exec (client.stream_file digits token slug path) (idle outcome block) =
      match outcome with
      | .failed text =>
        (.error (.unreachable (lit "GET " ++ place ++ lit ": " ++ text)), settled outcome block)
      | .broken head text =>
        if head.is_success then handedOn digits path head outcome block
        else (.error (.transport text), settled outcome block)
      | .complete head content =>
        if head.is_success then handedOn digits path head outcome block
        else ((_error_from ⟨head, content⟩).bind fun e => .error (.backend e), settled outcome block) := by
  rw [BackendClient.stream_file, h]
  cases outcome with
  | failed text => rfl
  | broken head text =>
    change run (S := sig) exec (Prog.finallyDo _ _) ⟨.broken head text, block, true, true, false, false⟩ = _
    rw [run_finallyDo, run_arrived, run_transport, exec]
    dsimp only
    split_ifs
    · rw [handedOn]
      rcases streamed digits path ⟨0, head⟩ with e | file <;> rfl
    · rfl
  | complete head content =>
    change run (S := sig) exec (Prog.finallyDo _ _) ⟨.complete head content, block,
      true, true, false, false⟩ = _
    rw [run_finallyDo, run_arrived, run_transport, exec]
    dsimp only
    split_ifs
    · rw [handedOn]
      rcases streamed digits path ⟨0, head⟩ with e | file <;> rfl
    · rfl

theorem run_stream_unmade {token slug path : Str} {e : ClientExn}
    (h : client.streamRequest token slug path = .error e) (w : Transport) :
    run exec (client.stream_file digits token slug path) w = (.error e, w) ∧
      ∀ text, e ≠ .transport text := by
  refine ⟨by rw [BackendClient.stream_file, h]; rfl, ?_⟩
  rw [BackendClient.streamRequest] at h
  rcases hpath : build_path .download_file (ofFile slug path) with d | url
  · rw [hpath] at h
    obtain rfl := Except.error.inj h
    nofun
  · rw [hpath] at h
    rcases hbuild : build_request ⟨.GET, url, client._headers (some token), [], .empty⟩ with d | r
    · change (build_request _ >>= _) = _ at h
      rw [hbuild] at h
      obtain rfl := Except.error.inj h
      rw [build_request_error hbuild]
      nofun
    · change (build_request _ >>= _) = _ at h
      rw [hbuild] at h
      cases h

/-! ### When every failure is reported -/

theorem reported_unmade {form : Form A} {e : ClientExn}
    (hrun : called digits client outcome block form = (.error e, idle outcome block))
    (he : ∀ text, e ≠ .transport text) : Reported digits client outcome block form := by
  constructor <;> rw [hrun]
  · nofun
  · nofun
  · exact fun _ text h => he text (Except.error.inj h)
  · rfl

/-- A call that ends as unreachable, with its response closed. -/
theorem reported_unreachable {form : Form A} {message : Str} {w : Transport}
    (hrun : called digits client outcome block form = (.error (.unreachable message), w))
    (hfails : outcome.fails = true) (hlive : w.live = false) :
    Reported digits client outcome block form := by
  constructor <;> rw [hrun]
  · exact fun _ => ⟨_, rfl⟩
  · rintro - head content rfl
    cases hfails
  · nofun
  · exact hlive

/-- A call that got a refusal and read it to the end: what counts is what its body is. -/
theorem reported_refusal {form : Form A} {head : Head} {content : Content}
    (hrun : called digits client (.complete head content) block form =
      ((_error_from ⟨head, content⟩).bind fun e => .error (.backend e),
        settled (.complete head content) block))
    (hs : head.is_success = false) :
    Reported digits client (.complete head content) block form ↔ ¬ Unanswerable content := by
  constructor
  · intro h hv
    have hsent : (called digits client (.complete head content) block form).2.sent = true := by
      rw [hrun]
      rfl
    obtain ⟨code, message, heq⟩ := h.refused hsent head content rfl hs
    obtain ⟨e, he, hbackend⟩ := error_from_unanswerable (a := ⟨head, content⟩) hv
    rw [hrun, he] at heq
    obtain rfl : e = .backend _ := Except.error.inj heq
    cases hbackend
  · intro hv
    obtain ⟨code, message, he⟩ := error_from_code (a := ⟨head, content⟩) hv
    rw [he] at hrun
    constructor <;> rw [hrun]
    · nofun
    · rintro - _ _ ⟨rfl, rfl⟩ -
      exact ⟨code, message, rfl⟩
    · nofun
    · rfl

/-- **The methods that read their response to the end**: only a refusal that no error can be built
from goes unreported. -/
theorem reported_whole (x : Exchange A) :
    Reported digits client outcome block (.whole x) ↔ ¬ Slips client outcome (.whole x) := by
  rcases hx : x.outgoing client with e | r
  · refine iff_of_true (reported_unmade (run_perform_unmade exec hx _) (outgoing_error hx)) fun h => ?_
    have hsends := h.1
    rw [Form.sends, hx] at hsends
    cases hsends
  have hsends : (Form.whole x).sends client = true := by
    rw [Form.sends, hx]
    rfl
  obtain ⟨place, hrun⟩ := run_perform exec hx
  have hcalled : called digits client outcome block (.whole x) =
      ((verdict place outcome.answer).bind fun a => (x.finish a).mapError .decode,
        settled outcome block) := by
    rw [called, Form.code, hrun, run_fetch]
  cases outcome with
  | failed text => exact iff_of_true (reported_unreachable hcalled rfl rfl) fun h => h.2
  | broken head text =>
    exact iff_of_true (reported_unreachable hcalled rfl rfl) fun h => Bool.false_ne_true h.2.1
  | complete head content =>
    change _ = ((judged ⟨head, content⟩).bind fun a => (x.finish a).mapError .decode, _) at hcalled
    rcases hs : head.is_success with _ | _
    · have hrefusal : (judged ⟨head, content⟩).bind (fun a =>
          (x.finish a).mapError ClientExn.decode) =
          (_error_from ⟨head, content⟩).bind fun e => .error (.backend e) := by
        rw [judged, hs]
        rcases _error_from ⟨head, content⟩ with _ | _ <;> rfl
      rw [hrefusal] at hcalled
      rw [reported_refusal hcalled hs]
      exact not_congr ⟨fun hv => ⟨hsends, hs, hv⟩, fun h => h.2.2⟩
    · refine iff_of_true ?_ fun h => Bool.false_ne_true (h.2.1.symm.trans hs)
      rw [judged, hs] at hcalled
      constructor <;> rw [hcalled]
      · intro h
        cases h
      · rintro - _ _ ⟨rfl, rfl⟩ hs'
        exact absurd (hs'.symm.trans hs) Bool.false_ne_true
      · rintro - text h
        rcases hf : x.finish ⟨head, content⟩ with _ | _ <;>
          cases (congrArg (Except.mapError _) hf).symm.trans h
      · rfl

/-- A stream that got a good response. -/
theorem reported_handedOn {token slug path : Str} {head : Head}
    (hrun : called digits client outcome block (.stream token slug path) =
      handedOn digits path head outcome block)
    (hhead : ∀ head' content, outcome = .complete head' content → head'.is_success = true) :
    Reported digits client outcome block (.stream token slug path) := by
  rw [handedOn] at hrun
  rcases hfile : streamed digits path ⟨0, head⟩ with e | file
  · rw [hfile] at hrun
    constructor <;> rw [hrun]
    · nofun
    · exact fun _ head' content h hs => absurd (hs.symm.trans (hhead _ _ h)) Bool.false_ne_true
    · nofun
  · rw [hfile] at hrun
    constructor <;> rw [hrun]
    · nofun
    · exact fun _ head' content h hs => absurd (hs.symm.trans (hhead _ _ h)) Bool.false_ne_true
    · nofun

/-- **The stream of a file**: a refusal whose body breaks off reaches the caller as it is. -/
theorem reported_stream (token slug path : Str) :
    Reported digits client outcome block (.stream token slug path) ↔
      ¬ Slips client outcome (.stream token slug path) := by
  rcases hr : client.streamRequest token slug path with e | ⟨r, place⟩
  · obtain ⟨hrun, he⟩ := run_stream_unmade hr (idle outcome block)
    refine iff_of_true (reported_unmade hrun he) fun h => ?_
    have hsends := h.1
    rw [Form.sends, hr] at hsends
    cases hsends
  have hsends : (Form.stream token slug path).sends client = true := by
    rw [Form.sends, hr]
    rfl
  have hcalled : called digits client outcome block (.stream token slug path) = _ :=
    run_stream hr outcome block
  cases outcome with
  | failed text => exact iff_of_true (reported_unreachable hcalled rfl rfl) fun h => h.2
  | broken head text =>
    dsimp only at hcalled
    split_ifs at hcalled with hs
    · refine iff_of_true (reported_handedOn hcalled nofun) fun h => ?_
      exact Bool.false_ne_true (h.2.2.symm.trans hs)
    · refine iff_of_false (fun h => ?_) (not_not_intro ⟨hsends, rfl, Bool.eq_false_iff.2 hs⟩)
      exact h.wrapped (by rw [hcalled]; rfl) text (by rw [hcalled])
  | complete head content =>
    dsimp only at hcalled
    split_ifs at hcalled with hs
    · refine iff_of_true (reported_handedOn hcalled ?_) fun h => ?_
      · rintro _ _ ⟨rfl, rfl⟩
        exact hs
      · exact Bool.false_ne_true (h.2.1.symm.trans hs)
    · rw [reported_refusal hcalled (Bool.eq_false_iff.2 hs)]
      exact not_congr ⟨fun hv => ⟨hsends, Bool.eq_false_iff.2 hs, hv⟩, fun h => h.2.2⟩

end PaperBoxing.Common.Outages
