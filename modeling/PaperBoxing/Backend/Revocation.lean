import PaperBoxing.Backend.Service

/-! # Dead secrets

A secret is dead when every row with its digest is revoked, the case that there is none included. Rows
age and new rows have new digests, so a dead secret stays dead over a whole life (`Later.dead`); and
each of the ways in which a secret ends makes it dead (`Ends.dead`). -/

namespace PaperBoxing.Backend.Revocation

open PaperBoxing.Lib PaperBoxing.Lib.Action PaperBoxing.Lib.Program PaperBoxing.Lib.Text
open PaperBoxing.Lib.Threads PaperBoxing.Lib.Tables
open PaperBoxing.Common.Scopes PaperBoxing.Common.Schema
open PaperBoxing.Backend PaperBoxing.Backend.Db PaperBoxing.Backend.Calls
open PaperBoxing.Backend.Accounts PaperBoxing.Backend.Frames
open PaperBoxing.Backend.Bearer PaperBoxing.Backend.App PaperBoxing.Backend.Service

variable {cfg : Config} {rt : Runtime} {hasher : Hasher} {w0 w w' : World} {i : ℕ} {digest : Str}

/-- Every row with the digest is revoked. -/
def Dead (digest : Str) (d : Database) : Prop :=
  ∀ (id : Str) (r : TokenRec), d.tokens[id]? = some r → r.secret_sha256 = digest → r.revoked_at ≠ none

/-- **Generated secrets are fresh**: the digests of the secrets that are drawn from now on differ from
each other, and from those in the database. -/
structure FreshSecrets (rt : Runtime) (w0 : World) : Prop where
  apart : ∀ (i k j l : ℕ) (digest : Str), w0.drawn i ≤ k → w0.drawn j ≤ l →
    drawnDigest rt w0 i k = some digest → drawnDigest rt w0 j l = some digest → i = j ∧ k = l
  new : ∀ (i k : ℕ) (digest : Str), w0.drawn i ≤ k → drawnDigest rt w0 i k = some digest →
    w0.db.issued digest = false

/-- A digest that was issued before the life began, or was drawn since. -/
def Spent (rt : Runtime) (w0 w : World) (digest : Str) : Prop :=
  w0.db.issued digest = true ∨
    ∃ i k, w0.drawn i ≤ k ∧ k < w.drawn i ∧ drawnDigest rt w0 i k = some digest

/-- The digest of a row is spent. -/
theorem spent_of_row (h : Later rt w0 w) {id : Str} {r : TokenRec} (hr : w.db.tokens[id]? = some r) :
    Spent rt w0 w r.secret_sha256 := by
  rcases h.rows id r hr with ⟨r0, h0, ha⟩ | ⟨i, k, h1, h2, hd⟩
  · exact Or.inl (issued_iff.2 ⟨id, r0, h0, ha.secret.symm⟩)
  · exact Or.inr ⟨i, k, h1, h2, hd⟩

/-- A spent digest is not drawn again. -/
theorem Spent.not_drawn (fresh : FreshSecrets rt w0) (hl : Later rt w0 w) (h : Spent rt w0 w digest)
    {k : ℕ} (hk : w.drawn i ≤ k) : drawnDigest rt w0 i k ≠ some digest := by
  intro hd
  have hk0 : w0.drawn i ≤ k := (hl.drawn i).trans hk
  rcases h with h | ⟨j, l, h1, h2, hd'⟩
  · exact absurd ((fresh.new i k digest hk0 hd).symm.trans h) Bool.false_ne_true
  · obtain ⟨rfl, rfl⟩ := fresh.apart i k j l digest hk0 h1 hd hd'
    omega

/-- **A dead secret stays dead.** -/
theorem Later.dead (fresh : FreshSecrets rt w0) (hl : Later rt w0 w) (hs : Spent rt w0 w digest)
    (h : Later rt w w') (hdead : Dead digest w.db) : Dead digest w'.db := by
  intro id r' hr' hd
  rcases h.rows id r' hr' with ⟨r, hr, ha⟩ | ⟨i, k, h1, -, hk⟩
  · have hrev := hdead id r hr (ha.secret.symm.trans hd)
    rwa [ha.revoked hrev]
  · rw [hd, drawnDigest, hl.oracle] at hk
    exact absurd hk (hs.not_drawn fresh hl h1)

/-- **A dead secret has no bearer.** -/
theorem resolve_dead {header : Option Str} (h : carried rt header = some digest)
    (hdead : Dead digest w.db) : (run (exec i) (resolve_bearer cfg rt header) w).1 = .ok none := by
  rcases hi : w.db.issued digest with _ | _
  · rw [run_resolve_unknown h hi]
  · obtain ⟨id, r, hr, rfl⟩ := issued_iff.1 hi
    rw [run_resolve_row h hr, honoured, if_pos (hdead id r hr rfl)]

/-! ### How a secret ends -/

/-- **The events that end a secret.** -/
inductive Ends (digest : Str) : Event (sections cfg rt hasher).sig Exn World → Prop where
  /-- its session signs out -/
  | logout {i : ℕ} {actor : Actor} {answer : Response} {w w' : World} {r : TokenRec}
      (row : w.db.tokens[actor.token.id]? = some r) (secret : r.secret_sha256 = digest) :
      Ends digest ⟨i, .inl (.serve actor .logout), .ok answer, w, w'⟩
  /-- its token is revoked -/
  | revoke_token {i : ℕ} {actor : Actor} {id : Str} {answer : Response} {w w' : World} {r : TokenRec}
      (row : w.db.tokens[id]? = some r) (secret : r.secret_sha256 = digest) :
      Ends digest ⟨i, .inl (.serve actor (.revoke_token id)), .ok answer, w, w'⟩
  /-- another session of its user changes the password -/
  | change_password {i : ℕ} {actor : Actor} {body : ChangePasswordRequest} {answer : Response}
      {w w' : World} {id : Str} {r : TokenRec} (row : w.db.tokens[id]? = some r)
      (secret : r.secret_sha256 = digest) (session : r.type = .session)
      (user : r.user_id = actor.user.id) (other : id ≠ actor.token.id) :
      Ends digest ⟨i, .inl (.serve actor (.change_password body)), .ok answer, w, w'⟩
  /-- its owner's account is removed -/
  | delete_user {i : ℕ} {actor : Actor} {answer : Response} {w w' : World} {id : Str} {r : TokenRec}
      (row : w.db.tokens[id]? = some r) (secret : r.secret_sha256 = digest) :
      Ends digest ⟨i, .inl (.serve actor (.delete_user r.user_id)), .ok answer, w, w'⟩
  /-- it is presented while expired -/
  | presented {i : ℕ} {name : RouteName} {header : Option Str} {answer : Except Exn Actor}
      {w w' : World} {id : Str} {r : TokenRec} (row : w.db.tokens[id]? = some r)
      (secret : r.secret_sha256 = digest) (bearer : carried rt header = some digest)
      (late : expired r ((w.oracle i).now (w.drawn i)) = true) :
      Ends digest ⟨i, .inl (.authorise name header), answer, w, w'⟩
  /-- its row is purged -/
  | purge {i : ℕ} {answer : Except Exn ℕ} {w w' : World} {id : Str} {r : TokenRec}
      (row : w.db.tokens[id]? = some r) (secret : r.secret_sha256 = digest)
      (purged : w'.db.tokens[id]? = none) :
      Ends digest ⟨i, .inl .purge, answer, w, w'⟩

/-- A row that is revoked is the only one with its digest. -/
theorem dead_of_revoked {d : Database} {id : Str} {r : TokenRec} (h : d.tokens[id]? = some r)
    (hrev : r.revoked_at ≠ none) : Dead r.secret_sha256 d := by
  intro id' r' h' hd
  obtain rfl := d.secrets id' id r' r h' h hd
  rw [h] at h'
  obtain rfl := Option.some.inj h'
  exact hrev

/-- A row that is gone was the only one with its digest. -/
theorem dead_of_gone (fresh : FreshSecrets rt w0) (hl : Later rt w0 w) (h : Later rt w w') {id : Str}
    {r : TokenRec} (hr : w.db.tokens[id]? = some r) (hgone : w'.db.tokens[id]? = none) :
    Dead r.secret_sha256 w'.db := by
  intro id' r' hr' hd
  rcases h.rows id' r' hr' with ⟨r0, h0, ha⟩ | ⟨i, k, h1, -, hk⟩
  · obtain rfl := w.db.secrets id' id r0 r h0 hr (ha.secret.symm.trans hd)
    rw [hr'] at hgone
    cases hgone
  · rw [hd, drawnDigest, hl.oracle] at hk
    exact absurd hk ((spent_of_row hl hr).not_drawn fresh hl h1)

/-- **A row that is to be revoked is revoked after**, whether it was before or not. -/
theorem revoke_token_revokes {d : Database} {id : Str} {r : TokenRec} (now : IsoTime.Instant)
    (h : d.tokens[id]? = some r) : Dead r.secret_sha256 (Db.revoke_token id now d).2 := by
  obtain ⟨r', hr', ha, -⟩ := exec_row_stays (q := .revoke_token id now) h rfl
  rw [← ha.secret]
  refine dead_of_revoked hr' ?_
  by_cases hrev : r.revoked_at = none
  · have hself : some r' = some _ := hr'.symm.trans (revoke_token_self h hrev)
    rw [Option.some.inj hself]
    exact Option.some_ne_none _
  · rwa [ha.revoked hrev]

theorem logout_dead {actor : Actor} {r : TokenRec} {answer : Except Exn Response}
    (h : w.db.tokens[actor.token.id]? = some r)
    (hr : run (exec i) (Routes.logout actor) w = (answer, w')) : Dead r.secret_sha256 w'.db := by
  obtain rfl : _ = w' := congrArg Prod.snd hr
  rw [Routes.logout, Accounts.logout]
  exact revoke_token_revokes _ h

theorem revoke_token_dead {id : Str} {r : TokenRec} {answer : Response}
    (h : w.db.tokens[id]? = some r)
    (hr : run (exec i) (Routes.revoke_token rt id) w = (.ok answer, w')) :
    Dead r.secret_sha256 w'.db := by
  rw [Routes.revoke_token] at hr
  obtain ⟨revoked, w1, hrun, hr⟩ := run_bind_inv _ hr
  rcases revoked with _ | _
  · cases (Prod.mk.inj hr).1
  obtain rfl : w1 = w' := (Prod.mk.inj hr).2
  have hq : run (exec i) (query (.token_by_id id)) w = (.ok (some (_token id r)), w) := by
    rw [run_query, Db.exec, token_by_id, h]
    rfl
  rw [revoke_agent_token, run_bind_of_ok _ hq] at hrun
  dsimp only at hrun
  split_ifs at hrun
  · cases (Prod.mk.inj hrun).1
  · obtain rfl : _ = w1 := congrArg Prod.snd hrun
    exact revoke_token_revokes _ h

theorem change_password_dead {actor : Actor} {body : ChangePasswordRequest} {answer : Response}
    {id : Str} {r : TokenRec} (h : w.db.tokens[id]? = some r) (session : r.type = .session)
    (user : r.user_id = actor.user.id) (other : id ≠ actor.token.id)
    (hr : run (exec i) (Routes.change_password hasher actor body) w = (.ok answer, w')) :
    Dead r.secret_sha256 w'.db := by
  rw [Routes.change_password] at hr
  obtain ⟨verified, w1, hrun, hr⟩ := run_bind_inv _ hr
  obtain ⟨r1, h1, ha1, -⟩ := run_row_stays (i := i)
    (toRoutes (uses_verify_password actor.user body.current)) h
  rw [hrun] at h1
  rcases verified with _ | _
  · cases (Prod.mk.inj hr).1
  rw [if_neg (by decide)] at hr
  obtain ⟨_, w2, hrun, hr⟩ := run_bind_inv _ hr
  obtain ⟨r2, h2, ha2, -⟩ := run_row_stays (i := i) (p := Accounts.change_password hasher actor.user
    body.new) (toRoutes (uses_change_hash actor.user body.new)) h1
  rw [hrun] at h2
  obtain ⟨_, w3, hrun, hr⟩ := run_bind_inv _ hr
  obtain rfl : w3 = w' := (Prod.mk.inj hr).2
  have ha := ha1.trans ha2
  obtain rfl : _ = w3 := congrArg Prod.snd hrun
  rw [← ha.secret]
  -- the bulk revocation finds the row as it now is
  change Dead r2.secret_sha256 (Db.revoke_other_sessions actor.user.id actor.token.id _ w2.db).2
  obtain ⟨r3, h3, ha3, -⟩ := exec_row_stays (q := .revoke_other_sessions actor.user.id actor.token.id
    ((w2.oracle i).now (w2.drawn i))) h2 rfl
  rw [← ha3.secret]
  refine dead_of_revoked h3 ?_
  by_cases hrev : r2.revoked_at = none
  · have hisOther : isOther actor.user.id actor.token.id id r2 = true := by
      simp [isOther, ha.user, ha.type, session, user, other, hrev]
    rw [Option.some.inj (h3.symm.trans (revoke_others_self h2 hisOther))]
    exact Option.some_ne_none _
  · rwa [ha3.revoked hrev]

theorem presented_dead {name : RouteName} {header : Option Str} {id : Str} {r : TokenRec}
    {answer : Except Exn Actor} (h : w.db.tokens[id]? = some r)
    (bearer : carried rt header = some r.secret_sha256)
    (late : expired r ((w.oracle i).now (w.drawn i)) = true)
    (hr : run (exec i) (Routes.requires cfg rt name header) w = (answer, w')) :
    Dead r.secret_sha256 w'.db := by
  have hrun : run (exec i) (resolve_bearer cfg rt header) w = _ := run_resolve_row bearer h
  rw [honoured] at hrun
  obtain rfl : _ = w' := congrArg Prod.snd hr
  rw [Routes.requires]
  by_cases hrev : r.revoked_at = none
  · rw [if_neg (not_not.2 hrev), if_pos late] at hrun
    rw [run_bind_of_ok _ hrun]
    exact revoke_token_revokes _ h
  · rw [if_pos hrev] at hrun
    rw [run_bind_of_ok _ hrun]
    exact dead_of_revoked h hrev

/-- A secret that ends was issued. -/
theorem Ends.spent {e : Event (sections cfg rt hasher).sig Exn World} (hl : Later rt w0 e.before)
    (h : Later rt e.before e.after) (he : Ends digest e) : Spent rt w0 e.after digest := by
  have hs : Spent rt w0 e.before digest := by
    cases he with
    | logout row secret => exact secret ▸ spent_of_row hl row
    | revoke_token row secret => exact secret ▸ spent_of_row hl row
    | change_password row secret => exact secret ▸ spent_of_row hl row
    | delete_user row secret => exact secret ▸ spent_of_row hl row
    | presented row secret => exact secret ▸ spent_of_row hl row
    | purge row secret => exact secret ▸ spent_of_row hl row
  rcases hs with hs | ⟨i, k, h1, h2, hd⟩
  · exact Or.inl hs
  · exact Or.inr ⟨i, k, h1, h2.trans_le (h.drawn i), hd⟩

/-- **What ends a secret makes it dead.** -/
theorem Ends.dead (fresh : FreshSecrets rt w0) {e : Event (sections cfg rt hasher).sig Exn World}
    (hl : Later rt w0 e.before) (h : Later rt e.before e.after)
    (ha : (loop cfg rt hasher).Answers e.tid e.call e.before e.resp e.after) (he : Ends digest e) :
    Dead digest e.after.db := by
  rcases ha.2 with hexec | ⟨_, _, hf⟩
  swap
  · exact hf.elim
  cases he with
  | logout row secret =>
    rw [← secret]
    exact logout_dead row hexec.symm
  | revoke_token row secret =>
    rw [← secret]
    exact revoke_token_dead row hexec.symm
  | change_password row secret session user other =>
    rw [← secret]
    exact change_password_dead row session user other hexec.symm
  | @delete_user i actor answer w w' id r row secret =>
    rw [← secret]
    refine dead_of_gone fresh hl h row ?_
    rcases run_delete_user rt i r.user_id w with ⟨_, hr⟩ | ⟨-, -, hr⟩
    · cases (Prod.mk.inj (hexec.trans hr)).1
    · obtain rfl : w' = _ := (Prod.mk.inj (hexec.trans hr)).2
      rw [Option.eq_none_iff_forall_ne_some]
      intro r' hr'
      obtain ⟨hr', hne⟩ := delete_user_row.1 hr'
      rw [row] at hr'
      exact hne (Option.some.inj hr' ▸ rfl)
  | presented row secret bearer late =>
    rw [← secret] at bearer ⊢
    exact presented_dead row bearer late hexec.symm
  | purge row secret purged =>
    rw [← secret]
    exact dead_of_gone fresh hl h row purged

/-- **A dead token never comes back.** Over a whole life of the service, whatever requests are served
in whatever interleaving, however often the process starts, and whatever the clocks show: once an
event ends a secret, `resolve_bearer` finds no bearer for it at any later point. -/
theorem dead_for_ever (fresh : FreshSecrets rt w0) {pre post : Trace cfg rt hasher}
    {e : Event (sections cfg rt hasher).sig Exn World}
    (life : Life cfg rt hasher w0 (pre ++ e :: post) w) (ends : Ends digest e) :
    ∀ v, v = e.after ∨ (∃ e' ∈ post, v = e'.before ∨ v = e'.after) ∨ v = w →
      ∀ i header, carried rt header = some digest →
        (run (Calls.exec i) (resolve_bearer cfg rt header) v).1 = .ok none := by
  have hmem : e ∈ pre ++ e :: post := List.mem_append_right _ List.mem_cons_self
  have hlater := life.later
  have hbefore := hlater.before e hmem
  have hstep := hlater.step e hmem
  have hdead : Dead digest e.after.db := ends.dead fresh hbefore hstep (life.events e hmem).2
  have hpost : ∀ e' ∈ post, Later rt e.after e'.before := fun e' he' =>
    (List.pairwise_cons.1 (List.pairwise_append.1 hlater.order).2.1).1 e' he'
  intro v hv i header hc
  refine resolve_dead hc (Later.dead fresh (hbefore.trans hstep) (ends.spent hbefore hstep) ?_ hdead)
  rcases hv with rfl | ⟨e', he', rfl | rfl⟩ | rfl
  · exact .refl _
  · exact hpost e' he'
  · exact (hpost e' he').trans
      (hlater.step e' (List.mem_append_right _ (List.mem_cons_of_mem _ he')))
  · exact hlater.after e hmem

/-! ### A session that is presented too late -/

/-- An account with a session that has run out, and generators that never repeat. -/
def lateWorld : World :=
  let start : IsoTime.Instant := ⟨62135596800000000, IsoTime.unixStart_lt⟩
  let digest : Str := apartRuntime.sha256 ((utf8 (lit "pb_s")).getD [])
  { smallWorld (insert_token ⟨lit "tok_0", lit "session", .session, SESSION_SCOPE, lit "usr_0", start,
        none, some start, none⟩ digest
      (insert_user ⟨lit "usr_0", lit "ann", lit "0$secret", start⟩ .empty).2).2 with
    oracle := fun i => { counting i with
      token_urlsafe := fun _ n => List.replicate (Nat.pair i n) (ofChar 'a') } }

theorem utf8_replicate (n : ℕ) :
    utf8 (List.replicate n (ofChar 'a')) = some (List.replicate n 97) := by
  induction n with
  | zero => rfl
  | succ n ih =>
    rw [List.replicate_succ, utf8, ih]
    rfl

theorem drawnDigest_late (i k : ℕ) : drawnDigest apartRuntime lateWorld i k =
    some (apartRuntime.sha256 ([112, 98, 95] ++ List.replicate (Nat.pair i k) 97)) := by
  change (utf8 (lit "pb_" ++ List.replicate (Nat.pair i k) (ofChar 'a'))).map _ = _
  have hpb : utf8 (lit "pb_") = some [112, 98, 95] := by decide +kernel
  rw [utf8_append, hpb, utf8_replicate]
  rfl

theorem late_fresh : FreshSecrets apartRuntime lateWorld where
  apart i k j l digest _ _ h h' := by
    rw [drawnDigest_late] at h h'
    have hbytes := apartRuntime_injective (Option.some.inj (h.trans h'.symm))
    have hlength := congrArg List.length hbytes
    simp only [List.length_append, List.length_replicate] at hlength
    exact Nat.pair_eq_pair.1 (by omega)
  new i k digest _ h := by
    rw [drawnDigest_late] at h
    obtain rfl := Option.some.inj h
    rw [Bool.eq_false_iff]
    intro hi
    obtain ⟨id, r, hr, hd⟩ := issued_iff.1 hi
    have hall : ∀ e ∈ lateWorld.db.tokens.toList,
        e.2.secret_sha256 = apartRuntime.sha256 [112, 98, 95, 115] := by decide +kernel
    have hbytes := apartRuntime_injective ((hall (id, r) (mem_toList.2 hr)).symm.trans hd)
    have hlast := congrArg (List.drop 3) hbytes
    rcases hn : Nat.pair i k with _ | n
    · rw [hn] at hlast
      cases hlast
    · rw [hn, List.replicate_succ] at hlast
      exact absurd (List.cons.inj hlast).1 (by decide)

theorem dead_for_ever_late : ∃ r w1, run (Calls.exec 0) (Routes.requires smallConfig apartRuntime
      .list_sites (some (lit "Bearer pb_s"))) lateWorld = (r, w1) ∧
    (run (Calls.exec 1) (resolve_bearer smallConfig apartRuntime (some (lit "Bearer pb_s"))) w1).1 =
      .ok none := by
  have life : Life smallConfig apartRuntime plainHasher lateWorld ([] ++ [_]) _ :=
    .presentation lateWorld (some (lit "Bearer pb_s")) .list_sites fun _ h => by cases h
  generalize hr : run (Calls.exec 0) (Routes.requires smallConfig apartRuntime
    Routes.Request.list_sites.route (some (lit "Bearer pb_s"))) lateWorld = x at life
  obtain ⟨r, w1⟩ := x
  have row : lateWorld.db.tokens[lit "tok_0"]? = some ⟨apartRuntime.sha256 [112, 98, 95, 115],
      lit "session", .session, SESSION_SCOPE, lit "usr_0",
      .ofInstant ⟨62135596800000000, IsoTime.unixStart_lt⟩,
      none, some (.ofInstant ⟨62135596800000000, IsoTime.unixStart_lt⟩), none⟩ := by decide +kernel
  have bearer : carried apartRuntime (some (lit "Bearer pb_s")) =
    some (apartRuntime.sha256 [112, 98, 95, 115]) := by decide +kernel
  have hdead := dead_for_ever late_fresh life (.presented row rfl bearer (by decide +kernel))
  exact ⟨r, w1, hr, hdead w1 (Or.inl rfl) 1 _ bearer⟩

end PaperBoxing.Backend.Revocation
