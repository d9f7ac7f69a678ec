import PaperBoxing.Backend.App

/-! # Sliding expiry

A session is accepted as long as no gap between its presentations reaches the length of a session,
and an agent token always (`gap_rule`), whatever the routes answer and whatever else is asked in
between, while no route revokes the token or removes its owner. A session's next expiry has to be a
date of the calendar: where it is not, moving it raises (`gap_rule_overflow`). -/

namespace PaperBoxing.Backend.Sessions

open PaperBoxing.Lib PaperBoxing.Lib.Action PaperBoxing.Lib.Program PaperBoxing.Lib.Text
open PaperBoxing.Lib.IsoTime PaperBoxing.Lib.Tables PaperBoxing.Common.Scopes
open PaperBoxing.Common.Schema PaperBoxing.Backend PaperBoxing.Backend.Db PaperBoxing.Backend.Calls
open PaperBoxing.Backend.Accounts PaperBoxing.Backend.Alone PaperBoxing.Backend.Frames
open PaperBoxing.Backend.Routes PaperBoxing.Backend.Bearer PaperBoxing.Backend.App

section
variable (cfg : Config) (rt : Runtime) (hasher : Hasher)

/-- The world after requests, one after another. -/
def after : List Asked → World → World
  | [], w => w
  | a :: as, w => after as (a.answer cfg rt hasher w).2

/-- Whether a request presents the secret with the digest, on a route that is not public. -/
def presents (digest : Str) (a : Asked) : Bool := !a.isLogin && carried rt a.header == some digest

/-- **Whether `resolve_bearer` accepts** the header of a request. -/
def accepted (a : Asked) (w : World) : Bool :=
  match (a.resolved cfg rt w).1 with
  | .ok (some _) => true
  | _ => false

/-- The times at which the secret is presented. -/
def times (digest : Str) : List Asked → World → List Instant
  | [], _ => []
  | a :: as, w =>
    (if presents rt digest a then [a.time w] else []) ++
      times digest as (a.answer cfg rt hasher w).2

/-- Whether the token `id` is neither revoked nor removed between two worlds. -/
def spares (id : Str) (w w' : World) : Bool :=
  match w.db.tokens[id]?, w'.db.tokens[id]? with
  | none, _ => true
  | some _, none => false
  | some r, some r' => r.revoked_at.isSome || r'.revoked_at.isNone

/-- The world in which the route of a request is served: for all but the public route, the one its
dependency leaves. -/
def served (a : Asked) (w : World) : World := if a.isLogin then w else (a.admitted cfg rt w).2

/-- **No route revokes the token or removes its owner.** -/
def sparesAll (id : Str) : List Asked → World → Bool
  | [], _ => true
  | a :: as, w =>
    spares id (served cfg rt a w) (a.answer cfg rt hasher w).2 &&
      sparesAll id as (a.answer cfg rt hasher w).2

/-- **Every gap is less than the length of a session.** -/
def gapsBelow (length : ℕ) (times : List Instant) : Prop :=
  times.IsChain fun s t => (t.micros : ℤ) - s.micros < length

instance (length : ℕ) (times : List Instant) : Decidable (gapsBelow length times) := by
  unfold gapsBelow
  infer_instance

end

variable {cfg : Config} {rt : Runtime} {hasher : Hasher} {w : World}

theorem after_append (as bs : List Asked) (w : World) :
    after cfg rt hasher (as ++ bs) w = after cfg rt hasher bs (after cfg rt hasher as w) := by
  induction as generalizing w with
  | nil => rfl
  | cons a as ih => exact ih _

/-! ### One request -/

/-- **A request that does not present the secret leaves the row to its route.** -/
theorem served_row {a : Asked} {id : Str} {r : TokenRec} (hr : w.db.tokens[id]? = some r)
    (ha : presents rt r.secret_sha256 a = false) :
    (served cfg rt a w).db.tokens[id]? = some r := by
  rw [served]
  split_ifs with hl
  · exact hr
  have hcar : carried rt a.header ≠ some r.secret_sha256 := by
    intro hc
    rw [presents, hc, Bool.eq_false_iff.2 hl] at ha
    simp at ha
  rw [(admitted_cases a).1, Asked.resolved]
  rcases hp : parse_bearer a.header with _ | secret
  · rw [run_resolve_bare hp]
    exact hr
  rcases hu : utf8 secret with _ | bytes
  · rw [run_resolve_unencodable hp hu]
    exact hr
  have hd : carried rt a.header = some (rt.sha256 bytes) := by rw [carried, hp, Option.bind_some, hu]; rfl
  rcases hi : w.db.issued (rt.sha256 bytes) with _ | _
  · rw [run_resolve_unknown hd hi]
    exact hr
  · obtain ⟨id', r', hr', hs⟩ := issued_iff.1 hi
    rw [run_resolve_row (hs ▸ hd) hr']
    refine (honoured_other ?_).trans hr
    rintro rfl
    rw [hr] at hr'
    rw [Option.some.inj hr', hs] at hcar
    exact hcar hd

/-- **What the route of a request makes of a row it spares**: it ages, its expiry stays, and it is not
revoked. -/
theorem answer_row {a : Asked} {id : Str} {r : TokenRec}
    (hr : (served cfg rt a w).db.tokens[id]? = some r)
    (hs : spares id (served cfg rt a w) (a.answer cfg rt hasher w).2 = true) :
    ∃ r', (a.answer cfg rt hasher w).2.db.tokens[id]? = some r' ∧ Aged r r' ∧
      r'.expires_at = r.expires_at ∧ (r.revoked_at = none → r'.revoked_at = none) := by
  obtain ⟨r', hr', hrev⟩ : ∃ r', (a.answer cfg rt hasher w).2.db.tokens[id]? = some r' ∧
      (r.revoked_at = none → r'.revoked_at = none) := by
    rw [spares, hr] at hs
    rcases h : (a.answer cfg rt hasher w).2.db.tokens[id]? with _ | r'
    · rw [h] at hs
      cases hs
    · rw [h] at hs
      refine ⟨r', rfl, fun hn => ?_⟩
      change (r.revoked_at.isSome || r'.revoked_at.isNone) = true at hs
      rw [hn] at hs
      exact Option.isNone_iff_eq_none.1 hs
  suffices Aged r r' ∧ r'.expires_at = r.expires_at from ⟨r', hr', this.1, this.2, hrev⟩
  rcases hl : a.isLogin with _ | _
  · rw [served, hl] at hr
    rcases answer_cases cfg rt hasher w hl with
      ⟨e, h⟩ | ⟨actor, w', h, hw⟩
    · rw [if_neg Bool.false_ne_true, h, hr'] at hr
      obtain rfl := Option.some.inj hr
      exact ⟨Aged.refl _, rfl⟩
    · rw [if_neg Bool.false_ne_true, h] at hr
      rw [hw] at hr'
      exact serve_row actor a.request hr hr'
  · rw [served, hl, if_pos rfl] at hr
    obtain ⟨body, hb⟩ := isLogin_true hl
    have huses : Uses (only forRoutes) (Routes.login cfg rt hasher body) := uses_login_route body
    obtain ⟨r1, h1, ha1, he1⟩ := run_row_stays (i := a.tid) huses hr
    rw [answer_login hb, h1] at hr'
    obtain rfl := Option.some.inj hr'
    exact ⟨ha1, he1⟩

/-! ### The gap rule -/

theorem add_micros {t e : Instant} {n : ℕ} (h : t.add n = some e) : e.micros = t.micros + n := by
  unfold Instant.add ofMicros at h
  split_ifs at h
  rw [← Option.some.inj h]

/-- **What the row of a session says** of the times it was presented, its issue being the first. -/
structure Standing (length : ℕ) (ts : List Instant) (t : Instant) (r : TokenRec) : Prop where
  session : r.type = .session
  last : ts.getLast? = some t
  live : gapsBelow length ts → r.revoked_at = none ∧
    ∃ e, t.add length = some e ∧ r.expires_at = some (.ofInstant e)
  dead : ¬ gapsBelow length ts → r.revoked_at ≠ none

theorem Standing.aged {length : ℕ} {ts : List Instant} {t : Instant} {r r' : TokenRec}
    (h : Standing length ts t r) (ha : Aged r r') (he : r'.expires_at = r.expires_at)
    (hrev : r.revoked_at = none → r'.revoked_at = none) : Standing length ts t r' where
  session := ha.type.trans h.session
  last := h.last
  live hg := ⟨hrev (h.live hg).1, he ▸ (h.live hg).2⟩
  dead hg := by rw [ha.revoked (h.dead hg)]; exact h.dead hg

/-- A row that has expired, by the expiry that was stored last. -/
theorem expired_iff {r : TokenRec} {e : Instant} (now : Instant) (h : r.expires_at = some (.ofInstant e)) :
    expired r now = true ↔ e.micros ≤ now.micros := by
  rw [expired, h, _dt, Option.map_some, instant_ofInstant]
  simp

/-- One more presentation keeps the gaps below the length or not. -/
theorem gapsBelow_concat {length : ℕ} {ts : List Instant} {t t' : Instant}
    (hl : ts.getLast? = some t) : gapsBelow length (ts ++ [t']) ↔
      gapsBelow length ts ∧ t'.micros < t.micros + length := by
  rw [gapsBelow, gapsBelow, List.isChain_append]
  constructor
  · rintro ⟨h1, -, h2⟩
    have := h2 t hl t' rfl
    exact ⟨h1, by omega⟩
  · rintro ⟨h1, h2⟩
    refine ⟨h1, List.isChain_singleton _, fun s hs u hu => ?_⟩
    rw [hl] at hs
    obtain rfl := Option.some.inj hs
    obtain rfl := Option.some.inj hu
    omega

theorem presents_iff {digest : Str} {a : Asked} : presents rt digest a = true ↔
    a.isLogin = false ∧ carried rt a.header = some digest := by
  rw [presents, Bool.and_eq_true, Bool.not_eq_true', beq_iff_eq]

/-- **A presentation**: what `resolve_bearer` makes of the row of the secret. -/
theorem served_presented (cfg : Config) {a : Asked} {id : Str} {r : TokenRec} (hr : w.db.tokens[id]? = some r)
    (ha : presents rt r.secret_sha256 a = true) :
    (served cfg rt a w).db = (honoured cfg id r (a.time w) w.db).2 ∧
      (a.resolved cfg rt w).1 = (honoured cfg id r (a.time w) w.db).1 := by
  obtain ⟨hl, hc⟩ := presents_iff.1 ha
  have hrun : run (exec a.tid) (resolve_bearer cfg rt a.header) w = _ := run_resolve_row hc hr
  rw [served, hl, if_neg Bool.false_ne_true, (admitted_cases a).1, Asked.resolved, hrun]
  exact ⟨rfl, rfl⟩

/-- **A session is accepted when the gaps stay below its length**, and its expiry slides. -/
theorem session_presented {a : Asked} {id : Str} {r : TokenRec} {ts : List Instant} {t : Instant}
    (hr : w.db.tokens[id]? = some r) (h : Standing (days cfg.session_days) ts t r)
    (ha : presents rt r.secret_sha256 a = true)
    (hrep : (a.time w).add (days cfg.session_days) ≠ none) :
    (accepted cfg rt a w = true ↔ gapsBelow (days cfg.session_days) (ts ++ [a.time w])) ∧
    ∃ r', (served cfg rt a w).db.tokens[id]? = some r' ∧ r'.secret_sha256 = r.secret_sha256 ∧
      Standing (days cfg.session_days) (ts ++ [a.time w]) (a.time w) r' := by
  obtain ⟨hdb, hres⟩ := served_presented cfg hr ha
  have hlast : (ts ++ [a.time w]).getLast? = some (a.time w) := by simp
  rw [accepted, hres, hdb]
  by_cases hg : gapsBelow (days cfg.session_days) ts
  swap
  · -- it is revoked already
    have hdead := h.dead hg
    have hg' : ¬ gapsBelow (days cfg.session_days) (ts ++ [a.time w]) :=
      fun hc => hg ((gapsBelow_concat h.last).1 hc).1
    rw [honoured, if_pos hdead]
    exact ⟨iff_of_false Bool.false_ne_true hg', r, hr, rfl,
      ⟨h.session, hlast, fun hc => absurd hc hg', fun _ => hdead⟩⟩
  obtain ⟨hlive, e, he, hexp⟩ := h.live hg
  rw [honoured, if_neg (not_not.2 hlive)]
  by_cases hx : expired r (a.time w) = true
  · -- it is presented expired, and ended
    have hg' : ¬ gapsBelow (days cfg.session_days) (ts ++ [a.time w]) := fun hc => by
      have h1 := ((gapsBelow_concat h.last).1 hc).2
      have h2 := (expired_iff (a.time w) hexp).1 hx
      rw [add_micros he] at h2
      omega
    rw [if_pos hx]
    exact ⟨iff_of_false Bool.false_ne_true hg', _, revoke_token_self hr hlive, rfl,
      ⟨h.session, hlast, fun hc => absurd hc hg', fun _ => Option.some_ne_none _⟩⟩
  · -- it is accepted, and slides
    have hg' : gapsBelow (days cfg.session_days) (ts ++ [a.time w]) := by
      refine (gapsBelow_concat h.last).2 ⟨hg, ?_⟩
      have h2 := mt (expired_iff (a.time w) hexp).2 hx
      rw [add_micros he] at h2
      omega
    rw [if_neg hx]
    obtain ⟨u, hu⟩ := Option.ne_none_iff_exists'.1 (w.db.owners id r hr)
    obtain ⟨e', he'⟩ := Option.ne_none_iff_exists'.1 hrep
    rw [hu, h.session]
    dsimp only
    rw [he']
    exact ⟨iff_of_true rfl hg', _, touch_token_session hr, rfl,
      ⟨h.session, hlast, fun _ => ⟨hlive, e', he', rfl⟩, fun hc => absurd hg' hc⟩⟩

/-- **Requests keep what the row of a session says**, with the presentations among them added. -/
theorem session_after {id digest : Str} (as : List Asked) (w : World) (r : TokenRec)
    (ts : List Instant) (t : Instant) (hr : w.db.tokens[id]? = some r)
    (hd : r.secret_sha256 = digest) (h : Standing (days cfg.session_days) ts t r)
    (hs : sparesAll cfg rt hasher id as w = true)
    (hrep : ∀ t ∈ times cfg rt hasher digest as w, t.add (days cfg.session_days) ≠ none) :
    ∃ r' t', (after cfg rt hasher as w).db.tokens[id]? = some r' ∧ r'.secret_sha256 = digest ∧
      Standing (days cfg.session_days) (ts ++ times cfg rt hasher digest as w) t' r' := by
  induction as generalizing w r ts t with
  | nil => exact ⟨r, t, hr, hd, by rwa [times, List.append_nil]⟩
  | cons a as ih =>
    rw [sparesAll, Bool.and_eq_true] at hs
    obtain ⟨r1, t1, hr1, hd1, h1⟩ : ∃ r1 t1, (served cfg rt a w).db.tokens[id]? = some r1 ∧
        r1.secret_sha256 = digest ∧ Standing (days cfg.session_days)
          (ts ++ if presents rt digest a then [a.time w] else []) t1 r1 := by
      subst hd
      rcases hp : presents rt r.secret_sha256 a with _ | _
      · exact ⟨r, t, served_row hr hp, rfl, by simpa using h⟩
      · obtain ⟨-, r1, hr1, hd1, h1⟩ := session_presented hr h hp
          (hrep _ (by rw [times, hp]; simp))
        exact ⟨r1, _, hr1, hd1, by simpa using h1⟩
    obtain ⟨r2, hr2, ha2, he2, hrev2⟩ := answer_row hr1 hs.1
    rw [times, ← List.append_assoc]
    exact ih _ r2 _ t1 hr2 (ha2.secret.trans hd1) (h1.aged ha2 he2 hrev2) hs.2
      fun t ht => hrep t (by rw [times]; exact List.mem_append_right _ ht)

/-- **What is revoked stays revoked**, and is refused. -/
theorem revoked_after {id : Str} (as : List Asked) (w : World) (r : TokenRec)
    (hr : w.db.tokens[id]? = some r) (hrev : r.revoked_at ≠ none)
    (hs : sparesAll cfg rt hasher id as w = true) :
    ∃ r', (after cfg rt hasher as w).db.tokens[id]? = some r' ∧
      r'.secret_sha256 = r.secret_sha256 ∧ r'.revoked_at ≠ none := by
  induction as generalizing w r with
  | nil => exact ⟨r, hr, rfl, hrev⟩
  | cons a as ih =>
    rw [sparesAll, Bool.and_eq_true] at hs
    have hr1 : (served cfg rt a w).db.tokens[id]? = some r := by
      rcases hp : presents rt r.secret_sha256 a with _ | _
      · exact served_row hr hp
      · rw [(served_presented cfg hr hp).1, honoured, if_pos hrev]
        exact hr
    obtain ⟨r2, hr2, ha2, -, -⟩ := answer_row hr1 hs.1
    obtain ⟨r3, hr3, hd3, hrev3⟩ := ih _ r2 hr2 (by rwa [ha2.revoked hrev]) hs.2
    exact ⟨r3, hr3, hd3.trans ha2.secret, hrev3⟩

/-- The row of an agent token that nobody revoked. -/
structure Lasting (r : TokenRec) : Prop where
  agent : r.type = .agent
  live : r.revoked_at = none
  endless : r.expires_at = none

/-- **An agent token is accepted**, and its expiry stays null. -/
theorem agent_presented {a : Asked} {id : Str} {r : TokenRec} (hr : w.db.tokens[id]? = some r)
    (h : Lasting r) (ha : presents rt r.secret_sha256 a = true) :
    accepted cfg rt a w = true ∧ ∃ r', (served cfg rt a w).db.tokens[id]? = some r' ∧
      r'.secret_sha256 = r.secret_sha256 ∧ Lasting r' := by
  obtain ⟨hdb, hres⟩ := served_presented cfg hr ha
  rw [accepted, hres, hdb]
  have hx : expired r (a.time w) = false := by rw [expired, h.endless]; rfl
  obtain ⟨u, hu⟩ := Option.ne_none_iff_exists'.1 (w.db.owners id r hr)
  rw [honoured, if_neg (not_not.2 h.live), if_neg (by rw [hx]; exact Bool.false_ne_true), hu, h.agent]
  exact ⟨rfl, _, touch_token_agent hr, rfl, ⟨h.agent, h.live, h.endless⟩⟩

theorem agent_after {id digest : Str} (as : List Asked) (w : World) (r : TokenRec)
    (hr : w.db.tokens[id]? = some r) (hd : r.secret_sha256 = digest) (h : Lasting r)
    (hs : sparesAll cfg rt hasher id as w = true) :
    ∃ r', (after cfg rt hasher as w).db.tokens[id]? = some r' ∧ r'.secret_sha256 = digest ∧
      Lasting r' := by
  induction as generalizing w r with
  | nil => exact ⟨r, hr, hd, h⟩
  | cons a as ih =>
    rw [sparesAll, Bool.and_eq_true] at hs
    obtain ⟨r1, hr1, hd1, h1⟩ : ∃ r1, (served cfg rt a w).db.tokens[id]? = some r1 ∧
        r1.secret_sha256 = digest ∧ Lasting r1 := by
      subst hd
      rcases hp : presents rt r.secret_sha256 a with _ | _
      · exact ⟨r, served_row hr hp, rfl, h⟩
      · exact (agent_presented hr h hp).2
    obtain ⟨r2, hr2, ha2, he2, hrev2⟩ := answer_row hr1 hs.1
    exact ih _ r2 hr2 (ha2.secret.trans hd1)
      ⟨ha2.type.trans h1.agent, hrev2 h1.live, he2.trans h1.endless⟩ hs.2

/-! ### Issuing -/

theorem run_secret_digest {i : ℕ} {secret digest : Str} {w w' : World}
    (h : run (exec i) (secret_digest rt secret) w = (.ok digest, w')) :
    (utf8 secret).map rt.sha256 = some digest ∧ w' = w := by
  rw [secret_digest] at h
  rcases hu : utf8 secret with _ | bytes
  · rw [hu] at h
    cases (Prod.mk.inj h).1
  · rw [hu] at h
    obtain ⟨h1, h2⟩ := Prod.mk.inj h
    exact ⟨congrArg some (Except.ok.inj h1), h2.symm⟩

/-- A token that could be inserted has its row. -/
theorem run_insert_token {i : ℕ} {token : TokenRow} {digest : Str} {w w' : World}
    (h : run (exec i) (query (.insert_token token digest)) w = (.ok (), w')) :
    w'.db.tokens[token.id]? = some (tokenRec token digest) := by
  rw [run_query, Db.exec, Db.insert_token] at h
  split at h
  · cases (Prod.mk.inj h).1
  · rw [← (Prod.mk.inj h).2]
    exact get_insert_self ..

/-- **A sign-in issues a session** that expires one length after it. -/
theorem login_issues {i : ℕ} {body : LoginRequest} {secret : Str} {expires_at : Instant} {user : User}
    {w w' : World} (h : run (exec i) (Routes.login cfg rt hasher body) w =
      (.ok ⟨200, .login secret expires_at user⟩, w')) :
    ∃ (id : Str) (r : TokenRec) (t : Instant), w'.db.tokens[id]? = some r ∧
      (utf8 secret).map rt.sha256 = some r.secret_sha256 ∧
      (∃ n, t = (w.oracle i).now n) ∧ t.add (days cfg.session_days) = some expires_at ∧
      Standing (days cfg.session_days) [t] t r := by
  obtain ⟨result, w1, h1, h2⟩ := run_bind_inv _ h
  rcases result with _ | ⟨u, session, secret'⟩
  · cases (Prod.mk.inj h2).1
  -- what the accounts return
  obtain ⟨found, w2, h3, h4⟩ := run_bind_inv _ h1
  rcases found with _ | found
  · cases (Prod.mk.inj h4).1
  obtain ⟨verified, w3, h5, h6⟩ := run_bind_inv _ h4
  rcases verified with _ | _
  · cases (Prod.mk.inj h6).1
  obtain ⟨now, w4, h7, h8⟩ := run_bind_inv _ h6
  obtain ⟨id, w5, -, h8⟩ := run_bind_inv _ h8
  obtain ⟨e, w6, h9, h8⟩ := run_bind_inv _ h8
  obtain ⟨s, w7, -, h8⟩ := run_bind_inv _ h8
  obtain ⟨digest, w8, h10, h8⟩ := run_bind_inv _ h8
  obtain ⟨⟨⟩, w9, h11, h8⟩ := run_bind_inv _ h8
  obtain ⟨ho, rfl⟩ := Prod.mk.inj h8
  obtain ⟨rfl, hso⟩ := Prod.mk.inj (Option.some.inj (Except.ok.inj ho))
  obtain ⟨rfl, rfl⟩ := Prod.mk.inj hso
  obtain ⟨hr, rfl⟩ := Prod.mk.inj h2
  obtain ⟨-, hb⟩ := Response.mk.inj (Except.ok.inj hr)
  obtain ⟨rfl, rfl, -⟩ := Body.login.inj hb
  -- the time it is issued at
  have hnow : now = (w3.oracle i).now (w3.drawn i) :=
    (Except.ok.inj (Prod.mk.inj h7).1).symm
  have horacle : w3.oracle = w.oracle := (run_oracle h5).trans (run_oracle h3)
  have hadd : now.add (days cfg.session_days) = some e := by
    rw [run_slide] at h9
    rcases hn : now.add (days cfg.session_days) with _ | e'
    · rw [hn] at h9
      cases (Prod.mk.inj h9).1
    · rw [hn] at h9
      rw [Except.ok.inj (Prod.mk.inj h9).1]
  refine ⟨id, _, now, run_insert_token h11, (run_secret_digest h10).1, ⟨_, horacle ▸ hnow⟩, hadd, ?_⟩
  exact ⟨rfl, rfl, fun _ => ⟨rfl, e, hadd, rfl⟩,
    fun hc => absurd (List.isChain_singleton _) hc⟩

/-- **Creating an agent token issues one** without an end. -/
theorem create_token_issues {i : ℕ} {actor : Actor} {body : CreateTokenRequest} {token : Token}
    {secret : Str} {w w' : World} (h : run (exec i) (Routes.create_token rt actor body) w =
      (.ok ⟨201, .token_created token secret⟩, w')) :
    ∃ r, w'.db.tokens[token.id]? = some r ∧ (utf8 secret).map rt.sha256 = some r.secret_sha256 ∧
      Lasting r := by
  obtain ⟨⟨row, secret'⟩, w1, h1, h2⟩ := run_bind_inv _ h
  obtain ⟨id, w2, -, h3⟩ := run_bind_inv _ h1
  obtain ⟨created_at, w3, -, h3⟩ := run_bind_inv _ h3
  obtain ⟨s, w4, -, h3⟩ := run_bind_inv _ h3
  obtain ⟨digest, w5, h4, h3⟩ := run_bind_inv _ h3
  obtain ⟨⟨⟩, w6, h5, h3⟩ := run_bind_inv _ h3
  obtain ⟨ho, rfl⟩ := Prod.mk.inj h3
  obtain ⟨rfl, rfl⟩ := Prod.mk.inj (Except.ok.inj ho)
  obtain ⟨hr, rfl⟩ := Prod.mk.inj h2
  obtain ⟨-, hb⟩ := Response.mk.inj (Except.ok.inj hr)
  obtain ⟨rfl, rfl⟩ := Body.token_created.inj hb
  exact ⟨_, run_insert_token h5, (run_secret_digest h4).1, ⟨rfl, rfl, rfl⟩⟩

/-! ### The rule for issued tokens -/

theorem sparesAll_append {id : Str} (as bs : List Asked) (w : World) :
    sparesAll cfg rt hasher id (as ++ bs) w =
      (sparesAll cfg rt hasher id as w &&
        sparesAll cfg rt hasher id bs (after cfg rt hasher as w)) := by
  induction as generalizing w with
  | nil => rfl
  | cons a as ih => rw [List.cons_append, sparesAll, ih, sparesAll, Bool.and_assoc, after]

theorem times_append {digest : Str} (as bs : List Asked) (w : World) :
    times cfg rt hasher digest (as ++ bs) w =
      times cfg rt hasher digest as w ++ times cfg rt hasher digest bs (after cfg rt hasher as w) := by
  induction as generalizing w with
  | nil => rfl
  | cons a as ih => rw [List.cons_append, times, ih, times, List.append_assoc, after]

/-- A row that is revoked is refused. -/
theorem refused_of_revoked {a : Asked} {id : Str} {r : TokenRec} (hr : w.db.tokens[id]? = some r)
    (hrev : r.revoked_at ≠ none) (ha : presents rt r.secret_sha256 a = true) :
    accepted cfg rt a w = false := by
  rw [accepted, (served_presented cfg hr ha).2, honoured, if_pos hrev]

/-- **A session's life**, from the row on that its sign-in left: the requests `as`, and then the
presentation `a`. -/
theorem session_rule {id : Str} {r : TokenRec} {t0 : Instant} (hr : w.db.tokens[id]? = some r)
    (h0 : Standing (days cfg.session_days) [t0] t0 r) (as : List Asked) (a : Asked)
    (hs : sparesAll cfg rt hasher id (as ++ [a]) w = true)
    (ha : presents rt r.secret_sha256 a = true)
    (hrep : ∀ t ∈ times cfg rt hasher r.secret_sha256 (as ++ [a]) w,
      t.add (days cfg.session_days) ≠ none) :
    let now := a.time (after cfg rt hasher as w)
    let ok := accepted cfg rt a (after cfg rt hasher as w)
    (ok = true ↔ gapsBelow (days cfg.session_days)
      (t0 :: times cfg rt hasher r.secret_sha256 as w ++ [now])) ∧
    (ok = true → ∃ r', (after cfg rt hasher (as ++ [a]) w).db.tokens[id]? = some r' ∧
      _dt r'.expires_at = now.add (days cfg.session_days)) ∧
    (ok = false → ∀ bs b, sparesAll cfg rt hasher id (as ++ a :: bs) w = true →
      presents rt r.secret_sha256 b = true →
        accepted cfg rt b (after cfg rt hasher (as ++ a :: bs) w) = false) := by
  intro now ok
  have hone : ∀ w, times cfg rt hasher r.secret_sha256 [a] w = [a.time w] := fun w => by
    rw [times, ha, times]
    rfl
  rw [times_append, hone] at hrep
  have hs' := hs
  rw [sparesAll_append, Bool.and_eq_true] at hs
  obtain ⟨r1, t1, hr1, hd1, h1⟩ := session_after as w r [t0] t0 hr rfl h0 hs.1
    fun t ht => hrep t (List.mem_append_left _ ht)
  rw [← hd1] at ha
  obtain ⟨hiff, r2, hr2, hd2, h2⟩ := session_presented hr1 h1 ha (hrep _ (by simp))
  obtain ⟨r3, hr3, ha3, he3, hrev3⟩ := answer_row hr2 (by
    have := hs.2
    rw [sparesAll, Bool.and_eq_true] at this
    exact this.1)
  have h3 := h2.aged ha3 he3 hrev3
  have hw : after cfg rt hasher (as ++ [a]) w =
      (a.answer cfg rt hasher (after cfg rt hasher as w)).2 := after_append ..
  refine ⟨hiff, fun hok => ⟨r3, hw ▸ hr3, ?_⟩, fun hok bs b hsb hb => ?_⟩
  · obtain ⟨-, e, he, hx⟩ := h3.live (hiff.1 hok)
    rw [hx, he, _dt, Option.map_some, instant_ofInstant]
  · have hdead : r3.revoked_at ≠ none := h3.dead fun hg => by
      rw [show ok = true from hiff.2 hg] at hok
      cases hok
    have hsplit : as ++ a :: bs = (as ++ [a]) ++ bs := by simp
    rw [hsplit, sparesAll_append, Bool.and_eq_true] at hsb
    obtain ⟨r4, hr4, hd4, hrev4⟩ := revoked_after bs _ r3 (hw ▸ hr3) hdead hsb.2
    rw [hsplit, after_append]
    refine refused_of_revoked hr4 hrev4 ?_
    rw [hd4, ha3.secret, hd2, hd1]
    exact hb

/-- **Sliding expiry.** A session signed in at `t0` is accepted at a presentation exactly when every
gap up to it is below the length of a session; its stored expiry is then one length after, and once
refused it stays refused. An agent token is always accepted, and never expires. The requests between
are any, as long as their routes neither revoke the token nor remove its owner, and the expiries are
dates of the calendar. -/
theorem gap_rule (cfg : Config) (rt : Runtime) (hasher : Hasher) (w : World) (i : ℕ)
    (header : Option Str) :
    (∀ (body : LoginRequest) (secret : Str) (expires_at : Instant) (user : User) (w1 : World),
      (⟨i, header, .login body⟩ : Asked).answer cfg rt hasher w =
        (.ok ⟨200, .login secret expires_at user⟩, w1) →
      ∃ (id digest : Str) (t0 : Instant), (utf8 secret).map rt.sha256 = some digest ∧
        w1.db.tokens[id]?.map TokenRec.secret_sha256 = some digest ∧
        (∃ n, t0 = (w.oracle i).now n) ∧ t0.add (days cfg.session_days) = some expires_at ∧
        ∀ (as : List Asked) (a : Asked), sparesAll cfg rt hasher id (as ++ [a]) w1 = true →
          presents rt digest a = true →
          (∀ t ∈ times cfg rt hasher digest (as ++ [a]) w1,
            t.add (days cfg.session_days) ≠ none) →
          let now := a.time (after cfg rt hasher as w1)
          let ok := accepted cfg rt a (after cfg rt hasher as w1)
          (ok = true ↔ gapsBelow (days cfg.session_days)
            (t0 :: times cfg rt hasher digest as w1 ++ [now])) ∧
          (ok = true → ∃ r, (after cfg rt hasher (as ++ [a]) w1).db.tokens[id]? = some r ∧
            _dt r.expires_at = now.add (days cfg.session_days)) ∧
          (ok = false → ∀ bs b, sparesAll cfg rt hasher id (as ++ a :: bs) w1 = true →
            presents rt digest b = true →
              accepted cfg rt b (after cfg rt hasher (as ++ a :: bs) w1) = false)) ∧
    (∀ (body : CreateTokenRequest) (token : Token) (secret : Str) (w1 : World),
      (⟨i, header, .create_token body⟩ : Asked).answer cfg rt hasher w =
        (.ok ⟨201, .token_created token secret⟩, w1) →
      ∃ digest, (utf8 secret).map rt.sha256 = some digest ∧
        w1.db.tokens[token.id]?.map TokenRec.secret_sha256 = some digest ∧
        ∀ (as : List Asked) (a : Asked), sparesAll cfg rt hasher token.id (as ++ [a]) w1 = true →
          presents rt digest a = true →
          accepted cfg rt a (after cfg rt hasher as w1) = true ∧
          ∃ r, (after cfg rt hasher (as ++ [a]) w1).db.tokens[token.id]? = some r ∧
            r.expires_at = none) := by
  constructor
  · intro body secret expires_at user w1 h
    obtain ⟨id, r, t0, hr, hd, hn, he, h0⟩ := login_issues (answer_ok h rfl)
    exact ⟨id, r.secret_sha256, t0, hd, by rw [hr]; rfl, hn, he,
      fun as a => session_rule hr h0 as a⟩
  · intro body token secret w1 h
    have hroute := answer_ok h rfl
    rw [route_of_not_login (by rintro _ ⟨⟩)] at hroute
    obtain ⟨actor, w2, -, h2⟩ := run_bind_inv _ hroute
    obtain ⟨r, hr, hd, h0⟩ := create_token_issues h2
    refine ⟨r.secret_sha256, hd, by rw [hr]; rfl, fun as a hs ha => ?_⟩
    have hs' := hs
    rw [sparesAll_append, Bool.and_eq_true] at hs
    obtain ⟨r1, hr1, hd1, h1⟩ := agent_after as w1 r hr rfl h0 hs.1
    obtain ⟨r2, hr2, -, h2⟩ := agent_after (as ++ [a]) w1 r hr rfl h0 hs'
    exact ⟨(agent_presented hr1 h1 (hd1 ▸ ha)).1, r2, hr2, h2.endless⟩

section Small

/-- The clock of the thread `i` shows `i` half days. -/
def halfDays (i : ℕ) : Oracle :=
  { counting i with
    now := fun _ => (ofMicros (62135596800000000 + i * 43200000000)).getD ⟨0, zero_lt⟩ }

def smallStart : World := { smallWorld (smallDb .read_only) with oracle := halfDays }

def signIn (i : ℕ) : Asked := ⟨i, none, .login ⟨lit "ann", lit "secret"⟩⟩

/-- The digest of the secret the sign-in draws. -/
def smallDigest : Str := lit "1ebd601c0811365aba40700b236014f6436080c59e0ffe0b49d06a47ddf2b8a7"

/-- The world after a sign-in. -/
def signedIn (w : World) : World := ((signIn 0).answer smallConfig plainRuntime plainHasher w).2

def self (i : ℕ) (secret : Str) : Asked := ⟨i, some (lit "Bearer " ++ secret), .token_self⟩

/-- Three presentations, half a day apart. -/
def visits : List Asked := [1, 2, 3].map fun i => self i (lit "pb_0a2")

/-- A session of one day is accepted two days after its issue, if it was presented each half day; and
it is refused a day and a half after it was presented last. -/
theorem gap_rule_slides :
    accepted smallConfig plainRuntime (self 4 (lit "pb_0a2"))
      (after smallConfig plainRuntime plainHasher visits (signedIn smallStart)) = true ∧
    accepted smallConfig plainRuntime (self 6 (lit "pb_0a2"))
      (after smallConfig plainRuntime plainHasher visits (signedIn smallStart)) = false := by
  obtain ⟨id, digest, t0, hd, hid, -, ht0, hrule⟩ :=
    (gap_rule smallConfig plainRuntime plainHasher smallStart 0 none).1
      ⟨lit "ann", lit "secret"⟩ (lit "pb_0a2") ⟨62135683200000000, by decide⟩
      ⟨lit "usr_0", lit "ann", ⟨62135596800000000, unixStart_lt⟩⟩ (signedIn smallStart)
      (Prod.ext (by decide +kernel) (by rw [signedIn, signIn]))
  -- the row is the one the sign-in drew
  have hsha : (utf8 (lit "pb_0a2")).map plainRuntime.sha256 = some smallDigest := by decide +kernel
  obtain rfl : digest = smallDigest := Option.some.inj (hd.symm.trans hsha)
  have hrow : (signedIn smallStart).db.tokens[lit "tok_0a1"]?.map TokenRec.secret_sha256 =
      some smallDigest := by decide +kernel
  obtain rfl : id = lit "tok_0a1" := by
    obtain ⟨r, hr, hrs⟩ := Option.map_eq_some_iff.1 hid
    obtain ⟨r', hr', hrs'⟩ := Option.map_eq_some_iff.1 hrow
    exact (signedIn smallStart).db.secrets _ _ r r' hr hr' (hrs.trans hrs'.symm)
  obtain rfl : t0 = ⟨62135596800000000, unixStart_lt⟩ := by
    have h := add_micros ht0
    have hday : days smallConfig.session_days = 86400000000 := by decide +kernel
    obtain ⟨t0, ht⟩ := t0
    rw [hday] at h
    simp only at h
    exact Instant.mk.injEq _ _ _ _ ▸ by omega
  constructor
  · exact (hrule visits (self 4 (lit "pb_0a2")) (by decide +kernel) (by decide +kernel)
      (by decide +kernel)).1.2 (by decide +kernel)
  · refine Bool.eq_false_iff.2 fun h => absurd ((hrule visits (self 6 (lit "pb_0a2"))
      (by decide +kernel) (by decide +kernel) (by decide +kernel)).1.1 h) (by decide +kernel)

/-- The clock of the thread `i` shows `i` half days after noon of the last day but one. -/
def lastDays (i : ℕ) : Oracle :=
  { counting i with
    now := fun _ => (ofMicros ((7304115 + i) * 43200000000)).getD ⟨0, zero_lt⟩ }

def lateStart : World := { smallWorld (smallDb .read_only) with oracle := lastDays }

/-- **On the last day of the calendar** a session of one day is not accepted, half a day after it was
issued: its next expiry is no date any more, and moving it raises. -/
theorem gap_rule_overflow :
    ((signIn 0).answer smallConfig plainRuntime plainHasher lateStart).1.map Response.status =
      .ok 200 ∧
    sparesAll smallConfig plainRuntime plainHasher (lit "tok_0a1") [self 1 (lit "pb_0a2")]
      (signedIn lateStart) = true ∧
    presents plainRuntime smallDigest (self 1 (lit "pb_0a2")) = true ∧
    gapsBelow (days smallConfig.session_days)
      [(signIn 0).time lateStart, (self 1 (lit "pb_0a2")).time (signedIn lateStart)] ∧
    accepted smallConfig plainRuntime (self 1 (lit "pb_0a2")) (signedIn lateStart) = false := by
  decide +kernel

end Small

end PaperBoxing.Backend.Sessions
