import PaperBoxing.Backend.Bearer

/-! # Stored timestamps

The database keeps times as ISO texts, without a fraction where the microsecond is zero, and compares
them as text; the sign-in path compares the times themselves. The two agree: a stored time is read
back as it was, and texts are in the order of the times. So the purge of dead sessions drops exactly
the sessions that `resolve_bearer` would refuse at the same time, and the agent tokens are listed in
the order of their creation. -/

namespace PaperBoxing.Backend.Timestamps

open Std PaperBoxing.Lib.Program PaperBoxing.Lib.Text PaperBoxing.Lib.IsoTime PaperBoxing.Lib.Tables
open PaperBoxing.Common.Scopes PaperBoxing.Common.Schema PaperBoxing.Backend.Db PaperBoxing.Backend.Calls
open PaperBoxing.Backend.Accounts PaperBoxing.Backend.Bearer

variable {cfg : Config} {rt : Runtime} {d : Database} {now : Instant} {id : Str} {r : TokenRec}

/-! ### Dead sessions -/

/-- The purge compares texts; `resolve_bearer` compares times. -/
theorem isDead_iff : isDead now r = true ↔
    r.type = .session ∧ (r.revoked_at ≠ none ∨ expired r now = true) := by
  rw [isDead, expired, Bool.and_eq_true, Bool.or_eq_true, beq_iff_eq, Option.isSome_iff_ne_none]
  rcases r.expires_at with _ | e
  · rfl
  · change _ ∧ (_ ∨ (compare e.text (IsoText.ofInstant now).text).isLE = true) ↔
      _ ∧ (_ ∨ decide (e.instant.micros ≤ now.micros) = true)
    rw [compare_isoText, instant_ofInstant, Nat.isLE_compare, decide_eq_true_eq]

/-! ### The order of creation -/

/-- The order of the rows of `list_agent_tokens` is that of their creation, and then of their ids. -/
theorem tokenLE_eq (a b : Str × TokenRec × UserRec) : tokenLE a b =
    (compareLex (compareOn fun x : Str × TokenRec × UserRec => x.2.1.created_at.text)
      (compareOn fun x : Str × TokenRec × UserRec => x.1) a b).isLE := rfl

theorem isLE_total {A : Type} (cmp : A → A → Ordering) [OrientedCmp cmp] (a b : A) :
    (cmp a b).isLE = true ∨ (cmp b a).isLE = true := by
  have h : cmp b a = (cmp a b).swap := OrientedCmp.eq_swap
  rw [h]
  cases cmp a b <;> simp

instance : Std.Total fun a b : Str × TokenRec × UserRec => tokenLE a b = true := ⟨fun a b => by
  simp only [tokenLE_eq]
  exact isLE_total _ a b⟩

instance : IsTrans (Str × TokenRec × UserRec) fun a b => tokenLE a b = true := ⟨fun a b c h1 h2 => by
  simp only [tokenLE_eq] at *
  exact TransCmp.isLE_trans h1 h2⟩

/-- Rows in the order of the texts are in the order of the times. -/
theorem created_le {a b : Str × TokenRec × UserRec} (h : tokenLE a b = true) :
    a.2.1.created_at.instant.micros ≤ b.2.1.created_at.instant.micros := by
  have hle := Ordering.isLE_left_of_isLE_then h
  rwa [compare_isoText, Nat.isLE_compare] at hle

/-- **A live agent token**, with its owner's username: it was not revoked. -/
def IsLive (d : Database) (row : TokenRow × Str) : Prop :=
  ∃ id r u, d.tokens[id]? = some r ∧ r.type = .agent ∧ r.revoked_at = none ∧
    d.users[r.user_id]? = some u ∧ row = (_token id r, u.username)

/-- The rows of `list_agent_tokens`, unsorted. -/
def liveRows (d : Database) : List (Str × TokenRec × UserRec) := d.tokens.toList.filterMap fun r =>
  if r.2.type = .agent ∧ r.2.revoked_at = none then
    d.users[r.2.user_id]?.map fun u => (r.1, r.2, u)
  else none

theorem mem_live {u : UserRec} : (id, r, u) ∈ liveRows d ↔ d.tokens[id]? = some r ∧
    r.type = .agent ∧ r.revoked_at = none ∧ d.users[r.user_id]? = some u := by
  simp only [liveRows, List.mem_filterMap, Prod.exists, mem_toList, Option.ite_none_right_eq_some,
    Option.map_eq_some_iff, Prod.mk.injEq]
  constructor
  · rintro ⟨id, r, hr, ⟨ha, hrev⟩, u, hu, rfl, rfl, rfl⟩
    exact ⟨hr, ha, hrev, hu⟩
  · rintro ⟨hr, ha, hrev, hu⟩
    exact ⟨id, r, hr, ⟨ha, hrev⟩, u, hu, rfl, rfl, rfl⟩

/-- No token is in the rows twice. -/
theorem liveRows_nodup (d : Database) : ((liveRows d).map fun r => r.1).Nodup := by
  have hkeys : (d.tokens.toList.map Prod.fst).Nodup := by
    rw [ExtTreeMap.map_fst_toList_eq_keys]
    exact ExtTreeMap.nodup_keys
  rw [List.Nodup, List.pairwise_map] at hkeys ⊢
  rw [liveRows, List.pairwise_filterMap]
  refine hkeys.imp fun {a b} hne x hx y hy => ?_
  -- a row is under the id of the token it comes from
  have hid : ∀ {r : Str × TokenRec} {x : Str × TokenRec × UserRec}, (if r.2.type = .agent ∧
      r.2.revoked_at = none then d.users[r.2.user_id]?.map fun u => (r.1, r.2, u) else none) =
        some x → x.1 = r.1 := by
    intro r x h
    rw [Option.ite_none_right_eq_some, Option.map_eq_some_iff] at h
    obtain ⟨-, u, -, rfl⟩ := h
    rfl
  rw [hid hx, hid hy]
  exact hne

/-- **The agent tokens are listed** each once, in the order of their creation. -/
theorem listed_agents (d : Database) : ∃ listed, Db.list_agent_tokens d = (.ok listed, d) ∧
    (∀ row, row ∈ listed ↔ IsLive d row) ∧ (listed.map fun row => row.1.id).Nodup ∧
    listed.Pairwise fun a b => a.1.created_at.micros ≤ b.1.created_at.micros := by
  refine ⟨_, rfl, fun row => ?_, ?_, ?_⟩
  · simp only [List.mem_map, List.mem_insertionSort, IsLive]
    constructor
    · rintro ⟨⟨id, r, u⟩, hm, rfl⟩
      obtain ⟨hr, ha, hrev, hu⟩ := mem_live.1 hm
      exact ⟨id, r, u, hr, ha, hrev, hu, rfl⟩
    · rintro ⟨id, r, u, hr, ha, hrev, hu, rfl⟩
      exact ⟨(id, r, u), mem_live.2 ⟨hr, ha, hrev, hu⟩, rfl⟩
  · rw [List.map_map]
    have hperm : ((liveRows d).insertionSort fun a b => tokenLE a b = true).Perm (liveRows d) :=
      List.perm_insertionSort ..
    exact (hperm.map _).nodup_iff.2 (liveRows_nodup d)
  · rw [List.pairwise_map]
    refine (List.pairwise_insertionSort (fun a b => tokenLE a b = true) (liveRows d)).imp fun h => ?_
    exact created_le h

/-! ### The purge and the list -/

/-- **What the purge leaves of a row.** -/
theorem purged (d : Database) (now : Instant) (hr : d.tokens[id]? = some r) :
    (delete_dead_sessions now d).2.tokens[id]? = if isDead now r then none else some r := by
  change (d.tokens.filter fun _ r => !isDead now r)[id]? = _
  rw [get_filter, hr]
  by_cases h : isDead now r = true
  · simp [h]
  · simp [h]

/-- **Stored timestamps keep order and value.** They are read back as the moments they were, in any
time zone, and compare as text as they do in time. The purge at a time drops a row exactly when it is
a session's that `resolve_bearer`, shown its secret at that time, refuses; other rows stay as they
are. The live agent tokens are listed in the order of their creation, and one without an expiry is
listed exactly when `resolve_bearer` does not refuse it. -/
theorem stored_timestamps (cfg : Config) (rt : Runtime) (i : ℕ) (w : World) :
    (∀ a : Aware, ∃ i, _dt (_iso (some a)) = some i ∧ (i.micros : ℤ) = a.micros) ∧
    (∀ a b : Aware, ∃ s t, _iso (some a) = some s ∧ _iso (some b) = some t ∧
      compare s.text t.text = compare a.micros b.micros) ∧
    (∀ (id : Str) (r : TokenRec) (header : Option Str), w.db.tokens[id]? = some r →
      carried rt header = some r.secret_sha256 →
      ((delete_dead_sessions ((w.oracle i).now (w.drawn i)) w.db).2.tokens[id]? = none ↔
        r.type = .session ∧ (run (exec i) (resolve_bearer cfg rt header) w).1 = .ok none)) ∧
    (∀ (now : Instant) (id : Str), (delete_dead_sessions now w.db).2.tokens[id]? = none ∨
      (delete_dead_sessions now w.db).2.tokens[id]? = w.db.tokens[id]?) ∧
    (∃ listed, Db.list_agent_tokens w.db = (.ok listed, w.db) ∧
      (∀ row, row ∈ listed ↔ IsLive w.db row) ∧ (listed.map fun row => row.1.id).Nodup ∧
      listed.Pairwise (fun a b => a.1.created_at.micros ≤ b.1.created_at.micros) ∧
      ∀ (id : Str) (r : TokenRec) (header : Option Str), w.db.tokens[id]? = some r →
        r.type = .agent → r.expires_at = none → carried rt header = some r.secret_sha256 →
        (id ∈ listed.map (fun row => row.1.id) ↔
          (run (exec i) (resolve_bearer cfg rt header) w).1 ≠ .ok none)) := by
  have hrefused : ∀ {id : Str} {r : TokenRec} {header : Option Str}, w.db.tokens[id]? = some r →
      carried rt header = some r.secret_sha256 →
      ((run (exec i) (resolve_bearer cfg rt header) w).1 = .ok none ↔
        r.revoked_at ≠ none ∨ expired r ((w.oracle i).now (w.drawn i)) = true) := by
    intro id r header hr hc
    rw [run_resolve_row hc hr]
    exact honoured_refused hr
  refine ⟨fun a => ⟨a.astimezone, ?_, micros_astimezone a⟩, fun a b => ⟨_, _, rfl, rfl, ?_⟩,
    fun id r header hr hc => ?_, fun now id => ?_, ?_⟩
  · rw [_iso, Option.map_some, _dt, Option.map_some, instant_ofInstant]
  · rw [← micros_astimezone, ← micros_astimezone, compare_natCast]
    exact compare_isoformat ..
  · rw [purged _ _ hr, hrefused hr hc, ← isDead_iff]
    split_ifs with h <;> simp [h]
  · rcases hr : w.db.tokens[id]? with _ | r
    · left
      change (w.db.tokens.filter fun _ r => !isDead now r)[id]? = _
      rw [get_filter, hr]
      rfl
    · rw [purged _ _ hr]
      split_ifs
      · exact Or.inl rfl
      · exact Or.inr rfl
  · obtain ⟨listed, hl, hmem, hnodup, hsorted⟩ := listed_agents w.db
    refine ⟨listed, hl, hmem, hnodup, hsorted, fun id r header hr hagent hnone hc => ?_⟩
    have hcurrent : expired r ((w.oracle i).now (w.drawn i)) = false := by
      rw [expired, hnone]
      rfl
    rw [ne_eq, hrefused hr hc, hcurrent, List.mem_map]
    constructor
    · rintro ⟨row, hrow, rfl⟩
      obtain ⟨id', r', u, hr', -, hrev, -, rfl⟩ := (hmem row).1 hrow
      obtain rfl := Option.some.inj (hr.symm.trans hr')
      simpa using hrev
    · intro h
      obtain ⟨u, hu⟩ := Option.ne_none_iff_exists'.1 (w.db.owners id r hr)
      exact ⟨_, (hmem _).2 ⟨id, r, u, hr, hagent, by simpa using h, hu, rfl⟩, rfl⟩

theorem stored_timestamps_small : ∃ r,
    (smallDb .read_only).tokens[lit "tok_0"]? = some r ∧
      ((delete_dead_sessions ((counting 0).now 0) (smallDb .read_only)).2.tokens[lit "tok_0"]? = none ↔
        r.type = .session ∧ (run (exec 0) (resolve_bearer smallConfig plainRuntime
          (some (lit "Bearer pb_s"))) (smallWorld (smallDb .read_only))).1 = .ok none) := by
  have hrow : ((smallDb .read_only).tokens[lit "tok_0"]?).map TokenRec.secret_sha256 =
      carried plainRuntime (some (lit "Bearer pb_s")) := by decide +kernel
  rcases hr : (smallDb .read_only).tokens[lit "tok_0"]? with _ | r
  · rw [hr] at hrow
    exact absurd hrow (by decide +kernel)
  · rw [hr] at hrow
    exact ⟨r, rfl, (stored_timestamps smallConfig plainRuntime 0
      (smallWorld (smallDb .read_only))).2.2.1 (lit "tok_0") r _ hr hrow.symm⟩

end PaperBoxing.Backend.Timestamps
