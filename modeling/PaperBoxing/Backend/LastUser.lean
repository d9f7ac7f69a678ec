import PaperBoxing.Backend.Service

/-! # The last account

The guard of `delete_user` counts the accounts and then deletes one, in two transactions, and nothing
runs in between; every other call keeps the accounts that are there.

* `delete_user_leaves`: the guard, and what it is worth to a section;
* `always_an_account`: once there is an account there always is one, over a whole life. -/

namespace PaperBoxing.Backend.LastUser

open Std PaperBoxing.Lib PaperBoxing.Lib.Action PaperBoxing.Lib.Program PaperBoxing.Lib.Text
open PaperBoxing.Lib.Threads PaperBoxing.Lib.Tables
open PaperBoxing.Common.Scopes PaperBoxing.Common.Schema
open PaperBoxing.Backend PaperBoxing.Backend.Db PaperBoxing.Backend.Calls
open PaperBoxing.Backend.Accounts PaperBoxing.Backend.Routes PaperBoxing.Backend.Frames
open PaperBoxing.Backend.Bearer PaperBoxing.Backend.App PaperBoxing.Backend.Service

variable {cfg : Config} {rt : Runtime} {hasher : Hasher} {w w' : World} {i : ℕ}

/-- Whether a call deletes an account. -/
def deletes : Calls.Call → Bool
  | .db (.delete_user _) => true
  | _ => false

/-- A world with no fewer accounts. -/
def Grows (w w' : World) : Prop := w.db.users.size ≤ w'.db.users.size

/-- **A world with an account is followed by one with an account.** -/
def Accounted (w w' : World) : Prop := 0 < w.db.users.size → 0 < w'.db.users.size

theorem Accounted.refl (w : World) : Accounted w w := id

theorem Accounted.trans {w'' : World} (h : Accounted w w') (h' : Accounted w' w'') :
    Accounted w w'' := fun hw => h' (h hw)

theorem Grows.accounted (h : Grows w w') : Accounted w w' := fun hw => hw.trans_le h

theorem exec_grows {q : Query} (hq : deletes (.db q) = false) (d : Database) :
    d.users.size ≤ (Db.exec q d).2.users.size := by
  by_cases hacc : onAccounts q = true
  swap
  · rw [(exec_users_tokens (Bool.eq_false_iff.2 hacc) d).1]
  cases q <;> try first
    | exact le_rfl
    | exact absurd hacc Bool.false_ne_true
    | exact absurd hq.symm Bool.false_ne_true
  case insert_user user =>
    simp only [Db.exec, insert_user]
    split
    · exact le_rfl
    · exact ExtTreeMap.size_le_size_insert
  case set_password_hash user_id hash => exact ExtTreeMap.size_map.ge
  case insert_token token digest =>
    simp only [Db.exec, insert_token]
    split <;> exact le_rfl

theorem call_grows {c : Calls.Call} (hc : deletes c = false) (w : World) :
    Grows w (exec i c w).2 := by
  cases c with
  | db q => exact exec_grows hc w.db
  | _ => exact le_rfl

/-- **Code that deletes no account** keeps all there are. -/
theorem run_grows {A : Type} {p : Code A} (hp : Uses (fun c => deletes c = false) p) (w : World) :
    Grows w (run (exec i) p w).2 := by
  refine run_preserves (I := Grows w) (fun c hc w' hw => ?_) hp (Nat.le_refl _)
  exact Nat.le_trans hw (call_grows hc w')

theorem deletes_of_only {f : Query → Bool} (hf : ∀ user_id, f (.delete_user user_id) = false)
    {c : Calls.Call} (h : only f c) : deletes c = false := by
  cases c with
  | db q =>
    cases q <;> try rfl
    exact absurd ((hf _).symm.trans h) Bool.false_ne_true
  | _ => rfl

theorem deletes_of_sites {c : Calls.Call} (h : ofSites c) : deletes c = false := by
  cases c with
  | db q => cases q <;> first | rfl | exact absurd h.symm Bool.false_ne_true
  | _ => rfl

/-- **The guard**: whatever `delete_user` does, an account is left. -/
theorem delete_user_leaves (user_id : Str) (w : World) :
    Accounted w (run (exec i) (Routes.delete_user rt user_id) w).2 := by
  rcases run_delete_user rt i user_id w with ⟨_, hr⟩ | ⟨hcount, -, hr⟩
  · rw [hr]
    exact id
  · rw [hr]
    intro _
    change 0 < (w.db.users.erase user_id).size
    have := ExtTreeMap.size_le_size_erase (t := w.db.users) (k := user_id)
    omega

/-- **Every handler** leaves an account where there is one. -/
theorem serve_accounted (actor : Actor) (request : Routes.Request) (w : World) :
    Accounted w (run (exec i) (Routes.serve cfg rt hasher actor request) w).2 := by
  by_cases hs : aboutSites request = true
  · exact (run_grows ((uses_serve_sites actor hs).mono fun _ => deletes_of_sites) w).accounted
  by_cases hd : ∃ user_id, request = .delete_user user_id
  · obtain ⟨user_id, rfl⟩ := hd
    exact delete_user_leaves user_id w
  · exact (run_grows ((uses_serve_accounts actor (Bool.eq_false_iff.2 hs)
      fun u hu => hd ⟨u, hu⟩).mono fun _ => deletes_of_only fun _ => rfl) w).accounted

/-- **Every section** leaves an account where there is one. -/
theorem block_accounted (b : Block) (w : World) :
    Accounted w (run (exec i) (b.code cfg rt hasher) w).2 := by
  cases b with
  | authorise name header =>
    exact (run_grows ((uses_dependency name header).mono fun _ =>
      deletes_of_only fun _ => rfl) w).accounted
  | login body =>
    exact (run_grows ((uses_login_route body).mono fun _ => deletes_of_only fun _ => rfl) w).accounted
  | serve actor request => exact serve_accounted actor request w
  | bootstrap username password =>
    exact (run_grows ((uses_bootstrap username password).mono fun _ =>
      deletes_of_only fun _ => rfl) w).accounted
  | purge =>
    exact (run_grows ((uses_now (P := fun c => deletes c = false) rfl).bind fun _ =>
      uses_query (P := fun c => deletes c = false) rfl) w).accounted

theorem accounted_answers {c : (sections cfg rt hasher).sig.Call} {r : Except Exn _} (hc : ofTask c)
    (h : (loop cfg rt hasher).Answers i c w r w') : Accounted w w' := by
  rcases h.2 with he | ⟨_, _, hf⟩
  · rw [(Prod.mk.inj he).2]
    rcases c with b | c
    · exact block_accounted b w
    · exact (call_grows (deletes_of_sites hc) w).accounted
  · exact hf.elim

/-! ### The first account -/

/-- Whether an event is a `bootstrap` that created an account. -/
def created (e : Event (sections cfg rt hasher).sig Exn World) : Bool :=
  match e with
  | ⟨_, .inl (.bootstrap ..), .ok (some _), _, _⟩ => true
  | _ => false

/-- **`bootstrap` creates an account only where there is none**, and then there is one. -/
theorem run_bootstrap_created {username password : Option Str} {user : UserRow}
    (h : run (exec i) (bootstrap hasher username password) w = (.ok (some user), w')) :
    w.db.users.size = 0 ∧ 0 < w'.db.users.size := by
  have hcount : run (exec i) (query .count_users) w = (.ok w.db.users.size, w) := run_query ..
  unfold bootstrap at h
  rw [run_bind_of_ok _ hcount] at h
  by_cases h0 : 0 < w.db.users.size
  · rw [if_pos h0] at h
    cases (Prod.mk.inj h).1
  refine ⟨by omega, ?_⟩
  rw [if_neg h0] at h
  rcases username with _ | username
  · cases (Prod.mk.inj h).1
  rcases password with _ | password
  · cases (Prod.mk.inj h).1
  dsimp only at h
  split_ifs at h
  · obtain ⟨user', w1, hc, hret⟩ := run_bind_inv _ h
    obtain rfl : w1 = w' := (Prod.mk.inj hret).2
    -- the last call of `create_user` inserted the account
    rw [Accounts.create_user] at hc
    obtain ⟨id, w2, -, hc⟩ := run_bind_inv _ hc
    obtain ⟨salt, w3, -, hc⟩ := run_bind_inv _ hc
    obtain ⟨created_at, w4, -, hc⟩ := run_bind_inv _ hc
    obtain ⟨_, w5, hi, hc⟩ := run_bind_inv _ hc
    obtain rfl : w5 = w1 := (Prod.mk.inj hc).2
    rw [run_query] at hi
    obtain ⟨hok, rfl⟩ := Prod.mk.inj hi
    simp only [Db.exec, insert_user] at hok ⊢
    split at hok
    · cases hok
    · next hnew =>
      rw [dif_neg hnew]
      exact size_pos (get_insert_self ..)
  · cases (Prod.mk.inj h).1

theorem created_event {e : Event (sections cfg rt hasher).sig Exn World}
    (h : (loop cfg rt hasher).Answers e.tid e.call e.before e.resp e.after) (hc : created e = true) :
    e.before.db.users.size = 0 ∧ 0 < e.after.db.users.size := by
  obtain ⟨tid, c | c, resp, before, after⟩ := e
  swap
  · cases hc
  rcases h.2 with he | ⟨_, _, hf⟩
  swap
  · exact hf.elim
  rcases c with _ | _ | _ | ⟨username, password⟩ | _ <;> try cases hc
  rcases resp with _ | _ | user
  · cases hc
  · cases hc
  · exact run_bootstrap_created he.symm

theorem length_le_one {A : Type} : ∀ {as : List A}, (as.Pairwise fun _ _ => False) → as.length ≤ 1
  | [], _ => Nat.zero_le _
  | [_], _ => le_rfl
  | _ :: a :: _, h => ((List.pairwise_cons.1 h).1 a List.mem_cons_self).elim

/-- **There is always an account.** Over the whole life of a data directory, whatever requests are
served in whatever interleaving, and however often the process starts with whatever variables: a
state with an account is followed by states with an account only, `bootstrap` creates at most one
account, and none where there is one, and no two accounts have the same username. -/
theorem always_an_account {w0 : World} {tr : Trace cfg rt hasher} (life : Life cfg rt hasher w0 tr w) :
    Ordered Accounted w0 tr w ∧ (tr.filter created).length ≤ 1 ∧
      (0 < w0.db.users.size → tr.filter created = []) ∧
      ∀ v, v = w0 ∨ v = w ∨ (∃ e ∈ tr, v = e.before ∨ v = e.after) → ∀ (a b : Str) (u u' : UserRec),
        v.db.users[a]? = some u → v.db.users[b]? = some u' → u.username = u'.username → a = b := by
  have horder : Ordered Accounted w0 tr w := life.ordered .refl (fun _ _ _ => .trans)
    (fun _ _ _ _ _ => accounted_answers) fun _ => id
  have hevents := life.events
  refine ⟨horder, ?_, fun h0 => ?_, fun v _ => v.db.usernames⟩
  · have hpair : (tr.filter created).Pairwise fun _ _ => False := by
      rw [List.pairwise_filter]
      refine horder.order.imp_of_mem fun {e e'} he he' hee' hc hc' => ?_
      have h1 := created_event (hevents e he).2 hc
      have h2 := created_event (hevents e' he').2 hc'
      exact absurd (hee' h1.2) (by omega)
    exact length_le_one hpair
  · refine List.filter_eq_nil_iff.2 fun e he hc => ?_
    have h1 := created_event (hevents e he).2 hc
    exact absurd (horder.before e he h0) (by omega)

/-- Two accounts, each with a session. -/
def twoUsers : Database :=
  let start : IsoTime.Instant := ⟨62135596800000000, IsoTime.unixStart_lt⟩
  let later : IsoTime.Instant := ⟨62135596800000001, IsoTime.afterUnixStart_lt⟩
  let user (n : ℕ) : UserRow := ⟨lit "usr_" ++ dec n, lit "u" ++ dec n, lit "0$secret", start⟩
  let session (n : ℕ) : TokenRow := ⟨lit "tok_" ++ dec n, lit "session", .session, SESSION_SCOPE,
    lit "usr_" ++ dec n, start, none, some later, none⟩
  let digest (secret : String) : Str := plainRuntime.sha256 ((utf8 (lit secret)).getD [])
  (insert_token (session 1) (digest "pb_t") (insert_token (session 0) (digest "pb_s")
    (insert_user (user 1) (insert_user (user 0) .empty).2).2).2).2

/-- Two sessions, each about to delete the account of the other: both are let in, and the second to
count finds one account. -/
def crossed : Threads.Config (sections smallConfig plainRuntime plainHasher).sig Exn Response World :=
  ⟨smallWorld twoUsers, fun i => visit smallConfig plainRuntime plainHasher
    (some (lit (if i = 0 then "Bearer pb_s" else "Bearer pb_t")))
    (.delete_user (lit (if i = 0 then "usr_1" else "usr_0")))⟩

theorem always_an_account_crossed : ∃ tr g,
    (loop smallConfig plainRuntime plainHasher).play [0, 1, 0, 1] crossed = some g ∧
    Life smallConfig plainRuntime plainHasher (smallWorld twoUsers) tr g.world ∧
    0 < g.world.db.users.size := by
  obtain ⟨g, hg⟩ := Option.isSome_iff_exists.1 (show ((loop smallConfig plainRuntime plainHasher).play
    [0, 1, 0, 1] crossed).isSome = true by decide +kernel)
  obtain ⟨tr, run⟩ := Machine.play_run hg
  have life : Life smallConfig plainRuntime plainHasher (smallWorld twoUsers) tr g.world :=
    Life.begin.serving (fun i => (some (lit (if i = 0 then "Bearer pb_s"
      else "Bearer pb_t")), .delete_user (lit (if i = 0 then "usr_1" else "usr_0")))) run
  exact ⟨tr, g, hg, life, (always_an_account life).1.whole (by decide +kernel)⟩

end PaperBoxing.Backend.LastUser
