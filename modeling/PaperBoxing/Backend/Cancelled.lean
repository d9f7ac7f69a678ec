import PaperBoxing.Backend.Alone
import PaperBoxing.Backend.Frames
import PaperBoxing.Backend.Tasks

/-! # Changes to a site's tree, and its lock

A site's tree is changed under the site's lock, also where a task is cancelled: a cancelled task gives
its lock back on its way out. Only the removal of a folder runs on when its task is cancelled, and then
without the lock.

* `Touches`: the calls that may change a site's tree; `touches_of_change`;
* `follows_task`: the tasks take and give back the locks, and touch a site's tree under its lock;
* `changes_hold_the_lock`: every change in a run is made under the lock, unless the removal of a folder
  was cancelled;
* `removal_runs_on`: a run in which it is not. -/

namespace PaperBoxing.Backend.Cancelled

open PaperBoxing.Lib PaperBoxing.Lib.Program PaperBoxing.Lib.Threads PaperBoxing.Lib.Workers
open PaperBoxing.Lib.Text PaperBoxing.Lib.Trees PaperBoxing.Lib.Disk PaperBoxing.Common.Schema
open PaperBoxing.Common.Naming PaperBoxing.Backend.Db PaperBoxing.Backend.Calls
open PaperBoxing.Backend.Storage PaperBoxing.Backend.Operations PaperBoxing.Backend.Alone
open PaperBoxing.Backend.Frames PaperBoxing.Backend.Tasks PaperBoxing.Backend

variable {cfg : Calls.Config} {rt : Runtime} {A : Type} {slug slug' : Str} {p q : Path Str}

/-! ### Calls that touch a site -/

/-- **A call that may change the tree of a site**: it makes a folder there, or writes at a path in it
or above it. -/
def Touches (cfg : Calls.Config) (slug : Str) : Disk.Call Str → Prop
  | .mkdir p => site_dir cfg slug <+: p
  | c => ∃ p ∈ writes c, p <+: site_dir cfg slug ∨ site_dir cfg slug <+: p

/-- **What a call changes, it touches.** -/
theorem touches_of_change {env : Env Str} {c : Disk.Call Str} {t : Files Str}
    (hq : site_dir cfg slug <+: q) (h : (Disk.exec env c t).2.get q ≠ t.get q) : Touches cfg slug c := by
  by_contra hno
  refine h ?_
  have hwrites : (∀ p ∈ writes c, ¬ p <+: site_dir cfg slug ∧ ¬ site_dir cfg slug <+: p) →
      (Disk.exec env c t).2.get q = t.get q := fun hw =>
    exec_get_of_not_writes env fun p hp hpq =>
      (List.prefix_or_prefix_of_prefix hpq hq).elim (hw p hp).1 (hw p hp).2
  cases c with
  | mkdir p =>
    change (Disk.mkdir p t).2.get q = t.get q
    rw [Disk.mkdir]
    split
    · rfl
    · split_ifs with hfits
      · refine (Tree.get_put hfits ..).trans (if_neg ?_)
        rintro rfl
        exact hno hq
      · rfl
  | _ => exact hwrites fun p hp => not_or.1 fun hor => hno ⟨p, hp, hor⟩

/-- A site's tree is in one site. -/
theorem slug_unique (h : site_dir cfg slug <+: p) (h' : site_dir cfg slug' <+: p) : slug' = slug := by
  by_contra hne
  have hlen : (site_dir cfg slug').length = (site_dir cfg slug).length := by simp [site_dir]
  have heq := List.prefix_of_prefix_length_le h' h hlen.le
  have := not_site_prefix_site cfg hne [] []
  rw [List.append_nil, List.append_nil] at this
  exact this heq

/-- What is in the staging folder is in no site, and above none. -/
theorem not_staged (h : cfg.staging_dir <+: p) :
    ¬ (p <+: site_dir cfg slug ∨ site_dir cfg slug <+: p) := by
  obtain ⟨r, rfl⟩ := h
  have h1 := not_staging_prefix cfg slug r []
  have h2 := not_site_prefix_staging cfg slug [] r
  rw [List.append_nil] at h1 h2
  exact not_or.2 ⟨h1, h2⟩

/-- **The locks of the sites**: a call that touches a site needs the site's lock. -/
def guard (cfg : Calls.Config) : Guard sig Str World where
  use
    | .acquire slug => .acquire slug
    | .release slug => .release slug
    | _ => .plain
  needs
    | .disk c, slug => Touches cfg slug c
    | _, _ => False
  replies
    | .disk (.walk p), entries => ∀ e ∈ entries, p <+: e.1
    | _, _ => True
  holder w := w.locks

theorem fits_answer {i : ℕ} {c : Calls.Call} {w w' : World} {r : Except Exn (Calls.Resp c)}
    (h : faultless.Answers i c w r w') : (guard cfg).Fits c r := by
  rintro a rfl
  cases c with
  | disk c =>
    cases c with
    | walk p =>
      have hwalk := (Prod.mk.inj (answers_faultless.1 h).2).1
      change _ = (Disk.walk p w.disk).1.mapError Exn.os at hwalk
      rw [Disk.walk] at hwalk
      split at hwalk
      · obtain rfl := Except.ok.inj hwalk
        intro e he
        obtain ⟨⟨x, n⟩, hx, rfl⟩ := List.mem_map.1 he
        exact (Tree.mem_below.1 hx).1
      · cases hwalk
      · cases hwalk
    | _ => trivial
  | _ => trivial

theorem sound_guard (cfg : Calls.Config) : (guard cfg).Sound loop where
  needs c l h := by
    cases c with
    | disk c => rfl
    | _ => exact h.elim
  waits c l h huse := by
    cases c with
    | release slug => cases h
    | _ => cases huse
  replies _ _ _ _ _ h := fits_answer h
  acquire i c l w r w' huse h := by
    obtain ⟨hready, hexec⟩ := answers_faultless.1 h
    cases c with
    | acquire slug =>
      obtain rfl : slug = l := by cases huse; rfl
      obtain ⟨rfl, rfl⟩ := Prod.mk.inj hexec
      exact Or.inl ⟨(), rfl, Option.isNone_iff_eq_none.1 hready, rfl⟩
    | _ => cases huse
  release i c l w r w' huse h := by
    cases c with
    | release slug =>
      obtain rfl : slug = l := by cases huse; rfl
      obtain ⟨rfl, rfl⟩ := Prod.mk.inj (answers_faultless.1 h).2
      rfl
    | _ => cases huse
  plain i c w r w' huse h := by
    obtain rfl : w' = (Calls.exec i c w).2 := congrArg Prod.snd (answers_faultless.1 h).2
    cases c with
    | acquire slug => cases huse
    | release slug => cases huse
    | _ => rfl

/-! ### What is allowed -/

section Allowed
variable {held : Option Str}

theorem writes_of_touches {c : Disk.Call Str} (h : Touches cfg slug c) :
    ∃ p ∈ writes c, p <+: site_dir cfg slug ∨ site_dir cfg slug <+: p := by
  cases c with
  | mkdir p => exact ⟨p, List.mem_singleton_self p, Or.inr h⟩
  | _ => exact h

theorem allows_query (q : Query) : (guard cfg).Allows held (.db q) := ⟨rfl, fun _ h => h.elim⟩

/-- Calls that write in the staging folder only are allowed without a lock. -/
theorem allows_staged {c : Disk.Call Str} (h : ∀ p ∈ writes c, cfg.staging_dir <+: p) :
    (guard cfg).Allows held (.disk c) := by
  refine ⟨rfl, fun slug hs => ?_⟩
  obtain ⟨p, hp, hor⟩ := writes_of_touches hs
  exact absurd hor (not_staged (h p hp))

theorem allows_of_glances {c : Calls.Call} (h : glances c) : (guard cfg).Allows held c := by
  cases c with
  | disk c =>
    refine allows_staged fun p hp => ?_
    rw [show writes c = [] from h] at hp
    cases hp
  | _ => exact h.elim

theorem allows_of_looks {c : Calls.Call} (h : looks c) : (guard cfg).Allows held c := by
  cases c with
  | disk c => exact allows_of_glances (show glances (.disk c) from h)
  | acquire slug => exact h.elim
  | release slug => exact h.elim
  | _ => exact ⟨rfl, fun _ h => h.elim⟩

/-- **Calls that write in a site are allowed under the site's lock.** -/
theorem allows_in_site {c : Disk.Call Str}
    (h : ∀ p ∈ writes c, site_dir cfg slug <+: p ∨ cfg.staging_dir <+: p) :
    (guard cfg).Allows (some slug) (.disk c) := by
  refine ⟨rfl, fun slug' hs => ?_⟩
  obtain ⟨p, hp, hor⟩ := writes_of_touches hs
  rcases h p hp with hsite | hstaged
  · refine congrArg some (Eq.symm ?_)
    rcases hor with h1 | h1
    · exact slug_unique (hsite.trans h1) List.prefix_rfl
    · exact slug_unique hsite h1
  · exact absurd hor (not_staged hstaged)

/-- The folders on the way to a place in a site may be made under the site's lock. -/
theorem allows_mkdir (hp : p <+: q) (hq : site_dir cfg slug <+: q) :
    (guard cfg).Allows (some slug) (.disk (.mkdir p)) :=
  ⟨rfl, fun _ hs => congrArg some (slug_unique hq (List.IsPrefix.trans hs hp)).symm⟩

theorem uses_glances {p : Code A} (h : Uses glances p) : Uses ((guard cfg).Allows held) p :=
  h.mono fun _ => allows_of_glances

theorem within_glances {p : Code A} (h : Uses glances p) : Within (guard cfg) held (fun _ => True) p :=
  within_of_uses (uses_glances h)

theorem uses_allowed_query (q : Query) : Uses ((guard cfg).Allows held) (query q) :=
  uses_query (allows_query q)

theorem within_query (q : Query) : Within (guard cfg) held (fun _ => True) (query q) :=
  within_of_uses (uses_allowed_query q)

end Allowed

/-! ### The operations -/

section Operations
variable {held : Option Str}

/-- What is resolved is at its place in the site. -/
theorem within_resolve (slug path : Str) : Within (guard cfg) held
    (fun target => target = site_dir cfg slug ++ segments path) (resolve cfg rt slug path) := by
  refine (within_glances (uses_lstat_at rfl)).bind fun mode _ => ?_
  split_ifs
  · trivial
  refine (within_glances (uses_checkLinks_at _ _ _ fun _ _ _ => rfl)).bind fun _ _ =>
    (within_glances (uses_glance rfl)).bind fun real _ =>
      (within_glances (uses_glance rfl)).bind fun real_root _ => ?_
  split_ifs
  · exact rfl
  · trivial

/-- **`rmtree`** removes what is in the tree, and nothing else. -/
theorem within_rmtree (ignore_errors : Bool)
    (h : ∀ q, p <+: q → (guard cfg).Allows held (.disk (.rmdir q)) ∧
      (guard cfg).Allows held (.disk (.unlink q))) :
    Within (guard cfg) held (fun _ => True) (rmtree ignore_errors p) := by
  have hwalk : Within (guard cfg) held (fun entries : List (Path Str × Bool) => ∀ e ∈ entries, p <+: e.1)
      (disk (.walk p)) :=
    within_invoke (S := sig) (c := .disk (.walk p)) (allows_staged (by simp [writes])) fun _ ha => ha
  refine hwalk.attempt.bind fun r hr => ?_
  rcases r with e | entries
  · rcases e with _ | _ | _ | _ | _ | _ | _ | _ <;> cases ignore_errors <;> trivial
  · exact within_of_uses (uses_removeAll _ _ fun e he => h e.1 (hr entries rfl e he))

theorem within_unlink_staged (h : cfg.staging_dir <+: p) :
    Within (guard cfg) held (fun _ => True) (_unlink p) :=
  within_of_uses (uses_unlink (allows_staged fun q hq => by rw [List.mem_singleton.1 hq]; exact h))

theorem within_landFile (path : Str) (overwrite : Bool) {staged : Staged}
    (hstaged : cfg.staging_dir <+: staged.path) : Within (guard cfg) (some slug) (fun _ => True)
      (landFile cfg rt slug path overwrite staged) := by
  refine (within_query _).bind fun site _ => ?_
  split_ifs
  · trivial
  refine (within_resolve slug path).bind fun target htarget => ?_
  have hsite : site_dir cfg slug <+: target := by rw [htarget]; exact List.prefix_append _ _
  refine (within_glances (glances_check_write_target ..)).bind fun replaced _ =>
    (within_of_uses (uses_mkdirParents _ _ fun q hq => ⟨?_, ?_⟩)).bind fun _ _ =>
      (within_of_uses (uses_disk ?_)).bind fun _ _ =>
        (within_glances (uses_glance rfl)).bind fun _ _ => (within_query _).bind fun _ _ => trivial
  · rw [List.reverse_reverse] at hq
    exact allows_mkdir (hq.trans (List.dropLast_prefix _)) hsite
  · exact allows_of_glances (show glances (.disk (.isDir q)) from rfl)
  · refine allows_in_site fun p hp => ?_
    rcases List.mem_pair.1 hp with rfl | rfl
    · exact Or.inr hstaged
    · exact Or.inl hsite

theorem within_removeFile (path : Str) :
    Within (guard cfg) (some slug) (fun _ => True) (removeFile cfg rt slug path) := by
  refine (within_resolve slug path).bind fun target htarget =>
    (within_glances (glances_kind_of _)).bind fun kind _ => ?_
  cases kind with
  | file =>
    have hunlink : (guard cfg).Allows (some slug) (.disk (.unlink target)) :=
      allows_in_site fun p hp => Or.inl (by
        rw [List.mem_singleton.1 hp, htarget]
        exact List.prefix_append _ _)
    exact (within_of_uses (uses_disk hunlink)).bind fun _ _ => within_query _
  | _ => trivial

theorem within_parkSite (slug : Str) : Within (guard cfg) (some slug)
    (fun parked => ∀ q, parked = some q → cfg.staging_dir <+: q) (parkSite cfg slug) := by
  refine (within_glances (glances_kind_of _)).bind fun kind _ => ?_
  refine Within.bind (Q := fun parked => ∀ q, parked = some q → cfg.staging_dir <+: q) ?_
    fun parked hparked => (within_query _).bind fun _ _ => hparked
  split_ifs
  · have hdraw : (guard cfg).Allows (some slug) (.token_hex 4) := ⟨rfl, fun _ h => h.elim⟩
    refine (within_of_uses (uses_token_hex hdraw)).bind fun hex _ => (within_of_uses (uses_disk
      (allows_in_site fun p hp => ?_))).bind fun _ _ => ?_
    · rcases List.mem_pair.1 hp with rfl | rfl
      · exact Or.inl List.prefix_rfl
      · exact Or.inr (List.prefix_append _ _)
    · rintro _ ⟨⟩
      exact List.prefix_append _ _
  · rintro _ ⟨⟩

/-- **A held section** takes the lock and gives it back. -/
theorem follows_hold {free : Prop} {Q : A → Prop} {p : TaskCode A}
    (hp : Follows (guard cfg) free (some slug) Q (some slug) p) :
    Follows (guard cfg) free none Q none (hold slug p) := by
  have hrelease : Follows (guard cfg) free none (fun _ => True) (some slug)
      (lift (Prog.invoke (S := sig) (.release slug) : Code Unit)) :=
    .release rfl fun r => by
      rcases r with e | a
      · exact .raise e
      · exact .ret trivial
  exact .acquire rfl (fun _ => hp.finallyDo hrelease) fun e => .raise e

theorem within_create_site (slug name : Str) (created_at : IsoTime.Instant) {free : Prop} :
    Follows (guard cfg) free none (fun _ => True) none
      (lift (Storage.create_site cfg rt slug name created_at)) := by
  rw [Storage.create_site, lift_hold]
  refine follows_hold (follows_lift (within_of_uses (Uses.bind (uses_allowed_query _) fun existing => ?_)))
  split_ifs
  · trivial
  have hrmdir : (guard cfg).Allows (some slug) (.disk (.rmdir (site_dir cfg slug))) :=
    allows_in_site fun p hp => Or.inl (by rw [List.mem_singleton.1 hp])
  refine ((uses_mkdirParents _ _ fun q hq => ⟨?_, ?_⟩).except fun e => ?_).bind fun _ =>
    (Uses.except (uses_allowed_query _) fun e => ?_).bind fun _ => uses_ret _
  · rw [List.reverse_reverse] at hq
    exact allows_mkdir hq List.prefix_rfl
  · exact allows_of_glances (show glances (.disk (.isDir q)) from rfl)
  · rcases e with _ | e | _ | _ | _ | _ | _ | _ <;> try trivial
    rcases e with _ | _ | _ | _ | _ | _ | _ | _ | _ <;> trivial
  · refine (uses_suppressOs (uses_disk hrmdir)).bind fun _ => ?_
    rcases e with _ | _ | _ | _ | _ | _ | _ | _ <;> trivial

theorem follows_stage (body : Incoming) {free : Prop} : Follows (guard cfg) free none
    (fun staged => cfg.staging_dir <+: staged.path) none (Tasks._stage cfg rt body) := by
  have hstaged : ∀ hex, cfg.staging_dir <+: stagingPath cfg hex := fun hex => List.prefix_append _ _
  have hdisk : ∀ {hex c}, (∀ p ∈ writes c, p = stagingPath cfg hex) →
      (guard cfg).Allows none (.disk c) := fun hc =>
    allows_staged fun p hp => by rw [hc p hp]; exact hstaged _
  have hplain : ∀ {c}, (guard cfg).use c = .plain → (∀ slug, ¬ (guard cfg).needs c slug) →
      (guard cfg).Allows none c := fun h1 h2 => ⟨h1, fun l h => absurd h (h2 l)⟩
  have hdraw : (guard cfg).Allows none (.token_hex 8) := hplain rfl fun _ h => h
  refine (follows_lift (within_of_uses (uses_token_hex hdraw))).bind fun hex _ => ?_
  have hcreate : (guard cfg).Allows none (.disk (.create (stagingPath cfg hex))) :=
    hdisk fun p hp => List.mem_singleton.1 hp
  have hsync : (guard cfg).Allows none (.disk (.sync (stagingPath cfg hex))) :=
    allows_of_glances (show glances (.disk (.sync (stagingPath cfg hex))) from rfl)
  have hwrite : ∀ bytes, (guard cfg).Allows none (.disk (.write (stagingPath cfg hex) bytes)) :=
    fun bytes => hdisk fun p hp => List.mem_singleton.1 hp
  refine Follows.bind (Q := fun _ => True) (Follows.except ?_ fun e => ?_) fun _ _ => .ret (hstaged hex)
  · refine (follows_lift (within_of_uses (uses_disk hcreate))).bind fun _ _ =>
      (follows_lift (within_of_uses (uses_stageChunks hwrite
        (fun _ => hplain rfl fun _ h => h) _ _ _))).bind fun received _ =>
          (follows_to_thread (within_of_uses (uses_disk hsync)) fun _ =>
            within_of_uses (uses_disk hsync)).bind fun _ _ => .ret trivial
  · exact (follows_lift (within_unlink_staged (hstaged hex))).bind fun _ _ => .raise e

theorem follows_write_file (slug path : Str) (body : Incoming) (overwrite : Bool)
    (declared_length : Option ℤ) {free : Prop} : Follows (guard cfg) free none (fun _ => True) none
      (Tasks.write_file cfg rt slug path body overwrite declared_length) := by
  refine (follows_lift (within_resolve slug path)).bind fun _ _ => ?_
  split_ifs
  · exact .raise _
  refine (follows_stage body).bind fun staged hstaged => ?_
  refine ((follows_hold (follows_lift (within_landFile path overwrite hstaged))).except fun e => ?_).bind
    fun _ _ => .ret trivial
  exact (follows_lift (within_unlink_staged hstaged)).bind fun _ _ => .raise e

theorem follows_delete_site (slug : Str) {free : Prop} :
    Follows (guard cfg) free none (fun _ => True) none (Tasks.delete_site cfg slug) := by
  refine (follows_hold (follows_lift (within_parkSite slug))).bind fun parked hparked => ?_
  rcases parked with _ | parked
  · exact .ret trivial
  have hstaged := hparked parked rfl
  refine (follows_lift (within_glances (glances_kind_of _))).bind fun kind _ => ?_
  split_ifs
  · have hremove : ∀ {held}, Within (guard cfg) held (fun _ => True) (rmtree true parked) :=
      within_rmtree true fun q hq => ⟨allows_staged fun p hp => ?_, allows_staged fun p hp => ?_⟩
    · exact follows_to_thread hremove fun _ => hremove
    · rw [List.mem_singleton.1 hp]
      exact hstaged.trans hq
    · rw [List.mem_singleton.1 hp]
      exact hstaged.trans hq
  · exact follows_lift (within_unlink_staged hstaged)

/-- The removal of a folder hands over what touches the site. -/
theorem follows_delete_folder (slug path : Str) (recursive : Bool) :
    Follows (guard cfg) False none (fun _ => True) none
      (Tasks.delete_folder cfg rt slug path recursive) := by
  refine follows_hold ((follows_lift (within_resolve slug path)).bind fun target htarget =>
    (follows_lift (within_glances (glances_kind_of _))).bind fun kind _ => ?_)
  cases kind with
  | folder =>
    refine (follows_lift (within_glances (uses_glance rfl))).bind fun entries _ => ?_
    split_ifs
    · exact .raise _
    have hsite : site_dir cfg slug <+: target := by rw [htarget]; exact List.prefix_append _ _
    have hremove : Within (guard cfg) (some slug) (fun _ => True) (rmtree false target) :=
      within_rmtree false fun q hq => ⟨allows_in_site fun p hp => Or.inl ?_,
        allows_in_site fun p hp => Or.inl ?_⟩
    · exact (follows_to_thread hremove False.elim).bind fun _ _ =>
        (follows_lift (within_query _)).bind fun _ _ => .ret trivial
    · rw [List.mem_singleton.1 hp]
      exact hsite.trans hq
    · rw [List.mem_singleton.1 hp]
      exact hsite.trans hq
  | _ => exact .raise _

/-- The operations but the removal of a folder. -/
def keepsToItself : Operation → Prop
  | .delete_folder .. => False
  | _ => True

/-- **The tasks of the operations obey the locks**, and all but the removal of a folder hand over
nothing that touches a site. -/
theorem follows_task (cfg : Calls.Config) (rt : Runtime) (op : Operation) :
    Follows (guard cfg) (keepsToItself op) none (fun _ => True) none (Tasks.task cfg rt op) := by
  cases op with
  | create_site slug name created_at =>
    exact (within_create_site slug name created_at).bind fun _ _ => .ret trivial
  | delete_site slug => exact (follows_delete_site slug).bind fun _ _ => .ret trivial
  | list_folder slug folder =>
    refine (follows_lift (within_of_uses ((uses_list_folder slug folder).mono fun _ =>
      allows_of_looks))).bind fun _ _ => .ret trivial
  | write_file slug path body overwrite declared_length =>
    exact (follows_write_file slug path body overwrite declared_length).bind fun _ _ => .ret trivial
  | delete_file slug path =>
    rw [Tasks.task, Storage.delete_file, lift_hold]
    exact (follows_hold (follows_lift (within_removeFile path))).bind fun _ _ => .ret trivial
  | delete_folder slug path recursive =>
    exact (follows_delete_folder slug path recursive).bind fun _ _ => .ret trivial

end Operations

/-! ### Runs -/

/-- **A call that changes a site's tree**: something in it is created, replaced or removed. -/
def Changes (cfg : Calls.Config) (slug : Str) (e : Ev) : Prop :=
  ∃ q, site_dir cfg slug <+: q ∧ e.after.disk.get q ≠ e.before.disk.get q

/-- **Every change to a site's tree is made while the site's lock is held by the operation that makes
it**, in every run of operations that are cancelled wherever they wait, but for the removal of a folder
that is cancelled while it runs. -/
theorem changes_hold_the_lock (cfg : Calls.Config) (rt : Runtime) (ops : ℕ → Operation) {w : World}
    (hfree : ∀ slug, w.locks slug = none) {g : Workers.State sig Exn Result World}
    {tr : List (Mark sig Exn World)}
    (hrun : Workers.Run loop (.start w fun i => Tasks.task cfg rt (ops i)) tr g)
    (hremoval : ∀ i slug path recursive, ops i = .delete_folder slug path recursive →
      .abandoned i ∉ tr) :
    ∀ e, .made e ∈ tr → ∀ slug, Changes cfg slug e → e.before.locks slug = some e.tid := by
  have hguarded := Workers.Run.guarded (F := fun i => keepsToItself (ops i)) (sound_guard cfg)
    (fun i => follows_task cfg rt (ops i)) hfree hrun fun i hi => by
      rcases hop : ops i with _ | _ | _ | _ | _ | ⟨slug, path, recursive⟩
      case delete_folder => exact hremoval i slug path recursive hop hi
      all_goals exact trivial
  rintro e he slug ⟨q, hq, hchange⟩
  refine hguarded e he slug ?_
  obtain ⟨j, c, r, w1, w2⟩ := e
  obtain rfl : w2 = (Calls.exec j c w1).2 :=
    congrArg Prod.snd (answers_faultless.1 (hrun.answers _ he)).2
  cases c with
  | disk c => exact touches_of_change hq hchange
  | _ => exact absurd rfl hchange

/-! ### The removal of a folder that runs on -/

/-- A site with an empty folder `d`, which every task is to remove. -/
def clearing : Workers.State sig Exn Result World :=
  .start { withSite with disk := withSite.disk.put (site_dir smallConfig (lit "a") ++ [lit "d"]) .folder }
    fun _ => Tasks.task smallConfig plainRuntime (.delete_folder (lit "a") (lit "d") true)

/-- Where the folder is. -/
def cleared : Path Str := site_dir smallConfig (lit "a") ++ [lit "d"]

/-- One task hands the removal to a worker, and is cancelled and gives the lock back before the worker
begins. -/
def clearance : List Move :=
  List.replicate 8 (.act 0) ++ [.cancel 0, .act 0, .stray, .stray]

/-- **A removal that is cancelled runs on without the lock.** -/
theorem removal_runs_on : ¬ ∀ tr g, Workers.Run loop clearing tr g → ∀ e, .made e ∈ tr → ∀ slug,
    Changes smallConfig slug e → e.before.locks slug = some e.tid := by
  intro h
  have hplay : (loop.play clearance clearing).bind (fun x => (x.1[11]?.bind Mark.event).map fun e =>
      (e.before.locks (lit "a"), (e.before.disk.get cleared).isSome,
        (e.after.disk.get cleared).isSome)) = some (none, true, false) := by decide +kernel
  obtain ⟨⟨tr, g⟩, hplay, hseen⟩ := Option.bind_eq_some_iff.1 hplay
  obtain ⟨e, he, hseen⟩ := Option.map_eq_some_iff.1 hseen
  obtain ⟨m, hm, hme⟩ := Option.bind_eq_some_iff.1 he
  obtain rfl := Mark.event_eq_some hme
  simp only [Prod.mk.injEq] at hseen
  obtain ⟨hlock, hbefore, hafter⟩ := hseen
  have hheld := h tr g (Loop.play_run hplay) e (List.mem_of_getElem? hm) (lit "a")
    ⟨cleared, List.prefix_append _ _, fun heq => by
      rw [heq, hbefore] at hafter
      cases hafter⟩
  rw [hlock] at hheld
  cases hheld

/-! ### A cancellation that does no harm -/

/-- The removal of a folder, by the first task, beside uploads. -/
def beside : ℕ → Operation := fun i =>
  if i = 0 then .delete_folder (lit "a") (lit "d") true
  else .write_file (lit "a") (lit "f") ⟨[[1]], none⟩ false none

/-- The task whose wait for a worker is cancelled. -/
def abandonedBy : Mark sig Exn World → Option ℕ
  | .abandoned i => some i
  | _ => none

/-- An upload is cancelled while a worker syncs its staging file, the worker runs on, and the folder is
removed. -/
def harmless : List Move :=
  List.replicate 10 (.act 1) ++ [.cancel 1, .act 1, .stray] ++ List.replicate 10 (.act 0)

theorem changes_hold_the_lock_beside : ∃ tr g e,
    Workers.Run loop (.start clearing.world fun i => Tasks.task smallConfig plainRuntime (beside i)) tr g ∧
      .abandoned 1 ∈ tr ∧ .made e ∈ tr ∧ Changes smallConfig (lit "a") e ∧
      e.before.locks (lit "a") = some 0 := by
  have hplay : (loop.play harmless (.start clearing.world fun i =>
      Tasks.task smallConfig plainRuntime (beside i))).bind (fun x => (x.1[22]?.bind Mark.event).map fun e =>
      (x.1.filterMap abandonedBy, e.tid, (e.before.disk.get cleared).isSome,
        (e.after.disk.get cleared).isSome)) = some ([1], 0, true, false) := by
    decide +kernel
  obtain ⟨⟨tr, g⟩, hplay, hseen⟩ := Option.bind_eq_some_iff.1 hplay
  obtain ⟨e, he, hseen⟩ := Option.map_eq_some_iff.1 hseen
  obtain ⟨m, hm, hme⟩ := Option.bind_eq_some_iff.1 he
  obtain rfl := Mark.event_eq_some hme
  simp only [Prod.mk.injEq] at hseen
  obtain ⟨habandoned, htid, hbefore, hafter⟩ := hseen
  have hleft : ∀ i, .abandoned i ∈ tr ↔ i = 1 := by
    intro i
    rw [← List.mem_singleton, ← habandoned, List.mem_filterMap]
    constructor
    · exact fun h => ⟨_, h, rfl⟩
    · rintro ⟨m, h, hi⟩
      cases m <;> cases hi
      exact h
  have hchange : Changes smallConfig (lit "a") e := ⟨cleared, List.prefix_append _ _, fun heq => by
    rw [heq, hbefore] at hafter
    cases hafter⟩
  have hheld := changes_hold_the_lock smallConfig plainRuntime beside (fun _ => rfl)
    (Loop.play_run hplay) (fun i slug path recursive hop hi => by
      obtain rfl := (hleft i).1 hi
      cases hop) e (List.mem_of_getElem? hm) (lit "a") hchange
  rw [htid] at hheld
  exact ⟨tr, g, e, Loop.play_run hplay, (hleft 1).2 rfl, List.mem_of_getElem? hm, hchange, hheld⟩

end PaperBoxing.Backend.Cancelled
