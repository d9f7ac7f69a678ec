import PaperBoxing.Backend.Alone
import PaperBoxing.Backend.Operations

/-! # A listing that races with changes

`list_folder` holds no lock, so everything it saw may be gone when it comes back to it. Only the `stat`
of an entry is guarded; a folder that is gone when it is read, a file that is gone when it is hashed,
and a site whose row is gone when a row of its index is written each end the listing with an exception
that is none of the contract's.

* `Sound`: a program that ends by the contract exactly when it found what it looked for;
* `listing_by_contract_iff`: `list_folder` is such a program, in every run;
* `listing_of_a_parked_folder`: a run in which it ends otherwise. -/

namespace PaperBoxing.Backend.Racing

open PaperBoxing.Lib PaperBoxing.Lib.Action PaperBoxing.Lib.Program PaperBoxing.Lib.Threads
open PaperBoxing.Lib.Paths PaperBoxing.Lib.Text PaperBoxing.Lib.Trees PaperBoxing.Lib.Disk
open PaperBoxing.Lib.Tables PaperBoxing.Common.Schema PaperBoxing.Common.Naming
open PaperBoxing.Backend.Db PaperBoxing.Backend.Calls PaperBoxing.Backend.Storage
open PaperBoxing.Backend.Alone PaperBoxing.Backend.Operations PaperBoxing.Backend

/-- **What a call of a listing finds** where it is made: the folder that it reads, the file that it
hashes, the site whose index it writes. The other calls look for nothing that has to be there. -/
def Found (e : Ev) : Prop :=
  match e.call with
  | .disk (.scandir p) => e.before.disk.get p = some .folder
  | .disk (.read p) => ∃ d, e.before.disk.get p = some (.file d)
  | .db (.upsert_file row) => e.before.db.sites[row.site]? ≠ none
  | _ => True

/-- **An end by the contract**: a result, or a refusal by 400, 404 or 409. -/
def ByContract {A : Type} : Except Exn A → Prop
  | .ok _ => True
  | .error (.api a) => a.status ∈ [400, 404, 409]
  | .error _ => False

variable {cfg : Config} {rt : Runtime} {A B : Type} {i : ℕ} {slug folder : Str}

/-- **A program that ends by the contract exactly when it finds what it looks for.** -/
def Sound (i : ℕ) (p : Code A) : Prop :=
  ∀ es o, Ends faultless i p es o → (ByContract o ↔ ∀ e ∈ es, Found e)

/-! ### The rules -/

theorem sound_ret {a : A} : Sound i (.ret a : Code A) := by
  intro es o h
  obtain ⟨rfl, rfl⟩ := ends_ret.1 h
  exact iff_of_true trivial (List.forall_mem_nil _)

theorem sound_refuse {a : ApiError} (ha : a.status ∈ [400, 404, 409]) :
    Sound i (.raise (.api a) : Code A) := by
  intro es o h
  obtain ⟨rfl, rfl⟩ := ends_raise.1 h
  exact iff_of_true ha (List.forall_mem_nil _)

/-- A sequence, whose second part is sound on what the first may return. -/
theorem Sound.bind_of {p : Code A} {f : A → Code B} (hp : Sound i p)
    (hf : ∀ es a, Ends faultless i p es (.ok a) → Sound i (f a)) : Sound i (p >>= f) := by
  intro es o h
  rcases Ends.bind h with ⟨e, rfl, h1⟩ | ⟨a, es1, es2, rfl, h1, h2⟩
  · rw [← hp _ _ h1]
    cases e <;> exact Iff.rfl
  · rw [List.forall_mem_append, hf _ a h1 _ _ h2]
    exact (and_iff_right ((hp _ _ h1).1 trivial)).symm

theorem Sound.bind {p : Code A} {f : A → Code B} (hp : Sound i p) (hf : ∀ a, Sound i (f a)) :
    Sound i (p >>= f) := hp.bind_of fun _ a _ => hf a

/-- **One call**: it returns where it finds what it looks for, and otherwise raises what is not the
contract's. -/
theorem sound_invoke {c : Calls.Call} (h : ∀ w w' r, (r, w') = exec i c w →
    (ByContract r ↔ Found ⟨i, c, r, w, w'⟩)) : Sound i (.invoke (S := sig) c : Code (Calls.Resp c)) := by
  intro es o hc
  obtain ⟨w, w', rfl, ha⟩ := hc.invoke
  rw [List.forall_mem_singleton]
  exact h w w' o (answers_faultless.1 ha).2

/-- A query that always answers. -/
theorem sound_query {q : Query} (hplain : ∀ d, ∃ a, (Db.exec q d).1 = .ok a)
    (hq : ∀ row, q ≠ .upsert_file row) : Sound i (query q) := by
  refine sound_invoke fun w w' r hr => iff_of_true ?_ ?_
  · obtain ⟨a, ha⟩ := hplain w.db
    have hok : r = .ok a := (congrArg Prod.fst hr).trans ha
    rw [hok]
    trivial
  · cases q <;> first | trivial | exact absurd rfl (hq _)

theorem sound_realpath (p : Path Str) : Sound i (disk (.realpath p)) :=
  sound_invoke fun w w' r hr => by
    obtain rfl : r = .ok p := congrArg Prod.fst hr
    exact iff_of_true trivial trivial

/-- A `try` around a call that looks for nothing. -/
theorem sound_attempt {c : Calls.Call} (hc : ∀ r w w', Found ⟨i, c, r, w, w'⟩) :
    Sound i (Prog.invoke (S := sig) c : Code (Calls.Resp c)).attempt := by
  intro es o h
  obtain ⟨o', rfl, h1⟩ := h.attempt
  obtain ⟨w, w', rfl, -⟩ := h1.invoke
  exact iff_of_true trivial (List.forall_mem_singleton.2 (hc ..))

/-! ### The parts of a listing -/

/-- The look at an entry raises nothing but that it is not there. -/
theorem sound_lstat (p : Path Str) : Sound i (lstat p) := by
  intro es o h
  rcases Ends.bind h with ⟨e, -, h1⟩ | ⟨r, es1, es2, rfl, h1, h2⟩
  · obtain ⟨_, h0, -⟩ := h1.attempt
    cases h0
  obtain ⟨r', hr, h1⟩ := h1.attempt
  obtain rfl := Except.ok.inj hr
  obtain ⟨w, w', rfl, ha⟩ := h1.invoke
  have hlook := (answers_faultless.1 ha).2
  change (r, w') = onDisk i (.lstat p) w at hlook
  have hret : ∃ m, es2 = [] ∧ o = .ok m := by
    rcases hget : w.disk.get p with _ | n
    · rw [onDisk_of_error (e := absent w.disk p) (t := w.disk) rfl
        (by rw [Disk.exec, Act.bind_of_error (lookup_absent hget)])] at hlook
      obtain ⟨rfl, -⟩ := Prod.mk.inj hlook
      rcases absent_cases w.disk p with hab | hab <;> rw [hab] at h2 <;>
        exact ⟨_, ends_ret.1 h2⟩
    · rw [onDisk_of_ok (r := modeOf n) (t := w.disk) rfl (by
        rw [Disk.exec, Act.bind_of_ok (lookup_of_get hget)]
        rfl)] at hlook
      obtain ⟨rfl, -⟩ := Prod.mk.inj hlook
      exact ⟨_, ends_ret.1 h2⟩
  obtain ⟨m, rfl, rfl⟩ := hret
  exact iff_of_true trivial (List.forall_mem_singleton.2 trivial)

theorem sound_kind_of (p : Path Str) : Sound i (kind_of p) :=
  (sound_lstat p).bind fun _ => sound_ret

theorem sound_checkLinks (path : Str) : ∀ (root : Path Str) (segs : List Str),
    Sound i (checkLinks rt path root segs)
  | _, [] => sound_ret
  | root, s :: rest => by
    refine (sound_lstat _).bind fun mode => ?_
    rcases mode with _ | _ | _ | _ | _
    · exact sound_ret
    · exact sound_checkLinks path _ rest
    · exact sound_checkLinks path _ rest
    · exact sound_refuse List.mem_cons_self
    · exact sound_checkLinks path _ rest

theorem sound_resolve (path : Str) : Sound i (resolve cfg rt slug path) := by
  refine (sound_lstat _).bind fun mode => ?_
  split_ifs
  · exact sound_refuse List.mem_cons_self
  refine (sound_checkLinks path _ _).bind fun _ => (sound_realpath _).bind fun real =>
    (sound_realpath _).bind fun real_root => ?_
  split_ifs
  · exact sound_ret
  · exact sound_refuse List.mem_cons_self

theorem sound_scandir (p : Path Str) : Sound i (disk (.scandir p)) := by
  refine sound_invoke fun w w' r hr => ?_
  change ByContract r ↔ w.disk.get p = some .folder
  change (r, w') = onDisk i (.scandir p) w at hr
  obtain rfl : r = (Disk.scandir _ p w.disk).1.mapError .os := congrArg Prod.fst hr
  rw [Disk.scandir]
  rcases hget : w.disk.get p with _ | n
  · exact iff_of_false id (by rintro ⟨⟩)
  · cases n with
    | folder => exact iff_of_true trivial rfl
    | _ => exact iff_of_false id (by rintro ⟨⟩)

theorem sound_read (p : Path Str) : Sound i (disk (.read p)) := by
  refine sound_invoke fun w w' r hr => ?_
  change ByContract r ↔ ∃ d, w.disk.get p = some (.file d)
  obtain rfl : r = (Disk.read p w.disk).1.mapError .os := congrArg Prod.fst hr
  rw [Disk.read]
  rcases hget : w.disk.get p with _ | n
  · exact iff_of_false id (by rintro ⟨_, ⟨⟩⟩)
  · cases n with
    | file d => exact iff_of_true trivial ⟨d, rfl⟩
    | _ => exact iff_of_false id (by rintro ⟨_, ⟨⟩⟩)

theorem sound_upsert (row : FileRow) : Sound i (query (.upsert_file row)) := by
  refine sound_invoke fun w w' r hr => ?_
  change ByContract r ↔ w.db.sites[row.site]? ≠ none
  obtain rfl : r = (Db.upsert_file row w.db).1 := congrArg Prod.fst hr
  rw [Db.upsert_file]
  rcases w.db.sites[row.site]? with _ | s
  · exact iff_of_false id (fun h => h rfl)
  · exact iff_of_true trivial (Option.some_ne_none s)

theorem sound_reconcile (rel : Str) (p : Path Str) (st : Stat) (rows : List FileRow) :
    Sound i (reconcile rt slug rel p st rows) := by
  have hrewrite : Sound i (reconcile.rewrite rt slug rel p st) :=
    (sound_read p).bind fun _ => (sound_upsert _).bind fun _ => sound_ret
  rw [reconcile]
  split
  · split_ifs
    · exact hrewrite
    · exact sound_ret
  · exact hrewrite

/-- One entry: only the look at it is guarded. -/
theorem sound_gather (target : Path Str) (rows : List FileRow) (name : Str) (g : Gathered) :
    Sound i (gather rt slug folder target rows name g) := by
  refine (sound_attempt (c := .disk (.stat (target ++ [name]))) fun _ _ _ => trivial).bind_of fun es r h => ?_
  obtain ⟨r', hr, h1⟩ := h.attempt
  obtain rfl := Except.ok.inj hr
  obtain ⟨w, w', rfl, ha⟩ := h1.invoke
  obtain rfl : r = (Disk.exec _ (.stat (target ++ [name])) w.disk).1.mapError .os :=
    congrArg Prod.fst (answers_faultless.1 ha).2
  rcases (Disk.exec _ (Disk.Call.stat (target ++ [name])) w.disk).1 with e | st
  · exact sound_ret
  dsimp only [Except.mapError]
  rcases st.mode with _ | _ | _ | _
  · exact (sound_reconcile _ _ _ _).bind fun _ => sound_ret
  · exact (sound_query (fun _ => ⟨_, rfl⟩) (by rintro _ ⟨⟩)).bind fun _ => sound_ret
  · exact sound_ret
  · exact sound_ret

theorem sound_gatherAll (target : Path Str) (rows : List FileRow) : ∀ (names : List Str) (g : Gathered),
    Sound i (gatherAll rt slug folder target rows names g)
  | [], _ => sound_ret
  | name :: names, g => (sound_gather target rows name g).bind fun g' =>
    sound_gatherAll target rows names g'

theorem sound_dropStale : ∀ paths : List Str, Sound i (dropStale slug paths)
  | [] => sound_ret
  | _ :: paths => (sound_query (fun _ => ⟨_, rfl⟩) (by rintro _ ⟨⟩)).bind fun _ =>
    sound_dropStale paths

/-- **`list_folder` ends by the contract exactly when it finds what it looks for.** -/
theorem sound_list_folder (cfg : Config) (rt : Runtime) (slug folder : Str) :
    Sound i (list_folder cfg rt slug folder) := by
  refine (sound_resolve folder).bind fun target => (sound_kind_of target).bind fun kind => ?_
  cases kind with
  | file => exact sound_refuse (by decide : 409 ∈ [400, 404, 409])
  | special => exact sound_refuse List.mem_cons_self
  | missing =>
    dsimp only
    split_ifs
    · exact sound_ret
    · exact sound_refuse (by decide : 404 ∈ [400, 404, 409])
  | folder =>
    refine (sound_query (fun _ => ⟨_, rfl⟩) (by rintro _ ⟨⟩)).bind fun rows =>
      (sound_scandir target).bind fun names => (sound_gatherAll target rows names _).bind fun g =>
        (sound_dropStale _).bind fun _ => sound_ret

/-- **A listing in a run ends by the contract exactly when each folder it reads, each file it hashes
and each site whose index it writes is there at that moment**, whatever the other threads are. -/
theorem listing_by_contract_iff (cfg : Config) (rt : Runtime) (slug folder : Str) (i : ℕ)
    {g g' : Threads.Config sig Exn Result World} {tr : List Ev} (hrun : Run faultless g tr g')
    (hlist : g.threads i = (Operation.list_folder slug folder).code cfg rt) {o : Except Exn Result}
    (hend : g'.threads i = .ofExcept o) :
    ByContract o ↔ ∀ e ∈ tr, e.tid = i → Found e := by
  have hpath := path_of_run hrun i
  rw [hlist, hend] at hpath
  have hsound : Sound i ((Operation.list_folder slug folder).code cfg rt) :=
    (sound_list_folder cfg rt slug folder).bind fun _ => sound_ret
  rw [hsound _ _ hpath]
  simp only [List.mem_filter, beq_iff_eq, and_imp]

/-! ### A folder parked under the listing -/

/-- The site `a`, with an empty folder, about to be listed by one thread and deleted by another. -/
def parking : Threads.Config sig Exn Result World :=
  ⟨withSite, fun i =>
    if i = 0 then (Operation.list_folder (lit "a") []).code smallConfig plainRuntime
    else if i = 1 then (Operation.delete_site (lit "a")).code smallConfig plainRuntime
    else .ret .done⟩

/-- The folder goes into staging after the listing saw it and before it reads it. -/
theorem parking_run : ∃ tr g, Run faultless parking tr g ∧ g.threads 0 = .raise (.os .notFound) := by
  have hplay : (faultless.play [0, 0, 0, 0, 0, 1, 1, 1, 1, 0] parking).bind
    (fun g => raised (g.threads 0)) = some (.os .notFound) := by decide +kernel
  obtain ⟨g, hg, hraised⟩ := Option.bind_eq_some_iff.1 hplay
  obtain ⟨tr, hrun⟩ := Machine.play_run hg
  exact ⟨tr, g, hrun, raised_eq_some hraised⟩

/-- **A deletion takes the folder away under a listing, which ends with an exception of the disk.** -/
theorem listing_of_a_parked_folder : ¬ ∀ tr g (o : Except Exn Result), Run faultless parking tr g →
    g.threads 0 = .ofExcept o → ByContract o := by
  intro h
  obtain ⟨tr, g, hrun, hend⟩ := parking_run
  exact h tr g (.error (.os .notFound)) hrun hend

theorem listing_by_contract_parking : ∃ tr g, Run faultless parking tr g ∧
    ¬ ∀ e ∈ tr, e.tid = 0 → Found e := by
  obtain ⟨tr, g, hrun, hend⟩ := parking_run
  exact ⟨tr, g, hrun, fun h => (listing_by_contract_iff smallConfig plainRuntime (lit "a") [] 0
    hrun rfl (o := .error (.os .notFound)) hend).2 h⟩

end PaperBoxing.Backend.Racing
