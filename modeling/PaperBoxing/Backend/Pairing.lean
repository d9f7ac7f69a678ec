import PaperBoxing.Backend.Alone
import PaperBoxing.Backend.Frames
import PaperBoxing.Lib.Faults

/-! # A site's row and its folder

`create_site` makes the folder and then the row, `delete_site` moves the folder away and then deletes
the row, and any step between may raise. The file operations make and remove neither.

* `spares`: the calls that make and remove no row and no folder of a site; `call_samePairs`;
* `create_site_outcome`, `delete_site_outcome`: where the two may end when one of their steps fails;
* `live_and_die`: after every call of a run the row and the folder are there together, as long as no
  `delete_site` fails after it has moved the folder. -/

namespace PaperBoxing.Backend.Pairing

open PaperBoxing.Lib PaperBoxing.Lib.Action PaperBoxing.Lib.Program PaperBoxing.Lib.Text
open PaperBoxing.Lib.Tables PaperBoxing.Lib.Trees PaperBoxing.Lib.Disk PaperBoxing.Lib.IsoTime
open PaperBoxing.Lib.Faults PaperBoxing.Common.Schema PaperBoxing.Common.Naming
open PaperBoxing.Backend PaperBoxing.Backend.Db PaperBoxing.Backend.Calls PaperBoxing.Backend.Storage
open PaperBoxing.Backend.Alone PaperBoxing.Backend.Frames

variable {cfg : Config} {rt : Runtime} {i : ℕ} {w w' w'' : World} {slug : Str}

/-! ### Rows and folders -/

/-- **A site's row and its folder are there together.** -/
structure Paired (cfg : Config) (w : World) : Prop where
  together : ∀ slug : Str, w.db.sites[slug]? ≠ none ↔ w.disk.get (site_dir cfg slug) = some .folder
  folders : ∀ slug, w.disk.get (site_dir cfg slug) = none ∨
    w.disk.get (site_dir cfg slug) = some .folder

/-- Two worlds with the same rows and folders of sites. -/
structure SamePairs (cfg : Config) (w w' : World) : Prop where
  folders : ∀ slug, w'.disk.get (site_dir cfg slug) = w.disk.get (site_dir cfg slug)
  rows : ∀ slug : Str, w'.db.sites[slug]? = none ↔ w.db.sites[slug]? = none

theorem SamePairs.refl (cfg : Config) (w : World) : SamePairs cfg w w :=
  ⟨fun _ => rfl, fun _ => Iff.rfl⟩

theorem SamePairs.trans (h : SamePairs cfg w w') (h' : SamePairs cfg w' w'') : SamePairs cfg w w'' :=
  ⟨fun slug => (h'.folders slug).trans (h.folders slug),
    fun slug => (h'.rows slug).trans (h.rows slug)⟩

theorem SamePairs.paired (h : SamePairs cfg w w') (hw : Paired cfg w) : Paired cfg w' :=
  ⟨fun slug => by rw [ne_eq, h.rows, h.folders]; exact hw.together slug,
    fun slug => by rw [h.folders]; exact hw.folders slug⟩

/-- Two worlds with the same database, and the same trees of sites. -/
structure Still (cfg : Config) (w w' : World) : Prop where
  db : w'.db = w.db
  trees : ∀ slug, w'.disk.under (site_dir cfg slug) = w.disk.under (site_dir cfg slug)

theorem Paired.taken (h : Paired cfg w) : Paired cfg (taken w i slug) := ⟨h.together, h.folders⟩

theorem Still.refl (cfg : Config) (w : World) : Still cfg w w := ⟨rfl, fun _ => rfl⟩

theorem Still.trans (h : Still cfg w w') (h' : Still cfg w' w'') : Still cfg w w'' :=
  ⟨h'.db.trans h.db, fun slug => (h'.trees slug).trans (h.trees slug)⟩

theorem get_of_under {t t' : Files Str} {p : Path Str} (h : t'.under p = t.under p) :
    t'.get p = t.get p := by
  have := congrFun h []
  rwa [Tree.under_apply, Tree.under_apply, List.append_nil] at this

theorem Still.samePairs (h : Still cfg w w') : SamePairs cfg w w' :=
  ⟨fun slug => get_of_under (h.trees slug), fun slug => by rw [h.db]⟩

/-! ### Calls that make and remove neither -/

/-- The queries that make or remove a row of a site. -/
def movesRows : Query → Bool
  | .insert_site _ | .delete_site _ => true
  | _ => false

theorem exec_rows {q : Query} (h : movesRows q = false) (d : Database) (slug : Str) :
    (Db.exec q d).2.sites[slug]? = none ↔ d.sites[slug]? = none := by
  by_cases hacc : onAccounts q = true
  · rw [exec_sites hacc]
  have hset : ∀ site f, (d.set_files site f).sites[slug]? = none ↔ d.sites[slug]? = none := by
    intro site f
    rw [get_sites_set_files]
    split_ifs
    · exact Option.map_eq_none_iff
    · exact Iff.rfl
  cases q <;> try first
    | exact absurd rfl hacc
    | exact absurd h.symm Bool.false_ne_true
    | exact Iff.rfl
    | exact hset _ _
  case upsert_file row =>
    simp only [Db.exec, upsert_file]
    split
    · exact Iff.rfl
    · exact hset _ _

/-- Making a folder changes no other place. -/
theorem mkdir_get (t : Files Str) {p q : Path Str} (h : q ≠ p) : (mkdir p t).2.get q = t.get q := by
  unfold mkdir
  split
  · rfl
  · split_ifs with hfits
    · rw [Tree.get_put hfits, if_neg h]
    · rfl

/-- The calls that make and remove no row and no folder of a site. -/
def spares (cfg : Config) : Calls.Call → Prop
  | .disk (.mkdir p) => ∀ slug, p ≠ site_dir cfg slug
  | .disk c => ∀ p ∈ writes c, ∀ slug, ¬ p <+: site_dir cfg slug
  | .db q => movesRows q = false
  | _ => True

theorem call_samePairs {c : Calls.Call} (hc : spares cfg c) (w : World) :
    SamePairs cfg w (Calls.exec i c w).2 := by
  cases c with
  | db q => exact ⟨fun _ => rfl, exec_rows hc w.db⟩
  | disk c =>
    refine ⟨fun slug => ?_, fun _ => Iff.rfl⟩
    change (Disk.exec _ c w.disk).2.get _ = _
    cases c with
    | mkdir p => exact mkdir_get _ (hc slug).symm
    | _ => exact exec_get_of_not_writes _ fun p hp => hc p hp slug
  | _ => exact ⟨fun _ => rfl, fun _ => Iff.rfl⟩

theorem run_samePairs {A : Type} {p : Code A} (hp : Uses (spares cfg) p) (w : World) :
    SamePairs cfg w (run (exec i) p w).2 :=
  run_preserves (I := SamePairs cfg w) (fun _ hc w' hw => hw.trans (call_samePairs hc w')) hp
    (.refl cfg w)

theorem same_bind {A B : Type} {p : Code A} {f : A → Code B}
    (hp : SamePairs cfg w (run (exec i) p w).2)
    (hf : ∀ a w1, run (exec i) p w = (.ok a, w1) → SamePairs cfg w1 (run (exec i) (f a) w1).2) :
    SamePairs cfg w (run (exec i) (p >>= f) w).2 := by
  rcases h : run (exec i) p w with ⟨e | a, w1⟩ <;> rw [h] at hp
  · rwa [run_bind_of_error _ h]
  · rw [run_bind_of_ok _ h]
    exact hp.trans (hf a w1 h)

theorem same_except {A : Type} {p : Code A} {g : Exn → Code A}
    (hp : SamePairs cfg w (run (exec i) p w).2)
    (hg : ∀ e w1, SamePairs cfg w1 (run (exec i) (g e) w1).2) :
    SamePairs cfg w (run (exec i) (p.except g) w).2 := by
  rcases h : run (exec i) p w with ⟨e | a, w1⟩ <;> rw [h] at hp
  · rw [run_except_of_error _ h]
    exact hp.trans (hg e w1)
  · rwa [run_except_of_ok _ h]

theorem same_hold {A : Type} {p : Code A}
    (hp : SamePairs cfg (taken w i slug) (run (exec i) p (taken w i slug)).2) :
    SamePairs cfg w (run (exec i) (hold slug p) w).2 := by
  rw [run_hold]
  exact ⟨hp.folders, hp.rows⟩

theorem spares_of_looks {c : Calls.Call} (h : looks c) : spares cfg c := by
  cases c with
  | db q => cases q <;> first | rfl | cases h
  | disk c =>
    cases c <;> first
      | exact absurd h (List.cons_ne_nil _ _)
      | exact fun p hp => absurd hp List.not_mem_nil
  | _ => trivial

/-- What is written in the staging folder is no part of a site. -/
theorem staging_not_site (cfg : Config) (hex slug : Str) :
    ¬ stagingPath cfg hex <+: site_dir cfg slug := by
  have := not_staging_prefix cfg slug [hex ++ lit ".part"] []
  rwa [List.append_nil] at this

/-- What is written below a site's folder is not the folder of a site. -/
theorem below_not_site (cfg : Config) (slug slug' : Str) {p : Path Str} (hp : p ≠ []) :
    ¬ site_dir cfg slug ++ p <+: site_dir cfg slug' := by
  intro h
  have := h.length_le
  have := List.length_pos_iff.2 hp
  simp only [site_dir, List.length_append, List.length_singleton] at *
  omega

/-! ### The file operations -/

theorem uses_spares {A : Type} {p : Code A} (h : Uses looks p) : Uses (spares cfg) p :=
  h.mono fun _ => spares_of_looks

theorem spares_of_staging (cfg : Config) {hex : Str} {c : Disk.Call Str}
    (h : ∀ p ∈ writes c, p = stagingPath cfg hex) : spares cfg (.disk c) := by
  have hne : ∀ slug, stagingPath cfg hex ≠ site_dir cfg slug := fun slug he =>
    staging_not_site cfg hex slug (he ▸ List.prefix_rfl)
  cases c with
  | mkdir p =>
    obtain rfl := h p List.mem_cons_self
    exact hne
  | _ => exact fun p hp slug => h p hp ▸ staging_not_site cfg hex slug

theorem segments_ne_nil {path : Str} (h : path ≠ []) : segments path ≠ [] := by
  rw [segments, if_neg h]
  exact split_ne_nil path

/-- A staging leaves the rows and folders of the sites as they are, and what it stages is in the
staging folder. -/
theorem run_stage_samePairs (cfg : Config) (rt : Runtime) (i : ℕ) (body : Incoming) (w : World) :
    SamePairs cfg w (run (exec i) (_stage cfg rt body) w).2 ∧
      ∀ staged, (run (exec i) (_stage cfg rt body) w).1 = .ok staged →
        ∃ hex, staged.path = stagingPath cfg hex := by
  refine ⟨run_samePairs (uses_stage (fun c hex h => spares_of_staging cfg h) (fun _ => trivial)
    (fun _ => trivial) body) w, fun staged h => ?_⟩
  have hrun : run (exec i) (_stage cfg rt body) w =
      (.ok staged, (run (exec i) (_stage cfg rt body) w).2) := Prod.ext h rfl
  obtain ⟨hex, w1, -, h1⟩ := run_bind_inv _ hrun
  obtain ⟨received, w2, -, h2⟩ := run_bind_inv _ h1
  exact ⟨hex, (Except.ok.inj (congrArg Prod.fst h2)).symm ▸ rfl⟩

/-- The calls that make no folder of a site but the one that is there. -/
def lands (cfg : Config) (slug : Str) (c : Calls.Call) : Prop :=
  spares cfg c ∨ c = .disk (.mkdir (site_dir cfg slug))

theorem run_lands {A : Type} {p : Code A} (hp : Uses (lands cfg slug) p)
    (hdir : w.disk.get (site_dir cfg slug) = some .folder) :
    SamePairs cfg w (run (exec i) p w).2 := by
  refine run_preserves (I := SamePairs cfg w) (fun c hc w' hw => ?_) hp (.refl cfg w)
  rcases hc with hc | rfl
  · exact hw.trans (call_samePairs hc w')
  · refine hw.trans ⟨fun slug' => ?_, fun _ => Iff.rfl⟩
    change (mkdir _ w'.disk).2.get _ = _
    rw [mkdir_exists ((hw.folders slug).trans hdir)]

/-- **The critical section of `write_file`** makes no site: the row is looked up first, and where it is
there, so is the folder. -/
theorem run_landFile_samePairs {path : Str} {overwrite : Bool} {staged : Staged} {hex : Str}
    (hpath : path ≠ []) (hstaged : staged.path = stagingPath cfg hex) (hw : Paired cfg w) :
    SamePairs cfg w (run (exec i) (landFile cfg rt slug path overwrite staged) w).2 := by
  rw [landFile, run_bind_of_ok _ (run_site_by_slug slug)]
  split_ifs with hnone
  · exact .refl cfg w
  rw [Option.map_eq_none_iff] at hnone
  have hdir := (hw.together slug).1 hnone
  rw [run_bind, run_resolve]
  rcases hres : resolved cfg rt w.disk slug path with e | target
  · exact .refl cfg w
  obtain rfl := resolved_ok hres
  have hne := segments_ne_nil hpath
  have hspares : ∀ {A : Type} {p : Code A}, Uses looks p → Uses (lands cfg slug) p := fun h =>
    h.mono fun _ hc => Or.inl (spares_of_looks hc)
  refine run_lands ((hspares (uses_check_write_target ..)).bind fun replaced =>
    (uses_mkdirParents _ _ fun q hq =>
      ⟨?_, Or.inl (spares_of_looks (show looks (.disk (.isDir q)) from rfl))⟩).bind fun _ =>
      (uses_disk (Or.inl ?_)).bind fun _ => (hspares (uses_look rfl)).bind fun _ =>
        (hspares (uses_index rfl)).bind fun _ => uses_ret _) hdir
  · -- a folder on the way to the file
    by_cases hq' : q = site_dir cfg slug
    · exact Or.inr (by rw [hq'])
    · refine Or.inl fun slug' he => hq' ?_
      rw [List.reverse_reverse] at hq
      by_cases hs : slug' = slug
      · rw [he, hs]
      · have := not_site_prefix_site cfg hs [] (segments path)
        rw [List.append_nil, ← he] at this
        exact absurd (hq.trans (List.dropLast_prefix _)) this
  · intro p hp slug'
    rcases List.mem_cons.1 hp with rfl | hp
    · rw [hstaged]
      exact staging_not_site cfg hex slug'
    · rw [List.mem_singleton.1 hp]
      exact below_not_site cfg slug slug' hne

theorem run_write_file_samePairs {path : Str} (body : Incoming) (overwrite : Bool)
    (declared_length : Option ℤ) (hpath : path ≠ []) (hw : Paired cfg w) :
    SamePairs cfg w
      (run (exec i) (write_file cfg rt slug path body overwrite declared_length) w).2 := by
  refine same_bind (run_samePairs (uses_spares (uses_resolve ..)) w) fun _ w1 hres => ?_
  obtain rfl : w = w1 := congrArg Prod.snd ((run_resolve ..).symm.trans hres)
  split_ifs
  · exact .refl cfg w
  obtain ⟨hstage, hpart⟩ := run_stage_samePairs cfg rt i body w
  refine same_bind hstage fun staged w1 hs => ?_
  rw [hs] at hstage hpart
  obtain ⟨hex, hhex⟩ := hpart staged rfl
  refine same_bind (same_except (same_hold (run_landFile_samePairs hpath hhex
    (hstage.paired hw).taken)) fun e w2 => run_samePairs ?_ w2) fun _ w2 _ => .refl cfg w2
  exact (uses_unlink (spares_of_staging cfg fun p hp => by
    rw [List.mem_singleton.1 hp, hhex])).bind fun _ => uses_raise _

theorem run_removeFile_samePairs {path : Str} (hpath : path ≠ []) (w : World) :
    SamePairs cfg w (run (exec i) (removeFile cfg rt slug path) w).2 := by
  refine same_bind (run_samePairs (uses_spares (uses_resolve ..)) w) fun target w1 hres => ?_
  obtain rfl := resolved_ok (congrArg Prod.fst ((run_resolve ..).symm.trans hres))
  refine run_samePairs ((uses_spares (uses_kind_of _)).bind fun kind => ?_) w1
  rcases kind with _ | _ | _ | _
  · trivial
  · refine (uses_disk fun p hp slug' => ?_).bind fun _ => uses_spares (uses_index rfl)
    rw [List.mem_singleton.1 hp]
    exact below_not_site cfg slug slug' (segments_ne_nil hpath)
  · trivial
  · trivial

theorem run_removeFolder_samePairs {path : Str} (recursive : Bool) (hpath : path ≠ []) (w : World) :
    SamePairs cfg w (run (exec i) (removeFolder cfg rt slug path recursive) w).2 := by
  refine same_bind (run_samePairs (uses_spares (uses_resolve ..)) w) fun target w1 hres => ?_
  obtain rfl := resolved_ok (congrArg Prod.fst ((run_resolve ..).symm.trans hres))
  refine same_bind (run_samePairs (uses_spares (uses_kind_of _)) w1) fun kind w2 hkind => ?_
  rw [run_kind_of] at hkind
  obtain ⟨hk, rfl⟩ := Prod.mk.inj hkind
  obtain rfl := Except.ok.inj hk
  rcases hg : w1.disk.get (site_dir cfg slug ++ segments path) with _ | _ | _ | _ | _ <;>
    simp only [kindAt, hg, Option.map_none, Option.map_some, modeOf, Kind.ofMode]
  · exact .refl cfg w1
  · exact .refl cfg w1
  · refine same_bind (run_samePairs (uses_spares (uses_look rfl)) w1) fun entries w2 hscan => ?_
    rw [run_scandir hg] at hscan
    obtain ⟨-, rfl⟩ := Prod.mk.inj hscan
    split_ifs
    · exact .refl cfg w1
    have hne := segments_ne_nil hpath
    refine same_bind ?_ fun _ w2 _ => run_samePairs (Uses.bind
      (uses_query (P := spares cfg) (show movesRows (.delete_files_under slug path) = false from rfl))
      fun _ => uses_ret _) w2
    rw [run_rmtree false (by simp [hne]) hg]
    refine ⟨fun slug' => ?_, fun _ => Iff.rfl⟩
    exact (Tree.get_prune (by simp [hne]) _).trans (if_neg (below_not_site cfg slug slug' hne))
  · exact .refl cfg w1
  · exact .refl cfg w1

/-! ### Failing steps -/

/-- **What a step of `create_site` or `delete_site` may fail by**: a call on the disk by an `OSError`
(an `lstat` that finds nothing answers, and does not fail), a query by anything. -/
def breaks : Calls.Call → Exn → Prop
  | .disk (.lstat _), e => ∃ o, e = .os o ∧ isAbsent e = false
  | .disk _, e => ∃ o, e = .os o
  | .db _, _ => True
  | _, _ => False

theorem breaks_disk {c : Disk.Call Str} {e : Exn} (h : breaks (.disk c) e) : ∃ o, e = .os o := by
  cases c with
  | lstat p => exact ⟨h.choose, h.choose_spec.1⟩
  | _ => exact h

/-- **A held section fails where its body does.** -/
theorem outcome_hold {A : Type} {p : Code A} {s : Option (Failure sig World)} {r : Except Exn A}
    (ho : Outcome (exec i) breaks (hold slug p) w s r w') :
    ∃ w1, Outcome (exec i) breaks p (taken w i slug) s r w1 ∧ w' = freed w1 slug := by
  have hacquire : run (exec i) (Prog.invoke (S := sig) (.acquire slug)) w =
      (.ok (), taken w i slug) := run_invoke ..
  have hrelease : ∀ w1, run (exec i) (Prog.invoke (S := sig) (.release slug)) w1 =
      (.ok (), freed w1 slug) := fun w1 => run_invoke ..
  rcases outcome_bind.1 ho with ⟨r1, w1, hs, ha, -⟩ | ⟨r1, w1, hr, ho⟩
  · exact absurd (ha.unfailing ((uses_invoke (S := sig) _).2 fun _ => id)) hs
  rw [hacquire] at hr
  obtain ⟨rfl, rfl⟩ := Prod.mk.inj hr
  rcases outcome_bind.1 ho with ⟨r1, w1, hs, ha, hm⟩ | ⟨r1, w1, hr, ho⟩
  · obtain ⟨r2, rfl, hp⟩ := outcome_attempt.1 ha
    dsimp only at hm
    rw [run_bind_of_ok _ (hrelease w1), run_ofExcept] at hm
    obtain ⟨rfl, rfl⟩ := Prod.mk.inj hm
    exact ⟨w1, hp, rfl⟩
  · rw [run_attempt] at hr
    obtain ⟨rfl, rfl⟩ := Prod.mk.inj hr
    obtain rfl := ho.unfailing (((uses_invoke (S := sig) _).2 fun _ => id).bind fun _ =>
      uses_ofExcept _)
    have hm := outcome_none.1 ho
    rw [run_bind_of_ok _ (hrelease _), run_ofExcept] at hm
    obtain ⟨rfl, rfl⟩ := Prod.mk.inj hm
    exact ⟨_, outcome_none.2 rfl, rfl⟩

/-- **One call on the disk**: it is executed, or it raises an `OSError` and changes nothing. -/
theorem outcome_disk {c : Disk.Call Str} {s : Option (Failure sig World)}
    {r : Except Exn (Disk.Resp Str c)} (ho : Outcome (exec i) breaks (disk c) w s r w') :
    (s = none ∧ onDisk i c w = (r, w')) ∨
      (s = some (.disk c, w) ∧ w' = w ∧ ∃ e, r = .error e ∧ breaks (.disk c) e) := by
  rcases outcome_invoke.1 ho with ⟨rfl, hr⟩ | ⟨rfl, rfl, e, he, rfl⟩
  · exact Or.inl ⟨rfl, hr⟩
  · exact Or.inr ⟨rfl, rfl, e, rfl, he⟩

theorem outcome_query {q : Query} {s : Option (Failure sig World)} {r : Except Exn q.Answer}
    (ho : Outcome (exec i) breaks (query q) w s r w') :
    (s = none ∧ run (exec i) (query q) w = (r, w')) ∨
      (s = some (.db q, w) ∧ w' = w ∧ ∃ e, r = .error e) := by
  rcases outcome_invoke.1 ho with ⟨rfl, hr⟩ | ⟨rfl, rfl, e, -, rfl⟩
  · exact Or.inl ⟨rfl, by rw [run_query]; exact hr⟩
  · exact Or.inr ⟨rfl, rfl, e, rfl⟩

/-! ### Making a site -/

/-- The folder of a site was made, with nothing in it. -/
structure Made (cfg : Config) (slug : Str) (w w' : World) : Prop where
  db : w'.db = w.db
  missing : w.disk.get (site_dir cfg slug) = none
  folder : w'.disk.get (site_dir cfg slug) = some .folder
  empty : ∀ q, q ≠ [] → w'.disk.get (site_dir cfg slug ++ q) = none
  others : ∀ slug', slug' ≠ slug →
    w'.disk.under (site_dir cfg slug') = w.disk.under (site_dir cfg slug')

theorem Still.made (h : Still cfg w w') (h' : Made cfg slug w' w'') : Made cfg slug w w'' where
  db := h'.db.trans h.db
  missing := (get_of_under (h.trees slug)).symm.trans h'.missing
  folder := h'.folder
  empty := h'.empty
  others slug' hs := (h'.others slug' hs).trans (h.trees slug')

/-- The `mkdir` of a site's folder makes it or changes nothing. -/
theorem mkdir_site {r : Except Exn Unit}
    (h : onDisk i (.mkdir (site_dir cfg slug)) w = (r, w')) :
    (r = .ok () ∧ Made cfg slug w w') ∨ ((∃ o, r = .error (.os o)) ∧ w' = w) := by
  have hd : ∀ env, Disk.exec env (.mkdir (site_dir cfg slug)) w.disk = mkdir (site_dir cfg slug) w.disk :=
    fun _ => rfl
  simp only [onDisk, hd] at h
  obtain ⟨rfl, rfl⟩ := Prod.mk.inj h
  rcases hg : w.disk.get (site_dir cfg slug) with _ | n
  · by_cases hfits : w.disk.Fits (site_dir cfg slug)
    · rw [mkdir_of_none hg hfits]
      refine Or.inl ⟨rfl, rfl, hg, ?_, fun q hq => ?_, fun slug' hs => ?_⟩
      · exact (Tree.get_put hfits _ _).trans (if_pos rfl)
      · refine (Tree.get_put hfits _ _).trans ?_
        rw [if_neg (by simp [hq]), Tree.get_below_none (by rw [hg]; simp) hq]
      · refine Tree.under_put_of_apart hfits _ fun h => ?_
        have := not_site_prefix_site cfg hs [] []
        rw [List.append_nil, List.append_nil] at this
        exact this h
    · rw [mkdir_absent hg hfits]
      exact Or.inr ⟨⟨_, rfl⟩, rfl⟩
  · rw [mkdir_exists hg]
    exact Or.inr ⟨⟨_, rfl⟩, rfl⟩

theorem outcome_mkdir_site {s : Option (Failure sig World)} {r : Except Exn Unit}
    (ho : Outcome (exec i) breaks (disk (.mkdir (site_dir cfg slug))) w s r w') :
    (r = .ok () ∧ Made cfg slug w w') ∨ ((∃ o, r = .error (.os o)) ∧ w' = w) := by
  rcases outcome_disk ho with ⟨-, hr⟩ | ⟨-, rfl, e, rfl, he⟩
  · exact mkdir_site hr
  · obtain ⟨o, rfl⟩ := breaks_disk he
    exact Or.inr ⟨⟨o, rfl⟩, rfl⟩

/-- The folders above those of the sites are part of no site. -/
theorem outcome_parents_still {s : Option (Failure sig World)} {r : Except Exn Unit}
    (ho : Outcome (exec i) breaks (mkdirParents true cfg.sites_dir.reverse) w s r w') :
    Still cfg w w' := by
  refine ho.preserves (P := fun c : Calls.Call => ∃ q, q <+: cfg.sites_dir ∧
    (c = .disk (.mkdir q) ∨ c = .disk (.isDir q))) (I := Still cfg w) ?_ ?_ (.refl cfg w)
  · rintro c ⟨q, hq, rfl | rfl⟩ w1 hw
    · refine hw.trans ⟨rfl, fun slug => funext fun p => mkdir_get _ ?_⟩
      rintro rfl
      have := hq.length_le
      simp only [site_dir, List.length_append, List.length_singleton] at this
      omega
    · exact hw.trans ⟨rfl, fun _ => rfl⟩
  · refine uses_mkdirParents _ _ fun q hq => ?_
    rw [List.reverse_reverse] at hq
    exact ⟨⟨q, hq, Or.inl rfl⟩, ⟨q, hq, Or.inr rfl⟩⟩

/-- **The `mkdir` with parents of a site's folder** makes it or changes no site. -/
theorem outcome_mkdirParents {s : Option (Failure sig World)} {r : Except Exn Unit}
    (ho : Outcome (exec i) breaks (mkdirParents false (site_dir cfg slug).reverse) w s r w') :
    (r = .ok () ∧ Made cfg slug w w') ∨ ((∃ e, r = .error e) ∧ Still cfg w w') := by
  have hrev : (site_dir cfg slug).reverse = slug :: cfg.sites_dir.reverse := by simp [site_dir]
  have hpath : (slug :: cfg.sites_dir.reverse).reverse = site_dir cfg slug := by simp [site_dir]
  rw [hrev, mkdirParents, hpath] at ho
  obtain ⟨s1, r1, w1, hm, hrest⟩ := ho.caught
  rcases outcome_mkdir_site hm with ⟨rfl, hmade⟩ | ⟨⟨o, rfl⟩, rfl⟩
  · obtain ⟨rfl, rfl⟩ := hrest
    exact Or.inl ⟨rfl, hmade⟩
  obtain ⟨s2, hhandler⟩ := hrest
  have hraise : ∀ {e : Exn} {s2}, Outcome (exec i) breaks (.raise e : Code Unit) w1 s2 r w' →
      (r = .ok () ∧ Made cfg slug w1 w') ∨ ((∃ e, r = .error e) ∧ Still cfg w1 w') := by
    intro e s2 ho
    cases ho
    exact Or.inr ⟨⟨_, rfl⟩, .refl cfg _⟩
  cases o with
  | notFound =>
    -- a parent is missing: the parents are made, and then the folder is tried again
    obtain ⟨s3, r3, w3, hup, honce⟩ := hhandler.seq
    have hstill := outcome_parents_still hup
    rcases r3 with e | _
    · obtain ⟨rfl, rfl⟩ := honce
      exact Or.inr ⟨⟨e, rfl⟩, hstill⟩
    obtain ⟨s4, honce⟩ := honce
    obtain ⟨s5, r5, w5, hm, hrest⟩ := honce.caught
    rcases outcome_mkdir_site hm with ⟨rfl, hmade⟩ | ⟨⟨o, rfl⟩, rfl⟩
    · obtain ⟨rfl, rfl⟩ := hrest
      exact Or.inl ⟨rfl, hstill.made hmade⟩
    · obtain ⟨s6, hraised⟩ := hrest
      cases o <;> cases hraised <;> exact Or.inr ⟨⟨_, rfl⟩, hstill⟩
  | _ => exact hraise hhandler

/-- **The row of a site that was made**: it is inserted, or the folder is taken away again. -/
theorem outcome_insert (slug : Str) {site : SiteRow} {s : Option (Failure sig World)} {r : Except Exn Unit}
    {w0 : World} {k : Exn → Code Unit} (hk : ∀ e, ∃ e', k e = .raise e') (hsite : site.slug = slug)
    (hrow : w0.db.sites[slug]? = none) (hmade : Made cfg slug w0 w)
    (ho : Outcome (exec i) breaks ((query (.insert_site site)).except fun e =>
      suppressOs (disk (.rmdir (site_dir cfg slug))) >>= fun _ => k e) w s r w') :
    (r = .ok () ∧ w'.disk = w.disk ∧ ∀ slug', w'.db.sites[slug']? = none ↔
        slug' ≠ slug ∧ w.db.sites[slug']? = none) ∨
      ((∃ e, r = .error e) ∧ Still cfg w0 w') := by
  rcases outcome_except.1 ho with ⟨r1, w1, hs, hq, hm⟩ | ⟨r1, w1, hr, hm⟩
  · rcases outcome_query hq with ⟨rfl, -⟩ | ⟨-, rfl, e, rfl⟩
    · exact absurd rfl hs
    have hne : site_dir cfg slug ≠ [] := by simp [site_dir]
    have hrmdir : run (exec i) (disk (.rmdir (site_dir cfg slug))) w1 =
        (.ok (), { w1 with disk := w1.disk.prune (site_dir cfg slug) }) := by
      refine run_disk_ok rfl fun _ => rmdir_of_empty hmade.folder hne ?_
      rw [List.eq_nil_iff_forall_not_mem]
      exact fun name hname => Tree.mem_children.1 hname (hmade.empty [name] (by simp))
    obtain ⟨e', he'⟩ := hk e
    dsimp only at hm
    rw [run_bind_of_ok _ (run_suppressOs_ok _ _ hrmdir), he'] at hm
    obtain ⟨rfl, rfl⟩ := Prod.mk.inj hm
    refine Or.inr ⟨⟨_, rfl⟩, hmade.db, fun slug' => funext fun q => ?_⟩
    refine (Tree.get_prune hne _).trans ?_
    by_cases hs : slug' = slug
    · subst hs
      rw [if_pos (List.prefix_append _ _), Tree.under_apply]
      rcases eq_or_ne q [] with rfl | hq
      · rw [List.append_nil, hmade.missing]
      · exact (Tree.get_below_none (by rw [hmade.missing]; simp) hq).symm
    · have := not_site_prefix_site cfg (Ne.symm hs) [] q
      rw [List.append_nil] at this
      rw [if_neg this]
      exact congrFun (hmade.others slug' hs) q
  · have hnone : w.db.sites[site.slug]? = none := by rw [hmade.db, hsite, hrow]
    rw [run_query] at hr
    simp only [Db.exec, insert_site, hnone] at hr
    obtain ⟨rfl, rfl⟩ := Prod.mk.inj hr
    obtain ⟨-, rfl, rfl⟩ := hm
    refine Or.inl ⟨rfl, rfl, fun slug' => ?_⟩
    change (w.db.sites.insert site.slug _)[slug']? = none ↔ _
    rw [get_insert, hsite]
    split_ifs with hs <;> simp [hs]

/-- The site that was made has both. -/
theorem Made.paired (hmade : Made cfg slug w w') (hw : Paired cfg w) (hdisk : w''.disk = w'.disk)
    (hrows : ∀ slug' : Str, w''.db.sites[slug']? = none ↔ slug' ≠ slug ∧ w'.db.sites[slug']? = none) :
    Paired cfg w'' := by
  have hget : ∀ slug', slug' ≠ slug →
      w''.disk.get (site_dir cfg slug') = w.disk.get (site_dir cfg slug') := fun slug' hs => by
    rw [hdisk, get_of_under (hmade.others slug' hs)]
  refine ⟨fun slug' => ?_, fun slug' => ?_⟩
  · rw [ne_eq, hrows, hmade.db]
    by_cases hs : slug' = slug
    · subst hs
      rw [hdisk, hmade.folder]
      simp
    · rw [hget slug' hs, ← hw.together slug']
      simp [hs]
  · by_cases hs : slug' = slug
    · rw [hs, hdisk]
      exact Or.inr hmade.folder
    · rw [hget slug' hs]
      exact hw.folders slug'

theorem taken_still (cfg : Config) (w : World) (i : ℕ) (slug : Str) : Still cfg w (taken w i slug) :=
  ⟨rfl, fun _ => rfl⟩

theorem freed_still (cfg : Config) (w : World) (slug : Str) : Still cfg w (freed w slug) :=
  ⟨rfl, fun _ => rfl⟩

/-- **Where `create_site` may end**: it raised and changed no site, or the row and the folder are
there together. -/
theorem create_site_outcome {name : Str} {created_at : Instant} {s : Option (Failure sig World)}
    {r : Except Exn SiteRow} (hw : Paired cfg w)
    (ho : Outcome (exec i) breaks (Storage.create_site cfg rt slug name created_at) w s r w') :
    ((∃ e, r = .error e) ∧ Still cfg w w') ∨ ((∃ site, r = .ok site) ∧ Paired cfg w') := by
  obtain ⟨w0, hbody, rfl⟩ := outcome_hold ho
  suffices h : ((∃ e, r = .error e) ∧ Still cfg (taken w i slug) w0) ∨
      ((∃ site, r = .ok site) ∧ Paired cfg w0) by
    rcases h with ⟨he, hstill⟩ | ⟨hr, hp⟩
    · exact Or.inl ⟨he, ((taken_still cfg w i slug).trans hstill).trans (freed_still cfg w0 slug)⟩
    · exact Or.inr ⟨hr, (freed_still cfg w0 slug).samePairs.paired hp⟩
  replace hw : Paired cfg (taken w i slug) := hw.taken
  generalize taken w i slug = w at hbody hw ⊢
  obtain ⟨s1, r1, w1, hq, hrest⟩ := hbody.seq
  rcases outcome_query hq with ⟨-, hrun⟩ | ⟨-, rfl, e, rfl⟩
  swap
  · obtain ⟨rfl, rfl⟩ := hrest
    exact Or.inl ⟨⟨e, rfl⟩, .refl cfg _⟩
  rw [run_site_by_slug] at hrun
  obtain ⟨rfl, rfl⟩ := Prod.mk.inj hrun
  obtain ⟨s2, hrest⟩ := hrest
  split_ifs at hrest with hrow
  · cases hrest
    exact Or.inl ⟨⟨_, rfl⟩, .refl cfg _⟩
  rw [not_not, Option.map_eq_none_iff] at hrow
  obtain ⟨s3, r3, w3, hmk, hrest⟩ := hrest.seq
  obtain ⟨s4, r4, w4, hmk, hcaught⟩ := hmk.caught
  rcases outcome_mkdirParents hmk with ⟨rfl, hmade⟩ | ⟨⟨e, rfl⟩, hstill⟩
  swap
  · -- no folder was made
    obtain ⟨s5, hhandler⟩ := hcaught
    obtain ⟨⟨e', rfl⟩, rfl⟩ : (∃ e', r3 = .error e') ∧ w3 = w4 := by
      rcases e with _ | o | _ | _ | _ | _ | _ | _ <;> try (cases hhandler; exact ⟨⟨_, rfl⟩, rfl⟩)
      rcases o with _ | _ | _ | _ | _ | _ | _ | _ | _ <;> cases hhandler <;> exact ⟨⟨_, rfl⟩, rfl⟩
    obtain ⟨rfl, rfl⟩ := hrest
    exact Or.inl ⟨⟨_, rfl⟩, hstill⟩
  obtain ⟨rfl, rfl⟩ := hcaught
  obtain ⟨s5, hrest⟩ := hrest
  obtain ⟨s6, r6, w6, hins, hrest⟩ := hrest.seq
  rcases outcome_insert slug (fun e => by cases e <;> exact ⟨_, rfl⟩) rfl hrow hmade hins with
    ⟨rfl, hdisk, hrows⟩ | ⟨⟨e, rfl⟩, hstill⟩
  · obtain ⟨s7, hret⟩ := hrest
    cases hret
    exact Or.inr ⟨⟨_, rfl⟩, hmade.paired hw hdisk hrows⟩
  · obtain ⟨rfl, rfl⟩ := hrest
    exact Or.inl ⟨⟨e, rfl⟩, hstill⟩

/-! ### Removing what is parked -/

theorem outcome_kind_of {path : Path Str} {s : Option (Failure sig World)} {r : Except Exn Kind}
    (ho : Outcome (exec i) breaks (kind_of path) w s r w') :
    (s = none ∧ r = .ok (kindAt w.disk path) ∧ w' = w) ∨
      (s = some (.disk (.lstat path), w) ∧ w' = w ∧ ∃ e, r = .error e) := by
  rcases outcome_bind.1 ho with ⟨r1, w1, hs, hl, hm⟩ | ⟨r1, w1, hr, hm⟩
  · right
    rcases outcome_bind.1 hl with ⟨r2, w2, -, ha, hm2⟩ | ⟨r2, w2, hr, hm2⟩
    · obtain ⟨r3, rfl, hd⟩ := outcome_attempt.1 ha
      rcases outcome_disk hd with ⟨rfl, -⟩ | ⟨rfl, rfl, e, rfl, o, rfl, habs⟩
      · exact absurd rfl hs
      · dsimp only at hm2
        rw [habs] at hm2
        obtain ⟨rfl, rfl⟩ := Prod.mk.inj hm2
        obtain ⟨rfl, rfl⟩ := hm
        exact ⟨rfl, rfl, _, rfl⟩
    · rw [run_attempt] at hr
      obtain ⟨rfl, rfl⟩ := Prod.mk.inj hr
      refine absurd (Outcome.unfailing ?_ hm2) hs
      dsimp only
      split
      · trivial
      · split_ifs <;> trivial
  · rw [run_lstat] at hr
    obtain ⟨rfl, rfl⟩ := Prod.mk.inj hr
    cases hm
    exact Or.inl ⟨rfl, rfl, rfl⟩

/-- A call on the disk that spares the sites, with its errors. -/
theorem outcome_spared (cfg : Config) {c : Disk.Call Str} (hc : spares cfg (.disk c))
    {s : Option (Failure sig World)} {r : Except Exn (Disk.Resp Str c)}
    (ho : Outcome (exec i) breaks (disk c) w s r w') :
    SamePairs cfg w w' ∧ ∀ e, r = .error e → ∃ o, e = .os o := by
  rcases outcome_disk ho with ⟨-, hr⟩ | ⟨-, rfl, e, rfl, he⟩
  · have hpairs := call_samePairs (i := i) hc w
    change SamePairs cfg w (onDisk i c w).2 at hpairs
    rw [hr] at hpairs
    refine ⟨hpairs, ?_⟩
    rintro e rfl
    have hfst := congrArg Prod.fst hr
    simp only [onDisk] at hfst
    generalize (Disk.exec _ c w.disk).1 = r0 at hfst
    rcases r0 with o | a
    · exact ⟨o, (Except.error.inj hfst).symm⟩
    · cases hfst
  · refine ⟨.refl cfg _, ?_⟩
    rintro e' ⟨⟩
    exact breaks_disk he

/-- Suppressed, such a call never raises. -/
theorem outcome_suppressed (cfg : Config) {p : Code Unit} {s : Option (Failure sig World)}
    {r : Except Exn Unit} (hp : ∀ {s r w'}, Outcome (exec i) breaks p w s r w' →
      SamePairs cfg w w' ∧ ∀ e, r = .error e → ∃ o, e = .os o)
    (ho : Outcome (exec i) breaks (suppressOs p) w s r w') : r = .ok () ∧ SamePairs cfg w w' := by
  obtain ⟨s1, r1, w1, h1, hrest⟩ := ho.caught
  obtain ⟨hpairs, herr⟩ := hp h1
  rcases r1 with e | _
  · obtain ⟨o, rfl⟩ := herr e rfl
    obtain ⟨s2, hret⟩ := hrest
    cases hret
    exact ⟨rfl, hpairs⟩
  · obtain ⟨rfl, rfl⟩ := hrest
    exact ⟨rfl, hpairs⟩

theorem outcome_removeAll (cfg : Config) : ∀ {entries : List (Path Str × Bool)} {w : World}
    {s : Option (Failure sig World)} {r : Except Exn Unit},
    (∀ e ∈ entries, ∀ slug, ¬ e.1 <+: site_dir cfg slug) →
    Outcome (exec i) breaks (removeAll true entries) w s r w' → r = .ok () ∧ SamePairs cfg w w'
  | [], w, s, r, _, ho => by
    cases ho
    exact ⟨rfl, .refl cfg _⟩
  | (path, is_dir) :: rest, w, s, r, hentries, ho => by
    have hpath := hentries _ List.mem_cons_self
    obtain ⟨s1, r1, w1, h1, hrest⟩ := ho.seq
    have hone : r1 = .ok () ∧ SamePairs cfg w w1 := by
      cases is_dir
      · exact outcome_suppressed cfg (fun h => outcome_spared cfg (c := .unlink path)
          (fun p hp slug => by rw [List.mem_singleton.1 hp]; exact hpath slug) h) h1
      · exact outcome_suppressed cfg (fun h => outcome_spared cfg (c := .rmdir path)
          (fun p hp slug => by rw [List.mem_singleton.1 hp]; exact hpath slug) h) h1
    obtain ⟨rfl, hpairs⟩ := hone
    obtain ⟨s2, hrest⟩ := hrest
    obtain ⟨rfl, hpairs'⟩ := outcome_removeAll cfg
      (fun e he => hentries e (List.mem_cons_of_mem _ he)) hrest
    exact ⟨rfl, hpairs.trans hpairs'⟩

/-- **What is parked is removed without a word**, as far as it goes. -/
theorem outcome_rmtree {path : Path Str} (hpath : ∀ q slug, ¬ path ++ q <+: site_dir cfg slug)
    {s : Option (Failure sig World)} {r : Except Exn Unit}
    (ho : Outcome (exec i) breaks (rmtree true path) w s r w') : r = .ok () ∧ SamePairs cfg w w' := by
  obtain ⟨s1, r1, w1, hwalk, hrest⟩ := ho.seq
  obtain ⟨r2, rfl, hd⟩ := outcome_attempt.1 hwalk
  obtain ⟨s2, hrest⟩ := hrest
  obtain ⟨hpairs, herr⟩ := outcome_spared cfg
    (show spares cfg (.disk (.walk path)) from fun p hp => by cases hp) hd
  rcases r2 with e | entries
  · obtain ⟨o, rfl⟩ := herr e rfl
    cases hrest
    exact ⟨rfl, hpairs⟩
  · have hentries : ∀ e ∈ entries, path <+: e.1 := by
      rcases outcome_disk hd with ⟨-, hr⟩ | ⟨-, -, e, he, -⟩
      · have hfst := congrArg Prod.fst hr
        simp only [onDisk, Disk.exec, walk] at hfst
        split at hfst <;> cases hfst
        intro e he
        obtain ⟨⟨p, n⟩, hm, rfl⟩ := List.mem_map.1 he
        exact (Tree.mem_below.1 hm).1
      · cases he
    obtain ⟨rfl, hpairs'⟩ := outcome_removeAll cfg (fun e he slug => by
      obtain ⟨q, hq⟩ := hentries e he
      rw [← hq]
      exact hpath q slug) hrest
    exact ⟨rfl, hpairs.trans hpairs'⟩

/-! ### Deleting a site -/

/-- **No step of a `delete_site` fails after it moved the folder**, but for the removal of what it
parked, whose errors it ignores: neither the deletion of the row nor the look at the parked folder. -/
def Harmless (cfg : Config) (slug : Str) (w : World) (s : Option (Failure sig World)) : Prop :=
  ∀ c v, s = some (c, v) →
    (c = .db (.delete_site slug) → w.disk.get (site_dir cfg slug) = none) ∧
      ∀ path, c = .disk (.lstat path) → path = site_dir cfg slug

theorem parked_apart (cfg : Config) (slug hex : Str) (q : Path Str) (slug' : Str) :
    ¬ parkedPath cfg slug hex ++ q <+: site_dir cfg slug' := by
  have := not_staging_prefix cfg slug' ([slug ++ lit ".deleting-" ++ hex] ++ q) []
  rwa [List.append_nil, ← List.append_assoc] at this

/-- **A site whose folder was moved into staging and whose row was deleted** is gone as a whole. -/
theorem Paired.removed (hw : Paired cfg w) (slug : Str) (hrow : ∀ slug' : Str, w'.db.sites[slug']? =
      if slug' = slug then none else w.db.sites[slug']?)
    (hget : ∀ slug', w'.disk.get (site_dir cfg slug') =
      if slug' = slug then none else w.disk.get (site_dir cfg slug')) : Paired cfg w' := by
  refine ⟨fun slug' => ?_, fun slug' => ?_⟩
  · rw [hrow, hget]
    split_ifs
    · simp
    · exact hw.together slug'
  · rw [hget]
    split_ifs
    · exact Or.inl rfl
    · exact hw.folders slug'

theorem get_moved_site {hex : Str} {t : Files Str}
    (hm : t.Movable (site_dir cfg slug) (parkedPath cfg slug hex)) (slug' : Str) :
    (t.move (site_dir cfg slug) (parkedPath cfg slug hex)).get (site_dir cfg slug') =
      if slug' = slug then none else t.get (site_dir cfg slug') := by
  have h1 := parked_apart cfg slug hex [] slug'
  rw [List.append_nil] at h1
  rw [Tree.get_move hm, if_neg h1]
  by_cases hs : slug' = slug
  · rw [if_pos hs, hs, if_pos List.prefix_rfl]
  · have h2 := not_site_prefix_site cfg (Ne.symm hs) [] []
    rw [List.append_nil, List.append_nil] at h2
    rw [if_neg hs, if_neg h2]

/-- The folder is moved into staging, or nothing changes and the error is raised. -/
theorem outcome_park {s : Option (Failure sig World)} {r : Except Exn (Option (Path Str))}
    (ho : Outcome (exec i) breaks (token_hex 4 >>= fun hex =>
      disk (.replace (site_dir cfg slug) (parkedPath cfg slug hex)) >>= fun _ =>
        .ret (some (parkedPath cfg slug hex))) w s r w') :
    ((∃ e, r = .error e) ∧ Still cfg w w') ∨ (∃ hex, r = .ok (some (parkedPath cfg slug hex)) ∧
      w'.db = w.db ∧ ∀ slug', w'.disk.get (site_dir cfg slug') =
        if slug' = slug then none else w.disk.get (site_dir cfg slug')) := by
  obtain ⟨s1, r1, w1, htoken, hrest⟩ := ho.seq
  obtain rfl := htoken.unfailing ((uses_invoke (S := sig) _).2 fun _ => id)
  have hdrawn : run (exec i) (token_hex 4) w = _ := outcome_none.1 htoken
  obtain ⟨rfl, rfl⟩ := Prod.mk.inj hdrawn
  obtain ⟨s2, hrest⟩ := hrest
  obtain ⟨s3, r3, w3, hreplace, hrest⟩ := hrest.seq
  set hex := (w.oracle i).token_hex 4 (w.drawn i)
  have hne : site_dir cfg slug ≠ parkedPath cfg slug hex := by
    intro h
    have := parked_apart cfg slug hex [] slug
    rw [List.append_nil, ← h] at this
    exact this List.prefix_rfl
  rcases outcome_disk hreplace with ⟨-, hr⟩ | ⟨-, rfl, e, rfl, -⟩
  · have hr' : onDisk i (.replace (site_dir cfg slug) (parkedPath cfg slug hex)) (drew w i) =
      (r3, w3) := hr
    simp only [onDisk, Disk.exec, isTimed] at hr'
    rcases replace_outcome hne w.disk with ⟨e, he⟩ | ⟨hm, he⟩
    · rw [show (drew w i).disk = w.disk from rfl, he] at hr'
      obtain ⟨rfl, rfl⟩ := Prod.mk.inj hr'
      obtain ⟨rfl, rfl⟩ := hrest
      exact Or.inl ⟨⟨_, rfl⟩, rfl, fun _ => rfl⟩
    · rw [show (drew w i).disk = w.disk from rfl, he] at hr'
      obtain ⟨rfl, rfl⟩ := Prod.mk.inj hr'
      obtain ⟨s4, hret⟩ := hrest
      cases hret
      exact Or.inr ⟨hex, rfl, rfl, get_moved_site hm⟩
  · obtain ⟨rfl, rfl⟩ := hrest
    exact Or.inl ⟨⟨_, rfl⟩, rfl, fun _ => rfl⟩

/-- The row goes, once the folder is away. -/
theorem outcome_row {parked : Option (Path Str)} {s : Option (Failure sig World)}
    {r : Except Exn (Option (Path Str))} {w0 : World} (hw : Paired cfg w0) (hdb : w.db = w0.db)
    (hget : ∀ slug', w.disk.get (site_dir cfg slug') =
      if slug' = slug then none else w0.disk.get (site_dir cfg slug'))
    (ho : Outcome (exec i) breaks (query (.delete_site slug) >>= fun _ => .ret parked) w s r w') :
    (r = .ok parked ∧ Paired cfg w') ∨
      (s = some (.db (.delete_site slug), w) ∧ w' = w ∧ ∃ e, r = .error e) := by
  have hpaired : Paired cfg { w with db := (Db.delete_site slug w.db).2 } := by
    refine hw.removed slug (fun slug' => ?_) hget
    change (w.db.sites.erase slug)[slug']? = _
    rw [get_erase, hdb]
  rcases outcome_bind.1 ho with ⟨r1, w1, hs, hq, hm⟩ | ⟨r1, w1, hr, hm⟩
  · rcases outcome_query hq with ⟨rfl, -⟩ | ⟨rfl, rfl, e, rfl⟩
    · exact absurd rfl hs
    · obtain ⟨rfl, rfl⟩ := hm
      exact Or.inr ⟨rfl, rfl, e, rfl⟩
  · rw [run_query] at hr
    obtain ⟨rfl, rfl⟩ := Prod.mk.inj hr
    cases hm
    exact Or.inl ⟨rfl, hpaired⟩

/-- **Where the critical section of `delete_site` may end.** -/
theorem outcome_parkSite {s : Option (Failure sig World)} {r : Except Exn (Option (Path Str))}
    (hw : Paired cfg w) (hharm : Harmless cfg slug w s)
    (ho : Outcome (exec i) breaks (parkSite cfg slug) w s r w') :
    ((∃ e, r = .error e) ∧ Still cfg w w') ∨ (∃ parked, r = .ok parked ∧
      (∀ path, parked = some path → ∃ hex, path = parkedPath cfg slug hex) ∧ Paired cfg w') := by
  rcases outcome_bind.1 ho with ⟨r1, w1, hs, hk, hm⟩ | ⟨r1, w1, hr, hm⟩
  · rcases outcome_kind_of hk with ⟨rfl, -⟩ | ⟨-, rfl, e, rfl⟩
    · exact absurd rfl hs
    · obtain ⟨rfl, rfl⟩ := hm
      exact Or.inl ⟨⟨e, rfl⟩, .refl cfg _⟩
  rw [run_kind_of] at hr
  obtain ⟨rfl, rfl⟩ := Prod.mk.inj hr
  dsimp only at hm
  rcases hw.folders slug with hnone | hfolder
  · -- there is no folder, and no row either
    rw [if_neg (by simp [kindAt, hnone, Kind.ofMode]), Prog.ret_bind] at hm
    have hget : ∀ slug', w.disk.get (site_dir cfg slug') =
        if slug' = slug then none else w.disk.get (site_dir cfg slug') := fun slug' => by
      split_ifs with hs
      · rw [hs, hnone]
      · rfl
    rcases outcome_row hw rfl hget hm with ⟨rfl, hp⟩ | ⟨-, rfl, e, rfl⟩
    · exact Or.inr ⟨none, rfl, by rintro _ ⟨⟩, hp⟩
    · exact Or.inl ⟨⟨e, rfl⟩, .refl cfg _⟩
  · rw [if_pos (by simp [kindAt, hfolder, Kind.ofMode, modeOf])] at hm
    rcases outcome_bind.1 hm with ⟨r2, w2, -, hp, hrest⟩ | ⟨r2, w2, hp, hrest⟩
    · rcases outcome_park hp with ⟨⟨e, rfl⟩, hstill⟩ | ⟨hex, rfl, hdb, hget⟩
      · obtain ⟨rfl, rfl⟩ := hrest
        exact Or.inl ⟨⟨e, rfl⟩, hstill⟩
      · rcases outcome_row hw hdb hget (outcome_none.2 hrest) with ⟨rfl, hp⟩ | ⟨hs, -⟩
        · exact Or.inr ⟨_, rfl, fun path h => ⟨hex, (Option.some.inj h).symm⟩, hp⟩
        · cases hs
    · rcases outcome_park (outcome_none.2 hp) with ⟨⟨e, rfl⟩, hstill⟩ | ⟨hex, rfl, hdb, hget⟩
      · obtain ⟨rfl, rfl, rfl⟩ := hrest
        exact Or.inl ⟨⟨e, rfl⟩, hstill⟩
      · rcases outcome_row hw hdb hget hrest with ⟨rfl, hp⟩ | ⟨rfl, -⟩
        · exact Or.inr ⟨_, rfl, fun path h => ⟨hex, (Option.some.inj h).symm⟩, hp⟩
        · -- the row's deletion failed: ruled out, as the folder was there
          have := (hharm _ _ rfl).1 rfl
          rw [hfolder] at this
          cases this

/-- **Where `delete_site` may end**, when none of its steps fails after it moved the folder: it raised
and changed no site, or the row and the folder are gone together. -/
theorem delete_site_outcome {s : Option (Failure sig World)} {r : Except Exn Unit}
    (hw : Paired cfg w) (hharm : Harmless cfg slug w s)
    (ho : Outcome (exec i) breaks (Storage.delete_site cfg slug) w s r w') :
    ((∃ e, r = .error e) ∧ Still cfg w w') ∨ (r = .ok () ∧ Paired cfg w') := by
  have hsection : ∀ {s r1 w1}, Harmless cfg slug w s →
      Outcome (exec i) breaks (hold slug (parkSite cfg slug)) w s r1 w1 →
      ((∃ e, r1 = .error e) ∧ Still cfg w w1) ∨ (∃ parked, r1 = .ok parked ∧
        (∀ path, parked = some path → ∃ hex, path = parkedPath cfg slug hex) ∧ Paired cfg w1) := by
    intro s r1 w1 hharm ho
    obtain ⟨w2, hbody, rfl⟩ := outcome_hold ho
    rcases outcome_parkSite hw.taken hharm hbody with ⟨he, hstill⟩ | ⟨parked, hr, hpath, hp⟩
    · exact Or.inl ⟨he, ((taken_still cfg w i slug).trans hstill).trans (freed_still cfg w2 slug)⟩
    · exact Or.inr ⟨parked, hr, hpath, (freed_still cfg w2 slug).samePairs.paired hp⟩
  -- after the section only the look at the parked folder can raise
  have hafter : ∀ {s w1} hex, Harmless cfg slug w s → Paired cfg w1 →
      Outcome (exec i) breaks (kind_of (parkedPath cfg slug hex) >>= fun kind =>
        if kind = .folder then rmtree true (parkedPath cfg slug hex)
        else _unlink (parkedPath cfg slug hex)) w1 s r w' →
      r = .ok () ∧ Paired cfg w' := by
    intro s w1 hex hharm hp ho
    have hapart := parked_apart cfg slug hex
    have hself : ∀ slug', ¬ parkedPath cfg slug hex <+: site_dir cfg slug' := fun slug' => by
      have := hapart [] slug'
      rwa [List.append_nil] at this
    have hclear : ∀ {kind : Kind} {s w2}, Paired cfg w2 → Outcome (exec i) breaks
        (if kind = .folder then rmtree true (parkedPath cfg slug hex)
          else _unlink (parkedPath cfg slug hex)) w2 s r w' → r = .ok () ∧ Paired cfg w' := by
      intro kind s w2 hp ho
      split_ifs at ho
      · obtain ⟨rfl, hpairs⟩ := outcome_rmtree hapart ho
        exact ⟨rfl, hpairs.paired hp⟩
      · obtain ⟨rfl, hpairs⟩ := outcome_suppressed cfg (fun h => outcome_spared
          cfg (c := .unlink _) (fun p hp slug' => by rw [List.mem_singleton.1 hp]; exact hself slug') h) ho
        exact ⟨rfl, hpairs.paired hp⟩
    rcases outcome_bind.1 ho with ⟨r2, w2, hs, hk, hm⟩ | ⟨r2, w2, hr, hm⟩
    · rcases outcome_kind_of hk with ⟨rfl, -⟩ | ⟨rfl, -, -⟩
      · exact absurd rfl hs
      · have := (hharm _ _ rfl).2 _ rfl
        exact absurd (this ▸ List.prefix_rfl) (hself slug)
    · rw [run_kind_of] at hr
      obtain ⟨rfl, rfl⟩ := Prod.mk.inj hr
      exact hclear hp hm
  have hnone : Harmless cfg slug w none := fun c v h => by cases h
  rcases outcome_bind.1 ho with ⟨r1, w1, -, hp, hm⟩ | ⟨r1, w1, hp, hm⟩
  · rcases hsection hharm hp with ⟨⟨e, rfl⟩, hstill⟩ | ⟨parked, rfl, hpath, hpaired⟩
    · obtain ⟨rfl, rfl⟩ := hm
      exact Or.inl ⟨⟨e, rfl⟩, hstill⟩
    · rcases parked with _ | parked
      · cases hm
        exact Or.inr ⟨rfl, hpaired⟩
      · obtain ⟨hex, rfl⟩ := hpath _ rfl
        exact Or.inr (hafter hex hnone hpaired (outcome_none.2 hm))
  · rcases hsection hnone (outcome_none.2 hp) with ⟨⟨e, rfl⟩, hstill⟩ | ⟨parked, rfl, hpath, hpaired⟩
    · obtain ⟨-, rfl, rfl⟩ := hm
      exact Or.inl ⟨⟨e, rfl⟩, hstill⟩
    · rcases parked with _ | parked
      · cases hm
        exact Or.inr ⟨rfl, hpaired⟩
      · obtain ⟨hex, rfl⟩ := hpath _ rfl
        exact Or.inr (hafter hex hharm hpaired hm)

/-! ### Runs -/

/-- **The operations of the storage.** -/
inductive Op : Type where
  | create_site (slug name : Str) (created_at : Instant)
  | delete_site (slug : Str)
  | list_folder (slug folder : Str)
  | file_path (slug path : Str)
  | write_file (slug path : Str) (body : Incoming) (overwrite : Bool) (declared_length : Option ℤ)
  | delete_file (slug path : Str)
  | delete_folder (slug path : Str) (recursive : Bool)

/-- A program without its answer. -/
def discard {A : Type} (p : Code A) : Code Unit := p >>= fun _ => .ret ()

/-- The code of an operation. -/
def Op.code (cfg : Config) (rt : Runtime) : Op → Code Unit
  | .create_site slug name created_at => discard (Storage.create_site cfg rt slug name created_at)
  | .delete_site slug => discard (Storage.delete_site cfg slug)
  | .list_folder slug folder => discard (Storage.list_folder cfg rt slug folder)
  | .file_path slug path => discard (Storage.file_path cfg rt slug path)
  | .write_file slug path body overwrite declared_length =>
    discard (Storage.write_file cfg rt slug path body overwrite declared_length)
  | .delete_file slug path => discard (Storage.delete_file cfg rt slug path)
  | .delete_folder slug path recursive => discard (Storage.delete_folder cfg rt slug path recursive)

/-- The failures of an operation: those of `create_site` and `delete_site`. -/
def Op.fails : Op → Calls.Call → Exn → Prop
  | .create_site .. | .delete_site _ => breaks
  | _ => fun _ _ => False

/-- What the routes see to: the paths of the file operations are canonical, and not the root. -/
def Op.Valid (rt : Runtime) : Op → Prop
  | .file_path _ path | .write_file _ path _ _ _ | .delete_file _ path | .delete_folder _ path _ =>
    ∃ raw, validate_site_path rt raw false = .ok path
  | _ => True

/-- **A call of an operation**, of which the step that `s` names failed, if any. -/
def Called (cfg : Config) (rt : Runtime) (op : Op) (w : World) (s : Option (Failure sig World))
    (r : Except Exn Unit) (w' : World) : Prop :=
  op.Valid rt ∧ ∃ i, Outcome (Calls.exec i) op.fails (op.code cfg rt) w s r w'

/-- No `delete_site` fails after it moved the folder. -/
def Op.Harmless (cfg : Config) : Op → World → Option (Failure sig World) → Prop
  | .delete_site slug, w, s => Pairing.Harmless cfg slug w s
  | _, _, _ => True

/-- **Runs**: one call after another, with the failures that `allowed` allows. -/
inductive Lived (cfg : Config) (rt : Runtime)
    (allowed : Op → World → Option (Failure sig World) → Prop) (w0 : World) : World → Prop where
  | start : Lived cfg rt allowed w0 w0
  | call {w w' : World} {op : Op} {s : Option (Failure sig World)} {r : Except Exn Unit}
      (before : Lived cfg rt allowed w0 w) (called : Called cfg rt op w s r w')
      (fine : allowed op w s) : Lived cfg rt allowed w0 w'

theorem outcome_discard {A : Type} {fails : Calls.Call → Exn → Prop} {p : Code A}
    {s : Option (Failure sig World)} {r : Except Exn Unit}
    (ho : Outcome (exec i) fails (discard p) w s r w') :
    ∃ r1, Outcome (exec i) fails p w s r1 w' ∧ ((∃ e, r = .error e) → ∃ e, r1 = .error e) := by
  rcases outcome_bind.1 ho with ⟨r1, w1, hs, hp, hm⟩ | ⟨r1, w1, hr, hm⟩
  · rcases r1 with e | a
    · obtain ⟨rfl, rfl⟩ := hm
      exact ⟨_, hp, fun _ => ⟨e, rfl⟩⟩
    · obtain ⟨rfl, rfl⟩ := Prod.mk.inj hm
      exact ⟨_, hp, fun ⟨_, he⟩ => (nomatch he)⟩
  · rcases r1 with e | a
    · obtain ⟨rfl, rfl, rfl⟩ := hm
      exact ⟨_, outcome_none.2 hr, fun _ => ⟨e, rfl⟩⟩
    · cases hm
      exact ⟨_, outcome_none.2 hr, fun ⟨_, he⟩ => (nomatch he)⟩

theorem path_ne_nil {raw path : Str} (h : validate_site_path rt raw false = .ok path) : path ≠ [] :=
  fun h0 => Bool.false_ne_true ((validate_site_path_ok h).2 h0)

/-- **One call keeps rows and folders together**, and a `create_site` or `delete_site` that raised
changed no site. -/
theorem called_paired {op : Op} {s : Option (Failure sig World)} {r : Except Exn Unit}
    (hw : Paired cfg w) (hcall : Called cfg rt op w s r w') (hfine : op.Harmless cfg w s) :
    Paired cfg w' ∧ ((∃ slug name created_at, op = .create_site slug name created_at) ∨
      (∃ slug, op = .delete_site slug) → (∃ e, r = .error e) → Still cfg w w') := by
  obtain ⟨hvalid, i, ho⟩ := hcall
  -- the file operations do not fail, so that a call of one is a run
  have hrun : (∀ c e, ¬ op.fails c e) → SamePairs cfg w (run (exec i) (op.code cfg rt) w).2 →
      Paired cfg w' := by
    intro hf hpairs
    obtain rfl := ho.unfailing (uses_of_all hf _)
    rw [outcome_none.1 ho] at hpairs
    exact hpairs.paired hw
  have hquiet : ∀ {A : Type} {p : Code A}, SamePairs cfg w (run (exec i) p w).2 →
      SamePairs cfg w (run (exec i) (discard p) w).2 := fun h =>
    same_bind h fun _ w1 _ => .refl cfg w1
  cases op with
  | create_site slug name created_at =>
    obtain ⟨r1, hp, hr⟩ := outcome_discard ho
    rcases create_site_outcome hw hp with ⟨-, hstill⟩ | ⟨⟨site, rfl⟩, hpaired⟩
    · exact ⟨hstill.samePairs.paired hw, fun _ _ => hstill⟩
    · refine ⟨hpaired, fun _ he => ?_⟩
      obtain ⟨e, he⟩ := hr he
      cases he
  | delete_site slug =>
    obtain ⟨r1, hp, hr⟩ := outcome_discard ho
    rcases delete_site_outcome hw hfine hp with ⟨-, hstill⟩ | ⟨rfl, hpaired⟩
    · exact ⟨hstill.samePairs.paired hw, fun _ _ => hstill⟩
    · refine ⟨hpaired, fun _ he => ?_⟩
      obtain ⟨e, he⟩ := hr he
      cases he
  | list_folder slug folder =>
    exact ⟨hrun (fun _ _ => id) (hquiet (run_samePairs (uses_spares (uses_list_folder ..)) w)),
      by simp⟩
  | file_path slug path =>
    exact ⟨hrun (fun _ _ => id) (hquiet (run_samePairs (uses_spares (uses_file_path ..)) w)),
      by simp⟩
  | write_file slug path body overwrite declared_length =>
    obtain ⟨raw, hraw⟩ := hvalid
    exact ⟨hrun (fun _ _ => id) (hquiet (run_write_file_samePairs body overwrite declared_length
      (path_ne_nil hraw) hw)), by simp⟩
  | delete_file slug path =>
    obtain ⟨raw, hraw⟩ := hvalid
    exact ⟨hrun (fun _ _ => id) (hquiet (same_hold (run_removeFile_samePairs (path_ne_nil hraw) _))),
      by simp⟩
  | delete_folder slug path recursive =>
    obtain ⟨raw, hraw⟩ := hvalid
    exact ⟨hrun (fun _ _ => id) (hquiet (same_hold (run_removeFolder_samePairs recursive
      (path_ne_nil hraw) _))), by simp⟩

theorem lived_paired {w0 : World} (hw : Paired cfg w0) (h : Lived cfg rt (Op.Harmless cfg) w0 w) :
    Paired cfg w := by
  induction h with
  | start => exact hw
  | call before called fine ih => exact (called_paired ih called fine).1

/-- **A site's row and its folder live and die together**: in a run in which no `delete_site` fails
after it moved the folder, they are there together after every call, and a `create_site` or
`delete_site` that raised left the rows and the trees of all sites as they were. -/
theorem live_and_die (cfg : Config) (rt : Runtime) (w0 w w' : World) (op : Op)
    (s : Option (Failure sig World)) (r : Except Exn Unit) (hstart : Paired cfg w0)
    (hlived : Lived cfg rt (Op.Harmless cfg) w0 w) (hcall : Called cfg rt op w s r w')
    (hfine : op.Harmless cfg w s) :
    (∀ slug : Str, w'.db.sites[slug]? ≠ none ↔ w'.disk.get (site_dir cfg slug) = some .folder) ∧
      (∀ slug name created_at e, op = .create_site slug name created_at → r = .error e →
        w'.db.sites[slug]? = w.db.sites[slug]? ∧
          w'.disk.under (site_dir cfg slug) = w.disk.under (site_dir cfg slug)) ∧
      ∀ slug e, op = .delete_site slug → r = .error e →
        w'.db.sites[slug]? = w.db.sites[slug]? ∧
          w'.disk.under (site_dir cfg slug) = w.disk.under (site_dir cfg slug) := by
  obtain ⟨hpaired, hstill⟩ := called_paired (lived_paired hstart hlived) hcall hfine
  refine ⟨hpaired.together, ?_, ?_⟩
  · rintro slug name created_at e rfl rfl
    have := hstill (Or.inl ⟨slug, name, created_at, rfl⟩) ⟨e, rfl⟩
    exact ⟨by rw [this.db], this.trees slug⟩
  · rintro slug e rfl rfl
    have := hstill (Or.inr ⟨slug, rfl⟩) ⟨e, rfl⟩
    exact ⟨by rw [this.db], this.trees slug⟩

/-! ### A failing insertion and a failing deletion -/

/-- A volume without a site. -/
theorem small_paired : Paired smallConfig (smallWorld .empty) := by
  have hnone : ∀ slug, (smallWorld .empty).disk.get (site_dir smallConfig slug) = none := by
    intro slug
    have h1 : (Tree.leaf : Files Str).Fits smallConfig.sites_dir := by decide +kernel
    have h2 : ((Tree.leaf : Files Str).put smallConfig.sites_dir .folder).Fits
        smallConfig.staging_dir := by decide +kernel
    refine (Tree.get_put h2 _ _).trans ?_
    rw [if_neg (by simp [site_dir, Config.sites_dir, Config.staging_dir]), Tree.get_put h1,
      if_neg (by simp [site_dir]), Tree.get_leaf (by simp [site_dir])]
  refine ⟨fun slug => ?_, fun slug => Or.inl (hnone slug)⟩
  rw [hnone]
  exact ⟨fun h => absurd (get_empty slug) h, by rintro ⟨⟩⟩

def blogMade : Op := .create_site (lit "blog") (lit "Blog") (counting 0 |>.now 0)

/-- Whether a call inserts a row of a site. -/
def isInsert : Calls.Call → Bool
  | .db (.insert_site _) => true
  | _ => false

/-- The creation of a site of which the insertion of the row fails. -/
def insertStruck : Option (Failure sig World) × Except Exn Unit × World :=
  strike (Calls.exec 0) isInsert .database 0 (blogMade.code smallConfig plainRuntime)
    (smallWorld .empty)

theorem insertStruck_called : Called smallConfig plainRuntime blogMade (smallWorld .empty)
    insertStruck.1 insertStruck.2.1 insertStruck.2.2 := by
  refine ⟨trivial, 0, strike_outcome (fun c hc => ?_) 0 _ _⟩
  cases c with
  | db q => trivial
  | _ => cases hc

theorem live_and_die_unmade :
    insertStruck.2.2.db.sites[lit "blog"]? = (smallWorld .empty).db.sites[lit "blog"]? ∧
      insertStruck.2.2.disk.under (site_dir smallConfig (lit "blog")) =
        (smallWorld .empty).disk.under (site_dir smallConfig (lit "blog")) :=
  (live_and_die smallConfig plainRuntime (smallWorld .empty) (smallWorld .empty) insertStruck.2.2
    blogMade insertStruck.1 insertStruck.2.1 small_paired .start insertStruck_called trivial).2.1
    (lit "blog") (lit "Blog") _ .database rfl (by decide +kernel)

/-- Whether a call deletes the row of a site. -/
def isDelete : Calls.Call → Bool
  | .db (.delete_site _) => true
  | _ => false

/-- The small volume with a site. -/
def blogWorld : World :=
  (run (Calls.exec 0) (blogMade.code smallConfig plainRuntime) (smallWorld .empty)).2

theorem blogMade_called : Called smallConfig plainRuntime blogMade (smallWorld .empty) none
    (run (Calls.exec 0) (blogMade.code smallConfig plainRuntime) (smallWorld .empty)).1 blogWorld :=
  ⟨trivial, 0, outcome_none.2 rfl⟩

/-- The deletion of the site of which the deletion of the row fails. -/
def deleteStruck : Option (Failure sig World) × Except Exn Unit × World :=
  strike (Calls.exec 0) isDelete .database 0
    ((Op.delete_site (lit "blog")).code smallConfig plainRuntime) blogWorld

/-- **A `delete_site` whose last step fails leaves a row without a folder.** -/
theorem row_without_folder : ∃ w0 w op s r w', Paired smallConfig w0 ∧
    Lived smallConfig plainRuntime (fun _ _ _ => True) w0 w ∧
    Called smallConfig plainRuntime op w s r w' ∧
    ¬ ∀ slug : Str, w'.db.sites[slug]? ≠ none ↔
      w'.disk.get (site_dir smallConfig slug) = some .folder := by
  refine ⟨smallWorld .empty, blogWorld, .delete_site (lit "blog"), deleteStruck.1, deleteStruck.2.1,
    deleteStruck.2.2, small_paired, .call .start blogMade_called trivial,
    ⟨trivial, 0, strike_outcome (fun c hc => ?_) 0 _ _⟩, fun h => ?_⟩
  · cases c with
    | db q => trivial
    | _ => cases hc
  · have hrow : (deleteStruck.2.2.db.sites[lit "blog"]?).isSome = true := by decide +kernel
    have hfolder : deleteStruck.2.2.disk.get (site_dir smallConfig (lit "blog")) = none := by
      decide +kernel
    have := (h (lit "blog")).1 (by intro h0; rw [h0] at hrow; cases hrow)
    rw [hfolder] at this
    cases this

end PaperBoxing.Backend.Pairing
