import PaperBoxing.Backend.Alone
import PaperBoxing.Backend.Frames
import PaperBoxing.Backend.Statuses

/-! # Uploads to a site that is deleted meanwhile

A body arrives with no lock held, so its site may be deleted before the upload takes the lock. The
upload then looks the site up again, by its slug: where no site has that slug it is refused and has
changed nothing, and where a new site has taken the slug the upload goes on in the new site.

* `ends_write_file`: an upload that took the lock, by what its look-up found;
* `refused_when_deleted_iff`: when an upload to a deleted site is refused;
* `lands_in_the_new_site`: a run in which it is not. -/

namespace PaperBoxing.Backend.InFlight

open PaperBoxing.Lib PaperBoxing.Lib.Action PaperBoxing.Lib.Program PaperBoxing.Lib.Threads
open PaperBoxing.Lib.Paths PaperBoxing.Lib.Text PaperBoxing.Lib.Trees PaperBoxing.Lib.Disk
open PaperBoxing.Lib.Tables PaperBoxing.Common.Schema PaperBoxing.Common.Naming
open PaperBoxing.Backend PaperBoxing.Backend.Db PaperBoxing.Backend.Calls PaperBoxing.Backend.Storage
open PaperBoxing.Backend.Alone PaperBoxing.Backend.Operations PaperBoxing.Backend.Frames
open PaperBoxing.Backend.Statuses

variable {cfg : Calls.Config} {rt : Runtime} {A : Type} {i : ℕ} {w w' : World} {slug path : Str}
  {es : List Ev}

/-! ### Steps -/

/-- The look-up of the site in the critical section of an upload. -/
def isCheck (slug : Str) (e : Ev) : Prop := e.call = .db (.site_by_slug slug)

/-- **A step that leaves alone all but the staging folder**: no tree and no row changes. -/
def Harmless (cfg : Calls.Config) (e : Ev) : Prop :=
  e.after.db = e.before.db ∧
    ∀ q, ¬ cfg.staging_dir <+: q → e.after.disk.get q = e.before.disk.get q

/-- The calls whose steps are harmless. -/
def quiet (cfg : Calls.Config) : Calls.Call → Prop
  | .disk c => ∀ p ∈ writes c, cfg.staging_dir <+: p
  | .db q => ∃ slug, q = .site_by_slug slug
  | _ => True

/-- The calls before and after the critical section: harmless, and neither look-ups nor locks. -/
def outside (cfg : Calls.Config) : Calls.Call → Prop
  | .db _ | .acquire _ | .release _ => False
  | c => quiet cfg c

theorem quiet_of_outside {c : Calls.Call} (h : outside cfg c) : quiet cfg c := by
  cases c <;> first | exact h | cases h

theorem outside_of_glances {c : Calls.Call} (h : glances c) : outside cfg c := by
  cases c with
  | disk c =>
    intro p hp
    rw [show writes c = [] from h] at hp
    cases hp
  | _ => cases h

theorem harmless_of_quiet {e : Ev} (hc : quiet cfg e.call)
    (ha : faultless.Answers i e.call e.before e.resp e.after) : Harmless cfg e := by
  rcases e with ⟨j, c, r, w, w'⟩
  obtain rfl : w' = (Calls.exec i c w).2 := congrArg Prod.snd (answers_faultless.1 ha).2
  cases c with
  | disk c => exact ⟨rfl, fun q hq => exec_get_of_not_writes _ fun p hp hpq => hq ((hc p hp).trans hpq)⟩
  | db q =>
    obtain ⟨slug, rfl⟩ := hc
    exact ⟨rfl, fun _ _ => rfl⟩
  | _ => exact ⟨rfl, fun _ _ => rfl⟩

/-- The steps of a program with calls from outside a section. -/
theorem outside_steps {p q : Code A} (h : Path faultless i p es q) (hp : Uses (outside cfg) p) :
    ∀ e ∈ es, Harmless cfg e ∧ outside cfg e.call := fun e he =>
  ⟨harmless_of_quiet (quiet_of_outside ((h.uses hp).1 e he)) (h.answers e he).2, (h.uses hp).1 e he⟩

theorem uses_stage_outside (body : Incoming) : Uses (outside cfg) (_stage cfg rt body) :=
  uses_stage (fun c hex hc p hp => by
    rw [hc p hp]
    exact List.prefix_append _ _) (fun _ => trivial) (fun _ => trivial) body

/-! ### What an upload raises -/

/-- An exception that is no 404 of the API. -/
def NotMissing : Exn → Prop
  | .api a => a.status ≠ 404
  | _ => True

theorem admits_notMissing : Admits NotMissing [400, 409] where
  api a ha h := by
    rw [h] at ha
    exact absurd ha (by decide)
  other e h := by
    cases e with
    | api a => exact absurd rfl (h a)
    | _ => trivial

/-! ### The upload -/

/-- The refusal of an upload to a site that is gone. -/
def gone (rt : Runtime) (slug : Str) : Exn :=
  .api ⟨404, .not_found,
    lit "site " ++ rt.repr slug ++ lit " was deleted while the file was being received"⟩

/-- **The critical section of an upload** begins with its look-up, and is over when that finds no
site; otherwise it does not end by a 404. -/
theorem ends_landFile {overwrite : Bool} {staged : Staged} {o : Except Exn Bool}
    (h : Ends faultless i (landFile cfg rt slug path overwrite staged) es o) :
    ∃ e es', es = e :: es' ∧ isCheck slug e ∧ Harmless cfg e ∧
      (e.before.db.sites[slug]? = none → es' = [] ∧ o = .error (gone rt slug)) ∧
      (e.before.db.sites[slug]? ≠ none → ∀ x, o = .error x → NotMissing x) ∧
      ∀ e' ∈ es', ¬ isCheck slug e' := by
  rcases Ends.bind h with ⟨e, -, h1⟩ | ⟨site, es1, es2, rfl, h1, h2⟩
  · obtain ⟨w, w', -, ha⟩ := h1.invoke
    cases (Prod.mk.inj (answers_faultless.1 ha).2).1
  obtain ⟨w, w', rfl, ha⟩ := h1.invoke
  have hsite : site = w.db.sites[slug]?.map (_site slug) :=
    Except.ok.inj (Prod.mk.inj (answers_faultless.1 ha).2).1
  refine ⟨_, es2, rfl, rfl, harmless_of_quiet ⟨slug, rfl⟩ ha, fun hnone => ?_, fun hrow x hx => ?_, ?_⟩
  · change w.db.sites[slug]? = none at hnone
    rw [if_pos (by rw [hsite, hnone]; rfl)] at h2
    exact ends_raise.1 h2
  · have hne : ¬ site = none := by
      rw [hsite, Option.map_eq_none_iff]
      exact hrow
    rw [if_neg hne, hx] at h2
    exact throws_landing executes_faultless admits_notMissing (by decide) (by decide) slug path
      overwrite staged _ _ h2
  · have hglance : ∀ c, glances c → c ≠ .db (.site_by_slug slug) := by
      rintro _ hc rfl
      exact hc
    have huses : Uses (S := sig) (fun c => c ≠ .db (.site_by_slug slug)) (if site = none then
        refuse 404 .not_found (lit "site " ++ rt.repr slug
          ++ lit " was deleted while the file was being received")
      else do
        let target ← resolve cfg rt slug path
        let replaced ← _check_write_target cfg rt slug target path overwrite
        mkdirParents true target.dropLast.reverse
        disk (.replace staged.path target)
        let mtime_ns ← disk (.mtime target)
        query (.upsert_file ⟨slug, path, staged.bytes, mtime_ns, staged.sha256⟩)
        .ret replaced) := by
      split_ifs
      · exact uses_refuse _ _ _
      · exact ((glances_resolve _ _).mono hglance).bind fun target =>
          ((glances_check_write_target _ _ _ _).mono hglance).bind fun replaced =>
            (uses_mkdirParents _ _ fun _ _ => ⟨by rintro ⟨⟩, by rintro ⟨⟩⟩).bind fun _ =>
              (uses_disk (by rintro ⟨⟩)).bind fun _ => (uses_disk (by rintro ⟨⟩)).bind fun _ =>
                Uses.bind (uses_query (by rintro ⟨⟩)) fun _ => uses_ret _
    exact (Path.uses h2 huses).1

/-- A staging that ended well is in the staging folder. -/
theorem ends_stage {body : Incoming} {staged : Staged}
    (h : Ends faultless i (_stage cfg rt body) es (.ok staged)) : cfg.staging_dir <+: staged.path := by
  rcases Ends.bind h with ⟨_, h0, -⟩ | ⟨hex, es1, es2, rfl, -, h2⟩
  · cases h0
  rcases Ends.bind h2 with ⟨_, h0, -⟩ | ⟨received, es3, es4, rfl, -, h4⟩
  · cases h0
  obtain rfl := Except.ok.inj (ends_ret.1 h4).2
  exact List.prefix_append _ _

/-- **A critical section with its clean-up**: the lock, the section, the lock again, and the removal of
the staging file where the section raised. -/
theorem ends_landing {p : Code A} {q : Path Str} {o : Except Exn A}
    (h : Ends faultless i ((hold slug p).except fun e => _unlink q >>= fun _ => .raise e) es o) :
    ∃ a es1 b es2, es = a :: (es1 ++ b :: es2) ∧ a.call = .acquire slug ∧ b.call = .release slug ∧
      Ends faultless i p es1 o ∧ ∀ e ∈ es2, e.call = .disk (.unlink q) := by
  rcases Ends.except h with ⟨x, rfl, h1⟩ | ⟨x, es1, es2, rfl, h1, h2⟩
  · obtain ⟨w1, w2, es', w3, w4, rfl, hp⟩ := ends_hold h1
    exact ⟨_, es', _, [], rfl, rfl, rfl, hp, fun e he => absurd he List.not_mem_nil⟩
  · obtain ⟨w1, w2, es', w3, w4, rfl, hp⟩ := ends_hold h1
    have huses : Uses (S := sig) (fun c => c = .disk (.unlink q)) (_unlink q) := uses_unlink rfl
    rcases Ends.bind h2 with ⟨y, -, h3⟩ | ⟨_, es3, es4, rfl, h3, h4⟩
    · exact (throws_unlink executes_faultless q _ _ h3).elim
    · obtain ⟨rfl, rfl⟩ := ends_raise.1 h4
      rw [List.append_nil]
      refine ⟨⟨i, .acquire slug, .ok (), w1, w2⟩, es', ⟨i, .release slug, .ok (), w3, w4⟩, es3, ?_, rfl,
        rfl, hp, (Path.uses h3 huses).1⟩
      rw [List.cons_append, List.append_assoc]
      rfl

/-- What an upload that took the lock came to. -/
structure Checked (cfg : Calls.Config) (rt : Runtime) {A : Type} (slug : Str) (es : List Ev)
    (o : Except Exn A) (e : Ev) : Prop where
  mem : e ∈ es
  check : isCheck slug e
  only : ∀ e' ∈ es, isCheck slug e' → e' = e
  gone : e.before.db.sites[slug]? = none → o = .error (gone rt slug) ∧ ∀ e' ∈ es, Harmless cfg e'
  there : e.before.db.sites[slug]? ≠ none → ∀ x, o = .error x → NotMissing x

/-- **An upload that ended** never took the lock, or looked its site up once. -/
theorem ends_write_file {body : Incoming} {overwrite : Bool} {declared_length : Option ℤ}
    {o : Except Exn UploadResult}
    (h : Ends faultless i (Storage.write_file cfg rt slug path body overwrite declared_length) es o) :
    (∀ e ∈ es, outside cfg e.call) ∨ ∃ e, Checked cfg rt slug es o e := by
  rcases Ends.bind h with ⟨e, rfl, h1⟩ | ⟨_, es1, es2, rfl, h1, h2⟩
  · exact Or.inl fun e he => (outside_steps h1 ((glances_resolve _ _).mono fun _ =>
      outside_of_glances) e he).2
  have hresolve : Uses (outside cfg) (resolve cfg rt slug path) :=
    (glances_resolve _ _).mono fun _ => outside_of_glances
  have hpre := outside_steps h1 hresolve
  split_ifs at h2
  · obtain ⟨rfl, -⟩ := ends_raise.1 h2
    rw [List.append_nil]
    exact Or.inl fun e he => (hpre e he).2
  rcases Ends.bind h2 with ⟨e, rfl, h3⟩ | ⟨staged, es3, es4, rfl, h3, h4⟩
  · refine Or.inl (List.forall_mem_append.2 ⟨fun e he => (hpre e he).2, fun e he =>
      (outside_steps h3 (uses_stage_outside body) e he).2⟩)
  have hstaging : Uses (outside cfg) (_stage cfg rt body) := uses_stage_outside body
  have hstage := outside_steps h3 hstaging
  obtain ⟨o', rfl, h5⟩ := Ends.map (m := fun replaced => (⟨path, staged.bytes, staged.sha256,
    replaced⟩ : UploadResult)) h4
  have hstaged := ends_stage h3
  have hall := (Path.answers h5)
  obtain ⟨a, es5, b, es6, rfl, ha, hb, hland, hclean⟩ := ends_landing h5
  obtain ⟨e, es7, rfl, hcheck, hharmless, hgone, hthere, honly⟩ := ends_landFile hland
  -- the steps around the section are harmless, and none of them is the look-up
  have hquiet : ∀ x ∈ a :: b :: es6, Harmless cfg x ∧ ¬ isCheck slug x := by
    intro x hx
    have hmem : x ∈ a :: ((e :: es7) ++ b :: es6) := by
      simp only [List.mem_cons, List.mem_append] at hx ⊢
      tauto
    have hcall : x.call = .acquire slug ∨ x.call = .release slug ∨
        x.call = .disk (.unlink staged.path) := by
      simp only [List.mem_cons] at hx
      rcases hx with rfl | rfl | hx
      · exact Or.inl ha
      · exact Or.inr (Or.inl hb)
      · exact Or.inr (Or.inr (hclean x hx))
    refine ⟨harmless_of_quiet ?_ (hall x hmem).2, ?_⟩
    · rcases hcall with hc | hc | hc <;> rw [hc]
      · trivial
      · trivial
      · intro p hp
        rw [List.mem_singleton.1 hp]
        exact hstaged
    · intro hc
      rw [isCheck] at hc
      rcases hcall with h | h | h <;> rw [h] at hc <;> cases hc
  have hbefore : ∀ x ∈ es1 ++ es3, Harmless cfg x ∧ ¬ isCheck slug x := by
    intro x hx
    have hout : Harmless cfg x ∧ outside cfg x.call :=
      (List.mem_append.1 hx).elim (hpre x) (hstage x)
    refine ⟨hout.1, fun hc => ?_⟩
    rw [hc] at hout
    exact hout.2
  have hcases : ∀ x ∈ es1 ++ (es3 ++ a :: (e :: es7 ++ b :: es6)),
      Harmless cfg x ∧ ¬ isCheck slug x ∨ x = e ∨ x ∈ es7 := by
    intro x hx
    simp only [List.mem_append, List.mem_cons] at hx hquiet hbefore
    rcases hx with hx | hx | rfl | (rfl | hx) | rfl | hx
    · exact Or.inl (hbefore x (Or.inl hx))
    · exact Or.inl (hbefore x (Or.inr hx))
    · exact Or.inl (hquiet x (Or.inl rfl))
    · exact Or.inr (Or.inl rfl)
    · exact Or.inr (Or.inr hx)
    · exact Or.inl (hquiet x (Or.inr (Or.inl rfl)))
    · exact Or.inl (hquiet x (Or.inr (Or.inr hx)))
  refine Or.inr ⟨e, by simp, hcheck, fun x hx hc => ?_, fun hnone => ?_, fun hrow x hx => hthere hrow x ?_⟩
  · rcases hcases x hx with h | h | h
    · exact absurd hc h.2
    · exact h
    · exact absurd hc (honly x h)
  · obtain ⟨rfl, rfl⟩ := hgone hnone
    refine ⟨rfl, fun x hx => ?_⟩
    rcases hcases x hx with h | rfl | h
    · exact h.1
    · exact hharmless
    · cases h
  · rcases o' with y | replaced
    · exact congrArg _ (Except.error.inj hx)
    · cases hx

/-! ### Uploads in a run -/

/-- **The site is deleted while the upload is in flight**: a deletion completes its critical section
after the upload began and before the upload takes the lock. -/
def DeletedMeanwhile (slug : Str) (i : ℕ) (tr : List Ev) : Prop :=
  ∃ (n0 n1 n2 n3 : ℕ) (e d r a : Ev), tr[n0]? = some e ∧ tr[n1]? = some d ∧ tr[n2]? = some r ∧
    tr[n3]? = some a ∧ n0 < n2 ∧ n1 < n2 ∧ n2 < n3 ∧ e.tid = i ∧
    d.tid ≠ i ∧ d.call = .db (.delete_site slug) ∧ r.tid = d.tid ∧ r.call = .release slug ∧
    a.tid = i ∧ a.call = .acquire slug

/-- **An upload whose site is deleted meanwhile is refused, and changes nothing, exactly when no site
has the slug at its look-up under the lock**, in every run, whatever the other threads are. -/
theorem refused_when_deleted_iff (cfg : Calls.Config) (rt : Runtime) (slug path : Str) (body : Incoming)
    (overwrite : Bool) (declared_length : Option ℤ) (i : ℕ)
    {g g' : Threads.Config sig Exn Result World} {tr : List Ev} (hrun : Run faultless g tr g')
    (hupload : g.threads i =
      (Operation.write_file slug path body overwrite declared_length).code cfg rt)
    {o : Except Exn Result} (hend : g'.threads i = .ofExcept o) :
    (DeletedMeanwhile slug i tr → (∃ code message, o = .error (.api ⟨404, code, message⟩)) ∧
        ∀ e ∈ tr, e.tid = i → Harmless cfg e) ↔
      (DeletedMeanwhile slug i tr → ∀ e ∈ tr, e.tid = i → isCheck slug e →
        e.before.db.sites[slug]? = none) := by
  refine imp_congr_right fun hdel => ?_
  have hpath := path_of_run hrun i
  rw [hupload, hend] at hpath
  obtain ⟨o', rfl, hwrite⟩ := Ends.map (m := Result.upload) hpath
  have hmem : ∀ e, e ∈ tr.filter (fun e => e.tid == i) ↔ e ∈ tr ∧ e.tid = i := fun e => by
    rw [List.mem_filter, beq_iff_eq]
  obtain ⟨-, -, -, n3, -, -, -, a, -, -, -, ha, -, -, -, -, -, -, -, -, hai, hacq⟩ := hdel
  rcases ends_write_file hwrite with hout | ⟨e, he⟩
  · have := hout a ((hmem a).2 ⟨List.mem_of_getElem? ha, hai⟩)
    rw [hacq] at this
    exact this.elim
  constructor
  · rintro ⟨⟨code, message, h404⟩, -⟩ x hx hxi hc
    rw [he.only x ((hmem x).2 ⟨hx, hxi⟩) hc]
    by_contra hrow
    rcases o' with y | result
    · obtain rfl : y = .api ⟨404, code, message⟩ := Except.error.inj h404
      exact he.there hrow _ rfl rfl
    · cases h404
  · intro h
    obtain ⟨hetr, hei⟩ := (hmem e).1 he.mem
    obtain ⟨rfl, hharmless⟩ := he.gone (h e hetr hei he.check)
    exact ⟨⟨_, _, rfl⟩, fun x hx hxi => hharmless x ((hmem x).2 ⟨hx, hxi⟩)⟩

/-! ### A site that is deleted and made again -/

/-- An upload to the site `a`, a deletion of the site, and a creation of a site with its slug. -/
def reborn : Threads.Config sig Exn Result World :=
  ⟨withSite, fun i =>
    if i = 0 then (Operation.write_file (lit "a") (lit "f") ⟨[[1]], none⟩ false none).code
      smallConfig plainRuntime
    else if i = 1 then (Operation.delete_site (lit "a")).code smallConfig plainRuntime
    else if i = 2 then (Operation.create_site (lit "a") (lit "a")
      ⟨62135596800000000, IsoTime.unixStart_lt⟩).code smallConfig plainRuntime
    else .ret .done⟩

/-- While the upload waits for its body, the site is deleted and made again. -/
def rebirth : List ℕ :=
  List.replicate 6 0 ++ List.replicate 6 1 ++ List.replicate 5 2 ++ List.replicate 17 0

/-- While the upload waits for its body, the site is deleted. -/
def deletion : List ℕ := List.replicate 6 0 ++ List.replicate 6 1 ++ List.replicate 8 0

/-- The calls by which a site is deleted while an upload to it is in flight, where they stand in a
trace. -/
theorem deletedMeanwhile_of_calls {tr : List Ev} {n : ℕ} (hn : 11 < n)
    (h : [0, 10, 11, n].map (fun n => tr[n]?.map fun e => (e.tid, e.call)) =
      [some (0, .disk (.lstat (site_dir smallConfig (lit "a")))),
        some (1, .db (.delete_site (lit "a"))), some (1, .release (lit "a")),
        some (0, .acquire (lit "a"))]) : DeletedMeanwhile (lit "a") 0 tr := by
  simp only [List.map_cons, List.map_nil, List.cons.injEq, and_true, Option.map_eq_some_iff,
    Prod.mk.injEq] at h
  obtain ⟨⟨e, he, hetid, -⟩, ⟨d, hd, hdtid, hdcall⟩, ⟨r, hr, hrtid, hrcall⟩, ⟨a, ha, hatid, hacall⟩⟩ := h
  refine ⟨0, 10, 11, n, e, d, r, a, he, hd, hr, ha, by decide, by decide, hn, hetid, ?_, hdcall,
    hrtid.trans hdtid.symm, hrcall, hatid, hacall⟩
  rw [hdtid]
  decide

/-- The upload goes on in the new site, and ends with a result. -/
theorem rebirth_run : ∃ tr g result, Run faultless reborn tr g ∧ DeletedMeanwhile (lit "a") 0 tr ∧
    g.threads 0 = .ret result := by
  have hplay : (faultless.record rebirth reborn).map (fun x =>
      ([0, 10, 11, 21].map fun n => x.1[n]?.map fun e => (e.tid, e.call),
        (returned (x.2.threads 0)).isSome)) =
      some ([some (0, .disk (.lstat (site_dir smallConfig (lit "a")))),
        some (1, .db (.delete_site (lit "a"))), some (1, .release (lit "a")),
        some (0, .acquire (lit "a"))], true) := by decide +kernel
  obtain ⟨⟨tr, g⟩, hrecord, hseen⟩ := Option.map_eq_some_iff.1 hplay
  obtain ⟨hcalls, hreturned⟩ := Prod.mk.inj hseen
  obtain ⟨result, hresult⟩ := Option.isSome_iff_exists.1 hreturned
  exact ⟨tr, g, result, Machine.record_run hrecord, deletedMeanwhile_of_calls (by decide) hcalls,
    returned_eq_some hresult⟩

/-- Where no site takes the slug, the upload finds none under the lock, and ends with an exception. -/
theorem deletion_run : ∃ tr g x, Run faultless reborn tr g ∧ DeletedMeanwhile (lit "a") 0 tr ∧
    g.threads 0 = .raise x ∧
    ∀ e ∈ tr, e.tid = 0 → isCheck (lit "a") e → e.before.db.sites[lit "a"]? = none := by
  have hplay : (faultless.record deletion reborn).map (fun x =>
      ([0, 10, 11, 16].map fun n => x.1[n]?.map fun e => (e.tid, e.call),
        (raised (x.2.threads 0)).isSome,
        x.1.all fun e => e.call ≠ .db (.site_by_slug (lit "a")) ∨
          (e.before.db.sites[lit "a"]?).isNone = true)) =
      some ([some (0, .disk (.lstat (site_dir smallConfig (lit "a")))),
        some (1, .db (.delete_site (lit "a"))), some (1, .release (lit "a")),
        some (0, .acquire (lit "a"))], true, true) := by decide +kernel
  obtain ⟨⟨tr, g⟩, hrecord, hseen⟩ := Option.map_eq_some_iff.1 hplay
  obtain ⟨hcalls, hseen⟩ := Prod.mk.inj hseen
  obtain ⟨hraised, hall⟩ := Prod.mk.inj hseen
  obtain ⟨x, hx⟩ := Option.isSome_iff_exists.1 hraised
  refine ⟨tr, g, x, Machine.record_run hrecord, deletedMeanwhile_of_calls (by decide) hcalls,
    raised_eq_some hx, fun e he _ hc => ?_⟩
  rcases of_decide_eq_true (List.all_eq_true.1 hall e he) with h | h
  · exact absurd hc h
  · exact Option.isNone_iff_eq_none.1 h

/-- **An upload to a deleted site lands in the site that took its slug.** -/
theorem lands_in_the_new_site : ¬ ∀ tr g (o : Except Exn Result), Run faultless reborn tr g →
    g.threads 0 = .ofExcept o → DeletedMeanwhile (lit "a") 0 tr →
    (∃ code message, o = .error (.api ⟨404, code, message⟩)) ∧
      ∀ e ∈ tr, e.tid = 0 → Harmless smallConfig e := by
  intro h
  obtain ⟨tr, g, result, hrun, hdel, hend⟩ := rebirth_run
  obtain ⟨⟨code, message, hrefused⟩, -⟩ := h tr g (.ok result) hrun hend hdel
  cases hrefused

/-- Both ways: the upload that meets the new site is not refused, and the one that meets none is. -/
theorem refused_when_deleted_both : (∃ tr g, Run faultless reborn tr g ∧
      DeletedMeanwhile (lit "a") 0 tr ∧ ¬ ∀ e ∈ tr, e.tid = 0 → isCheck (lit "a") e →
        e.before.db.sites[lit "a"]? = none) ∧
    ∃ tr g code message, Run faultless reborn tr g ∧ DeletedMeanwhile (lit "a") 0 tr ∧
      g.threads 0 = .raise (.api ⟨404, code, message⟩) ∧
      ∀ e ∈ tr, e.tid = 0 → Harmless smallConfig e := by
  constructor
  · obtain ⟨tr, g, result, hrun, hdel, hend⟩ := rebirth_run
    refine ⟨tr, g, hrun, hdel, fun h => ?_⟩
    obtain ⟨⟨code, message, hrefused⟩, -⟩ := (refused_when_deleted_iff smallConfig plainRuntime
      (lit "a") (lit "f") ⟨[[1]], none⟩ false none 0 hrun rfl (o := .ok result) hend).2 (fun _ => h) hdel
    cases hrefused
  · obtain ⟨tr, g, x, hrun, hdel, hend, hnone⟩ := deletion_run
    obtain ⟨⟨code, message, hrefused⟩, hharmless⟩ := (refused_when_deleted_iff smallConfig plainRuntime
      (lit "a") (lit "f") ⟨[[1]], none⟩ false none 0 hrun rfl (o := .error x) hend).2 (fun _ => hnone) hdel
    obtain rfl := Except.error.inj hrefused
    exact ⟨tr, g, code, message, hrun, hdel, hend, hharmless⟩

end PaperBoxing.Backend.InFlight
