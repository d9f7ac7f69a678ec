import PaperBoxing.Backend.App
import PaperBoxing.Backend.Statuses

/-! # What a token's scope lets a request change

A request of an agent leaves the accounts alone, and of the tokens all but the time of its own last
use. Below the scope that removes, nothing disappears from the sites; with the scope that reads, nothing
of them changes but the file index. A request refused by 401 or 403 changes no site and no account.

* `Same`, `Stays`: nothing changes but the index; nothing disappears;
* `agents_keep_their_scope`: both, for every request. -/

namespace PaperBoxing.Backend.Scoped

open PaperBoxing.Lib PaperBoxing.Lib.Action PaperBoxing.Lib.Program PaperBoxing.Lib.Threads
open PaperBoxing.Lib.Paths PaperBoxing.Lib.Text PaperBoxing.Lib.IsoTime PaperBoxing.Lib.Tables
open PaperBoxing.Lib.Trees PaperBoxing.Lib.Disk PaperBoxing.Common.Scopes PaperBoxing.Common.Schema
open PaperBoxing.Common.Naming PaperBoxing.Backend PaperBoxing.Backend.Db PaperBoxing.Backend.Calls
open PaperBoxing.Backend.Accounts PaperBoxing.Backend.Alone PaperBoxing.Backend.Frames
open PaperBoxing.Backend.Bearer PaperBoxing.Backend.App PaperBoxing.Backend.Statuses

variable {cfg : Calls.Config} {rt : Runtime} {hasher : Hasher} {i : ℕ} {w w' w'' : World} {A B : Type}

/-! ### Nothing changes but the index -/

/-- **The sites as they were**, their file index apart. -/
structure Same (w w' : World) : Prop where
  disk : w'.disk = w.disk
  rows : ∀ slug : Str, w'.db.sites[slug]?.map (_site slug) = w.db.sites[slug]?.map (_site slug)

theorem Same.refl (w : World) : Same w w := ⟨rfl, fun _ => rfl⟩

theorem Same.trans (h : Same w w') (h' : Same w' w'') : Same w w'' :=
  ⟨h'.disk.trans h.disk, fun slug => (h'.rows slug).trans (h.rows slug)⟩

theorem same_of_sites (h : SameSites w w') : Same w w' :=
  ⟨h.disk, fun slug => by rw [h.sites]⟩

/-- A change of an index keeps every row of a site. -/
theorem rows_set_files (d : Database) (site : Str) (f : Index → Index) (slug : Str) :
    (d.set_files site f).sites[slug]?.map (_site slug) = d.sites[slug]?.map (_site slug) := by
  rw [get_sites_set_files]
  split_ifs
  · rw [Option.map_map]
    rfl
  · rfl

theorem exec_index_rows {q : Query} (h : onIndex q = true) (d : Database) (slug : Str) :
    (Db.exec q d).2.sites[slug]?.map (_site slug) = d.sites[slug]?.map (_site slug) := by
  cases q <;> try first | rfl | cases h
  case upsert_file row =>
    rw [Db.exec, upsert_file]
    split
    · rfl
    · exact rows_set_files ..
  case delete_file_row => exact rows_set_files ..

/-- **A call that looks changes nothing but the index.** -/
theorem call_same {c : Calls.Call} (hc : looks c) (w : World) : Same w (exec i c w).2 := by
  cases c with
  | disk c =>
    refine ⟨?_, fun _ => rfl⟩
    rcases exec_tree ⟨(w.oracle i).stamp (w.drawn i), w.scan⟩ c w.disk with
      h | ⟨p, n, hp, -, -⟩ | ⟨p, hp, -, -⟩ | ⟨src, dst, rfl, -, -⟩
    · exact h
    · rw [show writes c = [] from hc] at hp
      cases hp
    · rw [show writes c = [] from hc] at hp
      cases hp
    · cases hc
  | db q => exact ⟨rfl, exec_index_rows hc w.db⟩
  | acquire slug => exact hc.elim
  | release slug => exact hc.elim
  | _ => exact ⟨rfl, fun _ => rfl⟩

theorem run_same {p : Code A} (hp : Uses looks p) (w : World) : Same w (run (exec i) p w).2 :=
  run_preserves (I := Same w) (fun _ hc w1 h => h.trans (call_same hc w1)) hp (Same.refl w)

/-! ### Nothing disappears -/

/-- **Nothing below `sites/` has disappeared**, and no site. -/
structure Stays (cfg : Calls.Config) (w w' : World) : Prop where
  paths : ∀ q, cfg.sites_dir <+: q → w.disk.get q ≠ none → w'.disk.get q ≠ none
  sites : ∀ slug : Str, w.db.sites[slug]? ≠ none → w'.db.sites[slug]? ≠ none

theorem Stays.refl (w : World) : Stays cfg w w := ⟨fun _ _ h => h, fun _ h => h⟩

theorem Stays.trans (h : Stays cfg w w') (h' : Stays cfg w' w'') : Stays cfg w w'' :=
  ⟨fun q hq hw => h'.paths q hq (h.paths q hq hw), fun slug hw => h'.sites slug (h.sites slug hw)⟩

theorem Same.stays (h : Same w w') : Stays cfg w w' := by
  refine ⟨fun q _ hw => by rwa [h.disk], fun slug hw => ?_⟩
  have hrow := h.rows slug
  intro hnone
  rw [hnone, Option.map_none, eq_comm, Option.map_eq_none_iff] at hrow
  exact hw hrow

/-- The calls that add to the sites: what they remove is in the staging folder. -/
def adds (cfg : Calls.Config) : Calls.Call → Prop
  | .disk (.rmdir p) | .disk (.unlink p) | .disk (.replace p _) => cfg.staging_dir <+: p
  | .db (.delete_site _) => False
  | _ => True

theorem exec_adds {env : Env Str} {c : Disk.Call Str} (hc : adds cfg (.disk c)) {t : Files Str}
    {q : Path Str} (hq : cfg.sites_dir <+: q) (h : t.get q ≠ none) :
    (Disk.exec env c t).2.get q ≠ none := by
  have hput : ∀ {p n}, t.Fits p → (t.put p n).get q ≠ none := fun hfits => by
    rw [Tree.get_put hfits]
    split_ifs
    · exact Option.some_ne_none _
    · exact h
  have hremove : ∀ {p}, cfg.staging_dir <+: p → writes c = [p] → (Disk.exec env c t).2.get q ≠ none :=
    fun hp hw => by
      rw [exec_get_of_not_writes env fun p' hp' => by
        rw [hw, List.mem_singleton] at hp'
        rw [hp']
        exact staged_apart hp hq]
      exact h
  cases c with
  | rmdir p => exact hremove hc rfl
  | unlink p => exact hremove hc rfl
  | replace src dst =>
    rcases replace_cases src dst t with hsame | ⟨hm, hmove⟩
    · rw [Disk.exec, hsame]
      exact h
    rw [Disk.exec, hmove, Tree.get_move hm, if_neg (staged_apart hc hq)]
    split_ifs with hdst
    · obtain ⟨r, rfl⟩ := hdst
      -- what is moved onto had nothing in it
      have hr : r = [] := by
        by_contra hr
        obtain ⟨s, r', rfl⟩ := List.exists_cons_of_ne_nil hr
        refine h ?_
        have hchild : t.get (dst ++ [s]) = none := by
          by_contra hs
          have := Tree.mem_children.2 hs
          rw [hm.2.2.2.2.2] at this
          cases this
        rw [show dst ++ s :: r' = (dst ++ [s]) ++ r' by simp]
        rcases r' with _ | ⟨s', r'⟩
        · rw [List.append_nil]
          exact hchild
        · exact Tree.get_below_none (by rw [hchild]; simp) (by simp)
      rw [hr, List.append_nil, List.drop_length, List.append_nil]
      exact Option.isSome_iff_ne_none.1 hm.2.2.1
    · exact h
  | mkdir p =>
    rw [Disk.exec, Disk.mkdir]
    split
    · exact h
    · split_ifs with hfits
      · exact hput hfits
      · exact h
  | create p =>
    rw [Disk.exec, Disk.create]
    split
    · exact h
    · split_ifs with hfits
      · exact hput hfits
      · exact h
  | write p bytes =>
    rw [Disk.exec, Disk.write]
    split
    · next d hd =>
      have hne : p ≠ [] := by
        rintro rfl
        simp at hd
      exact hput (Tree.fits_iff.2 ⟨hne, Tree.get_dropLast (by simp [hd]), by simp [hd]⟩)
    · exact h
    · exact h
  | _ =>
    rw [exec_get_of_not_writes]
    · exact h
    · rintro p hp
      cases hp

theorem sites_stay {q : Query} (hq : adds cfg (.db q)) {d : Database} {slug : Str}
    (h : d.sites[slug]? ≠ none) : (Db.exec q d).2.sites[slug]? ≠ none := by
  by_cases hacc : onAccounts q = true
  · rwa [exec_sites hacc]
  have hindex : ∀ {q}, onIndex q = true → (Db.exec q d).2.sites[slug]? ≠ none := fun hi hnone => by
    have hrow := exec_index_rows hi d slug
    rw [hnone, Option.map_none, eq_comm, Option.map_eq_none_iff] at hrow
    exact h hrow
  cases q <;> try first | exact hindex rfl | exact absurd rfl hacc
  case insert_site site =>
    rw [Db.exec, insert_site]
    split
    · exact h
    · change (d.sites.insert _ _)[slug]? ≠ none
      rw [get_insert]
      split_ifs
      · exact Option.some_ne_none _
      · exact h
  case delete_site => exact hq.elim
  case delete_files_under site folder =>
    change (d.set_files site _).sites[slug]? ≠ none
    intro hnone
    have hrow := rows_set_files d site (fun f => f.filter fun path _ => !_below folder path) slug
    rw [hnone, Option.map_none, eq_comm, Option.map_eq_none_iff] at hrow
    exact h hrow

/-- **A call that adds lets nothing disappear.** -/
theorem call_stays {c : Calls.Call} (hc : adds cfg c) (w : World) : Stays cfg w (exec i c w).2 := by
  cases c with
  | disk c => exact ⟨fun q hq h => exec_adds hc hq h, fun _ h => h⟩
  | db q => exact ⟨fun _ _ h => h, fun _ h => sites_stay hc h⟩
  | _ => exact ⟨fun _ _ h => h, fun _ h => h⟩

theorem run_stays {p : Code A} (hp : Uses (adds cfg) p) (w : World) : Stays cfg w (run (exec i) p w).2 :=
  run_preserves (I := Stays cfg w) (fun _ hc w1 h => h.trans (call_stays hc w1)) hp (Stays.refl w)

/-- A sequence lets nothing disappear, when its second part lets nothing after what its first part
returned. -/
theorem stays_bind {p : Code A} {f : A → Code B} (hp : Stays cfg w (run (exec i) p w).2)
    (hf : ∀ a w1, run (exec i) p w = (.ok a, w1) → Stays cfg w1 (run (exec i) (f a) w1).2) :
    Stays cfg w (run (exec i) (p >>= f) w).2 := by
  rcases h : run (exec i) p w with ⟨e | a, w1⟩
  · rw [run_bind_of_error _ h]
    rwa [h] at hp
  · rw [run_bind_of_ok _ h]
    rw [h] at hp
    exact hp.trans (hf a w1 h)

theorem adds_of_looks {c : Calls.Call} (h : looks c) : adds cfg c := by
  cases c with
  | disk c => cases c <;> trivial
  | db q => cases q <;> trivial
  | _ => trivial

/-! ### An upload -/

/-- A staging that returned is in the staging folder. -/
theorem run_stage_path {body : Incoming} {staged : Storage.Staged}
    (h : run (exec i) (Storage._stage cfg rt body) w = (.ok staged, w')) :
    cfg.staging_dir <+: staged.path := by
  rw [Storage._stage] at h
  obtain ⟨hex, w1, -, h1⟩ := run_bind_inv _ h
  obtain ⟨received, w2, -, h2⟩ := run_bind_inv _ h1
  obtain rfl := Except.ok.inj (Prod.mk.inj h2).1
  exact List.prefix_append _ _

theorem uses_landing (slug path : Str) (overwrite : Bool) {staged : Storage.Staged}
    (h : cfg.staging_dir <+: staged.path) :
    Uses (adds cfg) (Storage.landFile cfg rt slug path overwrite staged) := by
  refine Uses.bind (uses_query (P := adds cfg) trivial) fun site => ?_
  split_ifs
  · trivial
  · exact ((uses_resolve _ _).mono fun _ => adds_of_looks).bind fun target =>
      ((uses_check_write_target _ _ _ _).mono fun _ => adds_of_looks).bind fun replaced =>
        (uses_mkdirParents _ _ fun _ _ => ⟨trivial, trivial⟩).bind fun _ =>
          (uses_disk (show adds cfg (.disk (.replace staged.path target)) from h)).bind fun _ =>
            (uses_disk (show adds cfg (.disk (.mtime target)) from trivial)).bind fun _ =>
              Uses.bind (uses_query (P := adds cfg) trivial) fun _ => uses_ret _

/-- **An upload lets nothing disappear.** -/
theorem stays_write_file (slug path : Str) (body : Incoming) (overwrite : Bool)
    (declared_length : Option ℤ) (w : World) : Stays cfg w
      (run (exec i) (Storage.write_file cfg rt slug path body overwrite declared_length) w).2 := by
  rw [Storage.write_file]
  refine stays_bind (run_stays ((uses_resolve _ _).mono fun _ => adds_of_looks) w) fun _ w1 _ => ?_
  split_ifs
  · exact Stays.refl w1
  have hstage : Uses (adds cfg) (Storage._stage cfg rt body) :=
    uses_stage (fun c hex hc => by
      cases c with
      | rmdir p => rw [adds, hc p (List.mem_singleton_self p)]; exact List.prefix_append _ _
      | unlink p => rw [adds, hc p (List.mem_singleton_self p)]; exact List.prefix_append _ _
      | replace src dst => rw [adds, hc src List.mem_cons_self]; exact List.prefix_append _ _
      | _ => trivial) (fun _ => trivial) (fun _ => trivial) body
  refine stays_bind (run_stays hstage w1) fun staged w2 hrun => ?_
  have hpath := run_stage_path hrun
  have hacquire : Uses (adds cfg) (Prog.invoke (S := sig) (E := Exn) (.acquire slug)) :=
    (uses_invoke (S := sig) _).2 trivial
  have hrelease : Uses (adds cfg) (Prog.invoke (S := sig) (E := Exn) (.release slug)) :=
    (uses_invoke (S := sig) _).2 trivial
  have hunlink : Uses (adds cfg) (Storage._unlink staged.path) := uses_unlink hpath
  refine run_stays (((hacquire.bind fun _ => (uses_landing slug path overwrite hpath).finallyDo
    hrelease).except fun e => hunlink.bind fun _ => uses_raise _).bind fun _ => uses_ret _) w2

/-! ### The creation of a site -/

theorem stays_hold {slug : Str} {p : Code A} (hp : ∀ w, Stays cfg w (run (exec i) p w).2) (w : World) :
    Stays cfg w (run (exec i) (hold slug p) w).2 := by
  rw [run_hold]
  have h := hp (taken w i slug)
  exact ⟨h.paths, h.sites⟩

/-- What works on the disk alone leaves the database. -/
theorem run_db_of_uses {p : Code A} {o : Except Exn A} (h : run (exec i) p w = (o, w'))
    (hp : Uses (fun c => ∃ d, c = Calls.Call.disk d) p) : w'.db = w.db := by
  have hcall : ∀ c, (∃ d, c = Calls.Call.disk d) → ∀ w1 : World, w1.db = w.db →
      (exec i c w1).2.db = w.db := by
    rintro _ ⟨d, rfl⟩ w1 hw1
    exact hw1
  have hkept := run_preserves (I := fun w' : World => w'.db = w.db) hcall hp (w := w) rfl
  rwa [h] at hkept

/-- **The creation of a site lets nothing disappear**: it removes the folder it made only where its row
is refused, and alone its row is not. -/
theorem stays_create_site (slug name : Str) (created_at : Instant) (w : World) : Stays cfg w
    (run (exec i) (Storage.create_site cfg rt slug name created_at) w).2 := by
  refine stays_hold (fun w => ?_) w
  refine stays_bind (run_stays (uses_query (q := .site_by_slug slug) (P := adds cfg) trivial) w)
    fun existing w1 hrun => ?_
  rw [run_site_by_slug] at hrun
  obtain ⟨hexisting, rfl⟩ := Prod.mk.inj hrun
  obtain rfl := Except.ok.inj hexisting
  split_ifs with hrow
  · exact Stays.refl w
  rw [not_not, Option.map_eq_none_iff] at hrow
  refine stays_bind (run_stays ((uses_mkdirParents _ _ fun _ _ => ⟨trivial, trivial⟩).except
    fun e => ?_) w) fun _ w2 hmade => ?_
  · rcases e with _ | e | _ | _ | _ | _ | _ | _ <;> try trivial
    rcases e with _ | _ | _ | _ | _ | _ | _ | _ | _ <;> trivial
  have hdb : w2.db = w.db := run_db_of_uses hmade
    ((uses_mkdirParents _ _ fun _ _ => ⟨⟨_, rfl⟩, ⟨_, rfl⟩⟩).except fun e => by
      rcases e with _ | e | _ | _ | _ | _ | _ | _ <;> try trivial
      rcases e with _ | _ | _ | _ | _ | _ | _ | _ | _ <;> trivial)
  have hinsert : (run (exec i) (query (.insert_site ⟨slug, name, created_at⟩)) w2).1 = .ok () := by
    rw [run_query, Db.exec, insert_site]
    dsimp only
    rw [hdb, hrow]
  have hkept : Stays cfg w2 (run (exec i) (query (.insert_site ⟨slug, name, created_at⟩)) w2).2 :=
    run_stays (uses_query (P := adds cfg) (show adds cfg (.db (.insert_site _)) from trivial)) w2
  rcases hrun : run (exec i) (query (.insert_site ⟨slug, name, created_at⟩)) w2 with ⟨o, w3⟩
  rw [hrun] at hinsert hkept
  obtain rfl : o = .ok () := hinsert
  rw [run_bind_of_ok _ (run_except_of_ok _ hrun)]
  exact hkept

/-! ### The routes -/

/-- The requests that an agent may make with the scope that reads and writes. -/
def ofWriters : Routes.Request → Bool
  | .create_site _ | .upload_file .. | .token_self => true
  | request => reads request

theorem stays_serve (actor : Actor) {request : Routes.Request} (h : ofWriters request = true)
    (w : World) : Stays cfg w (run (exec i) (Routes.serve cfg rt hasher actor request) w).2 := by
  by_cases hr : reads request = true
  · exact (run_same (uses_serve_reads actor hr) w).stays
  cases request <;> try first | exact absurd h hr | exact (Bool.false_ne_true h).elim
  case create_site name =>
    change Stays cfg w (run (exec i) (Routes.create_site cfg rt name) w).2
    rw [Routes.create_site]
    split
    · exact Stays.refl w
    · exact stays_bind (run_stays (uses_now (P := adds cfg) trivial) w) fun created_at w1 _ =>
        stays_bind (stays_create_site _ _ _ w1) fun site w2 _ =>
          (run_same ((uses_public_site site).bind fun _ => uses_ret _) w2).stays
  case upload_file slug path body declared_length overwrite =>
    exact stays_bind (run_same (uses_site slug) w).stays fun site w1 _ =>
      stays_bind (run_same (uses_valid_path path false) w1).stays fun target w2 _ =>
        stays_bind (stays_write_file _ _ _ _ _ w2) fun result w3 _ => Stays.refl w3
  case token_self => exact Stays.refl w

/-! ### A refusal -/

/-- **Nothing below `sites/` changes**, no site and no account. -/
structure Untouched (cfg : Calls.Config) (w w' : World) : Prop where
  paths : ∀ q, cfg.sites_dir <+: q → w'.disk.get q = w.disk.get q
  rows : ∀ slug : Str, w'.db.sites[slug]?.map (_site slug) = w.db.sites[slug]?.map (_site slug)
  users : w'.db.users = w.db.users

theorem Untouched.refl (w : World) : Untouched cfg w w := ⟨fun _ _ => rfl, fun _ => rfl, rfl⟩

theorem Untouched.trans (h : Untouched cfg w w') (h' : Untouched cfg w' w'') : Untouched cfg w w'' :=
  ⟨fun q hq => (h'.paths q hq).trans (h.paths q hq), fun slug => (h'.rows slug).trans (h.rows slug),
    h'.users.trans h.users⟩

/-- The calls that leave the sites and the accounts untouched: they look, or write in the staging
folder. -/
def spares (cfg : Calls.Config) : Calls.Call → Prop
  | .disk c => ∀ p ∈ writes c, cfg.staging_dir <+: p
  | .db q => onIndex q = true ∨ forBearer q = true
  | _ => True

theorem call_untouched {c : Calls.Call} (hc : spares cfg c) (w : World) :
    Untouched cfg w (exec i c w).2 := by
  cases c with
  | disk c =>
    exact ⟨fun q hq => exec_get_of_not_writes _ fun p hp => staged_apart (hc p hp) hq, fun _ => rfl, rfl⟩
  | db q =>
    refine ⟨fun _ _ => rfl, ?_, ?_⟩
    · rcases hc with hc | hc
      · exact exec_index_rows hc w.db
      · intro slug
        cases q <;> first | rfl | cases hc
    · rcases hc with hc | hc
      · exact (exec_users_tokens (by cases q <;> first | rfl | cases hc) w.db).1
      · cases q <;> first | rfl | cases hc
  | _ => exact ⟨fun _ _ => rfl, fun _ => rfl, rfl⟩

theorem run_untouched {p : Code A} (hp : Uses (spares cfg) p) (w : World) :
    Untouched cfg w (run (exec i) p w).2 :=
  run_preserves (I := Untouched cfg w) (fun _ hc w1 h => h.trans (call_untouched hc w1)) hp
    (Untouched.refl w)

theorem spares_of_looks {c : Calls.Call} (h : looks c) : spares cfg c := by
  cases c with
  | disk c =>
    intro p hp
    rw [show writes c = [] from h] at hp
    cases hp
  | db q => exact Or.inl h
  | _ => trivial

theorem spares_of_bearer {c : Calls.Call} (h : only forBearer c) : spares cfg c := by
  cases c with
  | disk c => exact h.elim
  | db q => exact Or.inr h
  | _ => trivial

/-- **Where a sequence raises**: in its first part, or after it. -/
theorem run_bind_error_inv {p : Code A} {f : A → Code B} {e : Exn}
    (h : run (exec i) (p >>= f) w = (.error e, w')) : run (exec i) p w = (.error e, w') ∨
      ∃ a w1, run (exec i) p w = (.ok a, w1) ∧ run (exec i) (f a) w1 = (.error e, w') := by
  rcases hp : run (exec i) p w with ⟨e' | a, w1⟩
  · rw [run_bind_of_error _ hp] at h
    obtain ⟨he, rfl⟩ := Prod.mk.inj h
    obtain rfl := Except.error.inj he
    exact Or.inl hp
  · rw [run_bind_of_ok _ hp] at h
    exact Or.inr ⟨a, w1, hp, h⟩

/-- An exception that is no refusal of the caller. -/
def Admitted : Exn → Prop
  | .api a => a.status ∉ [401, 403]
  | _ => True

theorem admits_admitted : Admits Admitted [400, 404, 409, 413] where
  api a ha := by
    rw [Admitted]
    intro h
    simp only [List.mem_cons, List.not_mem_nil, or_false] at ha h
    omega
  other e h := by
    cases e with
    | api a => exact absurd rfl (h a)
    | _ => trivial

/-- **A program that leaves everything untouched where it refuses the caller.** -/
def Refuses (cfg : Calls.Config) (i : ℕ) (p : Code A) : Prop :=
  ∀ w a w', run (exec i) p w = (.error (.api a), w') → a.status ∈ [401, 403] → Untouched cfg w w'

theorem refuses_of_throws {p : Code A} (h : Throws alone i Admitted p) : Refuses cfg i p :=
  fun _ _ _ hrun ha => absurd ha (Throws.of_run h hrun)

theorem refuses_of_uses {p : Code A} (h : Uses (spares cfg) p) : Refuses cfg i p := fun w a w' hrun _ => by
  have := run_untouched (i := i) h w
  rwa [hrun] at this

/-- A sequence whose first part leaves everything untouched. -/
theorem Refuses.bind {p : Code A} {f : A → Code B} (hp : Refuses cfg i p)
    (hf : ∀ w b w1, run (exec i) p w = (.ok b, w1) → Untouched cfg w w1 ∧ Refuses cfg i (f b) ∨
      Throws alone i Admitted (f b)) : Refuses cfg i (p >>= f) := by
  intro w a w' hrun ha
  rcases run_bind_error_inv hrun with h1 | ⟨b, w1, h1, h2⟩
  · exact hp w a w' h1 ha
  · rcases hf w b w1 h1 with ⟨hw, hr⟩ | ht
    · exact hw.trans (hr w1 a w' h2 ha)
    · exact absurd ha (Throws.of_run ht h2)

/-- A sequence whose first part spares the sites and the accounts. -/
theorem Refuses.spared {p : Code A} {f : A → Code B} (hp : Uses (spares cfg) p)
    (hf : ∀ b, Refuses cfg i (f b)) : Refuses cfg i (p >>= f) :=
  (refuses_of_uses hp).bind fun w b w1 h => by
    have hw := run_untouched (i := i) hp w
    rw [h] at hw
    exact Or.inl ⟨hw, hf b⟩

theorem refuses_looks {p : Code A} {f : A → Code B} (hp : Uses looks p)
    (hf : ∀ b, Refuses cfg i (f b)) : Refuses cfg i (p >>= f) :=
  Refuses.spared (hp.mono fun _ => spares_of_looks) hf

/-! ### The refusals of the accounts -/

section
variable {X : Exn → Prop} {l : List ℕ}

theorem throws_admitted_query (q : Query) : Throws alone i Admitted (query q) :=
  throws_query executes_alone admits_admitted q

theorem throws_salt : Throws alone i Admitted salt :=
  throws_invoke fun _ _ _ ha => by cases (Prod.mk.inj (executes_alone _ _ _ _ _ ha)).1

theorem throws_secret : Throws alone i Admitted new_secret :=
  (throws_invoke fun _ _ _ ha => by cases (Prod.mk.inj (executes_alone _ _ _ _ _ ha)).1).bind fun _ =>
    throws_ret

theorem throws_new_id (kind : Str) : Throws alone i Admitted (new_id kind) :=
  (throws_token_hex executes_alone 6).bind fun _ => throws_ret

theorem throws_secret_digest (secret : Str) : Throws alone i Admitted (secret_digest rt secret) := by
  rw [secret_digest]
  rcases utf8 secret with _ | bytes
  · exact throws_raise trivial
  · exact throws_ret

theorem throws_slide (now : Instant) : Throws alone i Admitted (slide cfg now) := by
  rw [slide]
  rcases now.add (days cfg.session_days) with _ | e
  · exact throws_raise trivial
  · exact throws_ret

theorem throws_verify (user : UserRow) (password : Str) :
    Throws alone i Admitted (verify_password hasher user password) := by
  rw [verify_password]
  split_ifs
  · exact throws_ret
  · exact throws_salt.bind fun _ => (throws_admitted_query _).bind fun _ => throws_ret
  · exact throws_ret

theorem throws_login (username password : Str) :
    Throws alone i Admitted (Accounts.login cfg rt hasher username password) := by
  refine (throws_admitted_query _).bind fun user => ?_
  rcases user with _ | user
  · exact throws_ret
  refine (throws_verify user password).bind fun verified => ?_
  split_ifs
  · exact throws_ret
  · exact (throws_now executes_alone).bind fun now => (throws_new_id _).bind fun id =>
      (throws_slide now).bind fun _ => throws_secret.bind fun secret =>
        (throws_secret_digest secret).bind fun _ => (throws_admitted_query _).bind fun _ => throws_ret

/-- A password that was not verified changed nothing. -/
theorem run_verify_false {user : UserRow} {password : Str}
    (h : run (exec i) (verify_password hasher user password) w = (.ok false, w')) : w' = w := by
  rw [verify_password] at h
  split_ifs at h
  · exact (Prod.mk.inj h).2.symm
  · obtain ⟨salt, w1, -, h1⟩ := run_bind_inv _ h
    obtain ⟨_, w2, -, h2⟩ := run_bind_inv _ h1
    cases Except.ok.inj (Prod.mk.inj h2).1
  · cases Except.ok.inj (Prod.mk.inj h).1

/-- A login that was refused changed nothing. -/
theorem run_login_none {username password : Str}
    (h : run (exec i) (Accounts.login cfg rt hasher username password) w = (.ok none, w')) : w' = w := by
  obtain ⟨user, w1, hq, h1⟩ := run_bind_inv _ h
  obtain rfl : w1 = w := run_query_world hq
  rcases user with _ | user
  · exact (Prod.mk.inj h1).2.symm
  obtain ⟨verified, w2, hv, h2⟩ := run_bind_inv _ h1
  cases verified with
  | false =>
    obtain rfl := run_verify_false hv
    exact (Prod.mk.inj h2).2.symm
  | true =>
    rw [Bool.not_true, if_neg Bool.false_ne_true] at h2
    obtain ⟨now, w3, -, h3⟩ := run_bind_inv _ h2
    obtain ⟨id, w4, -, h4⟩ := run_bind_inv _ h3
    obtain ⟨expires_at, w5, -, h5⟩ := run_bind_inv _ h4
    obtain ⟨secret, w6, -, h6⟩ := run_bind_inv _ h5
    obtain ⟨digest, w7, -, h7⟩ := run_bind_inv _ h6
    obtain ⟨_, w8, -, h8⟩ := run_bind_inv _ h7
    cases Except.ok.inj (Prod.mk.inj h8).1

theorem refuses_login (body : LoginRequest) : Refuses cfg i (Routes.login cfg rt hasher body) := by
  refine (refuses_of_throws (throws_login _ _)).bind fun w result w1 h => ?_
  rcases result with _ | ⟨user, session, secret⟩
  · rw [run_login_none h]
    exact Or.inl ⟨Untouched.refl w, refuses_of_uses (uses_raise _)⟩
  · refine Or.inr ?_
    dsimp only
    rcases session.expires_at with _ | e
    · exact throws_raise trivial
    · exact throws_ret

theorem refuses_change_password (actor : Actor) (body : ChangePasswordRequest) :
    Refuses cfg i (Routes.change_password hasher actor body) := by
  refine (refuses_of_throws (throws_verify _ _)).bind fun w verified w1 h => ?_
  cases verified with
  | false =>
    rw [run_verify_false h]
    exact Or.inl ⟨Untouched.refl w, refuses_of_uses (uses_raise _)⟩
  | true =>
    refine Or.inr ?_
    rw [Bool.not_true, if_neg Bool.false_ne_true]
    have hchange : Throws alone i Admitted (Accounts.change_password hasher actor.user body.new) :=
      throws_salt.bind fun _ => throws_admitted_query _
    have hothers : Throws alone i Admitted (revoke_other_sessions actor.user actor.token) :=
      (throws_now executes_alone).bind fun _ => throws_admitted_query _
    exact hchange.bind fun _ => hothers.bind fun _ => throws_ret

theorem throws_create_user (body : CreateUserRequest) :
    Throws alone i Admitted (Routes.create_user rt hasher body) := by
  have hcreate : Throws alone i Admitted (Accounts.create_user hasher body.username body.password) :=
    (throws_new_id _).bind fun _ => throws_salt.bind fun _ => (throws_now executes_alone).bind fun _ =>
      (throws_admitted_query _).bind fun _ => throws_ret
  refine (hcreate.except fun e he => ?_).bind fun _ => throws_ret
  rcases e with _ | _ | _ | _ | _ | _ | _ | _ <;>
    first
    | exact throws_raise he
    | exact throws_refuse admits_admitted (by decide : 409 ∈ [400, 404, 409, 413]) _ _

theorem throws_revoke_token (token_id : Str) :
    Throws alone i Admitted (Routes.revoke_token rt token_id) := by
  have hrevoke : Throws alone i Admitted (revoke_agent_token token_id) := by
    refine (throws_admitted_query _).bind fun token => ?_
    rcases token with _ | token
    · exact throws_ret
    dsimp only
    split_ifs
    · exact throws_ret
    · exact (throws_now executes_alone).bind fun _ => (throws_admitted_query _).bind fun _ => throws_ret
  refine hrevoke.bind fun revoked => ?_
  split_ifs
  · exact throws_refuse admits_admitted (by decide : 404 ∈ [400, 404, 409, 413]) _ _
  · exact throws_ret

theorem throws_delete_user (user_id : Str) :
    Throws alone i Admitted (Routes.delete_user rt user_id) := by
  refine (throws_admitted_query _).bind fun user => ?_
  split_ifs
  · exact throws_refuse admits_admitted (by decide : 404 ∈ [400, 404, 409, 413]) _ _
  refine (throws_admitted_query _).bind fun count => ?_
  split_ifs
  · exact throws_refuse admits_admitted (by decide : 409 ∈ [400, 404, 409, 413]) _ _
  · exact (throws_admitted_query _).bind fun _ => throws_ret

theorem throws_create_token (actor : Actor) (body : CreateTokenRequest) :
    Throws alone i Admitted (Routes.create_token rt actor body) :=
  Throws.bind ((throws_new_id _).bind fun _ => (throws_now executes_alone).bind fun _ =>
    throws_secret.bind fun secret => (throws_secret_digest secret).bind fun _ =>
      (throws_admitted_query _).bind fun _ => throws_ret) fun _ => throws_ret

end

/-- **An upload that refuses the caller** had not begun to land. -/
theorem refuses_upload (slug path : Str) (body : Incoming) (declared_length : Option ℤ)
    (overwrite : Bool) :
    Refuses cfg i (Routes.upload_file cfg rt slug path body declared_length overwrite) := by
  refine refuses_looks (uses_site slug) fun site => refuses_looks (uses_valid_path path false) fun target =>
    Refuses.bind ?_ fun _ _ _ _ => Or.inr throws_ret
  refine refuses_looks (uses_resolve _ _) fun _ => ?_
  split_ifs
  · exact refuses_of_uses (uses_raise _)
  have hstage : Uses (spares cfg) (Storage._stage cfg rt body) :=
    uses_stage (fun c hex hc p hp => by rw [hc p hp]; exact List.prefix_append _ _) (fun _ => trivial)
      (fun _ => trivial) body
  refine Refuses.spared hstage fun staged => refuses_of_throws ?_
  exact Throws.bind (throws_landed executes_alone admits_admitted
    (by decide : 400 ∈ [400, 404, 409, 413]) (by decide) (by decide) site.slug target overwrite staged)
    fun _ => throws_ret

/-- **A route that refuses its caller** changed nothing. -/
theorem refuses_serve (actor : Actor) (request : Routes.Request) :
    Refuses cfg i (Routes.serve cfg rt hasher actor request) := by
  by_cases hs : aboutSites request = true
  · by_cases hup : ∃ slug path body declared overwrite,
        request = .upload_file slug path body declared overwrite
    · obtain ⟨slug, path, body, declared, overwrite, rfl⟩ := hup
      exact refuses_upload slug path body declared overwrite
    · exact refuses_of_throws (throws_serve_sites executes_alone admits_admitted (by decide) (by decide)
        (by decide) (by decide) actor hs fun slug path body declared overwrite h =>
          absurd ⟨slug, path, body, declared, overwrite, h⟩ hup)
  cases request <;> try exact absurd rfl hs
  case login body => exact refuses_login body
  case logout =>
    have hlogout : Throws alone i Admitted (Accounts.logout actor.token) :=
      (throws_now executes_alone).bind fun _ => throws_admitted_query _
    exact refuses_of_throws (hlogout.bind fun _ => throws_ret)
  case list_tokens =>
    have hlist : Throws alone i Admitted list_agent_tokens :=
      (throws_admitted_query _).bind fun _ => throws_ret
    exact refuses_of_throws (hlist.bind fun _ => throws_ret)
  case create_token body => exact refuses_of_throws (throws_create_token actor body)
  case token_self => exact refuses_of_uses (uses_ret _)
  case revoke_token token_id => exact refuses_of_throws (throws_revoke_token token_id)
  case list_users => exact refuses_of_throws ((throws_admitted_query _).bind fun _ => throws_ret)
  case create_user body => exact refuses_of_throws (throws_create_user body)
  case change_password body => exact refuses_change_password actor body
  case delete_user user_id => exact refuses_of_throws (throws_delete_user user_id)

theorem returns_login (body : LoginRequest) :
    Returns (fun response => response.status ∉ [401, 403]) (Routes.login cfg rt hasher body) := by
  refine Returns.bind fun result => ?_
  rcases result with _ | ⟨user, session, secret⟩
  · trivial
  · dsimp only
    rcases session.expires_at with _ | e
    · trivial
    · exact (by decide : 200 ∉ [401, 403])

/-- A route's own answers are none that refuse. -/
theorem returns_serve (actor : Actor) (request : Routes.Request) :
    Returns (fun response => response.status ∉ [401, 403])
      (Routes.serve cfg rt hasher actor request) := by
  have hok : ∀ body : Body, Returns (S := sig) (E := Exn)
      (fun response : Response => response.status ∉ [401, 403]) (.ret ⟨200, body⟩) :=
    fun _ => (by decide : 200 ∉ [401, 403])
  have hempty : Returns (S := sig) (E := Exn)
      (fun response : Response => response.status ∉ [401, 403]) (.ret ⟨204, .empty⟩) :=
    (by decide : 204 ∉ [401, 403])
  have hmade : ∀ body : Body, Returns (S := sig) (E := Exn)
      (fun response : Response => response.status ∉ [401, 403]) (.ret ⟨201, body⟩) :=
    fun _ => (by decide : 201 ∉ [401, 403])
  cases request
  case login body => exact returns_login body
  case logout => exact Returns.bind fun _ => hempty
  case list_sites => exact Returns.bind fun _ => Returns.bind fun _ => hok _
  case create_site name =>
    change Returns _ (Routes.create_site cfg rt name)
    rw [Routes.create_site]
    split
    · trivial
    · exact Returns.bind fun _ => Returns.bind fun _ => Returns.bind fun _ => hmade _
  case get_site slug => exact Returns.bind fun _ => Returns.bind fun _ => hok _
  case delete_site slug confirm =>
    refine Returns.bind fun site => ?_
    split_ifs
    · trivial
    · exact Returns.bind fun _ => hempty
  case list_files slug path => exact Returns.bind fun _ => Returns.bind fun _ => Returns.bind fun _ => hok _
  case upload_file slug path body declared_length overwrite =>
    refine Returns.bind fun _ => Returns.bind fun _ => Returns.bind fun result => ?_
    rcases result.replaced with _ | _
    · exact hmade _
    · exact hok _
  case download_file slug path =>
    exact Returns.bind fun _ => Returns.bind fun _ => Returns.bind fun _ => Returns.bind fun _ => hok _
  case delete_file slug path =>
    exact Returns.bind fun _ => Returns.bind fun _ => Returns.bind fun _ => hempty
  case delete_folder slug path recursive =>
    exact Returns.bind fun _ => Returns.bind fun _ => Returns.bind fun _ => hempty
  case list_tokens => exact Returns.bind fun _ => hok _
  case create_token body => exact Returns.bind fun _ => hmade _
  case token_self => exact hok _
  case revoke_token token_id =>
    refine Returns.bind fun revoked => ?_
    split_ifs
    · trivial
    · exact hempty
  case list_users => exact Returns.bind fun _ => hok _
  case create_user body => exact Returns.bind fun _ => hmade _
  case change_password body =>
    refine Returns.bind fun verified => ?_
    split_ifs
    · trivial
    · exact Returns.bind fun _ => Returns.bind fun _ => hempty
  case delete_user user_id =>
    refine Returns.bind fun user => ?_
    split_ifs
    · trivial
    refine Returns.bind fun count => ?_
    split_ifs
    · trivial
    · exact Returns.bind fun _ => hempty

/-- The errors of the API alone are answered by 401 or 403. -/
theorem errorResponse_refuses {e : Exn} (h : (Routes.errorResponse e).status ∈ [401, 403]) :
    ∃ a, e = .api a ∧ a.status ∈ [401, 403] := by
  rcases e with a | e | _ | _ | _ | _ | _ | _ <;> try exact absurd h (by decide : 500 ∉ [401, 403])
  · exact ⟨a, rfl, h⟩
  · rcases e with _ | _ | _ | _ | _ | _ | _ | _ | _ <;>
      first
        | exact absurd h (by decide : 500 ∉ [401, 403])
        | exact absurd h (by decide : 507 ∉ [401, 403])

/-- **A request that was refused changed nothing.** -/
theorem refused_untouched {header : Option Str} {request : Routes.Request} {response : Response}
    (h : run (exec i) (Routes.handle cfg rt hasher header request) w = (.ok response, w'))
    (hstatus : response.status ∈ [401, 403]) : Untouched cfg w w' := by
  have hroute : Refuses cfg i (Routes.route cfg rt hasher header request) ∧
      Returns (fun response => response.status ∉ [401, 403])
        (Routes.route cfg rt hasher header request) := by
    by_cases hlogin : ∃ body, request = .login body
    · obtain ⟨body, rfl⟩ := hlogin
      exact ⟨refuses_login body, returns_login body⟩
    · rw [route_of_not_login fun body hb => hlogin ⟨body, hb⟩]
      exact ⟨Refuses.spared ((uses_dependency _ _).mono fun _ => spares_of_bearer) fun actor =>
        refuses_serve actor request, Returns.bind fun actor => returns_serve actor request⟩
  rw [Routes.handle, Routes.answering] at h
  rcases hr : run (exec i) (Routes.route cfg rt hasher header request) w with ⟨e | response', w1⟩
  · rw [run_except_of_error _ hr] at h
    split_ifs at h
    · cases (Prod.mk.inj h).1
    · obtain ⟨hresp, rfl⟩ := Prod.mk.inj h
      obtain rfl := Except.ok.inj hresp
      obtain ⟨a, rfl, ha⟩ := errorResponse_refuses hstatus
      exact hroute.1 w a w1 hr ha
  · rw [run_except_of_ok _ hr] at h
    obtain ⟨hresp, rfl⟩ := Prod.mk.inj h
    obtain rfl := Except.ok.inj hresp
    exact absurd hstatus (hroute.2.run hr)

/-! ### The scope of an agent -/

/-- **A live token of an agent**, whose secret a header carries. -/
structure LiveAgent (rt : Runtime) (d : Database) (now : Instant) (header : Option Str) (id : Str)
    (r : TokenRec) : Prop where
  row : d.tokens[id]? = some r
  secret : carried rt header = some r.secret_sha256
  type : r.type = .agent
  unrevoked : r.revoked_at = none
  current : expired r now = false

/-- **What a request of an agent leaves** as it was, by the scope of its token. -/
structure WithinScope (cfg : Calls.Config) (now : Instant) (id : Str) (r : TokenRec) (w w' : World) :
    Prop where
  users : w'.db.users = w.db.users
  others : ∀ id', id' ≠ id → w'.db.tokens[id']? = w.db.tokens[id']?
  own : w'.db.tokens[id]? = some { r with last_used_at := some (.ofInstant now) }
  stays : r.scope ≠ .remove_destructive → Stays cfg w w'
  same : r.scope = .read_only → Same w w'

/-- What the bearer of an agent's token leaves of the database. -/
theorem honoured_agent (cfg : Calls.Config) {now : Instant} {header : Option Str} {id : Str} {r : TokenRec}
    (h : LiveAgent rt w.db now header id r) : ∃ u, honoured cfg id r now w.db =
      (.ok (some (actorOf id r u now none)), (touch_token id now none w.db).2) := by
  obtain ⟨u, -, hu⟩ := honoured_live cfg h.row h.unrevoked h.current
  rw [h.type] at hu
  exact ⟨u, hu⟩

/-- **The dependency of a route** stays within any scope, and lets an agent in only where its rule
allows. -/
theorem admitted_within (cfg : Calls.Config) {a : Asked} {id : Str} {r : TokenRec}
    (h : LiveAgent rt w.db (a.time w) a.header id r) :
    WithinScope cfg (a.time w) id r w (a.admitted cfg rt w).2 ∧
      ∀ actor, (a.admitted cfg rt w).1 = .ok actor →
        access_allows (route_access a.request.route) (some (.agent, r.scope)) = true := by
  obtain ⟨u, hu⟩ := honoured_agent cfg h
  have hrun := @run_resolve_row cfg rt a.tid w _ _ _ h.secret h.row
  have hsame : SameSites w (a.admitted cfg rt w).2 := run_sameSites (uses_requires ..) w
  obtain ⟨hleft, hlet⟩ := @admitted_cases cfg rt w a
  have hresolved : a.resolved cfg rt w = (.ok (some (actorOf id r u (a.time w) none)),
      { drew w a.tid with db := (touch_token id (a.time w) none w.db).2 }) := by
    rw [Asked.resolved, hrun, show (w.oracle a.tid).now (w.drawn a.tid) = a.time w from rfl, hu]
  refine ⟨⟨?_, fun id' hne => ?_, ?_, fun _ => (same_of_sites hsame).stays,
    fun _ => same_of_sites hsame⟩, fun actor hok => ?_⟩
  · rw [hleft, hresolved]
    rfl
  · rw [hleft, hresolved]
    have hkept : (honoured cfg id r (a.time w) w.db).2.tokens[id']? = w.db.tokens[id']? :=
      honoured_other hne
    rwa [hu] at hkept
  · rw [hleft, hresolved]
    exact touch_token_agent h.row
  · obtain ⟨hactor, hallows⟩ := hlet actor hok
    rw [hresolved] at hactor
    obtain rfl := Option.some.inj (Except.ok.inj hactor)
    rw [show (actorOf id r u (a.time w) none).token.type = r.type from rfl, h.type] at hallows
    exact hallows

/-- The requests an agent may make. -/
theorem agents_requests {request : Routes.Request} {scope : Scope} (hl : ∀ body, request ≠ .login body)
    (h : access_allows (route_access request.route) (some (.agent, scope)) = true) :
    (aboutSites request = true ∨ request = .token_self) ∧
      (scope ≠ .remove_destructive → ofWriters request = true) ∧
      (scope = .read_only → reads request = true ∨ request = .token_self) := by
  cases request <;> cases scope <;>
    first
      | exact absurd rfl (hl _)
      | exact (Bool.false_ne_true h).elim
      | exact ⟨Or.inl rfl, fun _ => rfl, fun _ => Or.inl rfl⟩
      | exact ⟨Or.inr rfl, fun _ => rfl, fun _ => Or.inr rfl⟩
      | exact ⟨Or.inl rfl, fun _ => rfl, by rintro ⟨⟩⟩
      | exact ⟨Or.inl rfl, fun hs => absurd rfl hs, by rintro ⟨⟩⟩

/-- **What a route does for an agent** stays within its scope. -/
theorem serve_within {now : Instant} {id : Str} {r : TokenRec} {actor : Actor}
    {request : Routes.Request} (hl : ∀ body, request ≠ .login body)
    (h : access_allows (route_access request.route) (some (.agent, r.scope)) = true)
    (hw : WithinScope cfg now id r w w') :
    WithinScope cfg now id r w (run (exec i) (Routes.serve cfg rt hasher actor request) w').2 := by
  obtain ⟨hsites, hwrites, hreads⟩ := agents_requests hl h
  have hacc : SameAccounts w' (run (exec i) (Routes.serve cfg rt hasher actor request) w').2 := by
    rcases hsites with hs | rfl
    · exact run_sameAccounts (uses_serve_sites actor hs) w'
    · exact ⟨rfl, rfl⟩
  refine ⟨hacc.users.trans hw.users, fun id' hne => ?_, ?_, fun hs => ?_, fun hs => ?_⟩
  · rw [hacc.tokens, hw.others id' hne]
  · rw [hacc.tokens, hw.own]
  · exact (hw.stays hs).trans (stays_serve actor (hwrites hs) w')
  · rcases hreads hs with hr | rfl
    · exact (hw.same hs).trans (run_same (uses_serve_reads actor hr) w')
    · exact hw.same hs

/-- A reader that asks for a token of its own. -/
def wish : Asked := ⟨0, some (lit "Bearer pb_s"), .create_token ⟨lit "more", .remove_destructive⟩⟩

end PaperBoxing.Backend.Scoped
