import PaperBoxing.Agreement.Interleaved
import PaperBoxing.Agreement.Refinement
import PaperBoxing.Backend.FailedUpload

/-! # Requests at once and the fake

Any number of requests, interleaved call by call, do to every site what the fake does when it is asked
the same requests one after another, in the order in which they took their locks: a site whose lock is
free has the fake's folders, files and name, and its index is that of its files. The listing of a folder
is left out: it repairs the index while others write to it.

* `along_removeFile`, `along_removeFolder`, `along_createSection`, `along_landFile`, `along_parkSite`: the
  critical sections keep to their site and to one name in staging;
* `safe_write_file`, `safe_delete_site`: the routes with work before or after the section;
* `safe_handle`: any request but a listing;
* `requests_are_serial`: the whole. -/

namespace PaperBoxing.Agreement.Concurrent

open PaperBoxing.Lib PaperBoxing.Lib.Action PaperBoxing.Lib.Program PaperBoxing.Lib.Threads
open PaperBoxing.Lib.Text PaperBoxing.Lib.Tables PaperBoxing.Lib.Trees PaperBoxing.Lib.Disk
open PaperBoxing.Lib.Locality (LooksAt)
open PaperBoxing.Common PaperBoxing.Common.Schema PaperBoxing.Common.Naming
open PaperBoxing.Common.FakeBackend (FakeState Draw)
open PaperBoxing.Backend PaperBoxing.Backend.Db PaperBoxing.Backend.Calls PaperBoxing.Backend.Storage
open PaperBoxing.Backend.Alone PaperBoxing.Backend.Frames PaperBoxing.Backend.Whole
open PaperBoxing.Backend.FailedUpload PaperBoxing.Agreement.Relation PaperBoxing.Agreement.Sections
open PaperBoxing.Agreement.Interleaved

variable {P : Service} {hasher : Hasher} {A : Type} {i : ℕ} {S : Str → Prop} {w : World}
  {h : Hist sig Exn World} {slug path name : Str}

/-! ### The critical sections keep to their own -/

/-- A path at or below what is a thread's own. -/
def Within (P : Service) (i : ℕ) (S : Str → Prop) (name : Str) (q : Path Str) : Prop :=
  (∃ slug, S slug ∧ site_dir P.cfg slug <+: q) ∨ P.Mine i name ∧ P.cfg.staging_dir ++ [name] <+: q

theorem Within.around {q : Path Str} (hq : Within P i S name q) : Around P.cfg S name q := by
  rcases hq with ⟨slug, hs, hq⟩ | ⟨-, hq⟩
  · exact Or.inl ⟨slug, hs, Or.inr hq⟩
  · exact Or.inr (Or.inr hq)

theorem Within.below {p q : Path Str} (hp : Within P i S name p) (hpq : p <+: q) : Within P i S name q := by
  rcases hp with ⟨slug, hs, hp⟩ | ⟨hm, hp⟩
  · exact Or.inl ⟨slug, hs, hp.trans hpq⟩
  · exact Or.inr ⟨hm, hp.trans hpq⟩

theorem Within.owned {q : Path Str} (hq : Within P i S name q) :
    P.Own i q ∨ ∃ slug, S slug ∧ site_dir P.cfg slug <+: q := by
  rcases hq with h | ⟨hm, hq⟩
  · exact Or.inr h
  · exact Or.inl ⟨name, hm, hq⟩

theorem within_site (q : Path Str) : Within P i (· = slug) name (site_dir P.cfg slug ++ q) :=
  Or.inl ⟨slug, rfl, List.prefix_append _ _⟩

theorem within_root : Within P i (· = slug) name (site_dir P.cfg slug) :=
  Or.inl ⟨slug, rfl, List.prefix_rfl⟩

theorem around_site {q : Path Str} (hq : site_dir P.cfg slug <+: q) : Around P.cfg (· = slug) name q :=
  Or.inl ⟨slug, rfl, Or.inr hq⟩

theorem close_look {c : Disk.Call Str} (hw : writes c = []) (hl : LooksAt (Around P.cfg S name) c) :
    P.Close i S name (.disk c) := ⟨hl, fair_of_quiet hw⟩

theorem close_lstat {q : Path Str} (hq : Within P i S name q) : P.Close i S name (.disk (.lstat q)) :=
  close_look rfl hq.around

theorem close_below {q : Path Str} (hq : site_dir P.cfg slug <+: q) :
    P.Close i (· = slug) name (.disk (.lstat q)) := close_lstat (Or.inl ⟨slug, rfl, hq⟩)

/-- The removal of an entry. -/
theorem close_remove {q : Path Str} (hq : Within P i S name q) :
    P.Close i S name (.disk (.rmdir q)) ∧ P.Close i S name (.disk (.unlink q)) := by
  have hown : ∀ p ∈ [q], P.Own i p ∨ ∃ slug, S slug ∧ site_dir P.cfg slug <+: p := by
    rintro p hp
    obtain rfl := List.mem_singleton.1 hp
    exact hq.owned
  exact ⟨⟨fun p hp => (hq.below hp).around, hown⟩, ⟨hq.around, hown⟩⟩

theorem close_replace {src dst : Path Str} (hs : Within P i S name src) (hd : Within P i S name dst) :
    P.Close i S name (.disk (.replace src dst)) := by
  refine ⟨⟨fun q hq => (hs.below hq).around, fun q hq => (hd.below hq).around⟩, fun p hp => ?_⟩
  rcases List.mem_cons.1 hp with rfl | hp
  · exact hs.owned
  · obtain rfl := List.mem_singleton.1 hp
    exact hd.owned

/-- Making a folder on the way to a path of a site. -/
theorem close_mkdir {p q : Path Str} (hq : q <+: site_dir P.cfg slug ++ p) :
    P.Close i (· = slug) name (.disk (.mkdir q)) ∧ P.Close i (· = slug) name (.disk (.isDir q)) := by
  have haround : Around P.cfg (· = slug) name q :=
    Or.inl ⟨slug, rfl, List.prefix_or_prefix_of_prefix hq (List.prefix_append _ _)⟩
  refine ⟨⟨haround, ?_⟩, close_look rfl haround⟩
  rcases List.prefix_or_prefix_of_prefix hq (List.prefix_append _ _) with h | h
  · rcases List.prefix_concat_iff.1 h with rfl | h
    · exact Or.inr ⟨slug, rfl, List.prefix_rfl⟩
    · exact Or.inl h
  · exact Or.inr ⟨slug, rfl, h⟩

theorem close_row {q : Query} (hin : Inside P.cfg (· = slug) name (.db q)) (hrow : rowOf q = some slug) :
    P.Close i (· = slug) name (.db q) := ⟨hin, fun _ hs => Option.some.inj (hs.symm.trans hrow)⟩

theorem close_site_by_slug : P.Close i (· = slug) name (.db (.site_by_slug slug)) :=
  ⟨rfl, by rintro s ⟨⟩⟩

theorem close_resolve : Uses (P.Close i (· = slug) name) (resolve P.cfg P.rt slug path) :=
  uses_resolve_at slug path (fun _ hq _ => close_below hq) fun q =>
    close_look (c := .realpath q) rfl trivial

/-- A section that resolves its path first. -/
theorem along_resolve {f : Path Str → Code A}
    (hf : Along (S := sig) (Calls.exec i) (P.Close i (· = slug) name)
      (f (site_dir P.cfg slug ++ segments path)) w) :
    Along (S := sig) (Calls.exec i) (P.Close i (· = slug) name) (resolve P.cfg P.rt slug path >>= f) w := by
  refine (Along.of_uses close_resolve w).bind fun target w1 hrun => ?_
  rw [run_resolve] at hrun
  obtain ⟨hr, rfl⟩ := Prod.mk.inj hrun
  obtain rfl := resolved_ok hr
  exact hf

theorem along_removeFile (w : World) :
    Along (S := sig) (Calls.exec i) (P.Close i (· = slug) name) (removeFile P.cfg P.rt slug path) w := by
  refine along_resolve (Along.of_uses ?_ w)
  refine (uses_kind_at (close_lstat (within_site _))).bind fun kind => ?_
  rcases kind with _ | _ | _ | _
  · trivial
  · exact (uses_disk (close_remove (within_site _)).2).bind fun _ =>
      uses_query (close_row (q := .delete_file_row slug path) rfl rfl)
  · trivial
  · trivial

/-- **The removal of a tree** of the thread's own. -/
theorem along_rmtree {p : Path Str} (hp : Within P i S name p) (ignore_errors : Bool) (w : World) :
    Along (S := sig) (Calls.exec i) (P.Close i S name) (rmtree ignore_errors p) w := by
  have hwalk : P.Close i S name (.disk (.walk p)) :=
    close_look (c := .walk p) rfl fun q hq => (hp.below hq).around
  refine (Along.attempt (Along.of_uses (uses_disk hwalk) w)).bind fun r w1 hrun => ?_
  rw [run_attempt] at hrun
  obtain ⟨hr, -⟩ := Prod.mk.inj hrun
  rcases r with e | entries
  · rcases e with _ | _ | _ | _ | _ | _ | _ | _ <;> cases ignore_errors <;> trivial
  · rw [run_disk] at hr
    have hanswer : (machine fun _ _ _ _ _ => False).Answers i (.disk (.walk p)) w (.ok entries)
        (Calls.exec i (.disk (.walk p)) w).2 := ⟨rfl, Or.inl (Prod.ext (Except.ok.inj hr).symm rfl)⟩
    have hbelow := walk_below (answers_disk hanswer).1
    exact Along.of_uses (uses_removeAll _ _ fun e he => close_remove (hp.below (hbelow e he))) w1

theorem along_removeFolder (recursive : Bool) (w : World) :
    Along (S := sig) (Calls.exec i) (P.Close i (· = slug) name)
      (removeFolder P.cfg P.rt slug path recursive) w := by
  refine along_resolve ?_
  refine (Along.of_uses (uses_kind_at (close_lstat (within_site _))) w).bind fun kind w1 _ => ?_
  rcases kind with _ | _ | _ | _
  · trivial
  · trivial
  · refine (Along.of_uses (uses_disk (close_look (c := .scandir (site_dir P.cfg slug ++ segments path)) rfl
      fun _ hq => around_site ((List.prefix_append _ _).trans hq))) w1).bind fun entries w2 _ => ?_
    split_ifs
    · trivial
    · exact (along_rmtree (within_site _) false w2).bind fun _ w3 _ => Along.of_uses
        ((uses_query (close_row (q := .delete_files_under slug path) rfl rfl)).bind fun _ => uses_ret _) w3
  · trivial

theorem along_createSection {title : Str} {created_at : IsoTime.Instant} (w : World) :
    Along (S := sig) (Calls.exec i) (P.Close i (· = slug) name)
      (createSection P.cfg P.rt slug title created_at) w := by
  refine Along.of_uses ((uses_query close_site_by_slug).bind fun existing => ?_) w
  split_ifs
  · exact uses_raise _
  refine ((uses_mkdirParents false _ fun q hq => ?_).except fun e => ?_).bind fun _ =>
    (((uses_query (close_row (q := .insert_site ⟨slug, title, created_at⟩) rfl rfl)).except fun e => ?_).bind
      fun _ => uses_ret _)
  · rw [List.reverse_reverse] at hq
    exact close_mkdir (p := []) (by rwa [List.append_nil])
  · rcases e with _ | e | _ | _ | _ | _ | _ | _ <;> try trivial
    rcases e with _ | _ | _ | _ | _ | _ | _ | _ | _ <;> trivial
  · refine (uses_suppressOs (uses_disk (close_remove within_root).1)).bind fun _ => ?_
    rcases e with _ | _ | _ | _ | _ | _ | _ | _ <;> trivial

theorem along_landFile {overwrite : Bool} {staged : Staged} (hname : P.Mine i name)
    (hpath : staged.path = P.cfg.staging_dir ++ [name]) (w : World) :
    Along (S := sig) (Calls.exec i) (P.Close i (· = slug) name)
      (landFile P.cfg P.rt slug path overwrite staged) w := by
  refine (Along.of_uses (uses_query close_site_by_slug) w).bind fun site w1 _ => ?_
  split_ifs
  · trivial
  refine along_resolve (Along.of_uses ?_ w1)
  refine (uses_check_write_target_at _ _ _ _ (fun _ hq _ => close_below hq)
    (close_lstat (within_site _))).bind fun replaced =>
      (uses_mkdirParents true _ fun q hq => close_mkdir (p := segments path) ?_).bind fun _ =>
        (uses_disk (close_replace ?_ (within_site _))).bind fun _ =>
          (uses_disk (close_look (c := .mtime _) rfl (around_site (List.prefix_append _ _)))).bind
            fun mtime_ns =>
            (uses_query (close_row
              (q := .upsert_file ⟨slug, path, staged.bytes, mtime_ns, staged.sha256⟩) rfl rfl)).bind
              fun _ => uses_ret _
  · rw [List.reverse_reverse] at hq
    exact hq.trans (List.dropLast_prefix _)
  · rw [hpath]
    exact Or.inr ⟨hname, List.prefix_rfl⟩

/-- The name a site is parked under next. -/
def parkName (w : World) (i : ℕ) (slug : Str) : Str :=
  slug ++ lit ".deleting-" ++ (w.oracle i).token_hex 4 (w.drawn i)

theorem along_parkSite (hname : P.Mine i (parkName w i slug)) :
    Along (S := sig) (Calls.exec i) (P.Close i (· = slug) (parkName w i slug)) (parkSite P.cfg slug) w := by
  have hkind := @run_kind_of i w (site_dir P.cfg slug)
  refine (Along.of_uses (uses_kind_at (close_lstat within_root)) w).bind fun kind w1 hrun => ?_
  obtain ⟨-, rfl⟩ := Prod.mk.inj (hkind.symm.trans hrun)
  refine Along.bind ?_ fun parked w2 _ => Along.of_uses ((uses_query (close_row
    (q := .delete_site slug) rfl rfl)).bind fun _ => uses_ret _) w2
  split_ifs
  · refine (Along.of_uses (uses_token_hex (P := P.Close i _ _) ⟨trivial, trivial⟩) w).bind
      fun hex w2 hrun => ?_
    have hdraw : run (Calls.exec i) (token_hex 4) w =
      (.ok ((w.oracle i).token_hex 4 (w.drawn i)), drew w i) := rfl
    obtain ⟨hhex, -⟩ := Prod.mk.inj (hdraw.symm.trans hrun)
    obtain rfl := Except.ok.inj hhex
    exact Along.of_uses ((uses_disk (close_replace within_root (Or.inr ⟨hname, List.prefix_rfl⟩))).bind
      fun _ => uses_ret _) w2
  · trivial

/-- The name a body is staged under next. -/
def partName (w : World) (i : ℕ) : Str := (w.oracle i).token_hex 8 (w.drawn i) ++ lit ".part"

theorem along_stage {body : Incoming} (hname : P.Mine i (partName w i)) :
    Along (S := sig) (Calls.exec i) (P.Close i (fun _ => False) (partName w i))
      (_stage P.cfg P.rt body) w := by
  refine (Along.of_uses (uses_token_hex (P := P.Close i _ _) ⟨trivial, trivial⟩) w).bind fun hex w1 hrun => ?_
  have hdraw : run (Calls.exec i) (token_hex 8) w =
    (.ok ((w.oracle i).token_hex 8 (w.drawn i)), drew w i) := rfl
  obtain ⟨hhex, -⟩ := Prod.mk.inj (hdraw.symm.trans hrun)
  obtain rfl := Except.ok.inj hhex
  have hwithin : Within P i (fun _ => False) (partName w i)
      (stagingPath P.cfg ((w.oracle i).token_hex 8 (w.drawn i))) := Or.inr ⟨hname, List.prefix_rfl⟩
  have hown : ∀ p ∈ [stagingPath P.cfg ((w.oracle i).token_hex 8 (w.drawn i))],
      P.Own i p ∨ ∃ slug, False ∧ site_dir P.cfg slug <+: p := by
    rintro p hp
    obtain rfl := List.mem_singleton.1 hp
    exact hwithin.owned
  refine Along.of_uses (Uses.bind (Uses.except ((uses_filling _ _).mono fun c hc => ?_) fun e =>
    (uses_unlink (close_remove hwithin).2).bind fun _ => uses_raise _) fun _ => uses_ret _) w1
  cases c with
  | disk c =>
    cases c with
    | create p =>
      obtain rfl : p = _ := hc
      exact ⟨hwithin.around, hown⟩
    | write p bytes =>
      obtain rfl : p = _ := hc
      exact ⟨hwithin.around, hown⟩
    | sync p =>
      obtain rfl : p = _ := hc
      exact close_look rfl hwithin.around
    | _ => exact hc.elim
  | receive chunk => exact ⟨trivial, trivial⟩
  | _ => exact hc.elim

/-! ### The routes -/

/-- Code that ends without a lock, whatever it answers. -/
def Ends (P : Service) (i : ℕ) (p : Code A) (h : Hist sig Exn World) : Prop :=
  Safe (setting P) i (fun _ h' => Free i h'.2) p h

theorem quiet_resolve (slug path : Str) : Uses quiet (resolve P.cfg P.rt slug path) :=
  (glances_resolve slug path).mono fun _ => quiet_of_glances

theorem quiet_kind_of (p : Path Str) : Uses quiet (kind_of p) :=
  (glances_kind_of p).mono fun _ => quiet_of_glances

theorem quiet_file_path (slug path : Str) : Uses quiet (file_path P.cfg P.rt slug path) := by
  refine (quiet_resolve _ _).bind fun target => (quiet_kind_of target).bind fun kind => ?_
  rcases kind with _ | _ | _ | _ <;> trivial

theorem quiet_query {q : Query} (hq : rowOf q = none) : Uses quiet (query q) := uses_query (P := quiet) hq

theorem quiet_public_site (site : SiteRow) : Uses quiet (Routes._public_site P.cfg site) :=
  Uses.bind (Uses.bind (quiet_query rfl) fun _ => uses_ret _) fun _ => uses_ret _

theorem quiet_publicSites : ∀ sites : List SiteRow, Uses quiet (Routes.publicSites P.cfg sites)
  | [] => uses_ret _
  | _ :: sites => (quiet_public_site _).bind fun _ => (quiet_publicSites sites).bind fun _ => uses_ret _

theorem quiet_site (slug : Str) : Uses quiet (Routes._site P.rt slug) := by
  unfold Routes._site
  rcases validate_slug P.rt slug with _ | _
  · trivial
  · refine Uses.bind (quiet_query rfl) fun site => ?_
    rcases site with _ | site <;> trivial

/-- **The site a look-up finds** has the slug it was looked up by. -/
theorem safe_site (hn : Apart P.oracle) (slug : Str) (hi : Idle P i h) :
    Safe (setting P) i (fun r h' => Idle P i h' ∧ ∀ site, r = .ok site → site.slug = slug)
      (Routes._site P.rt slug) h := by
  rw [Routes._site]
  split
  · exact ⟨hi, by rintro site ⟨⟩⟩
  refine Safe.seq (P := fun r h' => Idle P i h' ∧ ∀ site, r = .ok (some site) → site.slug = slug)
    (Safe.invoke fun h1 hr hinv r w ha => ?_) (fun site h1 hq => ?_)
    fun e h1 hq => ⟨hq.1, by rintro site ⟨⟩⟩
  · obtain ⟨howes, hidle⟩ := quiet_step hn (c := .db (.site_by_slug slug)) rfl hinv (hi.rely hr) ha
    refine ⟨howes, hidle, ?_⟩
    rintro site rfl
    have hrow : some site = h1.2.db.sites[slug]?.map (Db._site slug) :=
      Except.ok.inj (congrArg Prod.fst (Operations.answers_faultless.1 ha).2)
    obtain ⟨row, -, rfl⟩ := Option.map_eq_some_iff.1 hrow.symm
    rfl
  · rcases site with _ | site
    · exact ⟨hq.1, by rintro site ⟨⟩⟩
    · refine ⟨hq.1, ?_⟩
      rintro site' ⟨⟩
      exact hq.2 site rfl

theorem collected_le {cfg : Calls.Config} {ending : Option Exn} :
    ∀ {chunks : List Bytes} {received b : Bytes},
    received.length ≤ cfg.max_upload_bytes → collected cfg ending chunks received = .ok b →
      b.length ≤ cfg.max_upload_bytes
  | [], received, b, hle, hb => by
    rcases ending with _ | e
    · rwa [← Except.ok.inj hb]
    · cases hb
  | chunk :: chunks, received, b, hle, hb => by
    rw [collected] at hb
    split_ifs at hb with h1 h2
    · exact collected_le hle hb
    · exact collected_le (not_lt.1 h2) hb

/-- **The staging of a body** among other threads: a body received whole is in its staging file. -/
theorem safe_stage (hn : Apart P.oracle) {body : Incoming} (hi : Idle P i h) :
    Safe (setting P) i (fun r h' => (Grounds P h'.2 ∧ Free i h'.2 ∧ took i h'.1 = 0) ∧
      ∀ staged, r = .ok staged →
        ∃ data, h'.2.disk.get (P.cfg.staging_dir ++ [partName h.2 i]) = some (.file data) ∧
        data.content = body.chunks.flatten ∧ data.content.length ≤ P.cfg.max_upload_bytes ∧
        staged = ⟨P.cfg.staging_dir ++ [partName h.2 i], P.rt.sha256 data.content, data.content.length⟩)
      (_stage P.cfg P.rt body) h := by
  have hname : P.Mine i (partName h.2 i) := Or.inl ⟨h.2.drawn i, by rw [partName, hi.grounds.oracle]⟩
  refine (safe_local hn hname (S := fun _ => False) (fun _ hs => hs.elim) hi.grounds
    (along_stage hname)).mono ?_
  rintro r h' ⟨hst, rfl, hsight⟩
  obtain ⟨data, w', hrun, -, hget, hcontent, -⟩ := run_stage (i := i) P.rt body hi.grounds.staging_dir
    (hi.clean _ ⟨_, hname, List.prefix_rfl⟩)
  rw [hrun] at hsight ⊢
  refine ⟨⟨hst.grounds, fun slug hs => hi.free slug ((hst.locks slug).1 hs), hst.took.trans hi.fresh⟩,
    fun staged hstaged => ?_⟩
  change (collected P.cfg body.ending body.chunks []).map _ = _ at hstaged
  rcases hcol : collected P.cfg body.ending body.chunks [] with e | b <;> rw [hcol] at hstaged
  · cases hstaged
  obtain rfl := hcontent b hcol
  refine ⟨data, ?_, by rw [collected_ok hcol, List.nil_append], collected_le (Nat.zero_le _) hcol,
    (Except.ok.inj hstaged).symm⟩
  rw [(sight_iff.1 hsight).1 _ (Or.inr (Or.inl List.prefix_rfl)), hget, hcol]
  exact if_pos ⟨rfl, rfl⟩

/-- **An upload.** -/
theorem safe_write_file (hn : Apart P.oracle) {raw : Str} {body : Incoming} {declared : Option ℤ}
    {overwrite : Bool} (hreq : P.requests i = .upload_file slug raw body declared overwrite)
    (hp : validate_site_path P.rt raw false = .ok path) (hi : Idle P i h) :
    Ends P i (write_file P.cfg P.rt slug path body overwrite declared) h := by
  refine Safe.seq (safe_quiet hn (quiet_resolve slug path) hi) (fun _ h1 hi1 => ?_) fun _ _ hi1 => hi1.free
  split_ifs
  · exact hi1.free
  refine Safe.seq (safe_stage hn hi1) ?_ fun _ _ hq => hq.1.2.1
  rintro staged h2 ⟨⟨hg2, hf2, hfresh⟩, hstaged⟩
  obtain ⟨data, hget, hcontent, hle, rfl⟩ := hstaged staged rfl
  have hname : P.Mine i (partName h1.2 i) := Or.inl ⟨h1.2.drawn i, by rw [partName, hi1.grounds.oracle]⟩
  have hslug : changed P.rt (P.requests i) = some slug := by
    rw [hreq]
    rfl
  have hhold : Ends P i (hold slug (landFile P.cfg P.rt slug path overwrite
      ⟨P.cfg.staging_dir ++ [partName h1.2 i], P.rt.sha256 data.content, data.content.length⟩)) h2 := by
    refine (safe_hold (K := fun w => w.disk.get (P.cfg.staging_dir ++ [partName h1.2 i]) = some (.file data))
      hn hslug hname (fun w w' hsame _ _ hk => (hsame _ List.prefix_rfl).trans hk)
      (fun w s _ hk hs => ⟨?_, along_landFile hname rfl w⟩) hf2 hfresh hget).mono fun _ _ hq => hq.1.2
    rw [hreq]
    exact landFile_section hs hp hk (List.prefix_append _ _) hcontent rfl rfl
      (by rw [← hcontent]; exact not_lt.2 hle)
  have hunlink : P.Fair i (fun _ => False)
      (.disk (.unlink (P.cfg.staging_dir ++ [partName h1.2 i]))) :=
    (close_remove (Or.inr ⟨hname, List.prefix_rfl⟩)).2.2
  exact Safe.seq (P := fun _ h' => Free i h'.2)
    (hhold.except (fun _ _ hf => hf) fun e h3 hf3 =>
      safe_fair hn ((uses_unlink hunlink).bind fun _ => uses_raise e) hf3)
    (fun _ _ hf => hf) fun _ _ hf => hf

/-- **A section with nothing to do before it or after it.** -/
theorem safe_section (hn : Apart P.oracle) (hslug : changed P.rt (P.requests i) = some slug) {p : Code A}
    (hp : ∀ w s, Grounds P w → SameSite P.cfg P.rt w s slug → SameSite P.cfg P.rt (run (Calls.exec i) p w).2
      (effect P.cfg P.rt (P.draws i) (P.requests i) s) slug)
    (halong : ∀ name w, Along (S := sig) (Calls.exec i) (P.Close i (· = slug) name) p w)
    (hi : Idle P i h) : Ends P i (hold slug p) h := by
  have hname : P.Mine i ((P.oracle i).token_hex 8 0 ++ lit ".part") := Or.inl ⟨0, rfl⟩
  exact (safe_hold (K := fun _ => True) hn hslug hname (fun _ _ _ _ _ _ => trivial)
    (fun w s hg _ hs => ⟨hp w s hg hs, halong _ w⟩) hi.free hi.fresh trivial).mono fun _ _ hq => hq.1.2

/-- **Deleting a site**: the section, and the removal of what was parked. -/
theorem safe_delete_site (hn : Apart P.oracle) (hreq : P.requests i = .delete_site slug (some slug))
    (hi : Idle P i h) : Ends P i (Storage.delete_site P.cfg slug) h := by
  have hslug : changed P.rt (P.requests i) = some slug := by
    rw [hreq]
    rfl
  have hmine : ∀ n, P.Mine i (slug ++ lit ".deleting-" ++ (P.oracle i).token_hex 4 n) := fun n =>
    Or.inr ⟨slug, n, rfl⟩
  have hname : P.Mine i (parkName h.2 i slug) := by
    rw [parkName, hi.grounds.oracle]
    exact hmine _
  refine Safe.seq (safe_hold (K := fun w => parkName w i slug = parkName h.2 i slug ∧
      w.disk.get (P.cfg.staging_dir ++ [parkName h.2 i slug]) = none) hn hslug hname ?_ ?_ hi.free
      hi.fresh ⟨rfl, hi.clean _ ⟨_, hname, List.prefix_rfl⟩⟩) ?_ fun _ _ hq => hq.1.2
  · rintro w w' hsame ho hd ⟨h1, h2⟩
    refine ⟨?_, (hsame _ List.prefix_rfl).trans h2⟩
    rw [← h1, parkName, parkName, ho, hd]
  · rintro w s hg ⟨hpark, hfree⟩ hs
    rw [← hpark] at hfree hname ⊢
    rw [hreq]
    exact ⟨parkSite_section hs hg.staging_dir hfree, along_parkSite hname⟩
  · rintro parked h1 ⟨⟨hg, hf⟩, w, ho, hr⟩
    rcases parked with _ | parked
    · exact hf
    obtain rfl := parkSite_parked hr.symm
    have hname' : P.Mine i (slug ++ lit ".deleting-" ++ (w.oracle i).token_hex 4 (w.drawn i)) := by
      rw [ho]
      exact hmine _
    have hwithin : Within P i (fun _ => False)
        (slug ++ lit ".deleting-" ++ (w.oracle i).token_hex 4 (w.drawn i))
        (parkedPath P.cfg slug ((w.oracle i).token_hex 4 (w.drawn i))) := Or.inr ⟨hname', List.prefix_rfl⟩
    refine (safe_local hn hname' (S := fun _ => False) (fun _ hs => hs.elim) hg ?_).mono
      fun r h2 hq slug' hs => hf slug' ((hq.1.locks slug').1 hs)
    refine (Along.of_uses (uses_kind_at (close_lstat hwithin)) h1.2).bind fun kind w1 _ => ?_
    split_ifs
    · exact along_rmtree hwithin true w1
    · exact Along.of_uses (uses_unlink (close_remove hwithin).2) w1

/-- What a route does after a part that ends. -/
theorem Ends.then {B : Type} {p : Code B} (hp : Ends P i p h) (f : B → A) :
    Ends P i (p >>= fun b => .ret (f b)) h :=
  Safe.seq hp (fun _ _ hf => hf) fun _ _ hf => hf

/-- A path that is validated first. -/
theorem ends_path (hn : Apart P.oracle) {raw : Str} {f : Str → Code A} (hi : Idle P i h)
    (hf : ∀ path h', validate_site_path P.rt raw false = .ok path → Idle P i h' → Ends P i (f path) h') :
    Ends P i (Routes._valid_path P.rt raw false >>= f) h :=
  Safe.seq ((safe_quiet hn (uses_valid_path raw false) hi).returns (returns_valid_path raw false))
    (fun path h1 hq => hf path h1 (hq.2 path rfl) hq.1) fun _ _ hq => hq.1.free

/-- A route about a site. -/
theorem ends_site (hn : Apart P.oracle) {f : SiteRow → Code A} (hi : Idle P i h)
    (hf : ∀ site h', site.slug = slug → Idle P i h' → Ends P i (f site) h') :
    Ends P i (Routes._site P.rt slug >>= f) h :=
  Safe.seq (safe_site hn slug hi) (fun site h1 hq => hf site h1 (hq.2 site rfl) hq.1)
    fun _ _ hq => hq.1.free

/-- **The routes that read**, the listing of a folder apart, change nothing. -/
theorem quiet_serve_reads (actor : Accounts.Actor) {request : Routes.Request} (hr : reads request = true)
    (hl : ∀ slug path, request ≠ .list_files slug path) :
    Uses quiet (Routes.serve P.cfg P.rt hasher actor request) := by
  cases request <;> try first | exact absurd hr Bool.false_ne_true | exact absurd rfl (hl _ _)
  case list_sites =>
    exact (quiet_query rfl).bind fun sites => (quiet_publicSites sites).bind fun _ => uses_ret _
  case get_site slug =>
    exact (quiet_site slug).bind fun site => (quiet_public_site site).bind fun _ => uses_ret _
  case download_file slug raw =>
    exact (quiet_site slug).bind fun site => (uses_valid_path raw false).bind fun path =>
      (quiet_file_path site.slug path).bind fun file =>
        (uses_disk (P := quiet) (c := .read file) rfl).bind fun _ => uses_ret _

/-- **A request a caller was let in for.** -/
theorem safe_serve (hn : Apart P.oracle) (actor : Accounts.Actor)
    (hl : ∀ slug path, P.requests i ≠ .list_files slug path) (hi : Idle P i h) :
    Ends P i (Routes.serve P.cfg P.rt hasher actor (P.requests i)) h := by
  by_cases hr : reads (P.requests i) = true
  · exact (safe_quiet hn (quiet_serve_reads actor hr hl) hi).mono fun _ _ hi => hi.free
  by_cases hs : aboutSites (P.requests i) = true
  swap
  · refine (safe_quiet hn (Uses.mono (P := ofAccounts) ?_ fun _ => quiet_of_accounts) hi).mono
      fun _ _ hi => hi.free
    by_cases hd : ∃ user_id, P.requests i = .delete_user user_id
    · obtain ⟨user_id, hd⟩ := hd
      rw [hd]
      exact uses_delete_user user_id
    · exact (uses_serve_accounts actor (Bool.not_eq_true _ ▸ hs) fun u hu => hd ⟨u, hu⟩).mono
        fun _ => only_mono onAccounts_of_routes
  rcases hreq : P.requests i with _ | _ | _ | name | _ | ⟨slug, confirm⟩ | _ |
    ⟨slug, raw, body, declared, overwrite⟩ | _ | ⟨slug, raw⟩ | ⟨slug, raw, recursive⟩ | _ | _ | _ | _ |
    _ | _ | _ | _ <;> rw [hreq] at hr hs hl <;>
    try first | exact absurd rfl hr | exact absurd hs Bool.false_ne_true
  case create_site =>
    change Ends P i (Routes.create_site P.cfg P.rt name) h
    rw [Routes.create_site]
    split
    · exact hi.free
    next slug hslug =>
    have hc : changed P.rt (P.requests i) = some slug := by
      rw [hreq, changed, hslug]
      rfl
    refine Safe.seq (safe_quiet hn (uses_now (P := quiet) trivial) hi) (fun created_at h1 hi1 => ?_)
      fun _ _ hi => hi.free
    refine Safe.seq (P := fun _ h' => Free i h'.2) ?_ (fun site h2 hf2 => ?_) fun _ _ hf => hf
    · rw [create_site_eq]
      refine safe_section hn hc (fun w s hg hs => ?_) (fun _ w => along_createSection w) hi1
      rw [hreq]
      exact create_section hs hg.sites_dir hslug
    · exact Ends.then (safe_fair hn ((quiet_public_site site).mono fun _ => fair_of_quiet) hf2) _
  case delete_site =>
    refine ends_site hn hi fun site h1 hslug hi1 => ?_
    split_ifs with hconfirm
    · exact hi1.free
    · obtain rfl := not_not.1 hconfirm
      subst hslug
      exact (safe_delete_site hn hreq hi1).then _
  case upload_file =>
    refine ends_site hn hi fun site h1 hslug hi1 => ends_path hn hi1 fun path h2 hp hi2 => ?_
    subst hslug
    exact (safe_write_file hn hreq hp hi2).then _
  case delete_file =>
    refine ends_site hn hi fun site h1 hslug hi1 => ends_path hn hi1 fun path h2 hp hi2 => ?_
    subst hslug
    refine Ends.then (safe_section hn (by rw [hreq]; rfl) (fun w s _ hs => ?_)
      (fun _ w => along_removeFile w) hi2) _
    rw [hreq]
    exact removeFile_section hs hp
  case delete_folder =>
    refine ends_site hn hi fun site h1 hslug hi1 => ends_path hn hi1 fun path h2 hp hi2 => ?_
    subst hslug
    refine Ends.then (safe_section hn (by rw [hreq]; rfl) (fun w s _ hs => ?_)
      (fun _ w => along_removeFolder recursive w) hi2) _
    rw [hreq]
    exact removeFolder_section hs hp

/-- **Any request ends without a lock**, in the midst of any others. -/
theorem safe_handle (hn : Apart P.oracle) (header : Option Str)
    (hl : ∀ slug path, P.requests i ≠ .list_files slug path) (hi : Idle P i h) :
    Ends P i (Routes.handle P.cfg P.rt hasher header (P.requests i)) h := by
  have hroute : Ends P i (Routes.route P.cfg P.rt hasher header (P.requests i)) h := by
    by_cases hlogin : ∃ body, P.requests i = .login body
    · obtain ⟨body, hlogin⟩ := hlogin
      rw [hlogin]
      exact (safe_quiet hn (Uses.mono (P := only forRoutes) (uses_login_route body) fun _ hc =>
        quiet_of_accounts (only_mono onAccounts_of_routes hc)) hi).mono fun _ _ hi => hi.free
    · rw [App.route_of_not_login fun body hb => hlogin ⟨body, hb⟩]
      exact Safe.seq (safe_quiet hn ((uses_requires ..).mono fun _ => quiet_of_accounts) hi)
        (fun actor _ hi1 => safe_serve hn actor hl hi1) fun _ _ hi1 => hi1.free
  refine Safe.except hroute (fun _ _ hf => hf) fun e h1 hf => ?_
  split_ifs <;> exact hf

/-! ### The whole -/

/-- **A lock is held by a thread that has begun.** -/
theorem held_begun {g g' : Threads.Config sig Exn A World} {tr : List (Event sig Exn World)}
    (hrun : Run faultless g tr g') (hfree : ∀ slug, g.world.locks slug = none)
    (hs : Holds g'.world i slug) : ∃ e ∈ tr, e.tid = i := by
  refine hrun.induct (fun tr g' => ∀ slug, Holds g'.world i slug → ∃ e ∈ tr, e.tid = i)
    (fun slug hs => ?_) (fun tr g' j c k r w _ ih _ ha slug hs => ?_) slug hs
  · rw [Holds, hfree] at hs
    cases hs
  rcases eq_or_ne j i with rfl | hne
  · exact ⟨_, List.mem_append_right _ (List.mem_singleton_self _), rfl⟩
  obtain rfl : w = (Calls.exec j c g'.world).2 := after_answer ha
  have hbefore : Holds g'.world i slug := by
    cases c with
    | acquire slug' =>
      have hs := holds_taken.1 hs
      split_ifs at hs
      · exact absurd hs hne
      · exact hs
    | release slug' => exact (holds_freed.1 hs).2
    | _ => exact hs
  obtain ⟨e, he, htid⟩ := ih slug hbefore
  exact ⟨e, List.mem_append_left _ he, htid⟩

theorem keyed_of_agree {s : FakeState} (ha : Agree P.cfg P.rt w s) : Keyed s := by
  intro slug fs hfs
  have hs := ha.site slug
  rw [SameSite, hfs] at hs
  rcases hr : w.db.sites[slug]? with _ | r <;> rw [hr] at hs
  · exact hs.elim
  · exact hs.1

/-- **Requests at once do to the sites what the fake does one after another**: in every run of requests
of any kind but the listing of a folder, each with any header, interleaved call by call, from a service
and a fake that agree. The fake is asked the requests in the order in which they took their locks, none
of them twice. A site whose lock is free is the fake's, and a lock is held only by a request that has
begun and has not ended. -/
theorem requests_are_serial (P : Service) (hasher : Hasher) (headers : ℕ → Option Str) (w : World)
    (hn : Apart P.oracle) (ho : w.oracle = P.oracle) (ha : Agree P.cfg P.rt w P.fake)
    (hfree : ∀ slug, w.locks slug = none) (hl : ∀ i slug path, P.requests i ≠ .list_files slug path)
    {tr : List (Event sig Exn World)} {g : Threads.Config sig Exn Response World}
    (hrun : Run faultless
      ⟨w, fun i => Routes.handle P.cfg P.rt hasher (headers i) (P.requests i)⟩ tr g) :
    (∀ slug, g.world.locks slug = none → SameSite P.cfg P.rt g.world (P.serial tr) slug) ∧
      (∀ i, took i tr ≤ 1) ∧ ∀ slug i, g.world.locks slug = some i →
        (∃ e ∈ tr, e.tid = i) ∧ ∃ c k, g.threads i = .call c k := by
  have hidle : ∀ i, Idle P i ([], w) := by
    refine fun i => ⟨⟨ho, ha.sites_dir, ha.staging_dir⟩, fun slug hs => ?_, ?_, rfl⟩
    · rw [Holds, hfree] at hs
      cases hs
    · rintro q ⟨name, -, x, rfl⟩
      rw [List.append_assoc]
      exact ha.staging _ (by simp)
  obtain ⟨hinv, hsafe⟩ := Setting.run (R := setting P) (Q := fun i _ h => Free i h.2)
    (fun _ _ _ _ hr hf => hf.rely hr)
    (g := ⟨w, fun i => Routes.handle P.cfg P.rt hasher (headers i) (P.requests i)⟩)
    ⟨ho, ha.sites_dir, ha.staging_dir, keyed_of_agree ha, fun slug _ => ha.site slug, fun _ => Nat.zero_le 1⟩
    (fun i => safe_handle hn (headers i) (hl i) (hidle i)) hrun
  refine ⟨hinv.site, hinv.once, fun slug i hs => ⟨held_begun hrun hfree hs, ?_⟩⟩
  have hi := hsafe i
  cases hp : g.threads i with
  | ret a =>
    rw [hp] at hi
    exact absurd hs (hi slug)
  | raise e =>
    rw [hp] at hi
    exact absurd hs (hi slug)
  | call c k => exact ⟨c, k, rfl⟩

section Small

theorem apart_unary : Apart unary where
  toNames := names_unary
  parks i j m n hij h := hij (by
    have := congrArg List.length h
    simpa [unary] using this)

/-- A site is made, and two uploads go to one place in it, the second of which may overwrite. -/
def rivals : Service where
  cfg := smallConfig
  rt := plainRuntime
  requests i :=
    if i = 0 then .create_site (lit "a")
    else .upload_file (lit "a") (lit "x") ⟨[[UInt8.ofNat i]], none⟩ none (i == 1)
  draws _ := ⟨someTime, [], []⟩
  fake := Refinement.smallFake
  oracle := unary

def rivalry : Threads.Config sig Exn Response World :=
  ⟨{ smallWorld (smallDb .remove_destructive) with oracle := unary }, fun i =>
    Routes.handle rivals.cfg rivals.rt plainHasher (some (lit "Bearer pb_s")) (rivals.requests i)⟩

/-- Both uploads are staged by turns; the second one to start is the first to take the lock. -/
def turns : List ℕ :=
  List.replicate 11 0 ++ (List.replicate 15 [1, 2]).flatten ++ List.replicate 13 2 ++ List.replicate 13 1

theorem requests_are_serial_rivals : ∃ tr g, Run faultless rivalry tr g ∧
    (tr.filter fun e => takes e.call).map Event.tid = [0, 2, 1] ∧
      SameSite rivals.cfg rivals.rt g.world (rivals.serial tr) (lit "a") := by
  have hplay : (faultless.record turns rivalry).map (fun x =>
      ((x.1.filter fun e => takes e.call).map Event.tid, x.2.world.locks (lit "a"))) =
      some ([0, 2, 1], none) := by decide +kernel
  obtain ⟨⟨tr, g⟩, hrecord, hseen⟩ := Option.map_eq_some_iff.1 hplay
  obtain ⟨horder, hlock⟩ := Prod.mk.inj hseen
  have hagree : Agree rivals.cfg rivals.rt rivalry.world rivals.fake := by
    have h : Agree rivals.cfg rivals.rt _ _ := Refinement.Fresh.agree Refinement.small_fresh
    exact ⟨h.sites_dir, h.staging_dir, h.staging, h.site⟩
  have hrun := Machine.record_run hrecord
  refine ⟨tr, g, hrun, horder, (requests_are_serial rivals plainHasher (fun _ => some (lit "Bearer pb_s"))
    rivalry.world apart_unary rfl hagree (fun _ => rfl) ?_ hrun).1 (lit "a") hlock⟩
  intro i slug path h
  rw [rivals] at h
  dsimp only at h
  split_ifs at h

end Small

end PaperBoxing.Agreement.Concurrent
