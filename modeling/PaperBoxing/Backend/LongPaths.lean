import PaperBoxing.Backend.Limits
import PaperBoxing.Backend.Uploads
import PaperBoxing.Common.RouteTable

/-! # Uploads to long paths

A path that is accepted has names of at most 255 bytes and at most 1024 characters, but no bound on its
bytes: on the disk its name may be longer than the operating system allows. `write_file` under such
limits comes to its verdict exactly when it looks up no name that is refused.

* `withinReach`: the uploads that meet no refusal; `along_write_file`: they meet none;
* `run_write_file_refused`: what becomes of the others;
* `upload_by_bytes_iff`: the outcome is that of the bytes (`Uploads.ByBytes`) for the first, and not
  for the others. -/

namespace PaperBoxing.Backend.LongPaths

open PaperBoxing.Lib PaperBoxing.Lib.Action PaperBoxing.Lib.Program PaperBoxing.Lib.Threads
open PaperBoxing.Lib.Refusals PaperBoxing.Lib.Text PaperBoxing.Lib.Trees PaperBoxing.Lib.Disk
open PaperBoxing.Common.Schema PaperBoxing.Common.Naming PaperBoxing.Backend.Db PaperBoxing.Backend.Calls
open PaperBoxing.Backend.Storage PaperBoxing.Backend.Frames PaperBoxing.Backend.Uploads
open PaperBoxing.Backend.Alone (Stamped drew nextStaging writeTarget)

variable {l : Limits} {cfg : Config} {rt : Runtime} {i : ℕ} {w : World} {slug path : Str}

theorem fileAbove_congr {t t' : Files Str} {root : Path Str} {segs : List Str}
    (h : ∀ q, t'.get (root ++ q) = t.get (root ++ q)) : fileAbove t' root segs = fileAbove t root segs := by
  simp only [fileAbove, h]

/-- **Whether an upload of `n` bytes to `segs` looks up no name that is refused**: none on the way, as far
as it can be followed; and unless the body exceeds the cap, not that of the target, or else not that of
its folder, where a file above the target ends the check before it comes to the target. -/
def withinReach (l : Limits) (cfg : Config) (t : Files Str) (slug : Str) (segs : List Str) (n : ℕ) :
    Bool :=
  decide (l.wayTo t (site_dir cfg slug) segs ≠ .barred) &&
    (decide (cfg.max_upload_bytes < n) || !l.barred (site_dir cfg slug ++ segs) ||
      (!l.barred (site_dir cfg slug ++ segs.dropLast) && fileAbove t (site_dir cfg slug) segs))

/-- **What the limits leave to an upload**: its name in the staging folder, and the file's row: the text
of its path, the number of its bytes and every time the disk's clock may give it. -/
structure Room (l : Limits) (cfg : Config) (i : ℕ) (w : World) (path : Str) (n : ℕ) : Prop where
  upward : l.Upward
  staging : l.barred (nextStaging cfg w i) = false
  text : l.text path = true
  size : l.number n = true
  clock : ∀ k, l.number ((w.oracle i).stamp k) = true

/-! ### Uploads that are refused nothing -/

theorem along_checkLinks (path : Str) : ∀ (root : Path Str) (segs : List Str),
    l.way w.disk root segs ≠ .barred →
      Along (S := sig) (Calls.exec i) l.lets (checkLinks rt path root segs) w
  | _, [], _ => trivial
  | root, segment :: rest, h => by
    have hb : l.barred (root ++ [segment]) = false := Bool.eq_false_iff.2 fun hb => h (by
      rw [Limits.way, if_pos hb])
    rw [Limits.way, hb, if_neg Bool.false_ne_true] at h
    refine (Along.of_uses (uses_lstat_at (Limits.lets_lstat hb)) w).bind fun mode w1 hrun => ?_
    obtain ⟨hmode, rfl⟩ := Prod.mk.inj ((Alone.run_lstat _).symm.trans hrun)
    obtain rfl := Except.ok.inj hmode
    rcases hg : w.disk.get (root ++ [segment]) with _ | n
    · trivial
    · rw [hg] at h
      rcases n with _ | _ | _ | _
      · exact along_checkLinks path _ rest h
      · exact along_checkLinks path _ rest h
      · trivial
      · exact along_checkLinks path _ rest h

theorem open_root {t : Files Str} {root : Path Str} {segs : List Str}
    (h : l.wayTo t root segs ≠ .barred) : l.barred root = false :=
  Bool.eq_false_iff.2 fun hb => h (by rw [Limits.wayTo, if_pos hb])

theorem along_resolve (h : l.wayTo w.disk (site_dir cfg slug) (segments path) ≠ .barred) :
    Along (S := sig) (Calls.exec i) l.lets (resolve cfg rt slug path) w := by
  have hb := open_root h
  rw [Limits.wayTo, hb, if_neg Bool.false_ne_true] at h
  rw [resolve]
  refine (Along.of_uses (uses_lstat_at (Limits.lets_lstat hb)) w).bind fun mode w1 hrun => ?_
  obtain ⟨hmode, rfl⟩ := Prod.mk.inj ((Alone.run_lstat _).symm.trans hrun)
  obtain rfl := Except.ok.inj hmode
  split_ifs with hlink
  · trivial
  rw [if_neg fun hc => hlink (Alone.isLink_iff.2 hc)] at h
  refine (along_checkLinks path _ _ h).bind fun _ w1 _ => Along.of_uses ?_ w1
  have hreal : ∀ p, l.lets (.disk (.realpath p)) := fun _ => rfl
  refine (uses_disk (hreal _)).bind fun real => (uses_disk (hreal _)).bind fun real_root => ?_
  split_ifs <;> trivial

/-- The calls of an upload on paths that are not refused. -/
theorem lets_staging {p : Path Str} (h : l.barred p = false) :
    l.lets (.disk (.create p)) ∧ (∀ bytes, l.lets (.disk (.write p bytes))) ∧
      l.lets (.disk (.unlink p)) :=
  ⟨if_neg (Limits.not_shut (c := .create p) rfl rfl h), fun _ => rfl,
    if_neg (Limits.not_shut (c := .unlink p) rfl rfl h)⟩

theorem lets_mkdir {p : Path Str} (h : l.barred p = false) :
    l.lets (.disk (.mkdir p)) ∧ l.lets (.disk (.isDir p)) :=
  ⟨if_neg (Limits.not_shut (c := .mkdir p) rfl rfl h), if_neg (Bool.eq_false_iff.1 h)⟩

theorem lets_replace {src dst : Path Str} (hsrc : l.barred src = false) (hdst : l.barred dst = false) :
    l.lets (.disk (.replace src dst)) := by
  refine if_neg ?_
  rw [Limits.shut, Limits.lookedUp, List.any_cons, List.any_cons, hsrc, hdst]
  exact Bool.false_ne_true

theorem lets_mtime {p : Path Str} (h : l.barred p = false) : l.lets (.disk (.mtime p)) :=
  if_neg (Limits.not_shut (c := .mtime p) rfl rfl h)

theorem lets_row {sha256 : Str} {bytes mtime_ns : ℕ} (htext : l.text path = true)
    (hbytes : l.number bytes = true) (htime : l.number mtime_ns = true) :
    l.lets (.db (.upsert_file ⟨slug, path, bytes, mtime_ns, sha256⟩)) := by
  change (l.rowRefused path bytes mtime_ns).map _ = none
  rw [Limits.rowRefused, htext, hbytes, htime]
  rfl

theorem along_stage (body : Incoming) (h : l.barred (nextStaging cfg w i) = false) :
    Along (S := sig) (Calls.exec i) l.lets (_stage cfg rt body) w := by
  obtain ⟨hcreate, hwrite, hunlink⟩ := lets_staging h
  have hsync : l.lets (.disk (.sync (nextStaging cfg w i))) := rfl
  refine (Along.of_uses (uses_token_hex (P := l.lets) rfl) w).bind fun hex w1 hrun => ?_
  have hdraw : run (Calls.exec i) (token_hex 8) w =
    (.ok ((w.oracle i).token_hex 8 (w.drawn i)), drew w i) := rfl
  obtain ⟨hhex, -⟩ := Prod.mk.inj (hdraw.symm.trans hrun)
  obtain rfl := Except.ok.inj hhex
  refine Along.of_uses (Uses.bind (Uses.except ?_ fun e =>
    (uses_unlink hunlink).bind fun _ => uses_raise _) fun _ => uses_ret _) w1
  exact (uses_disk hcreate).bind fun _ => (uses_stageChunks hwrite (fun _ => rfl) _ _ _).bind fun _ =>
    (uses_disk hsync).bind fun _ => uses_ret _

section
variable {t : Files Str} {segs : List Str}

/-- A site without links is followed to where a name is refused, if there is one. -/
theorem resolved_plain (h : PlainSite cfg t slug) (rt : Runtime)
    (hway : l.wayTo t (site_dir cfg slug) (segments path) ≠ .barred) :
    l.resolved cfg rt t slug path = .ok (site_dir cfg slug ++ segments path) := by
  have hplain : ∀ why, l.wayTo t (site_dir cfg slug) (segments path) ≠ .linked why := fun why => by
    have hroot := h.clear []
    rw [List.append_nil] at hroot
    rw [Limits.wayTo, hroot, if_neg Bool.false_ne_true]
    split_ifs
    · rintro ⟨⟩
    · exact Limits.way_plain h.clear why
  rw [Limits.resolved]
  rcases hw : l.wayTo t (site_dir cfg slug) (segments path) with _ | _ | why | _
  · rfl
  · rfl
  · exact absurd hw (hplain why)
  · exact absurd hw hway

/-- The names above a name that is not refused are not. -/
theorem open_above (h : l.Upward) {p q : Path Str} (hq : l.barred q = false) (hpq : p <+: q) :
    l.barred p = false :=
  Bool.eq_false_iff.2 fun hp => Bool.eq_false_iff.1 hq (h p q hpq hp)

/-- A check that passes has found no file above its target. -/
theorem no_file_above {overwrite replaced : Bool} (h : PlainSite cfg t slug)
    (hok : writeTarget cfg rt t slug (site_dir cfg slug ++ segs) path overwrite = .ok replaced) :
    fileAbove t (site_dir cfg slug) segs = false := by
  rcases writeTarget_conflict rt path h segs overwrite with ⟨code, m, -, herr⟩ | ⟨-, -, hall⟩
  · rw [herr] at hok
    cases hok
  · rw [fileAbove, List.any_eq_false]
    intro q hq
    rw [hall q (List.mem_inits q _ |>.1 hq)]
    exact Bool.false_ne_true

end

/-- **A critical section that meets no refusal.** -/
theorem along_landFile {overwrite : Bool} {staged : Staged} {d : FileData} {hex : Str}
    (hup : l.Upward) (htext : l.text path = true) (hbytes : l.number staged.bytes = true)
    (htime : l.number d.mtime = true) (hpath : staged.path = stagingPath cfg hex)
    (hopen : l.barred staged.path = false) (hplain : PlainSite cfg w.disk slug)
    (hstaged : w.disk.get staged.path = some (.file d))
    (hne : segments path ≠ [])
    (hway : l.wayTo w.disk (site_dir cfg slug) (segments path) ≠ .barred)
    (hreach : l.barred (site_dir cfg slug ++ segments path) = false ∨
      l.barred (site_dir cfg slug ++ (segments path).dropLast) = false ∧
        fileAbove w.disk (site_dir cfg slug) (segments path) = true) :
    Along (S := sig) (Calls.exec i) l.lets (landFile cfg rt slug path overwrite staged) w := by
  have hsite : l.lets (.db (.site_by_slug slug)) := rfl
  refine (Along.of_uses (uses_query hsite) w).bind fun site w1 hrun => ?_
  obtain ⟨-, rfl⟩ := Prod.mk.inj ((Alone.run_site_by_slug slug).symm.trans hrun)
  split_ifs
  · trivial
  refine (along_resolve hway).bind fun target w1 hrun => ?_
  obtain ⟨hres, rfl⟩ := Prod.mk.inj ((Alone.run_resolve ..).symm.trans hrun)
  obtain rfl := Alone.resolved_ok hres
  have habove : l.barred (site_dir cfg slug ++ (segments path).dropLast) = false :=
    hreach.elim (fun h => open_above hup h ((List.prefix_append_right_inj _).2 (List.dropLast_prefix _)))
      And.left
  refine Along.bind ?_ fun replaced w1 hrun => ?_
  · rcases hreach with htarget | ⟨-, hfile⟩
    · refine Along.of_uses (uses_check_write_target_at _ _ _ _ (fun q _ hle => ?_)
        (Limits.lets_lstat htarget)) w
      rw [List.drop_left] at hle
      exact Limits.lets_lstat (open_above hup habove hle)
    · -- the file above the target is found before the target is looked up
      rw [_check_write_target, List.drop_left]
      refine (Along.of_uses (uses_checkParents_at _ _ _ fun q _ hle => ?_) w).bind fun _ w1 hrun => ?_
      · rw [List.reverse_reverse] at hle
        exact Limits.lets_lstat (open_above hup habove hle)
      · obtain ⟨hpar, -⟩ := Prod.mk.inj ((Alone.run_checkParents ..).symm.trans hrun)
        rcases parentsChecked_plain rt path hplain (segments path).dropLast with
          ⟨-, m, hm⟩ | ⟨hall, -⟩
        · rw [hm] at hpar
          cases hpar
        · obtain ⟨q, hq, hf⟩ := fileAbove_iff.1 hfile
          rw [hall q hq] at hf
          cases hf
  obtain ⟨hchk, rfl⟩ := Prod.mk.inj ((Alone.run_check_write_target ..).symm.trans hrun)
  have hfile := no_file_above hplain hchk
  have htarget := hreach.resolve_right fun hx => Bool.eq_false_iff.1 hfile hx.2
  have hdrop : (site_dir cfg slug ++ segments path).dropLast =
    site_dir cfg slug ++ (segments path).dropLast := List.dropLast_append_of_ne_nil hne
  have hapart : ¬ staged.path <+: site_dir cfg slug ++ segments path := by
    rw [hpath]
    exact Alone.not_staging_prefix cfg slug _ _
  obtain ⟨t1, t2, hmkdir, hreplace, hmtime, -⟩ := Alone.run_place (i := i) hstaged (by simp [hne])
    ((Alone.writeTarget_ok hchk).imp And.left fun hx => hx.imp fun _ => And.left)
    (by
      rw [hdrop]
      refine hplain.above fun q hq => Bool.eq_false_iff.2 fun hf => ?_
      exact Bool.eq_false_iff.1 hfile (fileAbove_iff.2 ⟨q, hq, hf⟩)) hapart
  refine (Along.of_uses (uses_mkdirParents true _ fun q hq => ?_) w).bind fun _ w1 hrun => ?_
  · rw [List.reverse_reverse, hdrop] at hq
    exact lets_mkdir (open_above hup habove hq)
  obtain ⟨-, rfl⟩ := Prod.mk.inj (hmkdir.symm.trans hrun)
  refine (Along.of_uses (uses_disk (lets_replace hopen htarget)) _).bind fun _ w1 hrun => ?_
  obtain ⟨-, rfl⟩ := Prod.mk.inj (hreplace.symm.trans hrun)
  refine (Along.of_uses (uses_disk (lets_mtime htarget)) _).bind fun m w1 hrun => ?_
  obtain ⟨hm, -⟩ := Prod.mk.inj (hmtime.symm.trans hrun)
  obtain rfl := Except.ok.inj hm
  exact Along.of_uses ((uses_query (lets_row htext hbytes htime)).bind fun _ => uses_ret _) w1

/-- **An upload within reach meets no refusal.** -/
theorem along_write_file (h : ApiVolume cfg i w slug)
    (hpath : validate_site_path rt path false = .ok path) {chunks : List Bytes}
    (room : Room l cfg i w path chunks.flatten.length)
    (hreach : withinReach l cfg w.disk slug (segments path) chunks.flatten.length = true)
    (overwrite : Bool) (declared_length : Option ℤ) :
    Along (S := sig) (Calls.exec i) l.lets
      (write_file cfg rt slug path ⟨chunks, none⟩ overwrite declared_length) w := by
  obtain ⟨⟨segs, hsegs, rfl⟩, hroot⟩ := validate_site_path_ok hpath
  have hne : segments (join segs) ≠ [] := by
    rw [segments_join hsegs]
    rintro rfl
    exact absurd (hroot rfl) Bool.false_ne_true
  rw [withinReach, Bool.and_eq_true, decide_eq_true_eq] at hreach
  obtain ⟨hway, hreach⟩ := hreach
  refine (along_resolve hway).bind fun _ w1 hrun => ?_
  obtain ⟨-, rfl⟩ := Prod.mk.inj ((Alone.run_resolve ..).symm.trans hrun)
  split_ifs
  · trivial
  refine (along_stage _ room.staging).bind fun staged w1 hrun => ?_
  have hbody : (⟨chunks, none⟩ : Incoming).ending = none := rfl
  rcases run_stage_whole (i := i) rt h.staging_dir h.fresh hbody with
    ⟨-, w2, -, -, hstage⟩ | ⟨hcap, w2, staged, data, hrec, hstage⟩
  · cases (Prod.mk.inj (hstage.symm.trans hrun)).1
  · obtain ⟨hstaged, rfl⟩ := Prod.mk.inj (hstage.symm.trans hrun)
    obtain rfl := Except.ok.inj hstaged
    have hopen : l.barred staged.path = false := by
      rw [hrec.path]
      exact room.staging
    have htime : l.number data.mtime = true := by
      obtain ⟨k, hk⟩ := hrec.stamped
      rw [hk]
      exact room.clock k
    have hway' : l.wayTo w2.disk (site_dir cfg slug) (segments (join segs)) ≠ .barred := by
      rwa [Limits.wayTo_congr (hrec.below slug)]
    have hacquire : l.lets (.acquire slug) := rfl
    have hrelease : l.lets (.release slug) := rfl
    refine Along.bind (Along.except ?_ fun e w3 _ => Along.of_uses
      ((uses_unlink (lets_staging hopen).2.2).bind fun _ => uses_raise _) w3) fun _ _ _ => trivial
    refine (Along.of_uses ((uses_invoke (S := sig) _).2 hacquire) w2).bind fun _ w3 hrun => ?_
    obtain ⟨-, rfl⟩ := Prod.mk.inj ((run_invoke (S := sig) ..).symm.trans hrun)
    refine Along.finallyDo ?_ ((uses_invoke (S := sig) _).2 hrelease)
    refine along_landFile (d := data) room.upward room.text ?_ htime hrec.path hopen
      (hrec.plain h.toPlainSite) ((hrec.get _).trans (if_pos rfl)) hne hway' ?_
    · rw [hrec.bytes]
      exact room.size
    · rw [Bool.or_eq_true, Bool.or_eq_true, decide_eq_true_eq, Bool.and_eq_true, Bool.not_eq_true',
        Bool.not_eq_true'] at hreach
      rcases hreach with (hlarge | htarget) | ⟨hparent, hfile⟩
      · exact absurd hlarge hcap
      · exact Or.inl htarget
      · refine Or.inr ⟨hparent, ?_⟩
        rwa [fileAbove_congr (hrec.below slug)]

/-! ### Uploads that are refused -/

/-- An `_unlink` does not raise. -/
theorem run_unlink {p : Path Str} (hp : l.barred p = false) (w : World) :
    (run (l.exec i) (_unlink p) w).1 = .ok () := by
  rw [Limits.run_of_uses (uses_unlink (lets_staging hp).2.2), _unlink]
  have hcall := run_disk i w (.unlink p)
  rcases hr : (Disk.exec ⟨(w.oracle i).stamp (w.drawn i), w.scan⟩ (.unlink p) w.disk).1 with e | u
  · have herr : (onDisk i (.unlink p) w).1 = .error (.os e) := by
      rw [onDisk, hr]
      rfl
    exact congrArg Prod.fst (run_suppressOs_os i w (hcall.trans (Prod.ext herr rfl)))
  · have hok : (onDisk i (.unlink p) w).1 = .ok () := by
      rw [onDisk, hr]
      rfl
    exact congrArg Prod.fst (run_suppressOs_ok i w (hcall.trans (Prod.ext hok rfl)))

/-- A critical section that raises, in a program that cleans up after it. -/
theorem run_cleaned_error {A : Type} {p : Code A} {e : Exn} {staging : Path Str}
    (hopen : l.barred staging = false) (slug : Str)
    (hp : (run (l.exec i) p (taken w i slug)).1 = .error e) :
    (run (l.exec i) ((hold slug p).except fun e => _unlink staging >>= fun _ => .raise e) w).1 =
      .error e := by
  have hheld : run (l.exec i) (hold slug p) w = (.error e, (run (l.exec i) (hold slug p) w).2) :=
    Prod.ext ((congrArg Prod.fst (Limits.run_hold slug p)).trans hp) rfl
  have hclean (w' : World) : run (l.exec i) (_unlink staging) w' =
    (.ok (), (run (l.exec i) (_unlink staging) w').2) := Prod.ext (run_unlink hopen w') rfl
  rw [run_except_of_error _ hheld, run_bind_of_ok _ (hclean _)]
  rfl

/-- **A check that cannot look up its target** raises what the operating system does: it comes to the
target when it finds no file above it. -/
theorem run_check_refused {segs : List Str} (h : PlainSite cfg w.disk slug)
    (hroot : l.barred (site_dir cfg slug) = false)
    (htarget : l.barred (site_dir cfg slug ++ segs) = true) (path : Str) (overwrite : Bool)
    (hfile : ¬ (l.barred (site_dir cfg slug ++ segs.dropLast) = false ∧
      fileAbove w.disk (site_dir cfg slug) segs = true)) (hup : l.Upward) :
    (run (l.exec i) (_check_write_target cfg rt slug (site_dir cfg slug ++ segs) path overwrite) w).1 =
      .error (.os .other) := by
  rw [_check_write_target, List.drop_left]
  rcases hparent : l.barred (site_dir cfg slug ++ segs.dropLast) with _ | _
  · -- no file is above the target
    have hlook : Uses l.lets (checkParents cfg rt slug path segs.dropLast.reverse) :=
      uses_checkParents_at _ _ _ fun q _ hle => by
        rw [List.reverse_reverse] at hle
        exact Limits.lets_lstat (open_above hup hparent hle)
    have hparents := (Limits.run_of_uses (i := i) hlook w).trans (Alone.run_checkParents ..)
    rcases parentsChecked_plain rt path h segs.dropLast with ⟨⟨q, hq, hf⟩, -⟩ | ⟨-, hok⟩
    · exact absurd ⟨hparent, fileAbove_iff.2 ⟨q, hq, hf⟩⟩ hfile
    · rw [hok] at hparents
      rw [run_bind_of_ok _ hparents, run_bind_of_error _ (Limits.run_kind_barred htarget)]
  · -- the folder of the target cannot be looked up either
    rcases hup' : segs.dropLast.reverse with _ | ⟨name, up⟩
    · rw [List.reverse_eq_nil_iff.1 hup', List.append_nil, hroot] at hparent
      cases hparent
    · have hparent' : l.barred (site_dir cfg slug ++ (name :: up).reverse) = true := by
        rwa [← hup', List.reverse_reverse]
      rw [checkParents, run_bind, run_bind_of_error _ (Limits.run_kind_barred hparent')]

theorem run_landFile_refused (i : ℕ) (rt : Runtime) (overwrite : Bool) (staged : Staged) {r : SiteRec}
    (h : PlainSite cfg w.disk slug) (hup : l.Upward) (hr : w.db.sites[slug]? = some r)
    (hway : l.wayTo w.disk (site_dir cfg slug) (segments path) ≠ .barred)
    (htarget : l.barred (site_dir cfg slug ++ segments path) = true)
    (hfile : ¬ (l.barred (site_dir cfg slug ++ (segments path).dropLast) = false ∧
      fileAbove w.disk (site_dir cfg slug) (segments path) = true)) :
    (run (l.exec i) (landFile cfg rt slug path overwrite staged) w).1 = .error (.os .other) := by
  have hsite : l.lets (.db (.site_by_slug slug)) := rfl
  have hres := Limits.run_resolve (i := i) (w := w) l cfg rt slug path
  rw [resolved_plain h rt hway] at hres
  rw [landFile, run_bind_of_ok _ ((Limits.run_query_let hsite).trans (Alone.run_site_by_slug slug)), hr,
    if_neg (by simp), run_bind_of_ok _ hres]
  exact congrArg Prod.fst (run_bind_of_error _ (Prod.ext
    (run_check_refused h (open_root hway) htarget path overwrite hfile hup) rfl))

/-- **An upload that is not within reach** fails as the operating system does. -/
theorem run_write_file_refused (rt : Runtime) (h : ApiVolume cfg i w slug) {r : SiteRec}
    (hr : w.db.sites[slug]? = some r) (overwrite : Bool) (chunks : List Bytes)
    {declared_length : Option ℤ} (hdecl : ∀ n, declared_length = some n → n = chunks.flatten.length)
    (room : Room l cfg i w path chunks.flatten.length)
    (hreach : withinReach l cfg w.disk slug (segments path) chunks.flatten.length = false) :
    (run (l.exec i) (write_file cfg rt slug path ⟨chunks, none⟩ overwrite declared_length) w).1 =
      .error (.os .other) := by
  have hres := Limits.run_resolve (i := i) (w := w) l cfg rt slug path
  rw [write_file]
  by_cases hway : l.wayTo w.disk (site_dir cfg slug) (segments path) = .barred
  · rw [Limits.resolved, hway] at hres
    rw [run_bind_of_error _ hres]
  rw [resolved_plain h.toPlainSite rt hway] at hres
  rw [withinReach, decide_eq_true hway, Bool.true_and, Bool.or_eq_false_iff, Bool.or_eq_false_iff,
    decide_eq_false_iff_not, Bool.not_eq_false', Bool.and_eq_false_iff] at hreach
  obtain ⟨⟨hcap, htarget⟩, hfile⟩ := hreach
  have hbody : (⟨chunks, none⟩ : Incoming).ending = none := rfl
  rcases run_stage_whole (i := i) rt h.staging_dir h.fresh hbody with
    ⟨hlarge, -⟩ | ⟨-, w1, staged, data, hrec, hstage⟩
  · exact absurd hlarge hcap
  have hopen : l.barred staged.path = false := by
    rw [hrec.path]
    exact room.staging
  have hway1 : l.wayTo w1.disk (site_dir cfg slug) (segments path) ≠ .barred := by
    rwa [Limits.wayTo_congr (hrec.below slug)]
  have hfile1 : ¬ (l.barred (site_dir cfg slug ++ (segments path).dropLast) = false ∧
      fileAbove w1.disk (site_dir cfg slug) (segments path) = true) := by
    rintro ⟨hparent, habove⟩
    rw [fileAbove_congr (hrec.below slug)] at habove
    rw [hparent, habove] at hfile
    rcases hfile with hfile | hfile <;> cases hfile
  have hland := run_landFile_refused (w := taken w1 i slug) i rt overwrite staged
    (hrec.plain h.toPlainSite) room.upward (hrec.kept.db ▸ hr) hway1 htarget hfile1
  rw [run_bind_of_ok _ hres, declared_within hdecl hcap, if_neg Bool.false_ne_true,
    run_bind_of_ok _ ((Limits.run_of_along (along_stage _ room.staging)).trans hstage)]
  exact congrArg Prod.fst (run_bind_of_error _ (Prod.ext (run_cleaned_error hopen slug hland) rfl))

/-! ### All uploads -/

/-- The verdict on the bytes is an answer of the API. -/
theorem verdict_ne {t : Files Str} (h : PlainSite cfg t slug) (e : OsError) {overwrite : Bool}
    {b : Bytes} : verdict cfg rt t slug path overwrite b ≠ .error (.os e) := by
  rw [verdict]
  split_ifs
  · rintro ⟨⟩
  · rcases writeTarget_conflict rt path h (segments path) overwrite with
      ⟨code, m, -, hwt⟩ | ⟨-, hwt, -⟩ <;> rw [hwt] <;> rintro ⟨⟩

/-- **An upload's outcome depends on its bytes only, exactly when it is within reach** of what the
operating system lets be looked up. -/
theorem upload_by_bytes_iff (l : Limits) (h : ApiVolume cfg i w slug) {r : SiteRec}
    (hr : w.db.sites[slug]? = some r) (hpath : validate_site_path rt path false = .ok path)
    (overwrite : Bool) (chunks : List Bytes) {declared_length : Option ℤ}
    (hdecl : ∀ n, declared_length = some n → n = chunks.flatten.length)
    (room : Room l cfg i w path chunks.flatten.length) :
    ByBytes cfg rt (l.exec i) i w slug path overwrite chunks declared_length ↔
      withinReach l cfg w.disk slug (segments path) chunks.flatten.length = true := by
  constructor
  · intro hby
    by_contra hreach
    have hfails := run_write_file_refused rt h hr overwrite chunks hdecl room
      (Bool.eq_false_iff.2 hreach)
    exact verdict_ne h.toPlainSite _ (hby.outcome.symm.trans hfails)
  · intro hreach
    have hplain := upload_by_bytes h hr hpath overwrite chunks hdecl
    have halong := along_write_file h hpath room hreach overwrite declared_length
    have hrun := Limits.run_of_along halong
    exact ⟨hrun ▸ hplain.outcome, hplain.verdict_is, hrun ▸ hplain.left,
      throughout_refusing halong hplain.bounded⟩

/-- What the limits of an operating system and a database leave to an upload. -/
theorem room_os {path_max n : ℕ} (hpath : validate_site_path rt path false = .ok path)
    (hstaging : Limits.pathBytes (nextStaging cfg w i) < path_max) (hsize : n < 2 ^ 63)
    (hclock : ∀ k, (w.oracle i).stamp k < 2 ^ 63) : Room (.os path_max) cfg i w path n where
  upward := Limits.os_upward path_max
  staging := decide_eq_false (not_le.2 hstaging)
  text := by
    obtain ⟨b, hb⟩ := (Common.RouteTable.path_plain hpath).2
    exact Option.isSome_iff_exists.2 ⟨b, hb⟩
  size := decide_eq_true hsize
  clock k := decide_eq_true (hclock k)

theorem upload_by_bytes_short : ByBytes smallConfig plainRuntime ((Limits.os 4096).exec 0) 0
    (oneSite (lit "a")) (lit "a") (lit "d/f") false [[1], [], [2, 3]] (some 3) := by
  obtain ⟨r, hr⟩ := oneSite_row (lit "a")
  have hpath : validate_site_path plainRuntime (lit "d/f") false = .ok (lit "d/f") := by decide +kernel
  have hdecl : ∀ n : ℤ, some 3 = some n → n = ([[1], [], [2, 3]] : List Bytes).flatten.length :=
    fun n hn => (Option.some.inj hn).symm
  have room : Room (.os 4096) smallConfig 0 (oneSite (lit "a")) (lit "d/f") 3 :=
    room_os hpath (by decide +kernel) (by decide) fun k => Nat.two_pow_pos 63
  exact (upload_by_bytes_iff (.os 4096) (oneSite_volume _) hr hpath false [[1], [], [2, 3]] hdecl room).2
    (by decide +kernel)

/-- A path of sixteen names of 252 bytes each: 1023 characters, 4047 bytes. -/
def longPath : Str := join (List.replicate 16 (List.replicate 63 0x1F600))

/-- A slug of 63 letters. -/
def longSlug : Str := List.replicate 63 (ofChar 'a')

/-- **A path that is accepted, on a volume that only the API has changed**: an upload to it does not come
to its verdict. -/
theorem upload_by_bytes_long : validate_site_path plainRuntime longPath false = .ok longPath ∧
    ApiVolume smallConfig 0 (oneSite longSlug) longSlug ∧
    verdict smallConfig plainRuntime (oneSite longSlug).disk longSlug longPath false [1] =
      .ok ⟨longPath, 1, plainRuntime.sha256 [1], false⟩ ∧
    (run ((Limits.os 4096).exec 0) (write_file smallConfig plainRuntime longSlug longPath ⟨[[1]], none⟩
      false none) (oneSite longSlug)).1 = .error (.os .other) ∧
    ¬ ByBytes smallConfig plainRuntime ((Limits.os 4096).exec 0) 0 (oneSite longSlug) longSlug longPath
      false [[1]] none := by
  obtain ⟨r, hr⟩ := oneSite_row longSlug
  have hvolume := oneSite_volume longSlug
  have hpath : validate_site_path plainRuntime longPath false = .ok longPath := by decide +kernel
  have hdecl : ∀ n : ℤ, (none : Option ℤ) = some n → n = ([[1]] : List Bytes).flatten.length := by
    rintro n ⟨⟩
  have room : Room (.os 4096) smallConfig 0 (oneSite longSlug) longPath 1 :=
    room_os hpath (by decide +kernel) (by decide) fun k => Nat.two_pow_pos 63
  have hreach : withinReach (.os 4096) smallConfig (oneSite longSlug).disk longSlug (segments longPath) 1 =
    false := by decide +kernel
  have hfails := run_write_file_refused plainRuntime hvolume hr false [[1]] hdecl room hreach
  refine ⟨hpath, hvolume, ?_, hfails, fun hby =>
    verdict_ne hvolume.toPlainSite _ (hby.outcome.symm.trans hfails)⟩
  have hverdict := (upload_by_bytes hvolume hr hpath false [[1]] hdecl).verdict_is
  have hconflict : conflict (oneSite longSlug).disk (site_dir smallConfig longSlug)
    (segments longPath) false = none := by decide +kernel
  rw [if_neg (by decide +kernel), hconflict] at hverdict
  exact hverdict

end PaperBoxing.Backend.LongPaths
