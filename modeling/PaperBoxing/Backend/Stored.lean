import PaperBoxing.Backend.Frames
import PaperBoxing.Backend.Shown

/-! # What a successful upload has stored

An upload that ran alone and was answered as a success, on any volume whatever: the bytes it received
are at its path, below a site that still has its row. Nothing is asked of the tree beforehand, so each
part is read off its own success.

* `stage_stored`: a staging that succeeded;
* `land_stored`: a critical section that succeeded;
* `write_file_stored`, `route_stored`: the whole. -/

namespace PaperBoxing.Backend.Stored

open PaperBoxing.Lib PaperBoxing.Lib.Action PaperBoxing.Lib.Program PaperBoxing.Lib.Text
open PaperBoxing.Lib.Tables PaperBoxing.Lib.Trees PaperBoxing.Lib.Disk PaperBoxing.Common.Schema
open PaperBoxing.Common.Naming PaperBoxing.Backend PaperBoxing.Backend.Db PaperBoxing.Backend.Calls
open PaperBoxing.Backend.Storage PaperBoxing.Backend.Alone PaperBoxing.Backend.Shown

variable {cfg : Config} {rt : Runtime} {i : ℕ} {w w' : World} {slug path : Str}

/-! ### The staging -/

/-- A clean-up that raises what it was called for lets nothing succeed. -/
theorem run_cleaned_inv {A : Type} {p : Code A} {clean : Code Unit} {a : A}
    (h : run (exec i) (p.except fun e => clean >>= fun _ => .raise e) w = (.ok a, w')) :
    run (exec i) p w = (.ok a, w') := by
  rcases hp : run (exec i) p w with ⟨e | b, w1⟩
  · rw [run_except_of_error _ hp] at h
    obtain ⟨_, _, -, hraise⟩ := run_bind_inv _ h
    cases (Prod.mk.inj hraise).1
  · rw [run_except_of_ok _ hp] at h
    exact hp.trans h

/-- What a call on the disk that succeeded did. -/
theorem run_disk_inv {c : Disk.Call Str} {r : Disk.Resp Str c}
    (h : run (exec i) (disk c) w = (.ok r, w')) :
    ∃ env t, Disk.exec env c w.disk = (.ok r, t) ∧ w'.disk = t ∧ w'.db = w.db := by
  rw [run_disk, onDisk] at h
  obtain ⟨hr, rfl⟩ := Prod.mk.inj h
  refine ⟨⟨(w.oracle i).stamp (w.drawn i), w.scan⟩, _, ?_, rfl, rfl⟩
  rcases he : Disk.exec ⟨(w.oracle i).stamp (w.drawn i), w.scan⟩ c w.disk with ⟨e | r', t⟩
  · rw [he] at hr
    cases hr
  · rw [he] at hr
    rw [Except.ok.inj hr]

/-- A file that was created is there, and empty. -/
theorem create_stored {p : Path Str} (h : run (exec i) (disk (.create p)) w = (.ok (), w')) :
    ∃ m, w'.disk.get p = some (.file ⟨[], m⟩) := by
  obtain ⟨env, t, he, rfl, -⟩ := run_disk_inv h
  rw [Disk.exec, create] at he
  split at he
  · cases (Prod.mk.inj he).1
  · split_ifs at he with hfits
    · rw [← (Prod.mk.inj he).2]
      exact ⟨_, (Tree.get_put hfits _ p).trans (if_pos rfl)⟩
    · cases (Prod.mk.inj he).1

/-- **A staging that succeeded** holds the body, whole. -/
theorem stage_stored {chunks : List Bytes} {staged : Staged}
    (h : run (exec i) (_stage cfg rt ⟨chunks, none⟩) w = (.ok staged, w')) :
    ∃ hex d, staged = ⟨stagingPath cfg hex, rt.sha256 chunks.flatten, chunks.flatten.length⟩ ∧
      w'.disk.get (stagingPath cfg hex) = some (.file d) ∧ d.content = chunks.flatten := by
  rw [_stage] at h
  obtain ⟨hex, w1, -, h⟩ := run_bind_inv _ h
  obtain ⟨received, w2, hfill, hret⟩ := run_bind_inv _ h
  obtain ⟨hstaged, rfl⟩ := Prod.mk.inj hret
  obtain rfl := Except.ok.inj hstaged
  replace hfill := run_cleaned_inv hfill
  rw [fillStaging] at hfill
  obtain ⟨_, w3, hcreate, hfill⟩ := run_bind_inv _ hfill
  obtain ⟨b, w4, hchunks, hfill⟩ := run_bind_inv _ hfill
  obtain ⟨m, hempty⟩ := create_stored hcreate
  obtain ⟨d, w5, hrun, -, hget, hcontent, -⟩ :=
    run_stageChunks (i := i) cfg none chunks [] w3 _ hempty
  obtain ⟨hcol, rfl⟩ := Prod.mk.inj (hrun.symm.trans hchunks)
  have hd : w5.disk.get (stagingPath cfg hex) = some (.file d) := by rw [hget, if_pos rfl]
  -- the flush looks at the file, and changes nothing
  have hsync : run (exec i) (disk (.sync (stagingPath cfg hex))) w5 = (.ok (), w5) :=
    run_disk_ok rfl fun _ => by
      rw [Disk.exec, Act.bind_of_ok (lookup_of_get hd)]
      rfl
  rw [run_bind_of_ok _ hsync] at hfill
  obtain ⟨hb, rfl⟩ := Prod.mk.inj hfill
  obtain rfl := Except.ok.inj hb
  have hb : b = chunks.flatten := by
    rw [collected_none cfg chunks [] (Nat.zero_le _), List.nil_append] at hcol
    split_ifs at hcol
    exact (Except.ok.inj hcol).symm
  subst hb
  exact ⟨hex, d, rfl, hd, hcontent rfl _ hcol⟩

/-! ### The critical section -/

/-- What is at `p`, and a row of the site `slug`. -/
structure Holds (slug : Str) (p : Path Str) (d : FileData) (w : World) : Prop where
  get : w.disk.get p = some (.file d)
  row : (w.db.sites[slug]?).isSome = true

/-- The making of folders keeps every file. -/
theorem Holds.mkdirParents {p : Path Str} {d : FileData} (h : Holds slug p d w) (exist_ok : Bool)
    (up : List Str) : Holds slug p d (run (exec i) (mkdirParents exist_ok up) w).2 := by
  refine run_preserves (I := Holds slug p d)
    (P := fun c : Calls.Call => ∃ q, c = .disk (.mkdir q) ∨ c = .disk (.isDir q)) (fun c hc w hw => ?_)
    (Frames.uses_mkdirParents exist_ok up fun q _ => ⟨⟨q, Or.inl rfl⟩, ⟨q, Or.inr rfl⟩⟩) h
  obtain ⟨q, rfl | rfl⟩ := hc
  · refine ⟨?_, hw.row⟩
    change (Disk.mkdir q w.disk).2.get p = _
    rcases hq : w.disk.get q with _ | n
    · by_cases hfits : w.disk.Fits q
      · rw [mkdir_of_none hq hfits]
        refine (Tree.get_put hfits _ p).trans ?_
        rw [if_neg, hw.get]
        rintro rfl
        cases hq.symm.trans hw.get
      · rw [mkdir_absent hq hfits]
        exact hw.get
    · rw [mkdir_exists hq]
      exact hw.get
  · exact hw

/-- **A critical section that succeeded** left the staged file at its place, and the site its row. -/
theorem land_stored {overwrite replaced : Bool} {staged : Staged} {hex : Str} {d : FileData}
    (hpath : staged.path = stagingPath cfg hex) (hget : w.disk.get staged.path = some (.file d))
    (h : run (exec i) (landFile cfg rt slug path overwrite staged) w = (.ok replaced, w')) :
    Holds slug (site_dir cfg slug ++ segments path) d w' := by
  rw [landFile] at h
  obtain ⟨site, w1, hsite, h⟩ := run_bind_inv _ h
  rw [run_site_by_slug] at hsite
  obtain ⟨hfound, rfl⟩ := Prod.mk.inj hsite
  obtain rfl := Except.ok.inj hfound
  split_ifs at h with hrow
  · cases (Prod.mk.inj h).1
  replace hrow : (w.db.sites[slug]?).isSome = true := by
    rwa [Option.map_eq_none_iff, ← ne_eq, ← Option.isSome_iff_ne_none] at hrow
  obtain ⟨target, w1, hres, h⟩ := run_bind_inv _ h
  rw [run_resolve] at hres
  obtain ⟨hclear, rfl⟩ := Prod.mk.inj hres
  obtain rfl := resolved_ok hclear
  obtain ⟨replaced', w1, hchk, h⟩ := run_bind_inv _ h
  rw [run_check_write_target] at hchk
  obtain rfl := (Prod.mk.inj hchk).2
  obtain ⟨_, w1, hmk, h⟩ := run_bind_inv _ h
  have hmade : Holds slug staged.path d w1 := by
    have := Holds.mkdirParents (i := i) ⟨hget, hrow⟩ true
      (site_dir cfg slug ++ segments path).dropLast.reverse
    rwa [hmk] at this
  obtain ⟨_, w2, hmv, h⟩ := run_bind_inv _ h
  have hne : staged.path ≠ site_dir cfg slug ++ segments path := by
    rw [hpath]
    exact sites_ne_staging cfg slug _ _
  have hmoved : Holds slug (site_dir cfg slug ++ segments path) d w2 := by
    obtain ⟨env, t, he, ht, hdb⟩ := run_disk_inv hmv
    rcases replace_outcome hne w1.disk with ⟨e, hfail⟩ | ⟨hm, hmove⟩
    · cases (Prod.mk.inj (he.symm.trans hfail)).1
    · obtain rfl := (Prod.mk.inj (he.symm.trans hmove)).2
      refine ⟨?_, by rw [hdb]; exact hmade.row⟩
      rw [ht, Tree.get_move hm, if_pos List.prefix_rfl, List.drop_length, List.append_nil, hmade.get]
  obtain ⟨mtime, w3, hmt, h⟩ := run_bind_inv _ h
  rw [run_mtime hmoved.get] at hmt
  obtain ⟨-, rfl⟩ := Prod.mk.inj hmt
  obtain ⟨_, w3, hup, h⟩ := run_bind_inv _ h
  obtain ⟨-, rfl⟩ := Prod.mk.inj h
  rw [run_query] at hup
  obtain ⟨-, rfl⟩ := Prod.mk.inj hup
  refine ⟨hmoved.get, ?_⟩
  obtain ⟨r, hr⟩ := Option.isSome_iff_exists.1 hmoved.row
  dsimp only
  rw [Db.exec, upsert_file, hr]
  dsimp only
  rw [get_sites_set_files, if_pos rfl, hr]
  rfl

/-- **An upload that succeeded** has its bytes at its path, below a site with its row, and reports
their number and their digest. -/
theorem write_file_stored {chunks : List Bytes} {overwrite : Bool} {declared_length : Option ℤ}
    {result : UploadResult}
    (h : run (exec i) (Storage.write_file cfg rt slug path ⟨chunks, none⟩ overwrite declared_length) w =
      (.ok result, w')) :
    result.bytes = chunks.flatten.length ∧ result.sha256 = rt.sha256 chunks.flatten ∧
      ∃ d, d.content = chunks.flatten ∧ Holds slug (site_dir cfg slug ++ segments path) d w' := by
  rw [Storage.write_file] at h
  obtain ⟨target, w1, -, h⟩ := run_bind_inv _ h
  split_ifs at h
  · cases (Prod.mk.inj h).1
  obtain ⟨staged, w2, hstage, h⟩ := run_bind_inv _ h
  obtain ⟨replaced, w3, hland, h⟩ := run_bind_inv _ h
  obtain ⟨hresult, rfl⟩ := Prod.mk.inj h
  obtain rfl := Except.ok.inj hresult
  obtain ⟨hex, d, rfl, hget, hcontent⟩ := stage_stored hstage
  replace hland := run_cleaned_inv hland
  rw [run_hold] at hland
  obtain ⟨hok, rfl⟩ := Prod.mk.inj hland
  have hrun : run (exec i) (landFile cfg rt slug path overwrite
      ⟨stagingPath cfg hex, rt.sha256 chunks.flatten, chunks.flatten.length⟩) (taken w2 i slug) =
    (.ok replaced, _) := Prod.ext hok rfl
  have hstored := land_stored rfl hget hrun
  exact ⟨rfl, rfl, d, hcontent, hstored.get, hstored.row⟩

/-- **The route of an upload that succeeded.** -/
theorem route_stored {chunks : List Bytes} {overwrite : Bool} {declared_length : Option ℤ}
    {result : UploadResult} {response : Response} (hslug : validate_slug rt slug = .ok slug)
    (hpath : validate_site_path rt path false = .ok path) (hbody : response.body = .upload result)
    (h : run (exec i) (Routes.upload_file cfg rt slug path ⟨chunks, none⟩ declared_length overwrite) w =
      (.ok response, w')) :
    result.bytes = chunks.flatten.length ∧ result.sha256 = rt.sha256 chunks.flatten ∧
      ∃ d, d.content = chunks.flatten ∧ Holds slug (site_dir cfg slug ++ segments path) d w' := by
  rw [Routes.upload_file] at h
  obtain ⟨site, w1, hsite, h1⟩ := run_bind_inv _ h
  rcases hr : w.db.sites[slug]? with _ | r
  · cases (Prod.mk.inj (hsite.symm.trans (run_site_missing hslug hr))).1
  obtain rfl := Except.ok.inj (Prod.mk.inj (hsite.symm.trans (run_site_found hslug hr))).1
  obtain ⟨target, w2, hvalid, h2⟩ := run_bind_inv _ h1
  obtain rfl := Except.ok.inj (Prod.mk.inj (hvalid.symm.trans (run_valid_path hpath))).1
  obtain ⟨result', w3, hwrite, h3⟩ := run_bind_inv _ h2
  obtain ⟨hresponse, rfl⟩ := Prod.mk.inj h3
  obtain rfl := Except.ok.inj hresponse
  obtain rfl := Body.upload.inj hbody
  exact write_file_stored hwrite

end PaperBoxing.Backend.Stored
