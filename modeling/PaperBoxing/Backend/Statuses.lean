import PaperBoxing.Backend.Frames
import PaperBoxing.Backend.Operations

/-! # What the routes of the sites refuse with

Each program of the storage and of its routes raises errors of the API by a few statuses, or what is
none of the API's. The statements are over any machine whose calls do as their execution says, and any
set of exceptions that admits these statuses.

* `throws_write_file` and the like: an operation of the storage;
* `throws_serve_sites`: a route of the sites refuses by 400, 404, 409 or 413. -/

namespace PaperBoxing.Backend.Statuses

open PaperBoxing.Lib PaperBoxing.Lib.Action PaperBoxing.Lib.Program PaperBoxing.Lib.Threads
open PaperBoxing.Lib.Paths PaperBoxing.Lib.Text PaperBoxing.Lib.Disk PaperBoxing.Common.Schema
open PaperBoxing.Lib.Trees PaperBoxing.Common.Naming PaperBoxing.Backend PaperBoxing.Backend.Db
open PaperBoxing.Backend.Accounts PaperBoxing.Backend.Calls PaperBoxing.Backend.Storage
open PaperBoxing.Backend.Operations PaperBoxing.Backend.Frames

/-- The calls of the machine do as their execution says. -/
def Executes (M : Machine sig Exn World) : Prop :=
  ∀ i c w r w', M.Answers i c w r w' → (r, w') = exec i c w

theorem executes_faultless : Executes faultless := fun _ _ _ _ _ h => (answers_faultless.1 h).2

/-- A set of exceptions that has the errors of the API by these statuses, and all others. -/
structure Admits (X : Exn → Prop) (statuses : List ℕ) : Prop where
  api : ∀ a : ApiError, a.status ∈ statuses → X (.api a)
  other : ∀ e, (∀ a, e ≠ .api a) → X e

variable {M : Machine sig Exn World} {X : Exn → Prop} {l : List ℕ} {cfg : Calls.Config} {rt : Runtime}
  {A : Type} {i : ℕ} {slug : Str}

theorem Admits.os (h : Admits X l) (e : OsError) : X (.os e) := h.other _ (by rintro a ⟨⟩)

theorem throws_refuse (hX : Admits X l) {status : ℕ} (h : status ∈ l) (code : ErrorCode) (message : Str) :
    Throws M i X (refuse status code message : Code A) :=
  throws_raise (hX.api _ h)

theorem throws_invalid (hX : Admits X l) (h400 : 400 ∈ l) (path why : Str) :
    Throws M i X (.raise (.api (_invalid_path rt path why)) : Code A) :=
  throws_raise (hX.api _ h400)

/-- The disk raises errors of the disk. -/
theorem throws_os (hM : Executes M) (c : Disk.Call Str) :
    Throws M i (fun e => ∃ o, e = .os o) (disk c) :=
  throws_invoke fun w e w' ha => by
    have h := (Prod.mk.inj (hM _ _ _ _ _ ha)).1
    change _ = ((Disk.exec _ c w.disk).1.mapError Exn.os) at h
    rcases hr : (Disk.exec ⟨(w.oracle i).stamp (w.drawn i), w.scan⟩ c w.disk).1 with e' | a <;>
      rw [hr] at h
    · exact ⟨e', Except.error.inj h⟩
    · cases h

theorem throws_disk (hM : Executes M) (hX : Admits X l) (c : Disk.Call Str) : Throws M i X (disk c) :=
  fun es e h => by
    obtain ⟨o, rfl⟩ := throws_os hM c es e h
    exact hX.os o

/-- The database raises nothing of the API. -/
theorem throws_query (hM : Executes M) (hX : Admits X l) (q : Query) : Throws M i X (query q) :=
  throws_invoke fun w e _ ha => by
    have he : Except.error e = (Db.exec q w.db).1 := (Prod.mk.inj (hM _ _ _ _ _ ha)).1
    refine hX.other e ?_
    rintro a rfl
    cases q <;> try cases he
    case insert_user user =>
      rw [Db.exec, insert_user] at he
      split at he <;> cases he
    case insert_token token digest =>
      rw [Db.exec, insert_token] at he
      split at he <;> cases he
    case insert_site site =>
      rw [Db.exec, insert_site] at he
      split at he <;> cases he
    case upsert_file row =>
      rw [Db.exec, upsert_file] at he
      split at he <;> cases he

/-- What suppresses the errors of the disk raises nothing. -/
theorem throws_suppressOs {p : Code Unit} (hp : Throws M i (fun e => ∃ o, e = .os o) p) :
    Throws M i (fun _ => False) (suppressOs p) := by
  refine hp.except fun e he => ?_
  obtain ⟨o, rfl⟩ := he
  exact throws_ret

theorem throws_unlink (hM : Executes M) (p : Path Str) : Throws M i (fun _ => False) (_unlink p) :=
  throws_suppressOs (throws_os hM _)

theorem throws_lstat (hM : Executes M) (hX : Admits X l) (p : Path Str) : Throws M i X (lstat p) := by
  refine throws_attempt.bind_of fun es r h => ?_
  obtain ⟨r', hr, h1⟩ := h.attempt
  obtain rfl := Except.ok.inj hr
  rcases r with e | mode
  · dsimp only
    split_ifs
    · exact throws_ret
    · exact throws_raise (throws_disk hM hX _ _ _ h1)
  · exact throws_ret

theorem throws_kind_of (hM : Executes M) (hX : Admits X l) (p : Path Str) :
    Throws M i X (kind_of p) :=
  (throws_lstat hM hX p).bind fun _ => throws_ret

theorem throws_checkLinks (hM : Executes M) (hX : Admits X l) (h400 : 400 ∈ l) (path : Str) :
    ∀ (root : Path Str) (segs : List Str), Throws M i X (checkLinks rt path root segs)
  | _, [] => throws_ret
  | root, s :: rest => by
    refine (throws_lstat hM hX _).bind fun mode => ?_
    rcases mode with _ | _ | _ | _ | _
    · exact throws_ret
    · exact throws_checkLinks hM hX h400 path _ rest
    · exact throws_checkLinks hM hX h400 path _ rest
    · exact throws_invalid hX h400 _ _
    · exact throws_checkLinks hM hX h400 path _ rest

theorem throws_resolve (hM : Executes M) (hX : Admits X l) (h400 : 400 ∈ l) (slug path : Str) :
    Throws M i X (resolve cfg rt slug path) := by
  refine (throws_lstat hM hX _).bind fun mode => ?_
  split_ifs
  · exact throws_invalid hX h400 _ _
  refine (throws_checkLinks hM hX h400 path _ _).bind fun _ => (throws_disk hM hX _).bind fun real =>
    (throws_disk hM hX _).bind fun real_root => ?_
  split_ifs
  · exact throws_ret
  · exact throws_invalid hX h400 _ _

theorem throws_checkParents (hM : Executes M) (hX : Admits X l) (h400 : 400 ∈ l) (h409 : 409 ∈ l)
    (slug path : Str) : ∀ up : List Str, Throws M i X (checkParents cfg rt slug path up)
  | [] => throws_ret
  | _ :: up => by
    refine (throws_kind_of hM hX _).bind fun kind => ?_
    rcases kind with _ | _ | _ | _
    · exact throws_checkParents hM hX h400 h409 slug path up
    · exact throws_refuse hX h409 _ _
    · exact throws_checkParents hM hX h400 h409 slug path up
    · exact throws_invalid hX h400 _ _

theorem throws_check_write_target (hM : Executes M) (hX : Admits X l) (h400 : 400 ∈ l) (h409 : 409 ∈ l)
    (slug : Str) (target : Path Str) (path : Str) (overwrite : Bool) :
    Throws M i X (_check_write_target cfg rt slug target path overwrite) := by
  refine (throws_checkParents hM hX h400 h409 _ _ _).bind fun _ =>
    (throws_kind_of hM hX _).bind fun kind => ?_
  rcases kind with _ | _ | _ | _
  · exact throws_ret
  · dsimp only
    split_ifs
    · exact throws_ret
    · exact throws_refuse hX h409 _ _
  · exact throws_refuse hX h409 _ _
  · exact throws_invalid hX h400 _ _

/-- The making of one folder, whose failure is looked into. -/
theorem throws_mkdir (hM : Executes M) (hX : Admits X l) {p : Path Str} {g : Exn → Code Unit}
    (hmissing : Throws M i X (g (.os .notFound)))
    (hos : ∀ e, e ≠ .notFound → g (.os e) = .raise (.os e) ∨
      g (.os e) = (disk (.isDir p) >>= fun is_dir => if is_dir then .ret () else .raise (.os e))) :
    Throws M i X ((disk (.mkdir p)).except g) := by
  refine (throws_os hM _).except fun e he => ?_
  obtain ⟨o, rfl⟩ := he
  by_cases hno : o = .notFound
  · rw [hno]
    exact hmissing
  · rcases hos o hno with h | h <;> rw [h]
    · exact throws_raise (hX.os o)
    · refine (throws_disk hM hX _).bind fun is_dir => ?_
      split_ifs
      · exact throws_ret
      · exact throws_raise (hX.os o)

theorem throws_mkdirOnce (hM : Executes M) (hX : Admits X l) (exist_ok : Bool) (p : Path Str) :
    Throws M i X (mkdirOnce exist_ok p) := by
  refine throws_mkdir hM hX (throws_raise (hX.os _)) fun e he => ?_
  cases exist_ok <;> cases e <;> first | exact absurd rfl he | exact Or.inl rfl | exact Or.inr rfl

theorem throws_mkdirParents (hM : Executes M) (hX : Admits X l) : ∀ (exist_ok : Bool) (up : List Str),
    Throws M i X (mkdirParents exist_ok up)
  | exist_ok, [] => throws_mkdirOnce hM hX exist_ok []
  | exist_ok, name :: up => by
    refine throws_mkdir hM hX ?_ fun e he => ?_
    · exact (throws_mkdirParents hM hX true up).bind fun _ => throws_mkdirOnce hM hX _ _
    · cases exist_ok <;> cases e <;> first | exact absurd rfl he | exact Or.inl rfl | exact Or.inr rfl

/-- What a section holds is what it raises; the locks raise nothing. -/
theorem throws_hold (hM : Executes M) {p : Code A} (hp : Throws M i X p) : Throws M i X (hold slug p) := by
  have hlock : ∀ {c : Calls.Call} {e : Exn} {w w' : World}, (exec i c w).1 ≠ .error e →
      ¬ M.Answers i c w (.error e) w' := fun hne ha => hne (Prod.mk.inj (hM _ _ _ _ _ ha)).1.symm
  intro es e h
  rcases Ends.bind h with ⟨e', -, h1⟩ | ⟨_, es1, es2, rfl, h1, h2⟩
  · obtain ⟨w1, w2, -, ha⟩ := h1.invoke
    exact absurd ha (hlock (by rintro ⟨⟩))
  obtain ⟨o', es3, es4, rfl, h3, h4⟩ := h2.finallyDo
  rcases h4 with ⟨e', -, h4⟩ | ⟨rfl, h4⟩
  · obtain ⟨w3, w4, -, ha⟩ := h4.invoke
    exact absurd ha (hlock (by rintro ⟨⟩))
  · exact hp _ _ h3

/-! ### The operations -/

/-- An upload that finds its site refuses by 400 or 409. -/
theorem throws_landing (hM : Executes M) (hX : Admits X l) (h400 : 400 ∈ l) (h409 : 409 ∈ l)
    (slug path : Str) (overwrite : Bool) (staged : Staged) : Throws M i X (do
      let target ← resolve cfg rt slug path
      let replaced ← _check_write_target cfg rt slug target path overwrite
      mkdirParents true target.dropLast.reverse
      disk (.replace staged.path target)
      let mtime_ns ← disk (.mtime target)
      query (.upsert_file ⟨slug, path, staged.bytes, mtime_ns, staged.sha256⟩)
      .ret replaced) :=
  (throws_resolve hM hX h400 _ _).bind fun _ => (throws_check_write_target hM hX h400 h409 _ _ _ _).bind
    fun _ => (throws_mkdirParents hM hX _ _).bind fun _ => (throws_disk hM hX _).bind fun _ =>
      (throws_disk hM hX _).bind fun _ => (throws_query hM hX _).bind fun _ => throws_ret

theorem throws_landFile (hM : Executes M) (hX : Admits X l) (h400 : 400 ∈ l) (h404 : 404 ∈ l)
    (h409 : 409 ∈ l) (slug path : Str) (overwrite : Bool) (staged : Staged) :
    Throws M i X (landFile cfg rt slug path overwrite staged) := by
  refine (throws_query hM hX _).bind fun site => ?_
  split_ifs
  · exact throws_refuse hX h404 _ _
  · exact throws_landing hM hX h400 h409 slug path overwrite staged

theorem throws_token_hex (hM : Executes M) (n : ℕ) : Throws M i X (token_hex n) :=
  throws_invoke fun _ _ _ ha => by cases (Prod.mk.inj (hM _ _ _ _ _ ha)).1

theorem throws_now (hM : Executes M) : Throws M i X now :=
  throws_invoke fun _ _ _ ha => by cases (Prod.mk.inj (hM _ _ _ _ _ ha)).1

/-- A body ends with what it ends with, or is too large. -/
theorem throws_stageChunks (hM : Executes M) (hX : Admits X l) (h413 : 413 ∈ l) (staging : Path Str)
    {ending : Option Exn} (hending : ∀ e, ending = some e → X e) :
    ∀ (chunks : List Bytes) (received : Bytes),
      Throws M i X (stageChunks cfg staging ending chunks received)
  | [], received => by
    have hreceive : Throws M i X (receive none) :=
      throws_invoke fun _ _ _ ha => by cases (Prod.mk.inj (hM _ _ _ _ _ ha)).1
    rcases ending with _ | e
    · exact hreceive.bind fun _ => throws_ret
    · exact throws_raise (hending e rfl)
  | chunk :: chunks, received => by
    have hreceive : Throws M i X (receive (some chunk)) :=
      throws_invoke fun _ _ _ ha => by cases (Prod.mk.inj (hM _ _ _ _ _ ha)).1
    refine hreceive.bind fun _ => ?_
    split_ifs
    · exact throws_stageChunks hM hX h413 staging hending chunks received
    · exact throws_raise (hX.api _ h413)
    · exact (throws_disk hM hX _).bind fun _ =>
        throws_stageChunks hM hX h413 staging hending chunks _

/-- A clean-up of a staging file, and what it was called for. -/
theorem throws_cleaned (hM : Executes M) (q : Path Str) {e : Exn} (he : X e) :
    Throws M i X (_unlink q >>= fun _ => .raise e : Code A) :=
  Throws.bind (fun es e' h => (throws_unlink hM q es e' h).elim) fun _ => throws_raise he

theorem throws_landed (hM : Executes M) (hX : Admits X l) (h400 : 400 ∈ l) (h404 : 404 ∈ l)
    (h409 : 409 ∈ l) (slug path : Str) (overwrite : Bool) (staged : Staged) :
    Throws M i X ((hold slug (landFile cfg rt slug path overwrite staged)).except fun e =>
      _unlink staged.path >>= fun _ => .raise e) :=
  (throws_hold hM (throws_landFile hM hX h400 h404 h409 _ _ _ _)).except fun _ he =>
    throws_cleaned hM _ he

theorem throws_stage (hM : Executes M) (hX : Admits X l) (h413 : 413 ∈ l) {body : Incoming}
    (hending : ∀ e, body.ending = some e → X e) : Throws M i X (_stage cfg rt body) := by
  refine (throws_token_hex hM _).bind fun hex => Throws.bind (Throws.except
    (Y := X) ?_ fun e he => throws_cleaned hM _ he) fun _ => throws_ret
  exact (throws_disk hM hX _).bind fun _ => (throws_stageChunks hM hX h413 _ hending _ _).bind
    fun _ => (throws_disk hM hX _).bind fun _ => throws_ret

theorem throws_write_file (hM : Executes M) (hX : Admits X l) (h400 : 400 ∈ l) (h404 : 404 ∈ l)
    (h409 : 409 ∈ l) (h413 : 413 ∈ l) (slug path : Str) {body : Incoming} (overwrite : Bool)
    (declared_length : Option ℤ) (hending : ∀ e, body.ending = some e → X e) :
    Throws M i X (write_file cfg rt slug path body overwrite declared_length) := by
  refine (throws_resolve hM hX h400 _ _).bind fun _ => ?_
  split_ifs
  · exact throws_raise (hX.api _ h413)
  · exact (throws_stage hM hX h413 hending).bind fun staged =>
      (throws_landed hM hX h400 h404 h409 slug path overwrite staged).bind fun _ => throws_ret

theorem throws_removeAll (hM : Executes M) (hX : Admits X l) (ignore_errors : Bool) :
    ∀ entries : List (Path Str × Bool), Throws M i X (removeAll ignore_errors entries)
  | [] => throws_ret
  | (path, is_dir) :: rest => by
    refine Throws.bind ?_ fun _ => throws_removeAll hM hX ignore_errors rest
    cases ignore_errors <;> cases is_dir
    · exact throws_disk hM hX _
    · exact throws_disk hM hX _
    · exact fun es e h => (throws_suppressOs (throws_os hM _) es e h).elim
    · exact fun es e h => (throws_suppressOs (throws_os hM _) es e h).elim

theorem throws_rmtree (hM : Executes M) (hX : Admits X l) (ignore_errors : Bool) (path : Path Str) :
    Throws M i X (rmtree ignore_errors path) := by
  refine throws_attempt.bind_of fun es r h => ?_
  obtain ⟨r', hr, h1⟩ := h.attempt
  obtain rfl := Except.ok.inj hr
  rcases r with e | entries
  · obtain ⟨o, rfl⟩ := throws_os hM _ _ _ h1
    cases ignore_errors
    · exact throws_raise (hX.os o)
    · exact throws_ret
  · exact throws_removeAll hM hX _ _

theorem throws_create_site (hM : Executes M) (hX : Admits X l) (h409 : 409 ∈ l) (slug name : Str)
    (created_at : IsoTime.Instant) :
    Throws M i X (Storage.create_site cfg rt slug name created_at) := by
  refine throws_hold hM ((throws_query hM hX _).bind fun existing => ?_)
  split_ifs
  · exact throws_refuse hX h409 _ _
  refine ((throws_mkdirParents hM hX _ _).except fun e he => ?_).bind fun _ =>
    ((throws_query hM hX _).except fun e he => ?_).bind fun _ => throws_ret
  · rcases e with _ | o | _ | _ | _ | _ | _ | _ <;> try exact throws_raise he
    rcases o with _ | _ | _ | _ | _ | _ | _ | _ | _ <;>
      first | exact throws_raise he | exact throws_refuse hX h409 _ _
  · refine Throws.bind (fun es e' h => (throws_suppressOs (throws_os hM _) es e' h).elim) fun _ => ?_
    rcases e with _ | _ | _ | _ | _ | _ | _ | _ <;>
      first | exact throws_raise he | exact throws_refuse hX h409 _ _

theorem throws_delete_site (hM : Executes M) (hX : Admits X l) (slug : Str) :
    Throws M i X (Storage.delete_site cfg slug) := by
  refine (throws_hold hM ((throws_kind_of hM hX _).bind fun kind => Throws.bind ?_ fun _ =>
    (throws_query hM hX _).bind fun _ => throws_ret)).bind fun parked => ?_
  · split_ifs
    · exact (throws_token_hex hM _).bind fun _ => (throws_disk hM hX _).bind fun _ => throws_ret
    · exact throws_ret
  · rcases parked with _ | parked
    · exact throws_ret
    refine (throws_kind_of hM hX _).bind fun kind => ?_
    split_ifs
    · exact throws_rmtree hM hX _ _
    · exact fun es e h => (throws_unlink hM _ es e h).elim

theorem throws_removeFile (hM : Executes M) (hX : Admits X l) (h400 : 400 ∈ l) (h404 : 404 ∈ l)
    (h409 : 409 ∈ l) (slug path : Str) : Throws M i X (removeFile cfg rt slug path) := by
  refine (throws_resolve hM hX h400 _ _).bind fun _ => (throws_kind_of hM hX _).bind fun kind => ?_
  rcases kind with _ | _ | _ | _
  · exact throws_refuse hX h404 _ _
  · exact (throws_disk hM hX _).bind fun _ => throws_query hM hX _
  · exact throws_refuse hX h409 _ _
  · exact throws_invalid hX h400 _ _

theorem throws_removeFolder (hM : Executes M) (hX : Admits X l) (h400 : 400 ∈ l) (h404 : 404 ∈ l)
    (h409 : 409 ∈ l) (slug path : Str) (recursive : Bool) :
    Throws M i X (removeFolder cfg rt slug path recursive) := by
  refine (throws_resolve hM hX h400 _ _).bind fun _ => (throws_kind_of hM hX _).bind fun kind => ?_
  rcases kind with _ | _ | _ | _
  · exact throws_refuse hX h404 _ _
  · exact throws_refuse hX h409 _ _
  · refine (throws_disk hM hX _).bind fun entries => ?_
    split_ifs
    · exact throws_refuse hX h409 _ _
    · exact (throws_rmtree hM hX _ _).bind fun _ => (throws_query hM hX _).bind fun _ => throws_ret
  · exact throws_invalid hX h400 _ _

theorem throws_file_path (hM : Executes M) (hX : Admits X l) (h400 : 400 ∈ l) (h404 : 404 ∈ l)
    (h409 : 409 ∈ l) (slug path : Str) : Throws M i X (file_path cfg rt slug path) := by
  refine (throws_resolve hM hX h400 _ _).bind fun _ => (throws_kind_of hM hX _).bind fun kind => ?_
  rcases kind with _ | _ | _ | _
  · exact throws_refuse hX h404 _ _
  · exact throws_ret
  · exact throws_refuse hX h409 _ _
  · exact throws_invalid hX h400 _ _

theorem throws_reconcile (hM : Executes M) (hX : Admits X l) (slug rel : Str) (p : Path Str) (st : Stat)
    (rows : List FileRow) : Throws M i X (reconcile rt slug rel p st rows) := by
  have hrewrite : Throws M i X (reconcile.rewrite rt slug rel p st) :=
    (throws_disk hM hX _).bind fun _ => (throws_query hM hX _).bind fun _ => throws_ret
  rw [reconcile]
  split
  · split_ifs
    · exact hrewrite
    · exact throws_ret
  · exact hrewrite

theorem throws_gatherAll (hM : Executes M) (hX : Admits X l) (slug folder : Str) (target : Path Str)
    (rows : List FileRow) : ∀ (names : List Str) (g : Gathered),
      Throws M i X (gatherAll rt slug folder target rows names g)
  | [], _ => throws_ret
  | name :: names, g => by
    refine Throws.bind (throws_attempt.bind_of fun es r h => ?_) fun g' =>
      throws_gatherAll hM hX slug folder target rows names g'
    obtain ⟨r', hr, h1⟩ := h.attempt
    obtain rfl := Except.ok.inj hr
    rcases r with e | ⟨mode, size, mtime⟩
    · obtain ⟨o, rfl⟩ := throws_os hM _ _ _ h1
      exact throws_ret
    · rcases mode with _ | _ | _ | _
      · exact (throws_reconcile hM hX _ _ _ _ _).bind fun _ => throws_ret
      · exact (throws_query hM hX _).bind fun _ => throws_ret
      · exact throws_ret
      · exact throws_ret

theorem throws_dropStale (hM : Executes M) (hX : Admits X l) (slug : Str) : ∀ paths : List Str,
    Throws M i X (dropStale slug paths)
  | [] => throws_ret
  | _ :: paths => (throws_query hM hX _).bind fun _ => throws_dropStale hM hX slug paths

theorem throws_list_folder (hM : Executes M) (hX : Admits X l) (h400 : 400 ∈ l) (h404 : 404 ∈ l)
    (h409 : 409 ∈ l) (slug folder : Str) : Throws M i X (list_folder cfg rt slug folder) := by
  refine (throws_resolve hM hX h400 _ _).bind fun target => (throws_kind_of hM hX _).bind fun kind => ?_
  rcases kind with _ | _ | _ | _
  · dsimp only
    split_ifs
    · exact throws_ret
    · exact throws_refuse hX h404 _ _
  · exact throws_refuse hX h409 _ _
  · exact (throws_query hM hX _).bind fun rows => (throws_disk hM hX _).bind fun names =>
      (throws_gatherAll hM hX _ _ _ _ _ _).bind fun g => (throws_dropStale hM hX _ _).bind fun _ =>
        throws_ret
  · exact throws_invalid hX h400 _ _

/-! ### The routes -/

theorem throws_site (hM : Executes M) (hX : Admits X l) (h404 : 404 ∈ l) (slug : Str) :
    Throws M i X (Routes._site rt slug) := by
  rw [Routes._site]
  split
  · exact throws_refuse hX h404 _ _
  · refine (throws_query hM hX _).bind fun site => ?_
    rcases site with _ | site
    · exact throws_refuse hX h404 _ _
    · exact throws_ret

theorem throws_valid_path (hX : Admits X l) (h400 : 400 ∈ l) (raw : Str) (allow_root : Bool) :
    Throws M i X (Routes._valid_path rt raw allow_root) := by
  rw [Routes._valid_path]
  split
  · exact throws_ret
  · exact throws_refuse hX h400 _ _

theorem throws_public_site (hM : Executes M) (hX : Admits X l) (site : SiteRow) :
    Throws M i X (Routes._public_site cfg site) :=
  ((throws_query hM hX _).bind fun _ => throws_ret).bind fun _ => throws_ret

theorem throws_publicSites (hM : Executes M) (hX : Admits X l) : ∀ sites : List SiteRow,
    Throws M i X (Routes.publicSites cfg sites)
  | [] => throws_ret
  | site :: sites => (throws_public_site hM hX site).bind fun _ =>
    (throws_publicSites hM hX sites).bind fun _ => throws_ret

/-- **A route of the sites refuses by 400, 404, 409 or 413**; it may also end as the body of an upload
does. -/
theorem throws_serve_sites (hM : Executes M) (hX : Admits X l) (h400 : 400 ∈ l) (h404 : 404 ∈ l)
    (h409 : 409 ∈ l) (h413 : 413 ∈ l) {hasher : Hasher} (actor : Actor) {request : Routes.Request}
    (h : aboutSites request = true) (hending : ∀ slug path body declared overwrite,
      request = .upload_file slug path body declared overwrite → ∀ e, body.ending = some e → X e) :
    Throws M i X (Routes.serve cfg rt hasher actor request) := by
  have hsite : ∀ slug, Throws M i X (Routes._site rt slug) := throws_site hM hX h404
  have hpath : ∀ raw allow, Throws M i X (Routes._valid_path rt raw allow) := throws_valid_path hX h400
  cases request <;> try cases h
  case list_sites =>
    exact (throws_query hM hX _).bind fun rows => (throws_publicSites hM hX rows).bind fun _ => throws_ret
  case create_site name =>
    change Throws M i X (Routes.create_site cfg rt name)
    rw [Routes.create_site]
    split
    · exact throws_refuse hX h400 _ _
    · exact (throws_now hM).bind fun _ => (throws_create_site hM hX h409 _ _ _).bind fun site =>
        (throws_public_site hM hX site).bind fun _ => throws_ret
  case get_site slug =>
    exact (hsite slug).bind fun site => (throws_public_site hM hX site).bind fun _ => throws_ret
  case delete_site slug confirm =>
    refine (hsite slug).bind fun site => ?_
    split_ifs
    · exact throws_refuse hX h400 _ _
    · exact (throws_delete_site hM hX _).bind fun _ => throws_ret
  case list_files slug path =>
    exact (hsite slug).bind fun _ => (hpath _ _).bind fun _ =>
      (throws_list_folder hM hX h400 h404 h409 _ _).bind fun _ => throws_ret
  case upload_file slug path body declared_length overwrite =>
    exact (hsite slug).bind fun _ => (hpath _ _).bind fun _ =>
      (throws_write_file hM hX h400 h404 h409 h413 _ _ _ _
        (hending _ _ _ _ _ rfl)).bind fun _ => throws_ret
  case download_file slug path =>
    exact (hsite slug).bind fun _ => (hpath _ _).bind fun _ =>
      (throws_file_path hM hX h400 h404 h409 _ _).bind fun _ => (throws_disk hM hX _).bind fun _ =>
        throws_ret
  case delete_file slug path =>
    exact (hsite slug).bind fun _ => (hpath _ _).bind fun _ =>
      (throws_hold hM (throws_removeFile hM hX h400 h404 h409 _ _)).bind fun _ => throws_ret
  case delete_folder slug path recursive =>
    exact (hsite slug).bind fun _ => (hpath _ _).bind fun _ =>
      (throws_hold hM (throws_removeFolder hM hX h400 h404 h409 _ _ _)).bind fun _ => throws_ret

/-! ### Alone -/

/-- The machine on which a program runs alone: its locks are free. -/
def alone : Machine sig Exn World := ⟨exec, fun _ _ _ => true, fun _ _ _ _ _ => False⟩

theorem executes_alone : Executes alone := fun _ _ _ _ _ h => h.2.resolve_right fun ⟨_, _, hf⟩ => hf

/-- **What a program raises when it runs alone** is among what it can raise. -/
theorem Throws.of_run {p : Code A} (hp : Throws alone i X p) {w w' : World} {e : Exn}
    (h : run (exec i) p w = (.error e, w')) : X e := by
  have hends : ∀ (p : Code A) (w : World), ∃ es, Ends alone i p es (run (exec i) p w).1 := by
    intro p
    induction p with
    | ret a => exact fun w => ⟨[], .refl⟩
    | raise e => exact fun w => ⟨[], .refl⟩
    | call c k ih =>
      intro w
      obtain ⟨es, hes⟩ := ih (exec i c w).1 (exec i c w).2
      exact ⟨_, .step ⟨rfl, Or.inl rfl⟩ hes⟩
  obtain ⟨es, hes⟩ := hends p w
  rw [h] at hes
  exact hp es e hes

end PaperBoxing.Backend.Statuses
