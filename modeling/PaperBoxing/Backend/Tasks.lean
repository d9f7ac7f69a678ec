import PaperBoxing.Backend.Operations
import PaperBoxing.Lib.Workers

/-! # The operations of the storage as tasks

The operations on the sites as `backend/storage.py` runs them on the event loop, with what they hand to
`asyncio.to_thread`: the sync of a staging file and the removal of a tree. The calls of `Storage` are
the same without the hand-overs.

* `inPlace_task`: a task with its hand-overs in place is the program of `Storage`;
* `loop`: where a task waits, and may be cancelled. -/

namespace PaperBoxing.Backend.Tasks

open PaperBoxing.Lib PaperBoxing.Lib.Program PaperBoxing.Lib.Workers PaperBoxing.Lib.Text
open PaperBoxing.Lib.IsoTime PaperBoxing.Lib.Trees PaperBoxing.Lib.Disk PaperBoxing.Common.Schema
open PaperBoxing.Common.Naming PaperBoxing.Backend.Db PaperBoxing.Backend.Calls
open PaperBoxing.Backend.Operations PaperBoxing.Backend.Storage PaperBoxing.Backend

/-- A task of the backend. -/
abbrev TaskCode (A : Type) : Type := Task sig Exn A

/-- `async with locks.hold(slug): p`. -/
def hold {A : Type} (slug : Str) (p : TaskCode A) : TaskCode A := do
  lift (Prog.invoke (S := sig) (.acquire slug))
  p.finallyDo (lift (Prog.invoke (S := sig) (.release slug)))

section
variable (cfg : Calls.Config) (rt : Runtime)

/-- What `_stage` does between opening the staging file and closing it. -/
def fillStaging (staging : Path Str) (body : Incoming) : TaskCode Bytes := do
  lift (disk (.create staging))
  let received ← lift (stageChunks cfg staging body.ending body.chunks [])
  to_thread (disk (.sync staging))
  .ret received

/-- `_stage`. -/
def _stage (body : Incoming) : TaskCode Staged := do
  let hex ← lift (token_hex 8)
  let received ← (fillStaging cfg (stagingPath cfg hex) body).except fun e =>
    lift (_unlink (stagingPath cfg hex)) >>= fun _ => .raise e
  .ret ⟨stagingPath cfg hex, rt.sha256 received, received.length⟩

/-- `write_file`. -/
def write_file (slug path : Str) (body : Incoming) (overwrite : Bool)
    (declared_length : Option ℤ) : TaskCode UploadResult := do
  let _ ← lift (resolve cfg rt slug path)
  if declared_length.any fun n => (cfg.max_upload_bytes : ℤ) < n then
    .raise (.api (_too_large cfg))
  else do
    let staged ← _stage cfg rt body
    let replaced ← (hold slug (lift (landFile cfg rt slug path overwrite staged))).except fun e =>
      lift (_unlink staged.path) >>= fun _ => .raise e
    .ret ⟨path, staged.bytes, staged.sha256, replaced⟩

/-- `delete_site`. -/
def delete_site (slug : Str) : TaskCode Unit := do
  let parked ← hold slug (lift (parkSite cfg slug))
  match parked with
  | none => .ret ()
  | some parked => do
    let kind ← lift (kind_of parked)
    if kind = .folder then to_thread (rmtree true parked) else lift (_unlink parked)

/-- The critical section of `delete_folder`. -/
def removeFolder (slug path : Str) (recursive : Bool) : TaskCode Unit := do
  let target ← lift (resolve cfg rt slug path)
  let kind ← lift (kind_of target)
  match kind with
  | .file => .raise (.api ⟨409, .not_a_folder, rt.repr path ++ lit " is a file; use the files route"⟩)
  | .special => .raise (.api (_invalid_path rt path (lit "not a folder")))
  | .missing => .raise (.api ⟨404, .not_found,
      lit "no folder " ++ rt.repr path ++ lit " in site " ++ rt.repr slug⟩)
  | .folder => do
    let entries ← lift (disk (.scandir target))
    if !entries.isEmpty && !recursive then
      .raise (.api ⟨409, .folder_not_empty, rt.repr path ++
        lit " is not empty; pass recursive=true to delete everything in it"⟩)
    else do
      to_thread (rmtree false target)
      let _ ← lift (query (.delete_files_under slug path))
      .ret ()

/-- `delete_folder`. -/
def delete_folder (slug path : Str) (recursive : Bool) : TaskCode Unit :=
  hold slug (removeFolder cfg rt slug path recursive)

end

/-- **The task of an operation.** -/
def task (cfg : Calls.Config) (rt : Runtime) : Operation → TaskCode Result
  | .create_site slug name created_at =>
    lift (Storage.create_site cfg rt slug name created_at) >>= fun site => .ret (.site site)
  | .delete_site slug => delete_site cfg slug >>= fun _ => .ret .done
  | .list_folder slug folder =>
    lift (Storage.list_folder cfg rt slug folder) >>= fun listing => .ret (.listing listing)
  | .write_file slug path body overwrite declared_length =>
    write_file cfg rt slug path body overwrite declared_length >>= fun result => .ret (.upload result)
  | .delete_file slug path => lift (Storage.delete_file cfg rt slug path) >>= fun _ => .ret .done
  | .delete_folder slug path recursive =>
    delete_folder cfg rt slug path recursive >>= fun _ => .ret .done

/-- **The event loop**: a task waits for a lock and for the chunks of its body, and may be cancelled
there. -/
def loop : Loop sig Exn World where
  machine := faultless
  awaits
    | .acquire _ | .receive _ => true
    | _ => false
  cancelled := .cancelled

/-! ### The hand-overs in place -/

section
variable {cfg : Calls.Config} {rt : Runtime}

@[simp] theorem inPlace_hold {A : Type} (slug : Str) (p : TaskCode A) :
    inPlace (hold slug p) = Calls.hold slug (inPlace p) := by
  rw [hold, inPlace_bind, inPlace_lift, Calls.hold]
  refine congrArg _ (funext fun _ => ?_)
  rw [inPlace_finallyDo, inPlace_lift]

theorem lift_hold {A : Type} (slug : Str) (p : Code A) :
    lift (Calls.hold slug p) = hold slug (lift p) := by
  rw [Calls.hold, lift_bind, hold]
  refine congrArg _ (funext fun _ => ?_)
  rw [lift_finallyDo]

theorem inPlace_stage (body : Incoming) : inPlace (_stage cfg rt body) = Storage._stage cfg rt body := by
  simp only [_stage, fillStaging, Storage._stage, Storage.fillStaging, inPlace_bind, inPlace_lift,
    inPlace_except, inPlace_to_thread, inPlace_ret, inPlace_raise]

theorem inPlace_write_file (slug path : Str) (body : Incoming) (overwrite : Bool)
    (declared_length : Option ℤ) :
    inPlace (write_file cfg rt slug path body overwrite declared_length) =
      Storage.write_file cfg rt slug path body overwrite declared_length := by
  rw [write_file, inPlace_bind, inPlace_lift, Storage.write_file]
  refine congrArg _ (funext fun _ => ?_)
  split_ifs
  · rfl
  · simp only [inPlace_bind, inPlace_stage, inPlace_except, inPlace_hold, inPlace_lift, inPlace_raise,
      inPlace_ret]

theorem inPlace_delete_site (slug : Str) :
    inPlace (delete_site cfg slug) = Storage.delete_site cfg slug := by
  rw [delete_site, inPlace_bind, inPlace_hold, inPlace_lift, Storage.delete_site]
  refine congrArg _ (funext fun parked => ?_)
  rcases parked with _ | parked
  · rfl
  rw [inPlace_bind, inPlace_lift]
  refine congrArg _ (funext fun kind => ?_)
  split_ifs
  · rw [inPlace_to_thread]
  · rw [inPlace_lift]

theorem inPlace_removeFolder (slug path : Str) (recursive : Bool) :
    inPlace (removeFolder cfg rt slug path recursive) = Storage.removeFolder cfg rt slug path recursive := by
  rw [removeFolder, inPlace_bind, inPlace_lift, Storage.removeFolder]
  refine congrArg _ (funext fun target => ?_)
  rw [inPlace_bind, inPlace_lift]
  refine congrArg _ (funext fun kind => ?_)
  cases kind with
  | file => rfl
  | special => rfl
  | missing => rfl
  | folder =>
    rw [inPlace_bind, inPlace_lift]
    refine congrArg _ (funext fun entries => ?_)
    split_ifs
    · rfl
    · simp only [inPlace_bind, inPlace_to_thread, inPlace_lift, inPlace_ret]

/-- **A task with its hand-overs in place is the operation's program.** -/
theorem inPlace_task (op : Operation) : inPlace (task cfg rt op) = op.code cfg rt := by
  cases op <;> rw [task, inPlace_bind, Operation.code]
  case create_site => rw [inPlace_lift]; rfl
  case delete_site => rw [inPlace_delete_site]; rfl
  case list_folder => rw [inPlace_lift]; rfl
  case write_file => rw [inPlace_write_file]; rfl
  case delete_file => rw [inPlace_lift]; rfl
  case delete_folder => rw [delete_folder, inPlace_hold, inPlace_removeFolder]; rfl

end

end PaperBoxing.Backend.Tasks
