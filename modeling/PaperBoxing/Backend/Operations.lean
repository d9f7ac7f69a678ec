import PaperBoxing.Backend.Storage
import PaperBoxing.Lib.Paths

/-! # The operations of the storage, side by side

The operations on the sites as threads of one machine: `create_site`, `delete_site`, `list_folder`,
`write_file`, `delete_file` and `delete_folder`, each with its arguments, and what each returns. The
machine interleaves them call by call, also where the event loop would not; what holds of all its runs
holds of those.

* `answers_faultless`: how a call is answered when nothing fails;
* `ends_hold`: what a held section that ended did. -/

namespace PaperBoxing.Backend.Operations

open PaperBoxing.Lib PaperBoxing.Lib.Action PaperBoxing.Lib.Program PaperBoxing.Lib.Threads
open PaperBoxing.Lib.Paths PaperBoxing.Lib.Text PaperBoxing.Lib.IsoTime PaperBoxing.Lib.Disk
open PaperBoxing.Common.Schema PaperBoxing.Common.Naming PaperBoxing.Backend.Db
open PaperBoxing.Backend.Calls PaperBoxing.Backend

/-- An operation, with its arguments. -/
inductive Operation : Type where
  | create_site (slug name : Str) (created_at : Instant)
  | delete_site (slug : Str)
  | list_folder (slug folder : Str)
  | write_file (slug path : Str) (body : Incoming) (overwrite : Bool) (declared_length : Option ℤ)
  | delete_file (slug path : Str)
  | delete_folder (slug path : Str) (recursive : Bool)

/-- What an operation returns. -/
inductive Result : Type where
  | site (site : SiteRow)
  | listing (listing : FileListing)
  | upload (result : UploadResult)
  | done

/-- The code of an operation. -/
def Operation.code (cfg : Calls.Config) (rt : Runtime) : Operation → Code Result
  | .create_site slug name created_at =>
    Storage.create_site cfg rt slug name created_at >>= fun site => .ret (.site site)
  | .delete_site slug => Storage.delete_site cfg slug >>= fun _ => .ret .done
  | .list_folder slug folder =>
    Storage.list_folder cfg rt slug folder >>= fun listing => .ret (.listing listing)
  | .write_file slug path body overwrite declared_length =>
    Storage.write_file cfg rt slug path body overwrite declared_length >>= fun result =>
      .ret (.upload result)
  | .delete_file slug path => Storage.delete_file cfg rt slug path >>= fun _ => .ret .done
  | .delete_folder slug path recursive =>
    Storage.delete_folder cfg rt slug path recursive >>= fun _ => .ret .done

/-- The exception that a thread has ended with. -/
def raised {A : Type} : Code A → Option Exn
  | .raise e => some e
  | _ => none

theorem raised_eq_some {A : Type} {p : Code A} {e : Exn} (h : raised p = some e) : p = .raise e := by
  cases p <;> cases h
  rfl

/-- The result that a thread has ended with. -/
def returned {A : Type} : Code A → Option A
  | .ret a => some a
  | _ => none

theorem returned_eq_some {A : Type} {p : Code A} {a : A} (h : returned p = some a) : p = .ret a := by
  cases p <;> cases h
  rfl

/-- A call of the backend that was made. -/
abbrev Ev : Type := Event sig Exn World

variable {A : Type} {i : ℕ} {w w' : World} {es : List Ev}

theorem answers_faultless {c : Calls.Call} {r : Except Exn (Calls.Resp c)} :
    faultless.Answers i c w r w' ↔ ready i c w = true ∧ (r, w') = exec i c w :=
  ⟨fun h => ⟨h.1, h.2.resolve_right fun ⟨_, _, hf⟩ => hf⟩, fun h => ⟨h.1, Or.inl h.2⟩⟩

/-- **A held section that ended**: the lock was taken, the body ended, and the lock was given back. -/
theorem ends_hold {slug : Str} {p : Code A} {o : Except Exn A}
    (h : Ends faultless i (hold slug p) es o) : ∃ w1 w2 es' w3 w4, es =
      ⟨i, .acquire slug, .ok (), w1, w2⟩ :: (es' ++ [⟨i, .release slug, .ok (), w3, w4⟩]) ∧
      Ends faultless i p es' o := by
  rcases Ends.bind h with ⟨e, rfl, h1⟩ | ⟨_, es1, es2, rfl, h1, h2⟩
  · obtain ⟨w1, w2, -, ha⟩ := h1.invoke
    cases (Prod.mk.inj (answers_faultless.1 ha).2).1
  obtain ⟨w1, w2, rfl, -⟩ := h1.invoke
  obtain ⟨o', es3, es4, rfl, h3, h4⟩ := h2.finallyDo
  rcases h4 with ⟨e, -, h4⟩ | ⟨rfl, h4⟩
  · obtain ⟨w3, w4, -, ha⟩ := h4.invoke
    cases (Prod.mk.inj (answers_faultless.1 ha).2).1
  · obtain ⟨w3, w4, rfl, -⟩ := h4.invoke
    exact ⟨w1, w2, es3, w3, w4, rfl, h3⟩

/-- A small backend with the site `a`, whose folder is empty. -/
def withSite : World :=
  let w := smallWorld (insert_site ⟨lit "a", lit "a", ⟨62135596800000000, unixStart_lt⟩⟩ .empty).2
  { w with disk := w.disk.put (Storage.site_dir smallConfig (lit "a")) .folder }

end PaperBoxing.Backend.Operations
