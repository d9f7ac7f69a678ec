import PaperBoxing.Backend.Db
import PaperBoxing.Lib.Threads

/-! # The calls of the backend

What the backend's code calls, and the world it calls into: the disk, the database, the locks of the
sites, the clock and the generators of random names. The code is written once, as programs over
`Call`; `exec` executes the calls of the thread `i`, and the threads of `machine` share one world.

* `ready`: a site's lock is given only while it is free;
* `exec_disk`, `exec_db`: the other parts of the world stay as they are. -/

namespace PaperBoxing.Backend.Calls

open PaperBoxing.Lib PaperBoxing.Lib.Action PaperBoxing.Lib.Program PaperBoxing.Lib.Threads
open PaperBoxing.Lib.Text PaperBoxing.Lib.IsoTime PaperBoxing.Lib.Trees PaperBoxing.Lib.Disk PaperBoxing.Common.Scopes
open PaperBoxing.Common.Schema PaperBoxing.Backend PaperBoxing.Backend.Db

/-- `BackendConfig`, as far as the storage and the routes use it. -/
structure Config : Type where
  data_dir : Path Str
  public_sites_url : Str
  max_upload_mb : ℕ
  session_days : ℕ
  /-- the checks of `__post_init__` -/
  max_upload_mb_pos : 1 ≤ max_upload_mb
  session_days_pos : 1 ≤ session_days

def Config.sites_dir (cfg : Config) : Path Str := cfg.data_dir ++ [lit "sites"]

def Config.staging_dir (cfg : Config) : Path Str := cfg.data_dir ++ [lit "staging"]

def Config.max_upload_bytes (cfg : Config) : ℕ := cfg.max_upload_mb * 1024 * 1024

/-- What a thread draws from: the clocks and the generators, by the number of draws before. -/
structure Oracle : Type where
  /-- the clock of the backend -/
  now : ℕ → Instant
  /-- the clock of the disk, in nanoseconds -/
  stamp : ℕ → ℕ
  /-- `secrets.token_hex(n)` -/
  token_hex : ℕ → ℕ → Str
  /-- `secrets.token_urlsafe(n)` -/
  token_urlsafe : ℕ → ℕ → Str
  /-- the salt of a password hash -/
  salt : ℕ → Str

/-- The body of a request: its chunks, and the exception it ends with, if any. -/
structure Incoming : Type where
  chunks : List Bytes
  ending : Option Exn

/-- **The world.** -/
structure World : Type where
  disk : Files Str
  db : Database
  /-- which thread holds the lock of a site -/
  locks : Str → Option ℕ
  oracle : ℕ → Oracle
  /-- how often a thread has drawn from its oracle -/
  drawn : ℕ → ℕ
  scan : ScanOrder Str

/-- **The calls of the backend's code.** -/
inductive Call : Type where
  | disk (c : Disk.Call Str)
  | db (q : Query)
  /-- `clock.now()` -/
  | now
  /-- `secrets.token_hex(n)` -/
  | token_hex (n : ℕ)
  /-- `secrets.token_urlsafe(n)` -/
  | token_urlsafe (n : ℕ)
  /-- the salt a hash is made with -/
  | salt
  /-- the request's body yields its next chunk, or ends -/
  | receive (chunk : Option Bytes)
  /-- take the lock of a site -/
  | acquire (slug : Str)
  | release (slug : Str)
  deriving DecidableEq

/-- What each call answers. -/
@[reducible] def Resp : Call → Type
  | .disk c => Disk.Resp Str c
  | .db q => q.Answer
  | .now => Instant
  | .token_hex _ | .token_urlsafe _ | .salt => Str
  | .receive _ | .acquire _ | .release _ => Unit

/-- The calls and their answers. -/
@[reducible] def sig : Sig := ⟨Call, Resp⟩

/-- **The backend's code**: programs over the calls. -/
abbrev Code (A : Type) : Type := Prog sig Exn A

/-- A draw from the oracle of a thread. -/
def draw {A : Type} (i : ℕ) (f : Oracle → ℕ → A) : Act Exn World A := fun w =>
  (.ok (f (w.oracle i) (w.drawn i)),
    { w with drawn := Function.update w.drawn i (w.drawn i + 1) })

/-- Whether a call looks at the disk's clock. -/
def isTimed : Disk.Call Str → Bool
  | .create _ | .write _ _ | .stat _ => true
  | _ => false

/-- What does the calls. -/
abbrev Executor : Type := (c : Call) → Act Exn World (Resp c)

/-- A call on the disk: what it raises is an `OSError`. -/
def onDisk (i : ℕ) (c : Disk.Call Str) : Act Exn World (Disk.Resp Str c) := fun w =>
  let r := Disk.exec ⟨(w.oracle i).stamp (w.drawn i), w.scan⟩ c w.disk
  (r.1.mapError Exn.os, { w with
    disk := r.2
    drawn := if isTimed c then Function.update w.drawn i (w.drawn i + 1) else w.drawn })

/-- A query. -/
def onDb (q : Query) : Act Exn World q.Answer := fun w =>
  ((Db.exec q w.db).1, { w with db := (Db.exec q w.db).2 })

/-- **What each call of the thread `i` does.** -/
def exec (i : ℕ) : (c : Call) → Act Exn World (Resp c)
  | .disk c => onDisk i c
  | .db q => onDb q
  | .now => draw i Oracle.now
  | .token_hex n => draw i fun o => o.token_hex n
  | .token_urlsafe n => draw i fun o => o.token_urlsafe n
  | .salt => draw i Oracle.salt
  | .receive _ => Act.ret ()
  | .acquire slug => Act.modify fun w => { w with locks := Function.update w.locks slug (some i) }
  | .release slug => Act.modify fun w => { w with locks := Function.update w.locks slug none }

/-- A site's lock is given only while it is free; nothing else waits. -/
def ready (_ : ℕ) : Call → World → Bool
  | .acquire slug, w => (w.locks slug).isNone
  | _, _ => true

/-- **The machine of the backend**, with the failures `fails` allows. -/
def machine (fails : ℕ → Call → World → Exn → World → Prop) : Machine sig Exn World :=
  ⟨exec, ready, fails⟩

/-- The machine on which no call fails but as its execution says. -/
def faultless : Machine sig Exn World := machine fun _ _ _ _ _ => False

/-! ### Calls as code -/

def disk (c : Disk.Call Str) : Code (Disk.Resp Str c) := .invoke (S := sig) (.disk c)

def query (q : Query) : Code q.Answer := .invoke (S := sig) (.db q)

def now : Code Instant := .invoke (S := sig) .now

def token_hex (n : ℕ) : Code Str := .invoke (S := sig) (.token_hex n)

def token_urlsafe (n : ℕ) : Code Str := .invoke (S := sig) (.token_urlsafe n)

def salt : Code Str := .invoke (S := sig) .salt

def receive (chunk : Option Bytes) : Code Unit := .invoke (S := sig) (.receive chunk)

/-- `raise ApiError(status, code, message)`. -/
def refuse {A : Type} (status : ℕ) (code : ErrorCode) (message : Str) : Code A :=
  .raise (.api ⟨status, code, message⟩)

/-- `with suppress(OSError): p`. -/
def suppressOs (p : Code Unit) : Code Unit :=
  p.except fun e => match e with
    | .os _ => .ret ()
    | e => .raise e

/-- `async with locks.hold(slug): p`. -/
def hold {A : Type} (slug : Str) (p : Code A) : Code A := do
  Prog.invoke (S := sig) (.acquire slug)
  p.finallyDo (Prog.invoke (S := sig) (.release slug))

/-! ### Running the calls -/

/-- The world in which a thread holds the lock of a site. -/
def taken (w : World) (i : ℕ) (slug : Str) : World :=
  { w with locks := Function.update w.locks slug (some i) }

/-- The world in which the lock of a site is free. -/
def freed (w : World) (slug : Str) : World := { w with locks := Function.update w.locks slug none }

section Running
variable (i : ℕ) (w : World)

@[simp] theorem run_disk (c : Disk.Call Str) : run (exec i) (disk c) w = onDisk i c w :=
  run_invoke (S := sig) ..

@[simp] theorem run_query (q : Query) : run (exec i) (query q) w =
    ((Db.exec q w.db).1, { w with db := (Db.exec q w.db).2 }) := run_invoke (S := sig) ..

@[simp] theorem run_refuse {A : Type} (status : ℕ) (code : ErrorCode) (message : Str) :
    run (exec i) (refuse status code message : Code A) w =
      (.error (.api ⟨status, code, message⟩), w) := rfl

/-- **A held section runs**, and the lock is free after it. -/
theorem run_hold {A : Type} (slug : Str) (p : Code A) :
    run (exec i) (hold slug p) w = ((run (exec i) p (taken w i slug)).1,
      freed (run (exec i) p (taken w i slug)).2 slug) := by
  rw [hold, run_bind, run_invoke]
  change run (exec i) (p.finallyDo _) (taken w i slug) = _
  rw [run_finallyDo, run_invoke]
  rfl

theorem run_held {A : Type} {slug : Str} {p : Code A} {o : Except Exn A} {w' : World}
    (hp : run (exec i) p (taken w i slug) = (o, w')) :
    run (exec i) (hold slug p) w = (o, freed w' slug) := by
  rw [run_hold, hp]

theorem run_suppressOs_ok {p : Code Unit} {w' : World} (h : run (exec i) p w = (.ok (), w')) :
    run (exec i) (suppressOs p) w = (.ok (), w') := by
  rw [suppressOs, run_except, h]

theorem run_suppressOs_os {p : Code Unit} {w' : World} {e : OsError}
    (h : run (exec i) p w = (.error (.os e), w')) :
    run (exec i) (suppressOs p) w = (.ok (), w') := by
  rw [suppressOs, run_except, h]
  rfl

end Running

/-! ### A small backend -/

section Small

def smallConfig : Config := ⟨[], lit "http://sites", 1, 1, by decide, by decide⟩

/-- The clock stands still, and each draw is new to its thread. -/
def counting (i : ℕ) : Oracle where
  now _ := ⟨62135596800000000, unixStart_lt⟩
  stamp n := 1000 * n
  token_hex _ n := dec i ++ lit "a" ++ dec n
  token_urlsafe _ n := dec i ++ lit "a" ++ dec n
  salt n := dec n

/-- A volume with nothing on it but the two folders, and the database `db`. -/
def smallWorld (db : Database) : World :=
  ⟨(Tree.leaf.put smallConfig.sites_dir .folder).put smallConfig.staging_dir .folder, db,
    fun _ => none, counting, fun _ => 0, .ascending⟩

/-- One account, `ann`, with one agent token, whose secret is `pb_s`. -/
def smallDb (scope : Scope) : Database :=
  let start : Instant := ⟨62135596800000000, unixStart_lt⟩
  (insert_token ⟨lit "tok_0", lit "t", .agent, scope, lit "usr_0", start, none, none, none⟩
    (plainRuntime.sha256 ((utf8 (lit "pb_s")).getD []))
    (insert_user ⟨lit "usr_0", lit "ann", lit "0$secret", start⟩ .empty).2).2

end Small

end PaperBoxing.Backend.Calls
