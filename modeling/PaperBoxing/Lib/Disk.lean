import PaperBoxing.Lib.Trees
import PaperBoxing.Lib.Text
import PaperBoxing.Lib.Program

/-! # Disks: the file calls of an operating system

The calls a program makes on a tree of files, each as an action that answers or raises. Here a path
is taken literally, component by component: a call whose path passes through a link finds nothing
there. No path is too long and no permission is missing, and no disk is full: what the operating system
refuses whatever the tree is, a handler over `exec` adds (`Lib.Refusals`).

* `exec`: what each call does; the time a written file gets and the order in which a folder is read
  are those of the surroundings `Env`;
* `lookup_of_get`, `mkdir_of_none`, `unlink_of_leaf`, `replace_of_movable`, …: one lemma for each
  call where it succeeds, `…_absent` where it finds nothing;
* `exec_get_of_not_writes`: a call changes nothing apart from the paths it writes. -/

namespace PaperBoxing.Lib.Disk

open PaperBoxing.Lib.Action PaperBoxing.Lib.Text PaperBoxing.Lib.Trees

/-- What an operating system raises. -/
inductive OsError : Type where
  | notFound
  | notADirectory
  | exists
  | isADirectory
  | notEmpty
  | loop
  | noSpace
  | quota
  | other
  deriving DecidableEq

/-- The type of an entry, as its mode says. -/
inductive Mode : Type where
  | regular
  | directory
  | symlink
  | special
  deriving DecidableEq

/-- The bytes of a file and the time it was last written. -/
structure FileData : Type where
  content : Bytes
  mtime : ℕ
  deriving DecidableEq

/-- What a `stat` answers. -/
structure Stat : Type where
  mode : Mode
  size : ℕ
  mtime : ℕ
  deriving DecidableEq

/-- **The order in which folders are read**: some permutation of the names. -/
structure ScanOrder (N : Type) : Type where
  order : List N → List N
  perm : ∀ l, (order l).Perm l

/-- The order of the names themselves. -/
def ScanOrder.ascending {N : Type} : ScanOrder N := ⟨id, fun l => List.Perm.refl l⟩

/-- The surroundings of a call: the time on the disk's clock, and the order of reading. -/
structure Env (N : Type) : Type where
  stamp : ℕ
  scan : ScanOrder N

/-- **The calls.** -/
inductive Call (N : Type) : Type where
  /-- `lstat(p).st_mode` -/
  | lstat (p : Path N)
  /-- `lstat(p).st_mtime_ns` -/
  | mtime (p : Path N)
  /-- `stat` of an entry of a folder, links not followed -/
  | stat (p : Path N)
  /-- the names in a folder -/
  | scandir (p : Path N)
  /-- the real path of `p`, whether or not it exists -/
  | realpath (p : Path N)
  /-- whether `p` is a folder, links followed -/
  | isDir (p : Path N)
  /-- the bytes of a file -/
  | read (p : Path N)
  | mkdir (p : Path N)
  | rmdir (p : Path N)
  | unlink (p : Path N)
  /-- rename `src` to `dst` -/
  | replace (src dst : Path N)
  /-- open a new file for writing; it is an error if there is one -/
  | create (p : Path N)
  /-- append to an open file -/
  | write (p : Path N) (bytes : Bytes)
  /-- flush an open file to the disk -/
  | sync (p : Path N)
  /-- the folder at `p` and everything in it, with whether it is a folder, what is held before what
  holds it -/
  | walk (p : Path N)
  deriving DecidableEq

/-- What each call answers. -/
@[reducible] def Resp (N : Type) : Call N → Type
  | .lstat _ => Mode
  | .mtime _ => ℕ
  | .stat _ => Stat
  | .scandir _ => List N
  | .realpath _ => Path N
  | .isDir _ => Bool
  | .read _ => Bytes
  | .walk _ => List (Path N × Bool)
  | .mkdir _ | .rmdir _ | .unlink _ | .replace _ _ | .create _ | .write _ _ | .sync _ => Unit

variable {N : Type} [Ord N] [Std.TransOrd N] [Std.LawfulEqOrd N]

/-- A tree of files with bytes and times. -/
abbrev Files (N : Type) [Ord N] [Std.TransOrd N] [Std.LawfulEqOrd N] : Type := Tree N FileData

/-- The mode of an entry. -/
def modeOf : Node N FileData → Mode
  | .file _ => .regular
  | .folder => .directory
  | .link _ _ => .symlink
  | .special => .special

/-- What a call raises when it finds nothing at `p`: a file on the way is not a directory. -/
def absent (t : Files N) (p : Path N) : OsError :=
  if p.inits.dropLast.any fun q => (t.get q).isSome && !isFolder (t.get q) then .notADirectory
  else .notFound

theorem absent_cases (t : Files N) (p : Path N) :
    absent t p = .notFound ∨ absent t p = .notADirectory := by
  unfold absent
  split_ifs
  · exact Or.inr rfl
  · exact Or.inl rfl

/-- The entry at `p`. -/
def lookup (p : Path N) : Act OsError (Files N) (Node N FileData) := fun t =>
  match t.get p with
  | some n => (.ok n, t)
  | none => (.error (absent t p), t)

theorem lookup_of_get {t : Files N} {p : Path N} {n : Node N FileData} (h : t.get p = some n) :
    lookup p t = (.ok n, t) := by
  rw [lookup, h]

theorem lookup_absent {t : Files N} {p : Path N} (h : t.get p = none) :
    lookup p t = (.error (absent t p), t) := by
  rw [lookup, h]

theorem lookup_tree (p : Path N) (t : Files N) : (lookup p t).2 = t := by
  unfold lookup
  split <;> rfl

theorem bind_lookup_tree {A : Type} (p : Path N) (f : Node N FileData → A) (t : Files N) :
    ((lookup p >>= fun n => Act.ret (f n)) t).2 = t := by
  rw [Act.bind_apply]
  have h := lookup_tree p t
  generalize lookup p t = r at h ⊢
  rcases r with ⟨_ | _, t'⟩ <;> exact h

/-- `stat`; the time of anything but a file is whatever the disk's clock shows. -/
def statOf (env : Env N) : Node N FileData → Stat
  | .file d => ⟨.regular, d.content.length, d.mtime⟩
  | n => ⟨modeOf n, 0, env.stamp⟩

def mtimeOf (env : Env N) (n : Node N FileData) : ℕ := (statOf env n).mtime

/-- The bytes of a file. -/
def read (p : Path N) : Act OsError (Files N) Bytes := fun t =>
  match t.get p with
  | some (.file d) => (.ok d.content, t)
  | some .folder => (.error .isADirectory, t)
  | some _ => (.error .other, t)
  | none => (.error (absent t p), t)

theorem read_of_file {t : Files N} {p : Path N} {d : FileData} (h : t.get p = some (.file d)) :
    read p t = (.ok d.content, t) := by
  rw [read, h]

variable [DecidableEq N]

/-- The names in a folder. -/
def scandir (env : Env N) (p : Path N) : Act OsError (Files N) (List N) := fun t =>
  match t.get p with
  | some .folder => (.ok (env.scan.order (t.children p)), t)
  | some _ => (.error .notADirectory, t)
  | none => (.error (absent t p), t)

def mkdir (p : Path N) : Act OsError (Files N) Unit := fun t =>
  match t.get p with
  | some _ => (.error .exists, t)
  | none => if t.Fits p then (.ok (), t.put p .folder) else (.error (absent t p), t)

def rmdir (p : Path N) : Act OsError (Files N) Unit := fun t =>
  match t.get p with
  | some .folder =>
    if p ≠ [] ∧ t.children p = [] then (.ok (), t.prune p) else (.error .notEmpty, t)
  | some _ => (.error .notADirectory, t)
  | none => (.error (absent t p), t)

def unlink (p : Path N) : Act OsError (Files N) Unit := fun t =>
  match t.get p with
  | some .folder => (.error .isADirectory, t)
  | some _ => (.ok (), t.prune p)
  | none => (.error (absent t p), t)

/-- Rename: a folder only onto nothing or an empty folder, anything else only onto nothing or another
entry that is no folder. -/
def replace (src dst : Path N) : Act OsError (Files N) Unit := fun t =>
  if (t.get src).isNone then (.error (absent t src), t)
  else if src = dst then (.ok (), t)
  else if isFolder (t.get src) && (t.get dst).isSome && !isFolder (t.get dst) then
    (.error .notADirectory, t)
  else if !isFolder (t.get src) && isFolder (t.get dst) then (.error .isADirectory, t)
  else if t.Movable src dst then (.ok (), t.move src dst)
  else if isFolder (t.get dst) then (.error .notEmpty, t)
  else if src <+: dst then (.error .other, t)
  else (.error (absent t dst), t)

def create (env : Env N) (p : Path N) : Act OsError (Files N) Unit := fun t =>
  match t.get p with
  | some _ => (.error .exists, t)
  | none => if t.Fits p then (.ok (), t.put p (.file ⟨[], env.stamp⟩)) else (.error (absent t p), t)

def write (env : Env N) (p : Path N) (bytes : Bytes) : Act OsError (Files N) Unit := fun t =>
  match t.get p with
  | some (.file d) => (.ok (), t.put p (.file ⟨d.content ++ bytes, env.stamp⟩))
  | some _ => (.error .other, t)
  | none => (.error (absent t p), t)

/-- Everything in a folder, what is held before what holds it, and the folder last. -/
def walk (p : Path N) : Act OsError (Files N) (List (Path N × Bool)) := fun t =>
  match t.get p with
  | some .folder => (.ok ((t.below p).map fun r => (r.1, isFolder (some r.2))), t)
  | some _ => (.error .notADirectory, t)
  | none => (.error (absent t p), t)

/-- **The disk**: what each call does. -/
def exec (env : Env N) : (c : Call N) → Act OsError (Files N) (Resp N c)
  | .lstat p => lookup p >>= fun n => Act.ret (modeOf n)
  | .mtime p => lookup p >>= fun n => Act.ret (mtimeOf env n)
  | .stat p => lookup p >>= fun n => Act.ret (statOf env n)
  | .scandir p => scandir env p
  | .realpath p => Act.ret p
  | .isDir p => fun t => (.ok (isFolder (t.get p)), t)
  | .read p => read p
  | .mkdir p => mkdir p
  | .rmdir p => rmdir p
  | .unlink p => unlink p
  | .replace src dst => replace src dst
  | .create p => create env p
  | .write p bytes => write env p bytes
  | .sync p => lookup p >>= fun _ => Act.ret ()
  | .walk p => walk p

/-! ### What the calls answer -/

section Answers
variable {t : Files N} {p : Path N} {n : Node N FileData}

theorem mkdir_of_none (h : t.get p = none) (hf : t.Fits p) :
    mkdir p t = (.ok (), t.put p .folder) := by
  rw [mkdir, h]
  exact if_pos hf

theorem mkdir_exists (h : t.get p = some n) : mkdir p t = (.error .exists, t) := by
  rw [mkdir, h]

theorem mkdir_absent (h : t.get p = none) (hf : ¬ t.Fits p) :
    mkdir p t = (.error (absent t p), t) := by
  rw [mkdir, h]
  exact if_neg hf

theorem unlink_of_leaf (h : t.get p = some n) (hn : n ≠ .folder) :
    unlink p t = (.ok (), t.prune p) := by
  rw [unlink, h]
  rcases n with _ | _ | _ | _
  · rfl
  · exact absurd rfl hn
  · rfl
  · rfl

theorem unlink_absent (h : t.get p = none) : unlink p t = (.error (absent t p), t) := by
  rw [unlink, h]

theorem rmdir_of_empty (h : t.get p = some .folder) (hp : p ≠ []) (hc : t.children p = []) :
    rmdir p t = (.ok (), t.prune p) := by
  rw [rmdir, h]
  exact if_pos ⟨hp, hc⟩

theorem replace_of_leaf {src dst : Path N} (hn : t.get src = some n) (hf : n ≠ .folder)
    (hd : t.get dst ≠ some .folder) (hne : src ≠ dst) (hm : t.Movable src dst) :
    replace src dst t = (.ok (), t.move src dst) := by
  have h1 : isFolder (t.get src) = false := by
    rw [← Bool.not_eq_true, isFolder_iff, hn]
    exact fun h => hf (Option.some.inj h)
  have h2 : isFolder (t.get dst) = false := by rwa [← Bool.not_eq_true, isFolder_iff]
  rw [replace, if_neg (by simp [hn]), if_neg hne, h1, h2]
  simp [hm]

theorem replace_of_missing {src dst : Path N} (hn : t.get src = some n) (hd : t.get dst = none)
    (hne : src ≠ dst) (hm : t.Movable src dst) :
    replace src dst t = (.ok (), t.move src dst) := by
  rw [replace, if_neg (by simp [hn]), if_neg hne, hd]
  simp [hm, isFolder]

theorem create_of_none {env : Env N} (h : t.get p = none) (hf : t.Fits p) :
    create env p t = (.ok (), t.put p (.file ⟨[], env.stamp⟩)) := by
  rw [create, h]
  exact if_pos hf

theorem write_of_file {env : Env N} {d : FileData} {bytes : Bytes} (h : t.get p = some (.file d)) :
    write env p bytes t = (.ok (), t.put p (.file ⟨d.content ++ bytes, env.stamp⟩)) := by
  rw [write, h]

theorem scandir_of_folder {env : Env N} (h : t.get p = some .folder) :
    scandir env p t = (.ok (env.scan.order (t.children p)), t) := by
  rw [scandir, h]

theorem walk_of_folder (h : t.get p = some .folder) :
    walk p t = (.ok ((t.below p).map fun r => (r.1, isFolder (some r.2))), t) := by
  rw [walk, h]

end Answers

/-! ### What the calls leave alone -/

/-- The paths a call may change, with all below them. -/
def writes : Call N → List (Path N)
  | .mkdir p | .rmdir p | .unlink p | .create p | .write p _ => [p]
  | .replace src dst => [src, dst]
  | .lstat _ | .mtime _ | .stat _ | .scandir _ | .realpath _ | .isDir _ | .read _ | .sync _
  | .walk _ => []

/-- A rename either moves or changes nothing. -/
theorem replace_cases (src dst : Path N) (t : Files N) : (replace src dst t).2 = t ∨
    (t.Movable src dst ∧ replace src dst t = (.ok (), t.move src dst)) := by
  unfold replace
  by_cases h1 : (t.get src).isNone = true
  · rw [if_pos h1]
    exact Or.inl rfl
  rw [if_neg h1]
  by_cases h2 : src = dst
  · rw [if_pos h2]
    exact Or.inl rfl
  rw [if_neg h2]
  by_cases h3 : (isFolder (t.get src) && (t.get dst).isSome && !isFolder (t.get dst)) = true
  · rw [if_pos h3]
    exact Or.inl rfl
  rw [if_neg h3]
  by_cases h4 : (!isFolder (t.get src) && isFolder (t.get dst)) = true
  · rw [if_pos h4]
    exact Or.inl rfl
  rw [if_neg h4]
  by_cases h5 : t.Movable src dst
  · rw [if_pos h5]
    exact Or.inr ⟨h5, rfl⟩
  rw [if_neg h5]
  left
  split_ifs <;> rfl

/-- A rename to another place either raises and changes nothing, or moves. -/
theorem replace_outcome {src dst : Path N} (hne : src ≠ dst) (t : Files N) :
    (∃ e, replace src dst t = (.error e, t)) ∨
      (t.Movable src dst ∧ replace src dst t = (.ok (), t.move src dst)) := by
  unfold replace
  split_ifs with h1 h3 h4 h5 h6 h7
  · exact Or.inl ⟨_, rfl⟩
  · exact Or.inl ⟨_, rfl⟩
  · exact Or.inl ⟨_, rfl⟩
  · exact Or.inr ⟨h5, rfl⟩
  · exact Or.inl ⟨_, rfl⟩
  · exact Or.inl ⟨_, rfl⟩
  · exact Or.inl ⟨_, rfl⟩

/-- **Each call does one of four things to the tree**: nothing, or one entry placed, removed or
moved, at paths it writes. -/
theorem exec_tree (env : Env N) (c : Call N) (t : Files N) :
    (exec env c t).2 = t ∨
    (∃ p n, p ∈ writes c ∧ t.Fits p ∧ (exec env c t).2 = t.put p n) ∨
    (∃ p, p ∈ writes c ∧ p ≠ [] ∧ (exec env c t).2 = t.prune p) ∨
    (∃ src dst, c = .replace src dst ∧ t.Movable src dst ∧ (exec env c t).2 = t.move src dst) := by
  cases c with
  | lstat p => exact Or.inl (bind_lookup_tree ..)
  | mtime p => exact Or.inl (bind_lookup_tree ..)
  | stat p => exact Or.inl (bind_lookup_tree ..)
  | sync p => exact Or.inl (bind_lookup_tree ..)
  | scandir p => left; simp only [exec, scandir]; split <;> rfl
  | realpath p => exact Or.inl rfl
  | isDir p => exact Or.inl rfl
  | read p => left; simp only [exec, read]; split <;> rfl
  | walk p => left; simp only [exec, walk]; split <;> rfl
  | mkdir p =>
    simp only [exec, mkdir]
    split
    · exact Or.inl rfl
    · split_ifs with h
      · exact Or.inr (Or.inl ⟨p, _, by simp [writes], h, rfl⟩)
      · exact Or.inl rfl
  | create p =>
    simp only [exec, create]
    split
    · exact Or.inl rfl
    · split_ifs with h
      · exact Or.inr (Or.inl ⟨p, _, by simp [writes], h, rfl⟩)
      · exact Or.inl rfl
  | rmdir p =>
    simp only [exec, rmdir]
    split
    · split_ifs with h
      · exact Or.inr (Or.inr (Or.inl ⟨p, by simp [writes], h.1, rfl⟩))
      · exact Or.inl rfl
    · exact Or.inl rfl
    · exact Or.inl rfl
  | unlink p =>
    simp only [exec, unlink]
    split
    · exact Or.inl rfl
    · next n hn hg =>
      refine Or.inr (Or.inr (Or.inl ⟨p, by simp [writes], ?_, rfl⟩))
      rintro rfl
      exact hn (by rw [Tree.get_root] at hg; exact (Option.some.inj hg).symm)
    · exact Or.inl rfl
  | write p bytes =>
    simp only [exec, write]
    split
    · next d hd =>
      refine Or.inr (Or.inl ⟨p, _, by simp [writes], Tree.fits_iff.2 ⟨?_, ?_, ?_⟩, rfl⟩)
      · rintro rfl
        simp at hd
      · exact Tree.get_dropLast (by simp [hd])
      · simp [hd]
    · exact Or.inl rfl
    · exact Or.inl rfl
  | replace src dst =>
    rcases replace_cases src dst t with h | ⟨hm, h⟩
    · exact Or.inl h
    · exact Or.inr (Or.inr (Or.inr ⟨src, dst, rfl, hm, congrArg Prod.snd h⟩))

/-- **A call changes nothing apart from the paths it writes.** -/
theorem exec_get_of_not_writes (env : Env N) {c : Call N} {t : Files N} {q : Path N}
    (h : ∀ p ∈ writes c, ¬ p <+: q) : (exec env c t).2.get q = t.get q := by
  rcases exec_tree env c t with ht | ⟨p, n, hp, hf, ht⟩ | ⟨p, hp, hne, ht⟩ | ⟨s, d, rfl, hm, ht⟩
  · rw [ht]
  · rw [ht, Tree.get_put hf, if_neg]
    rintro rfl
    exact h q hp List.prefix_rfl
  · rw [ht, Tree.get_prune hne, if_neg (h p hp)]
  · rw [ht, Tree.get_move hm, if_neg (h d (by simp [writes])), if_neg (h s (by simp [writes]))]

end PaperBoxing.Lib.Disk
