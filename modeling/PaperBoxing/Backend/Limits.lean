import PaperBoxing.Backend.Alone
import PaperBoxing.Backend.Frames
import PaperBoxing.Lib.Refusals

/-! # What the operating system and the database refuse

On the plain disk every path may be looked up, and the plain database takes every row. Here some are
refused: a path whose name is too long, or that leads through a folder that may not be searched; a
file or a folder that may not be read; a text that is not UTF-8, and a number of more than 64 bits.

* `Limits`: what is refused; `Limits.os`: what Linux and SQLite refuse to a service that may read its
  whole volume; `Limits.free`: nothing is;
* `Limits.exec`: the calls under the limits;
* `wayTo`: how far a path can be followed; `run_resolve`: what `resolve` makes of it. -/

namespace PaperBoxing.Backend

open PaperBoxing.Lib PaperBoxing.Lib.Action PaperBoxing.Lib.Program PaperBoxing.Lib.Threads
open PaperBoxing.Lib.Refusals PaperBoxing.Lib.Text PaperBoxing.Lib.Trees PaperBoxing.Lib.Disk
open PaperBoxing.Common.Schema PaperBoxing.Common.Naming PaperBoxing.Backend.Db PaperBoxing.Backend.Calls
open PaperBoxing.Backend.Storage PaperBoxing.Backend.Alone PaperBoxing.Backend.Frames

/-- **What is refused**, whatever is on the disk and in the database. -/
structure Limits : Type where
  /-- the paths that cannot be looked up -/
  barred : Path Str → Bool
  /-- the files and folders that cannot be opened for reading -/
  sealed : Path Str → Bool
  /-- the texts that the database takes; what is in the place of one that it does not take cannot be
  listed, and neither can a folder whose time is no date -/
  text : Str → Bool
  /-- the numbers that it takes -/
  number : ℕ → Bool

namespace Limits

/-- Nothing is refused. -/
def free : Limits := ⟨fun _ => false, fun _ => false, fun _ => true, fun _ => true⟩

/-- The bytes of a name; a surrogate stands for a byte of a name that is not UTF-8. -/
def nameBytes (name : Str) : ℕ := (name.map fun c => ((utf8Char c).map List.length).getD 1).sum

/-- The bytes of a path, each of its names after a slash. -/
def pathBytes (p : Path Str) : ℕ := (p.map fun name => 1 + nameBytes name).sum

/-- **The limits of the operating system**: with the byte that ends it, a path has at most `path_max`
bytes (`ENAMETOOLONG`). **Those of the database**: text is UTF-8, a number has 64 bits. -/
def os (path_max : ℕ) : Limits where
  barred p := decide (path_max ≤ pathBytes p)
  sealed _ := false
  text s := (utf8 s).isSome
  number n := decide (n < 2 ^ 63)

theorem pathBytes_append (p q : Path Str) : pathBytes (p ++ q) = pathBytes p + pathBytes q := by
  rw [pathBytes, List.map_append, List.sum_append]
  rfl

/-- What cannot be looked up has nothing below it that can be. -/
def Upward (l : Limits) : Prop := ∀ p q, p <+: q → l.barred p = true → l.barred q = true

theorem os_upward (path_max : ℕ) : (os path_max).Upward := by
  rintro p _ ⟨q, rfl⟩ hp
  have hle : path_max ≤ pathBytes p := of_decide_eq_true hp
  refine decide_eq_true (hle.trans ?_)
  rw [pathBytes_append]
  exact Nat.le_add_right ..

/-- The paths a call has looked up. A file that is open, and a path that is made real as far as it
exists, are not. -/
def lookedUp : Disk.Call Str → List (Path Str)
  | .lstat p | .mtime p | .stat p | .scandir p | .read p | .mkdir p | .rmdir p | .unlink p
  | .create p | .walk p => [p]
  | .replace src dst => [src, dst]
  | .realpath _ | .isDir _ | .write _ _ | .sync _ => []

/-- The paths a call opens for reading. -/
def opened : Disk.Call Str → List (Path Str)
  | .scandir p | .read p | .walk p => [p]
  | _ => []

section
variable (l : Limits)

/-- Whether the operating system refuses a call. -/
def shut (c : Disk.Call Str) : Bool := (lookedUp c).any l.barred || (opened c).any l.sealed

/-- What a row of the index is refused with: a `UnicodeEncodeError`, or an `OverflowError`. -/
def rowRefused (path : Str) (bytes mtime_ns : ℕ) : Option Exn :=
  if !l.text path then some .other
  else if l.number bytes && l.number mtime_ns then none else some .overflow

/-- **What a refused call is answered.** Only the test for a folder does not raise. -/
def refused : (c : Calls.Call) → Option (Except Exn (Calls.Resp c))
  | .disk (.isDir p) => if l.barred p then some (.ok false) else none
  | .disk c => if l.shut c then some (.error (.os .other)) else none
  | .db (.folder_totals _ folder) => if l.text folder then none else some (.error .other)
  | .db (.upsert_file row) => (l.rowRefused row.path row.bytes row.mtime_ns).map .error
  | _ => none

/-- The calls that are not refused. -/
def lets (c : Calls.Call) : Prop := l.refused c = none

/-- **What each call of the thread `i` does, under the limits.** -/
def exec (i : ℕ) : (c : Calls.Call) → Act Exn World (Calls.Resp c) :=
  refusing (S := sig) l.refused (Calls.exec i)

end

theorem exec_free (i : ℕ) : free.exec i = Calls.exec i := by
  refine refusing_nothing (S := sig) fun c => ?_
  cases c with
  | disk c => cases c <;> rfl
  | db q => cases q <;> rfl
  | _ => rfl

section
variable {l : Limits} {cfg : Config} {rt : Runtime} {i : ℕ} {w : World}

theorem lets_accounts {c : Calls.Call} (h : ofAccounts c) : l.lets c := by
  cases c with
  | db q => cases q <;> first | rfl | cases h
  | disk c => exact h.elim
  | _ => rfl

/-- **A program that is refused nothing** runs as on the plain disk and database. -/
theorem run_of_uses {A : Type} {p : Code A} (hp : Uses l.lets p) (w : World) :
    run (l.exec i) p w = run (Calls.exec i) p w := run_refusing_of_uses hp w

theorem run_of_along {A : Type} {p : Code A} (hp : Along (S := sig) (Calls.exec i) l.lets p w) :
    run (l.exec i) p w = run (Calls.exec i) p w := run_refusing_of_along hp

/-- **A run of the sites leaves the accounts alone**, refusals and all. -/
theorem run_sameAccounts {A : Type} {p : Code A} (hp : Uses ofSites p) (w : World) :
    SameAccounts w (run (l.exec i) p w).2 := by
  refine run_preserves (I := SameAccounts w) (fun c hc w' hw => ?_) hp ⟨rfl, rfl⟩
  refine refusing_preserves (S := sig) (I := SameAccounts w) ?_ hw
  have := call_sameAccounts (i := i) hc w'
  exact ⟨this.users.trans hw.users, this.tokens.trans hw.tokens⟩

theorem run_disk_let {c : Disk.Call Str} (h : l.lets (.disk c)) :
    run (l.exec i) (disk c) w = run (Calls.exec i) (disk c) w := run_of_uses (uses_disk h) w

theorem run_query_let {q : Query} (h : l.lets (.db q)) :
    run (l.exec i) (query q) w = run (Calls.exec i) (query q) w := run_of_uses (uses_query h) w

theorem run_disk_refused {c : Disk.Call Str} {r : Except Exn (Disk.Resp Str c)}
    (h : l.refused (.disk c) = some r) : run (l.exec i) (disk c) w = (r, w) :=
  (run_invoke (S := sig) ..).trans (refusing_of_some h w)

theorem run_query_refused {q : Query} {r : Except Exn q.Answer} (h : l.refused (.db q) = some r) :
    run (l.exec i) (query q) w = (r, w) := (run_invoke (S := sig) ..).trans (refusing_of_some h w)

theorem run_hold {A : Type} (slug : Str) (p : Code A) :
    run (l.exec i) (hold slug p) w = ((run (l.exec i) p (taken w i slug)).1,
      freed (run (l.exec i) p (taken w i slug)).2 slug) := by
  rw [hold, run_bind, run_invoke]
  change run (l.exec i) (p.finallyDo _) (taken w i slug) = _
  rw [run_finallyDo, run_invoke]
  rfl

/-! ### Looking -/

/-- What `lstat` answers. -/
def looked (l : Limits) (t : Files Str) (p : Path Str) : Except Exn (Option Mode) :=
  if l.barred p then .error (.os .other) else .ok ((t.get p).map modeOf)

theorem shut_of_barred {c : Disk.Call Str} {p : Path Str} (hp : p ∈ lookedUp c)
    (h : l.barred p = true) : l.shut c = true := by
  rw [shut, List.any_eq_true.2 ⟨p, hp, h⟩, Bool.true_or]

/-- A call that looks up one path, and opens none. -/
theorem not_shut {c : Disk.Call Str} {p : Path Str} (hlooked : lookedUp c = [p])
    (hopened : opened c = []) (h : l.barred p = false) : ¬ l.shut c = true := by
  rw [shut, hlooked, hopened, List.any_cons, h]
  exact Bool.false_ne_true

theorem refused_lstat {p : Path Str} (h : l.barred p = true) :
    l.refused (.disk (.lstat p)) = some (.error (.os .other)) :=
  if_pos (shut_of_barred (List.mem_singleton_self p) h)

theorem lets_lstat {p : Path Str} (h : l.barred p = false) : l.lets (.disk (.lstat p)) :=
  if_neg (not_shut (c := .lstat p) rfl rfl h)

theorem run_lstat (p : Path Str) : run (l.exec i) (lstat p) w = (l.looked w.disk p, w) := by
  rw [looked]
  split_ifs with h
  · rw [lstat, run_bind, run_attempt, run_disk_refused (refused_lstat h)]
    rfl
  · exact (run_of_uses (uses_lstat_at (lets_lstat (Bool.eq_false_iff.2 h))) w).trans
      (Alone.run_lstat p)

theorem run_kind_of {p : Path Str} (h : l.barred p = false) :
    run (l.exec i) (kind_of p) w = (.ok (kindAt w.disk p), w) :=
  (run_of_uses (uses_kind_at (lets_lstat h)) w).trans (Alone.run_kind_of p)

theorem run_kind_barred {p : Path Str} (h : l.barred p = true) :
    run (l.exec i) (kind_of p) w = (.error (.os .other), w) := by
  rw [kind_of]
  exact run_bind_of_error _ ((run_lstat p).trans (by rw [looked, if_pos h]))

theorem refused_stat {p : Path Str} (h : l.barred p = true) :
    l.refused (.disk (.stat p)) = some (.error (.os .other)) :=
  if_pos (shut_of_barred (List.mem_singleton_self p) h)

theorem lets_stat {p : Path Str} (h : l.barred p = false) : l.lets (.disk (.stat p)) :=
  if_neg (not_shut (c := .stat p) rfl rfl h)

/-- Reading looks up and opens. -/
theorem refused_read (l : Limits) (p : Path Str) : l.refused (.disk (.read p)) =
    if l.barred p || l.sealed p then some (.error (.os .other)) else none := by
  change (if l.shut (.read p) then _ else _) = _
  rw [shut, lookedUp, opened, List.any_cons, List.any_cons, List.any_nil, List.any_nil, Bool.or_false,
    Bool.or_false]

theorem refused_scandir (l : Limits) (p : Path Str) : l.refused (.disk (.scandir p)) =
    if l.barred p || l.sealed p then some (.error (.os .other)) else none := by
  change (if l.shut (.scandir p) then _ else _) = _
  rw [shut, lookedUp, opened, List.any_cons, List.any_cons, List.any_nil, List.any_nil, Bool.or_false,
    Bool.or_false]

theorem refused_folder_totals (slug : Str) {folder : Str} (h : l.text folder = false) :
    l.refused (.db (.folder_totals slug folder)) = some (.error .other) :=
  if_neg (Bool.eq_false_iff.1 h)

theorem lets_folder_totals (slug : Str) {folder : Str} (h : l.text folder = true) :
    l.lets (.db (.folder_totals slug folder)) := if_pos h

/-! ### The way to a path -/

/-- **How far a path can be followed**: to its end, to a place where nothing is, to a link, or to a
name that cannot be looked up. -/
inductive Way : Type where
  | clear
  | missing
  | linked (why : Str)
  | barred
  deriving DecidableEq

/-- A way that goes on from the end of another. -/
def Way.next : Way → Way → Way
  | .clear, b => b
  | a, _ => a

/-- What is answered at the end of a way. -/
def Way.answer {A : Type} (rt : Runtime) (path : Str) (a : A) : Way → Except Exn A
  | .clear | .missing => .ok a
  | .linked why => .error (.api (_invalid_path rt path why))
  | .barred => .error (.os .other)

/-- The loop of `resolve`, over the segments below `current`. -/
def way (l : Limits) (t : Files Str) : Path Str → List Str → Way
  | _, [] => .clear
  | current, segment :: rest =>
    if l.barred (current ++ [segment]) then .barred
    else match t.get (current ++ [segment]) with
      | none => .missing
      | some (.link _ _) => .linked (lit "the path passes through a symbolic link")
      | some _ => way l t (current ++ [segment]) rest

/-- **The way to a path of a site**, whose folder is `root`. -/
def wayTo (l : Limits) (t : Files Str) (root : Path Str) (segs : List Str) : Way :=
  if l.barred root then .barred
  else if isLink (t.get root) then .linked (lit "the site folder is a symbolic link")
  else l.way t root segs

/-- What `resolve` answers. -/
def resolved (l : Limits) (cfg : Config) (rt : Runtime) (t : Files Str) (slug path : Str) :
    Except Exn (Path Str) :=
  (l.wayTo t (site_dir cfg slug) (segments path)).answer rt path (site_dir cfg slug ++ segments path)

theorem run_checkLinks (path : Str) : ∀ (root : Path Str) (segs : List Str),
    run (l.exec i) (checkLinks rt path root segs) w = ((l.way w.disk root segs).answer rt path (), w)
  | _, [] => rfl
  | root, segment :: rest => by
    have hlook := run_lstat (l := l) (i := i) (w := w) (root ++ [segment])
    rw [looked] at hlook
    rw [checkLinks, way]
    split_ifs at hlook ⊢ with hb
    · exact run_bind_of_error _ hlook
    · refine (run_bind_of_ok _ hlook).trans ?_
      rcases h : w.disk.get (root ++ [segment]) with _ | n
      · rfl
      · rcases n with _ | _ | _ | _
        · exact run_checkLinks path _ rest
        · exact run_checkLinks path _ rest
        · rfl
        · exact run_checkLinks path _ rest

/-- **`resolve` under the limits** only looks, and goes as far as the way goes. -/
theorem run_resolve (l : Limits) (cfg : Config) (rt : Runtime) (slug path : Str) :
    run (l.exec i) (resolve cfg rt slug path) w = (l.resolved cfg rt w.disk slug path, w) := by
  have hlook := run_lstat (l := l) (i := i) (w := w) (site_dir cfg slug)
  have hreal : ∀ p, run (l.exec i) (disk (.realpath p)) w = (.ok p, w) := fun p =>
    (run_disk_let (l := l) (c := .realpath p) rfl).trans (run_realpath p)
  rw [looked] at hlook
  rw [resolve, resolved, wayTo]
  split_ifs at hlook ⊢ with hb hlink
  · exact run_bind_of_error _ hlook
  · refine (run_bind_of_ok _ hlook).trans ?_
    rw [if_pos (isLink_iff.2 hlink)]
    rfl
  · refine (run_bind_of_ok _ hlook).trans ?_
    rw [if_neg fun hc => hlink (isLink_iff.1 hc), run_bind, run_checkLinks]
    have hend : run (l.exec i) (disk (.realpath (site_dir cfg slug ++ segments path)) >>= fun real =>
        disk (.realpath (site_dir cfg slug)) >>= fun real_root =>
          if real_root <+: real then .ret (site_dir cfg slug ++ segments path)
          else .raise (.api (_invalid_path rt path (lit "the path escapes the site")))) w =
        (.ok (site_dir cfg slug ++ segments path), w) := by
      refine (run_bind_of_ok _ (hreal _)).trans ((run_bind_of_ok _ (hreal _)).trans ?_)
      rw [if_pos (List.prefix_append _ _)]
      rfl
    rcases l.way w.disk (site_dir cfg slug) (segments path) with _ | _ | why | _
    · exact hend
    · exact hend
    · rfl
    · rfl

theorem resolved_ok {t : Files Str} {slug path : Str} {target : Path Str}
    (h : l.resolved cfg rt t slug path = .ok target) : target = site_dir cfg slug ++ segments path := by
  rw [resolved] at h
  rcases hway : l.wayTo t (site_dir cfg slug) (segments path) with _ | _ | why | _ <;> rw [hway] at h
  · exact (Except.ok.inj h).symm
  · exact (Except.ok.inj h).symm
  · cases h
  · cases h

/-! ### Ways -/

section
variable {t : Files Str} {root : Path Str} {segs : List Str}

theorem way_append (root : Path Str) (segs rest : List Str) :
    l.way t root (segs ++ rest) = (l.way t root segs).next (l.way t (root ++ segs) rest) := by
  induction segs generalizing root with
  | nil => rw [List.append_nil]; rfl
  | cons s segs ih =>
    rw [List.cons_append, way, way, ih, List.append_assoc]
    split_ifs
    · rfl
    · rcases t.get (root ++ [s]) with _ | _ | _ | _ | _ <;> rfl

theorem wayTo_append (root : Path Str) (segs rest : List Str) :
    l.wayTo t root (segs ++ rest) = (l.wayTo t root segs).next (l.way t (root ++ segs) rest) := by
  rw [wayTo, wayTo, way_append]
  split_ifs <;> rfl

/-- **At the end of a clear way** something is, and no link. -/
theorem way_clear (h : l.way t root segs = .clear) (hne : segs ≠ []) :
    l.barred (root ++ segs) = false ∧ ∃ n, t.get (root ++ segs) = some n ∧ isLink (some n) = false := by
  induction segs generalizing root with
  | nil => exact absurd rfl hne
  | cons s segs ih =>
    rw [way] at h
    split_ifs at h with hb
    obtain ⟨n, hn, hlink, hrest⟩ : ∃ n, t.get (root ++ [s]) = some n ∧ isLink (some n) = false ∧
        l.way t (root ++ [s]) segs = .clear := by
      rcases hg : t.get (root ++ [s]) with _ | _ | _ | _ | _ <;> rw [hg] at h <;>
        first | exact ⟨_, rfl, rfl, h⟩ | cases h
    rcases eq_or_ne segs [] with rfl | hsegs
    · exact ⟨Bool.eq_false_iff.2 hb, n, hn, hlink⟩
    · have := ih hrest hsegs
      rwa [List.append_assoc] at this

/-- **Where a way ends early**, nothing is at its end. -/
theorem way_missing (h : l.way t root segs = .missing) : segs ≠ [] ∧ t.get (root ++ segs) = none := by
  induction segs generalizing root with
  | nil => cases h
  | cons s segs ih =>
    refine ⟨List.cons_ne_nil _ _, ?_⟩
    rw [way] at h
    split_ifs at h
    rw [List.append_cons]
    rcases hg : t.get (root ++ [s]) with _ | n
    · rcases eq_or_ne segs [] with rfl | hsegs
      · rwa [List.append_nil]
      · exact Tree.get_below_none (by rw [hg]; rintro ⟨⟩) hsegs
    · have hrest : l.way t (root ++ [s]) segs = .missing := by
        rw [hg] at h
        rcases n with _ | _ | _ | _ <;> first | exact h | cases h
      exact (ih hrest).2

/-- A way on which no name is refused and no link is. -/
theorem way_of_open (hb : ∀ q, q ≠ [] → q <+: segs → l.barred (root ++ q) = false)
    (hlink : ∀ q, q <+: segs → isLink (t.get (root ++ q)) = false) :
    l.way t root segs = .clear ∨ l.way t root segs = .missing := by
  induction segs generalizing root with
  | nil => exact Or.inl rfl
  | cons s segs ih =>
    have hhead : [s] <+: s :: segs := List.cons_prefix_cons.2 ⟨rfl, List.nil_prefix⟩
    have hs := hb [s] (List.cons_ne_nil _ _) hhead
    have hthis := hlink [s] hhead
    have hrest := @ih (root ++ [s]) (fun q hq hle => by
      rw [List.append_assoc]
      exact hb (s :: q) (List.cons_ne_nil _ _) (List.cons_prefix_cons.2 ⟨rfl, hle⟩)) fun q hle => by
        rw [List.append_assoc]
        exact hlink (s :: q) (List.cons_prefix_cons.2 ⟨rfl, hle⟩)
    rw [way, hs, if_neg Bool.false_ne_true]
    rcases hg : t.get (root ++ [s]) with _ | _ | _ | _ | _
    · exact Or.inr rfl
    · exact hrest
    · exact hrest
    · rw [hg] at hthis
      cases hthis
    · exact hrest

/-- A way through a tree without links. -/
theorem way_plain (hlink : ∀ q, isLink (t.get (root ++ q)) = false) (why : Str) :
    l.way t root segs ≠ .linked why := by
  induction segs generalizing root with
  | nil => rintro ⟨⟩
  | cons s segs ih =>
    have hrest := @ih (root ++ [s]) fun q => by
      rw [List.append_assoc]
      exact hlink _
    have hthis := hlink [s]
    rw [way]
    split_ifs
    · rintro ⟨⟩
    · rcases hg : t.get (root ++ [s]) with _ | _ | _ | _ | _
      · rintro ⟨⟩
      · exact hrest
      · exact hrest
      · rw [hg] at hthis
        cases hthis
      · exact hrest

/-- The way below a folder is the same in every tree that is the same there. -/
theorem way_congr {t' : Files Str} (h : ∀ q, t'.get (root ++ q) = t.get (root ++ q)) :
    l.way t' root segs = l.way t root segs := by
  induction segs generalizing root with
  | nil => rfl
  | cons s segs ih =>
    rw [way, way, h, ih fun q => by rw [List.append_assoc]; exact h _]

theorem wayTo_congr {t' : Files Str} (h : ∀ q, t'.get (root ++ q) = t.get (root ++ q)) :
    l.wayTo t' root segs = l.wayTo t root segs := by
  have hroot := h []
  rw [List.append_nil] at hroot
  rw [wayTo, wayTo, way_congr h, hroot]

theorem wayTo_clear (h : l.wayTo t root segs = .clear) : l.barred (root ++ segs) = false ∧
    isLink (t.get (root ++ segs)) = false ∧ (segs ≠ [] → t.get (root ++ segs) ≠ none) := by
  rw [wayTo] at h
  split_ifs at h with hb hlink
  rcases eq_or_ne segs [] with rfl | hne
  · rw [List.append_nil]
    exact ⟨Bool.eq_false_iff.2 hb, Bool.eq_false_iff.2 hlink, fun hc => absurd rfl hc⟩
  · obtain ⟨hend, n, hn, hno⟩ := way_clear h hne
    rw [hn]
    exact ⟨hend, hno, fun _ => Option.some_ne_none n⟩

theorem wayTo_missing (h : l.wayTo t root segs = .missing) :
    segs ≠ [] ∧ t.get (root ++ segs) = none := by
  rw [wayTo] at h
  split_ifs at h
  exact way_missing h

theorem wayTo_of_open (hb : ∀ q, q <+: segs → l.barred (root ++ q) = false)
    (hlink : ∀ q, q <+: segs → isLink (t.get (root ++ q)) = false) :
    l.wayTo t root segs = .clear ∨ l.wayTo t root segs = .missing := by
  have hroot := hb [] List.nil_prefix
  have hno := hlink [] List.nil_prefix
  rw [List.append_nil] at hroot hno
  rw [wayTo, hroot, hno, if_neg Bool.false_ne_true, if_neg Bool.false_ne_true]
  exact way_of_open (fun q _ hq => hb q hq) hlink

/-- **What is there and no link is reached**, when no name on the way is refused. -/
theorem wayTo_of_get (hb : ∀ q, q <+: segs → l.barred (root ++ q) = false) {n : Node Str FileData}
    (hn : t.get (root ++ segs) = some n) (hlink : isLink (some n) = false) :
    l.wayTo t root segs = .clear := by
  refine (wayTo_of_open hb ?_).resolve_right fun h => ?_
  · rintro q ⟨x, rfl⟩
    rcases eq_or_ne x [] with rfl | hx
    · rw [List.append_nil] at hn
      rwa [hn]
    · rw [Tree.get_ancestor (q := x) (by rw [List.append_assoc, hn]; rintro ⟨⟩) hx]
      rfl
  · rw [(wayTo_missing h).2] at hn
    cases hn

end

end

/-! ### Listings -/

/-- Whether a file's row among `rows` has its size and its time. -/
def isCurrent (rows : List FileRow) (rel : Str) (d : FileData) : Bool :=
  (rows.find? fun row => row.path == rel).any fun row =>
    row.bytes == d.content.length && row.mtime_ns == d.mtime

section
variable (l : Limits) (t : Files Str) (folder : Str) (target : Path Str) (rows : List FileRow)

/-- Whether a file cannot be hashed, or the row made of it cannot be written. -/
def unwritable (rel : Str) (p : Path Str) (d : FileData) : Bool :=
  l.sealed p || (l.rowRefused rel d.content.length d.mtime).isSome

/-- **Whether a listing of the folder `target` stops at the entry `name`**: at a folder whose path the
database does not take, or at a file that is not as indexed and cannot be written to the index. -/
def stops (name : Str) : Bool :=
  !l.barred (target ++ [name]) && match t.get (target ++ [name]) with
    | some .folder => !l.text (entryPath folder name)
    | some (.file d) => !isCurrent rows (entryPath folder name) d &&
        l.unwritable (entryPath folder name) (target ++ [name]) d
    | _ => false

/-- **Whether the folder `target` is listed**: it can be read, and no entry stops its listing. -/
def listable : Bool :=
  !l.sealed target && !(t.children target).any (l.stops t folder target rows)

/-- Where nothing is refused, every folder is listed. -/
theorem listable_free : free.listable t folder target rows = true := by
  have hstops : ∀ name, free.stops t folder target rows name = false := fun name => by
    rw [stops]
    rcases t.get (target ++ [name]) with _ | d | _ | _ | _ <;> try rfl
    exact Bool.and_false _
  rw [listable, Bool.and_eq_true, Bool.not_eq_true', Bool.not_eq_true', List.any_eq_false]
  exact ⟨rfl, fun name _ => Bool.eq_false_iff.1 (hstops name)⟩

end

end Limits

end PaperBoxing.Backend
