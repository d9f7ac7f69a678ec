import PaperBoxing.Lib.Tables

/-! # Trees of files

A tree is a table from paths (lists of names) to entries: files, folders, links and special entries.
It carries the facts that its root is a folder and that whatever holds an entry is a folder, so that
no operation can leave an orphan. Each operation is described by what a look-up sees after it.

* `get_put`: an entry is placed; `get_prune`: an entry and all below it is removed;
  `get_move`: an entry and all below it is moved;
* `mem_children`, `mem_below`: the names in a folder, and everything below it, deepest first;
* `under`: the part of a tree below a path. -/

namespace PaperBoxing.Lib.Trees

open Std PaperBoxing.Lib.Tables

/-- A path: the names from the root on. -/
abbrev Path (N : Type) : Type := List N

/-- An entry: a file with its data, a folder, a symbolic link with its target (from the root or from
the folder of the link), or anything else (a device, a FIFO, a socket). -/
inductive Node (N D : Type) : Type where
  | file (data : D)
  | folder
  | link (absolute : Bool) (target : Path N)
  | special
  deriving DecidableEq

/-- Whether a look-up found a folder. -/
def isFolder {N D : Type} : Option (Node N D) → Bool
  | some .folder => true
  | _ => false

@[simp] theorem isFolder_iff {N D : Type} {n : Option (Node N D)} :
    isFolder n = true ↔ n = some .folder := by
  rcases n with _ | _ | _ | _ | _ <;> simp [isFolder]

@[simp] theorem isFolder_none {N D : Type} : isFolder (none : Option (Node N D)) = false := rfl

@[simp] theorem isFolder_file {N D : Type} (d : D) :
    isFolder (some (.file d : Node N D)) = false := rfl

variable {N D : Type} [Ord N] [TransOrd N] [LawfulEqOrd N]

/-- **A tree of files.** -/
structure Tree (N D : Type) [Ord N] [TransOrd N] [LawfulEqOrd N] where
  entries : Table (Path N) (Node N D)
  root : entries[([] : Path N)]? = some .folder
  closed : ∀ (p : Path N) (s : N), entries[p ++ [s]]? ≠ none → entries[p]? = some .folder

namespace Tree

/-- The entry at a path. -/
def get (t : Tree N D) (p : Path N) : Option (Node N D) := t.entries[p]?

/-- The part of a tree below a path. -/
def under (t : Tree N D) (base : Path N) : Path N → Option (Node N D) := fun p => t.get (base ++ p)

theorem under_apply (t : Tree N D) (base p : Path N) : t.under base p = t.get (base ++ p) := rfl

theorem ext_get {t t' : Tree N D} (h : ∀ p, t.get p = t'.get p) : t = t' := by
  obtain ⟨e, _, _⟩ := t
  obtain ⟨e', _, _⟩ := t'
  have : e = e' := Tables.ext h
  subst this
  rfl

@[simp] theorem get_root (t : Tree N D) : t.get [] = some .folder := t.root

theorem get_parent {t : Tree N D} {p : Path N} {s : N} (h : t.get (p ++ [s]) ≠ none) :
    t.get p = some .folder := t.closed p s h

theorem get_dropLast {t : Tree N D} {p : Path N} (h : t.get p ≠ none) :
    t.get p.dropLast = some .folder := by
  rcases List.eq_nil_or_concat p with rfl | ⟨q, s, rfl⟩
  · exact t.root
  · rw [List.concat_eq_append] at h ⊢
    rw [List.dropLast_concat]
    exact t.get_parent h

/-- **Every proper ancestor of an entry is a folder.** -/
theorem get_ancestor {t : Tree N D} {p q : Path N} (h : t.get (p ++ q) ≠ none) (hq : q ≠ []) :
    t.get p = some .folder := by
  induction q using List.reverseRecOn with
  | nil => exact absurd rfl hq
  | append_singleton q s ih =>
    rw [← List.append_assoc] at h
    have hp := t.get_parent h
    rcases eq_or_ne q [] with rfl | hne
    · rwa [List.append_nil] at hp
    · exact ih (by rw [hp]; simp) hne

/-- Nothing lies below what is not a folder. -/
theorem get_below_none {t : Tree N D} {p q : Path N} (h : t.get p ≠ some .folder) (hq : q ≠ []) :
    t.get (p ++ q) = none := by
  by_contra hc
  exact h (t.get_ancestor hc hq)

/-- The tree of a root folder alone. -/
def leaf : Tree N D where
  entries := (∅ : Table (Path N) (Node N D)).insert [] .folder
  root := get_insert_self ..
  closed p s h := by
    rw [get_insert_of_ne (by simp), get_empty] at h
    exact absurd rfl h

theorem get_leaf {p : Path N} (hp : p ≠ []) : (leaf : Tree N D).get p = none := by
  refine (get_insert_of_ne hp).trans ?_
  rw [get_empty]

/-! ### Placing an entry -/

/-- An entry may be placed at `p`: its parent is a folder, and no folder is in its place. -/
def Fits (t : Tree N D) (p : Path N) : Prop :=
  p ≠ [] ∧ isFolder (t.get p.dropLast) = true ∧ isFolder (t.get p) = false

instance [DecidableEq N] (t : Tree N D) (p : Path N) : Decidable (t.Fits p) :=
  inferInstanceAs (Decidable (_ ∧ _ ∧ _))

theorem fits_iff {t : Tree N D} {p : Path N} :
    t.Fits p ↔ p ≠ [] ∧ t.get p.dropLast = some .folder ∧ t.get p ≠ some .folder := by
  rw [Fits, isFolder_iff, ← Bool.not_eq_true, isFolder_iff]

theorem put_closed {t : Tree N D} {p : Path N} (h : t.Fits p) (n : Node N D) (q : Path N) (s : N)
    (hq : (t.entries.insert p n)[q ++ [s]]? ≠ none) :
    (t.entries.insert p n)[q]? = some .folder := by
  classical
  obtain ⟨hp, hpar, hnf⟩ := fits_iff.1 h
  rw [get_insert] at hq ⊢
  have hfolder : t.get q = some .folder := by
    split_ifs at hq with hs
    · rw [← hs, List.dropLast_concat] at hpar
      exact hpar
    · exact t.closed q s hq
  split_ifs with hqp
  · exact absurd (hqp ▸ hfolder) hnf
  · exact hfolder

omit [TransOrd N] in
theorem compare_prefix (p : Path N) (q : Path N) : compare p (p ++ q) ≠ .gt := by
  induction p with
  | nil => rcases q with _ | ⟨s, q⟩ <;> simp
  | cons s p ih =>
    rw [List.cons_append, List.compare_cons_cons, ReflOrd.compare_self]
    exact ih

variable [DecidableEq N]

/-- Place an entry where it fits. -/
def put (t : Tree N D) (p : Path N) (n : Node N D) : Tree N D :=
  if h : t.Fits p then
    { entries := t.entries.insert p n
      root := by rw [get_insert_of_ne (Ne.symm h.1)]; exact t.root
      closed := put_closed h n }
  else t

/-- **After an entry is placed** it is found at its path, and nothing else changed. -/
theorem get_put {t : Tree N D} {p : Path N} (h : t.Fits p) (n : Node N D) (q : Path N) :
    (t.put p n).get q = if q = p then some n else t.get q := by
  rw [put, dif_pos h]
  exact get_insert ..

/-! ### Removing an entry and all below it -/

/-- Remove an entry and all below it; the root stays. -/
def prune (t : Tree N D) (p : Path N) : Tree N D :=
  if hp : p = [] then t
  else
    { entries := t.entries.filter fun q _ => !decide (p <+: q)
      root := by
        rw [get_filter, t.root, Option.filter_some_pos]
        simpa using hp
      closed := by
        intro q s hq
        rw [get_filter] at hq ⊢
        have hpre : ¬ p <+: q ++ [s] := by
          intro hpre
          rw [Option.filter_eq_none_iff.2 (by simp [hpre])] at hq
          exact hq rfl
        have hget : t.entries[q ++ [s]]? ≠ none := by
          intro hn
          rw [hn] at hq
          exact hq rfl
        rw [t.closed q s hget, Option.filter_some_pos]
        simpa using fun h => hpre (h.trans (List.prefix_append q [s])) }

/-- **After a removal** nothing is at or below the path, and nothing else changed. -/
theorem get_prune {t : Tree N D} {p : Path N} (hp : p ≠ []) (q : Path N) :
    (t.prune p).get q = if p <+: q then none else t.get q := by
  rw [prune, dif_neg hp, get, get, get_filter]
  split_ifs with h
  · exact Option.filter_eq_none_iff.2 (by simp [h])
  · rcases t.entries[q]? with _ | n
    · rfl
    · rw [Option.filter_some_pos]
      simpa using h

/-- A removal of what is not a folder is a removal of one entry. -/
theorem get_prune_leaf {t : Tree N D} {p : Path N} (hp : p ≠ []) (h : t.get p ≠ some .folder)
    (q : Path N) : (t.prune p).get q = if q = p then none else t.get q := by
  rw [get_prune hp]
  by_cases hq : p <+: q
  · rw [if_pos hq]
    obtain ⟨r, rfl⟩ := hq
    rcases eq_or_ne r [] with rfl | hr
    · rw [List.append_nil, if_pos rfl]
    · rw [if_neg (by simpa using hr), get_below_none h hr]
  · have hqp : q ≠ p := by
      rintro rfl
      exact hq List.prefix_rfl
    rw [if_neg hq, if_neg hqp]

/-! ### The names in a folder and everything below it -/

/-- The names in the folder at `p`. -/
def children (t : Tree N D) (p : Path N) : List N :=
  (t.entries.filter fun q _ => decide (q ≠ [] ∧ q.dropLast = p)).keys.filterMap List.getLast?

theorem mem_children {t : Tree N D} {p : Path N} {s : N} :
    s ∈ t.children p ↔ t.get (p ++ [s]) ≠ none := by
  simp only [children, List.mem_filterMap, mem_keys, get_filter, Option.filter_eq_some_iff,
    decide_eq_true_eq]
  constructor
  · rintro ⟨q, ⟨n, hn, -, rfl⟩, hs⟩
    rw [List.dropLast_append_getLast? s hs, get, hn]
    exact Option.some_ne_none n
  · intro h
    obtain ⟨n, hn⟩ := Option.ne_none_iff_exists'.1 h
    exact ⟨p ++ [s], ⟨n, hn, by simp, List.dropLast_concat⟩, List.getLast?_concat ..⟩

theorem children_nodup (t : Tree N D) (p : Path N) : (t.children p).Nodup := by
  refine List.pairwise_filterMap.2 (List.Pairwise.imp_of_mem ?_ ExtTreeMap.nodup_keys)
  rintro q q' hq hq' hne s hs s' hs' rfl
  rw [mem_keys] at hq hq'
  simp only [get_filter, Option.filter_eq_some_iff, decide_eq_true_eq] at hq hq'
  obtain ⟨n, -, -, hp⟩ := hq
  obtain ⟨n', -, -, hp'⟩ := hq'
  apply hne
  rw [← List.dropLast_append_getLast? s hs, ← List.dropLast_append_getLast? s hs', hp, hp']

/-- The names in a folder are those of the entries in it. -/
theorem children_congr {t t' : Tree N D} {p : Path N}
    (h : ∀ s, t.get (p ++ [s]) = t'.get (p ++ [s])) : t.children p = t'.children p := by
  refine congrArg (fun u : Table (Path N) (Node N D) => u.keys.filterMap List.getLast?)
    (Tables.ext fun q => ?_)
  rw [get_filter, get_filter]
  by_cases hq : q ≠ [] ∧ q.dropLast = p
  · obtain ⟨hne, rfl⟩ := hq
    have := h (q.getLast hne)
    rw [List.dropLast_append_getLast] at this
    exact congrArg _ this
  · rw [Option.filter_eq_none_iff.2 (by simp [hq]), Option.filter_eq_none_iff.2 (by simp [hq])]

/-- The entry at `p` and all entries below it, each after those it holds. -/
def below (t : Tree N D) (p : Path N) : List (Path N × Node N D) :=
  (t.entries.filter fun q _ => decide (p <+: q)).toList.reverse

theorem mem_below {t : Tree N D} {p q : Path N} {n : Node N D} :
    (q, n) ∈ t.below p ↔ p <+: q ∧ t.get q = some n := by
  rw [below, List.mem_reverse, mem_toList, get_filter, Option.filter_eq_some_iff, and_comm,
    decide_eq_true_iff, get]

theorem below_congr {t t' : Tree N D} {p : Path N} (h : t.under p = t'.under p) :
    t.below p = t'.below p := by
  refine congrArg (fun u : Table (Path N) (Node N D) => u.toList.reverse) (Tables.ext fun q => ?_)
  rw [get_filter, get_filter]
  by_cases hq : p <+: q
  · obtain ⟨r, rfl⟩ := hq
    exact congrArg _ (congrFun h r)
  · rw [Option.filter_eq_none_iff.2 (by simp [hq]), Option.filter_eq_none_iff.2 (by simp [hq])]

/-- **What is below a path is listed before what holds it.** -/
theorem below_pairwise (t : Tree N D) (p : Path N) :
    (t.below p).Pairwise fun a b => ¬ a.1 <+: b.1 := by
  rw [below, List.pairwise_reverse]
  refine ExtTreeMap.ordered_keys_toList.imp fun {a b} hab hpre => ?_
  obtain ⟨q, hq⟩ := hpre
  have hgt : compare b.1 a.1 = .gt := OrientedCmp.gt_of_lt hab
  rw [← hq] at hgt
  exact compare_prefix _ _ hgt

/-! ### Moving an entry and all below it -/

/-- `src` may be moved to `dst`: it exists, `dst` has a folder to go to, is not within `src`, and
nothing lies below it. -/
def Movable (t : Tree N D) (src dst : Path N) : Prop :=
  src ≠ [] ∧ dst ≠ [] ∧ (t.get src).isSome = true ∧ ¬ src <+: dst ∧
    isFolder (t.get dst.dropLast) = true ∧ t.children dst = []

instance (t : Tree N D) (src dst : Path N) : Decidable (t.Movable src dst) :=
  inferInstanceAs (Decidable (_ ∧ _ ∧ _ ∧ _ ∧ _ ∧ _))

/-- Where an entry is after `src` was moved to `dst`, if it is still there. -/
def moved (src dst p : Path N) : Option (Path N) :=
  if src <+: p then some (dst ++ p.drop src.length) else if dst <+: p then none else some p

omit [Ord N] [TransOrd N] [LawfulEqOrd N] in
theorem moved_injective {src dst : Path N} (p q a : Path N) (hp : moved src dst p = some a)
    (hq : moved src dst q = some a) : p = q := by
  unfold moved at hp hq
  split_ifs at hp hq with h1 h2 h3 h4 h5
  · obtain rfl := Option.some.inj hp
    obtain ⟨r, rfl⟩ := h1
    obtain ⟨r', rfl⟩ := h2
    simpa [eq_comm] using hq
  · obtain rfl := Option.some.inj hq
    obtain rfl := Option.some.inj hp
    exact absurd (List.prefix_append _ _) h3
  · obtain rfl := Option.some.inj hp
    obtain rfl := Option.some.inj hq
    exact absurd (List.prefix_append _ _) h4
  · rw [Option.some.inj hp, Option.some.inj hq]

theorem get_rekey_moved (t : Tree N D) (src dst q : Path N) :
    (rekey (moved src dst) t.entries)[q]? =
      if dst <+: q then t.get (src ++ q.drop dst.length)
      else if src <+: q then none else t.get q := by
  refine Option.ext fun n => ?_
  rw [get_rekey moved_injective]
  split_ifs with h1 h2
  · obtain ⟨r, rfl⟩ := h1
    rw [List.drop_left]
    constructor
    · rintro ⟨k, hk, hn⟩
      unfold moved at hk
      split_ifs at hk with h3 h4
      · obtain ⟨r', rfl⟩ := h3
        rw [List.drop_left, Option.some.injEq, List.append_cancel_left_eq] at hk
        exact hk ▸ hn
      · rw [Option.some.inj hk] at h4
        exact absurd (List.prefix_append _ _) h4
    · intro hn
      refine ⟨src ++ r, ?_, hn⟩
      rw [moved, if_pos (List.prefix_append _ _), List.drop_left]
  · simp only [iff_false, not_exists, not_and]
    intro k hk
    unfold moved at hk
    split_ifs at hk with h3 h4
    · exact absurd (Option.some.inj hk ▸ List.prefix_append _ _) h1
    · exact absurd (Option.some.inj hk ▸ h2) h3
  · constructor
    · rintro ⟨k, hk, hn⟩
      unfold moved at hk
      split_ifs at hk with h3 h4
      · exact absurd (Option.some.inj hk ▸ List.prefix_append _ _) h1
      · exact Option.some.inj hk ▸ hn
    · intro hn
      exact ⟨q, by rw [moved, if_neg h2, if_neg h1], hn⟩

/-- Move `src` and all below it to `dst`, where it may be moved. -/
def move (t : Tree N D) (src dst : Path N) : Tree N D :=
  if h : t.Movable src dst then
    { entries := rekey (moved src dst) t.entries
      root := by
        obtain ⟨hs, hd, -⟩ := h
        rw [get_rekey_moved, if_neg (by simpa using hd), if_neg (by simpa using hs), get_root]
      closed := by
        obtain ⟨hs, hd, -, hsd, hpar, -⟩ := h
        intro q s hq
        rw [get_rekey_moved] at hq ⊢
        by_cases hdq : dst <+: q
        · obtain ⟨r, rfl⟩ := hdq
          rw [if_pos (by simp), List.append_assoc, List.drop_left, ← List.append_assoc] at hq
          rw [if_pos (by simp), List.drop_left]
          exact t.get_parent hq
        rw [if_neg hdq]
        by_cases hdqs : dst <+: q ++ [s]
        · -- the moved entry itself: its new parent is the folder it was moved to
          obtain rfl : dst = q ++ [s] := (List.prefix_concat_iff.1 hdqs).resolve_right hdq
          rw [List.dropLast_concat, isFolder_iff] at hpar
          rw [if_neg fun h => hsd (h.trans (List.prefix_append q [s])), hpar]
        · rw [if_neg hdqs] at hq
          have hsq : ¬ src <+: q ++ [s] := fun h => hq (if_pos h)
          rw [if_neg hsq] at hq
          rw [if_neg fun h => hsq (h.trans (List.prefix_append q [s]))]
          exact t.get_parent hq }
  else t

/-- **After a move** the entry and all that was below it is found at its new place, nothing is at the
old one, and nothing else changed. -/
theorem get_move {t : Tree N D} {src dst : Path N} (h : t.Movable src dst) (q : Path N) :
    (t.move src dst).get q = if dst <+: q then t.get (src ++ q.drop dst.length)
      else if src <+: q then none else t.get q := by
  rw [move, dif_pos h]
  exact get_rekey_moved ..

/-! ### The parts of a tree -/

/-- An entry placed apart from a path shows nothing below it. -/
theorem under_put_of_apart {t : Tree N D} {base p : Path N} (hp : t.Fits p) (n : Node N D)
    (h1 : ¬ base <+: p) : (t.put p n).under base = t.under base := by
  funext q
  rw [under_apply, under_apply, get_put hp, if_neg]
  rintro rfl
  exact h1 (List.prefix_append base q)

end Tree

end PaperBoxing.Lib.Trees
