import PaperBoxing.Lib.Tables
import PaperBoxing.Lib.Text

/-! # The locks of the sites

`SiteLocks` of `backend/storage.py`. An entry of its table is made for the first task that asks for a
slug and dropped by the last one that is done with it; `waiting` counts those in between. A task is
run up to its next await in one step: entering `hold` up to the lock's `acquire`, being given the
lock, leaving the body, and being cancelled, at the lock or in the body. `asyncio.Lock` is a mutex
with a queue.

* `Inv`: the invariant; `run_inv`: it holds in every run;
* `locks_correct`: what the table and the tasks look like in every run;
* `step_held`: seen from outside, a step takes a free lock, gives one back, or does neither. -/

namespace PaperBoxing.Backend.SiteLocks

open PaperBoxing.Lib PaperBoxing.Lib.Text PaperBoxing.Lib.Tables

variable {ι : Type}

/-- `asyncio.Lock`: who holds it, and who waits for it, in the order they came. -/
structure Lock (ι : Type) : Type where
  holder : Option ι
  queue : List ι

/-- `_LockEntry`. -/
structure LockEntry (ι : Type) : Type where
  lock : Lock ι
  waiting : ℕ

/-- Where a task is in its call of `hold`; an entry is known by its number. -/
inductive Stage : Type where
  | ready
  | awaiting (entry : ℕ)
  | inside (entry : ℕ)
  | ended
  deriving DecidableEq

/-- The entry a task holds or awaits. -/
def Stage.on : Stage → Option ℕ
  | .awaiting e | .inside e => some e
  | .ready | .ended => none

structure State (ι : Type) : Type where
  /-- `_entries` -/
  entries : Table Str ℕ
  /-- the entries that were made, by number -/
  heap : ℕ → LockEntry ι
  fresh : ℕ
  stage : ι → Stage

/-- No task has begun. -/
def State.init : State ι := ⟨∅, fun _ => ⟨⟨none, []⟩, 0⟩, 0, fun _ => .ready⟩

/-! ### The code of `hold` -/

/-- The entry of a slug, made if there is none. -/
def State.entry (s : State ι) (slug : Str) : ℕ × State ι :=
  match s.entries[slug]? with
  | some e => (e, s)
  | none => (s.fresh, { s with
      entries := s.entries.insert slug s.fresh
      heap := Function.update s.heap s.fresh ⟨⟨none, []⟩, 0⟩
      fresh := s.fresh + 1 })

section
variable [DecidableEq ι] {s : State ι} {t : ι} {e : ℕ} {st : Stage} {entry : LockEntry ι}

/-- The task `t` gets to another stage, and the entry `e` changes. -/
def State.move (s : State ι) (t : ι) (st : Stage) (e : ℕ) (entry : LockEntry ι) : State ι :=
  { s with heap := Function.update s.heap e entry, stage := Function.update s.stage t st }

@[simp] theorem move_entries : (s.move t st e entry).entries = s.entries := rfl

@[simp] theorem move_heap_self : (s.move t st e entry).heap e = entry := Function.update_self ..

theorem move_heap_of_ne {f : ℕ} (h : f ≠ e) : (s.move t st e entry).heap f = s.heap f :=
  Function.update_of_ne h ..

@[simp] theorem move_stage_self : (s.move t st e entry).stage t = st := Function.update_self ..

theorem move_stage_of_ne {u : ι} (h : u ≠ t) : (s.move t st e entry).stage u = s.stage u :=
  Function.update_of_ne h ..

theorem move_stage {u : ι} {x : Stage} : (s.move t st e entry).stage u = x ↔
    u = t ∧ st = x ∨ u ≠ t ∧ s.stage u = x := by
  rcases eq_or_ne u t with rfl | hut
  · simp
  · simp [hut, move_stage_of_ne hut]

/-- `entry.waiting += 1`, and the lock's `acquire`: it is given at once when it is free and nobody
waits. -/
def State.join (s : State ι) (t : ι) (e : ℕ) : State ι :=
  let entry := s.heap e
  if entry.lock.holder = none ∧ entry.lock.queue = [] then
    s.move t (.inside e) e ⟨⟨some t, []⟩, entry.waiting + 1⟩
  else
    s.move t (.awaiting e) e ⟨⟨entry.lock.holder, entry.lock.queue ++ [t]⟩, entry.waiting + 1⟩

/-- The lock is given to the first that waits. -/
def State.grant (s : State ι) (t : ι) (e : ℕ) : State ι :=
  s.move t (.inside e) e ⟨⟨some t, (s.heap e).lock.queue.tail⟩, (s.heap e).waiting⟩

/-- The lock is given back, or no longer awaited, and `entry.waiting -= 1`. -/
def State.part (s : State ι) (t : ι) (e : ℕ) : State ι :=
  let entry := s.heap e
  s.move t .ended e
    ⟨⟨if entry.lock.holder = some t then none else entry.lock.holder, entry.lock.queue.erase t⟩,
      entry.waiting - 1⟩

/-- The end of the `finally`: the entry goes when nobody needs it. -/
def State.drop (s : State ι) (slug : Str) (e : ℕ) : State ι :=
  if (s.heap e).waiting = 0 ∧ s.entries[slug]? = some e then
    { s with entries := s.entries.erase slug }
  else s

end

/-- What a task, or whoever cancels it, does up to its next await. -/
inductive Action (ι : Type) : Type where
  | enter (t : ι)
  | grant (t : ι)
  | exit (t : ι)
  | cancel (t : ι)

section
variable [DecidableEq ι] (slug : ι → Str)

/-- **One step.** -/
def step (s : State ι) : Action ι → Option (State ι)
  | .enter t =>
    match s.stage t with
    | .ready => some ((s.entry (slug t)).2.join t (s.entry (slug t)).1)
    | _ => none
  | .grant t =>
    match s.stage t with
    | .awaiting e =>
      if (s.heap e).lock.holder = none ∧ (s.heap e).lock.queue.head? = some t then
        some (s.grant t e)
      else none
    | _ => none
  | .exit t =>
    match s.stage t with
    | .inside e => some ((s.part t e).drop (slug t) e)
    | _ => none
  | .cancel t =>
    match s.stage t with
    | .awaiting e | .inside e => some ((s.part t e).drop (slug t) e)
    | .ready => some { s with stage := Function.update s.stage t .ended }
    | .ended => none

/-- A run: one step after another. -/
def run (s : State ι) : List (Action ι) → Option (State ι)
  | [] => some s
  | a :: as => (step slug s a).bind fun s' => run s' as

end

/-! ### The invariant -/

/-- The tasks that hold or await an entry. -/
def State.users [Fintype ι] (s : State ι) (e : ℕ) : Finset ι :=
  Finset.univ.filter fun t => (s.stage t).on = some e

/-- An entry of the table and the tasks agree. -/
structure Fits [Fintype ι] (s : State ι) (e : ℕ) : Prop where
  old : e < s.fresh
  /-- `waiting` is the number of tasks on the entry -/
  count : (s.heap e).waiting = (s.users e).card
  holder : ∀ t, (s.heap e).lock.holder = some t ↔ s.stage t = .inside e
  queue : ∀ t, t ∈ (s.heap e).lock.queue ↔ s.stage t = .awaiting e
  nodup : (s.heap e).lock.queue.Nodup

/-- **The invariant**, but for the entry of `except`, which may be unused. -/
structure InvBut [Fintype ι] (slug : ι → Str) (except : Option Str) (s : State ι) : Prop where
  /-- a task is on the entry of its slug -/
  known : ∀ t e, (s.stage t).on = some e → s.entries[slug t]? = some e
  /-- two slugs have two entries -/
  inj : ∀ (k k' : Str) (e : ℕ), s.entries[k]? = some e → s.entries[k']? = some e → k = k'
  fits : ∀ (k : Str) (e : ℕ), s.entries[k]? = some e → Fits s e
  used : ∀ (k : Str) (e : ℕ), s.entries[k]? = some e → some k ≠ except → 0 < (s.heap e).waiting

/-- **The invariant.** -/
abbrev Inv [Fintype ι] (slug : ι → Str) (s : State ι) : Prop := InvBut slug none s

variable [Fintype ι] {slug : ι → Str} {s s' : State ι} {t : ι} {e : ℕ}

theorem init_inv : Inv slug (State.init : State ι) where
  known t e h := by cases h
  inj k k' e h := by rw [State.init, get_empty] at h; cases h
  fits k e h := by rw [State.init, get_empty] at h; cases h
  used k e h := by rw [State.init, get_empty] at h; cases h

theorem InvBut.weaken (h : Inv slug s) (k : Str) : InvBut slug (some k) s :=
  { h with used := fun k' e he _ => h.used k' e he (by simp) }

/-- An entry that is not touched, and whose tasks stay where they are, fits as before. -/
theorem Fits.frame (h : Fits s e) (hfresh : s.fresh ≤ s'.fresh) (hheap : s'.heap e = s.heap e)
    (hstage : ∀ t, (s.stage t).on = some e ∨ (s'.stage t).on = some e → s'.stage t = s.stage t) :
    Fits s' e := by
  have hinside : ∀ t, s'.stage t = .inside e ↔ s.stage t = .inside e := fun t =>
    ⟨fun ht => by rw [← hstage t (Or.inr (by rw [ht]; rfl)), ht],
      fun ht => by rw [hstage t (Or.inl (by rw [ht]; rfl)), ht]⟩
  have hawaiting : ∀ t, s'.stage t = .awaiting e ↔ s.stage t = .awaiting e := fun t =>
    ⟨fun ht => by rw [← hstage t (Or.inr (by rw [ht]; rfl)), ht],
      fun ht => by rw [hstage t (Or.inl (by rw [ht]; rfl)), ht]⟩
  have husers : s'.users e = s.users e := by
    refine Finset.filter_congr fun t _ => ⟨fun ht => ?_, fun ht => ?_⟩
    · rwa [hstage t (Or.inr ht)] at ht
    · rwa [hstage t (Or.inl ht)]
  refine ⟨h.old.trans_le hfresh, ?_, fun t => ?_, fun t => ?_, ?_⟩
  · rw [hheap, husers]
    exact h.count
  · rw [hheap, hinside]
    exact h.holder t
  · rw [hheap, hawaiting]
    exact h.queue t
  · rw [hheap]
    exact h.nodup

theorem Inv.slug_of_entry (h : Inv slug s) (hon : (s.stage t).on = some e) {k : Str}
    (hk : s.entries[k]? = some e) : slug t = k := h.inj _ _ e (h.known t e hon) hk

/-- An entry of the table has a task on it. -/
theorem Inv.user_of_entry (h : Inv slug s) {k : Str} (hk : s.entries[k]? = some e) :
    ∃ t, slug t = k ∧ (s.stage t).on = some e := by
  have hpos := h.used k e hk (by simp)
  rw [(h.fits k e hk).count, Finset.card_pos] at hpos
  obtain ⟨t, ht⟩ := hpos
  have hon := (Finset.mem_filter.1 ht).2
  exact ⟨t, h.slug_of_entry hon hk, hon⟩

theorem Inv.users_eq (h : Inv slug s) {k : Str} (hk : s.entries[k]? = some e) :
    s.users e = Finset.univ.filter fun t => slug t = k ∧ (s.stage t).on ≠ none := by
  refine Finset.filter_congr fun t _ => ⟨fun hon => ⟨h.slug_of_entry hon hk, by simp [hon]⟩, ?_⟩
  rintro ⟨rfl, hon⟩
  obtain ⟨f, hf⟩ := Option.ne_none_iff_exists'.1 hon
  rw [hf, ← hk, h.known t f hf]

/-- **The entry of a slug** is there once it was asked for. -/
theorem entry_inv (h : Inv slug s) (k : Str) : InvBut slug (some k) (s.entry k).2 ∧
    (s.entry k).2.entries[k]? = some (s.entry k).1 ∧ (s.entry k).2.stage = s.stage := by
  rw [State.entry]
  rcases hk : s.entries[k]? with _ | e
  swap
  · exact ⟨h.weaken k, hk, rfl⟩
  refine ⟨?_, get_insert_self .., rfl⟩
  have hfresh : ∀ (t : ι), (s.stage t).on ≠ some s.fresh := fun t ht =>
    absurd (h.fits _ _ (h.known t _ ht)).old (lt_irrefl _)
  have hcases : ∀ (k' : Str) (e : ℕ), (s.entries.insert k s.fresh)[k']? = some e →
      k' = k ∧ e = s.fresh ∨ s.entries[k']? = some e ∧ e ≠ s.fresh := by
    intro k' e he
    rw [get_insert] at he
    split_ifs at he with hkk
    · exact Or.inl ⟨hkk, (Option.some.inj he).symm⟩
    · exact Or.inr ⟨he, (h.fits k' e he).old.ne⟩
  refine ⟨fun t e ht => ?_, fun k1 k2 e h1 h2 => ?_, fun k' e he => ?_, fun k' e he hne => ?_⟩
  · have hte := h.known t e ht
    refine (get_insert_of_ne ?_).trans hte
    rintro hkk
    rw [hkk, hk] at hte
    cases hte
  · rcases hcases k1 e h1 with ⟨rfl, rfl⟩ | ⟨h1, he⟩
    · rcases hcases k2 _ h2 with ⟨rfl, -⟩ | ⟨-, he⟩
      · rfl
      · exact absurd rfl he
    · rcases hcases k2 e h2 with ⟨-, rfl⟩ | ⟨h2, -⟩
      · exact absurd rfl he
      · exact h.inj k1 k2 e h1 h2
  · rcases hcases k' e he with ⟨-, rfl⟩ | ⟨he, hne⟩
    · have husers : State.users s s.fresh = ∅ :=
        Finset.filter_eq_empty_iff.2 fun t _ => hfresh t
      refine ⟨Nat.lt_succ_self _, ?_, fun t => ?_, fun t => ?_, ?_⟩ <;>
        simp only [Function.update_self]
      · exact (Finset.card_eq_zero.2 husers).symm
      · exact iff_of_false (by simp) fun ht => hfresh t (by rw [ht]; rfl)
      · exact iff_of_false (by simp) fun ht => hfresh t (by rw [ht]; rfl)
      · exact List.nodup_nil
    · exact (h.fits k' e he).frame (Nat.le_succ _) (Function.update_of_ne hne ..) fun t _ => rfl
  · rcases hcases k' e he with ⟨rfl, -⟩ | ⟨he, hne'⟩
    · exact absurd rfl hne
    · simp only [Function.update_of_ne hne']
      exact h.used k' e he (by simp)

theorem drop_inv {k : Str} (h : InvBut slug (some k) s) (hk : s.entries[k]? = some e) :
    Inv slug (s.drop k e) := by
  have hfit := h.fits _ _ hk
  rw [State.drop]
  split_ifs with hzero
  · have hnone : ∀ t, (s.stage t).on ≠ some e := by
      have hcard := hfit.count
      rw [hzero.1, eq_comm, Finset.card_eq_zero] at hcard
      intro t ht
      have hmem : t ∈ s.users e := Finset.mem_filter.2 ⟨Finset.mem_univ t, ht⟩
      rw [hcard] at hmem
      exact Finset.notMem_empty t hmem
    have hget : ∀ (k' : Str) (f : ℕ), (s.entries.erase k)[k']? = some f →
        k' ≠ k ∧ s.entries[k']? = some f := by
      intro k' f hf
      rw [get_erase] at hf
      split_ifs at hf with hkk
      exact ⟨hkk, hf⟩
    refine ⟨fun t f ht => ?_, fun k1 k2 f h1 h2 => h.inj k1 k2 f (hget _ _ h1).2 (hget _ _ h2).2,
      fun k' f hf => ?_, fun k' f hf _ => ?_⟩
    · have hkt := h.known t f ht
      refine (get_erase_of_ne ?_).trans hkt
      rintro hkk
      rw [hkk, hk] at hkt
      exact hnone t (ht.trans hkt.symm)
    · exact (h.fits k' f (hget k' f hf).2).frame le_rfl rfl fun t _ => rfl
    · exact h.used k' f (hget k' f hf).2 fun hc => (hget k' f hf).1 (Option.some.inj hc)
  · refine { h with used := fun k' f hf _ => ?_ }
    by_cases hkk : k' = k
    · subst hkk
      obtain rfl := Option.some.inj (hf.symm.trans hk)
      exact Nat.pos_of_ne_zero fun h0 => hzero ⟨h0, hk⟩
    · exact h.used k' f hf fun hc => hkk (Option.some.inj hc)

variable [DecidableEq ι]

section Move
variable {st : Stage} {entry : LockEntry ι} {k : Str}

/-- **A task that moves touches the entry of its slug only.** -/
theorem InvBut.move {except except' : Option Str} (h : InvBut slug except s)
    (hk : s.entries[k]? = some e) (ht : slug t = k)
    (hon : (s.stage t).on = none ∨ (s.stage t).on = some e) (hst : st.on = none ∨ st.on = some e)
    (hexc : ∀ k', k' ≠ k → some k' ≠ except' → some k' ≠ except)
    (hused : some k ≠ except' → 0 < entry.waiting) (hfits : Fits (s.move t st e entry) e) :
    InvBut slug except' (s.move t st e entry) := by
  have hne : ∀ (k' : Str) (e' : ℕ), s.entries[k']? = some e' → k' ≠ k → e' ≠ e := by
    rintro k' e' he' hkk rfl
    exact hkk (h.inj k' k _ he' hk)
  refine ⟨fun u f hu => ?_, h.inj, fun k' e' he' => ?_, fun k' e' he' hx => ?_⟩
  · rcases eq_or_ne u t with rfl | hut
    · rw [move_stage_self] at hu
      rcases hst with hst | hst <;> rw [hst] at hu
      · cases hu
      · obtain rfl := Option.some.inj hu
        rw [ht]
        exact hk
    · rw [move_stage_of_ne hut] at hu
      exact h.known u f hu
  · rcases eq_or_ne e' e with rfl | hee
    · exact hfits
    · refine (h.fits k' e' he').frame le_rfl (move_heap_of_ne hee) fun u hu => ?_
      refine move_stage_of_ne ?_
      rintro rfl
      rw [move_stage_self] at hu
      rcases hu with hu | hu
      · rcases hon with hon | hon <;> rw [hon] at hu
        · cases hu
        · exact hee (Option.some.inj hu).symm
      · rcases hst with hst | hst <;> rw [hst] at hu
        · cases hu
        · exact hee (Option.some.inj hu).symm
  · rcases eq_or_ne k' k with rfl | hkk
    · obtain rfl := Option.some.inj (he'.symm.trans hk)
      rw [move_heap_self]
      exact hused hx
    · rw [move_heap_of_ne (hne k' e' he' hkk)]
      exact h.used k' e' he' (hexc k' hkk hx)

/-- The tasks on an entry after one of them came. -/
theorem users_come (hon : (s.stage t).on = none) (hst : st.on = some e) :
    ((s.move t st e entry).users e).card = (s.users e).card + 1 := by
  have : (s.move t st e entry).users e = insert t (s.users e) := by
    ext u
    simp only [State.users, Finset.mem_filter, Finset.mem_univ, true_and, Finset.mem_insert]
    rcases eq_or_ne u t with rfl | hut
    · simp [hst]
    · simp [hut, move_stage_of_ne hut]
  rw [this, Finset.card_insert_of_notMem]
  simp [State.users, hon]

/-- The tasks on an entry after one of them left. -/
theorem users_go (hon : (s.stage t).on = some e) (hst : st.on = none) :
    ((s.move t st e entry).users e).card = (s.users e).card - 1 := by
  have : (s.move t st e entry).users e = (s.users e).erase t := by
    ext u
    simp only [State.users, Finset.mem_filter, Finset.mem_univ, true_and, Finset.mem_erase]
    rcases eq_or_ne u t with rfl | hut
    · simp [hst]
    · simp [hut, move_stage_of_ne hut]
  rw [this, Finset.card_erase_of_mem]
  simp [State.users, hon]

/-- The tasks on an entry while one of them changes its stage. -/
theorem users_stay (hon : (s.stage t).on = some e) (hst : st.on = some e) :
    (s.move t st e entry).users e = s.users e := by
  refine Finset.filter_congr fun u _ => ?_
  rcases eq_or_ne u t with rfl | hut
  · rw [move_stage_self, hst, hon]
  · rw [move_stage_of_ne hut]

end Move

theorem join_inv (h : InvBut slug (some (slug t)) s) (hk : s.entries[slug t]? = some e)
    (ht : s.stage t = .ready) : Inv slug (s.join t e) := by
  have hfit := h.fits _ _ hk
  have hon : (s.stage t).on = none := by rw [ht]; rfl
  have hexc : ∀ k', k' ≠ slug t → some k' ≠ none → some k' ≠ some (slug t) :=
    fun k' hk' _ hc => hk' (Option.some.inj hc)
  rw [State.join]
  split_ifs with hfree
  · refine h.move hk rfl (Or.inl hon) (Or.inr rfl) hexc (fun _ => Nat.succ_pos _) ⟨hfit.old, ?_,
      fun u => ?_, fun u => ?_, ?_⟩ <;> simp only [move_heap_self]
    · rw [users_come hon rfl, hfit.count]
    · rw [move_stage]
      have := hfit.holder u
      rw [hfree.1] at this
      simp only [reduceCtorEq, false_iff] at this
      simp [this, eq_comm]
    · rw [move_stage]
      have := hfit.queue u
      rw [hfree.2] at this
      simp only [List.not_mem_nil, false_iff] at this
      simp [this]
    · exact List.nodup_nil
  · have hnot : t ∉ (s.heap e).lock.queue := by
      rw [hfit.queue, ht]
      simp
    refine h.move hk rfl (Or.inl hon) (Or.inr rfl) hexc (fun _ => Nat.succ_pos _) ⟨hfit.old, ?_,
      fun u => ?_, fun u => ?_, ?_⟩ <;> simp only [move_heap_self]
    · rw [users_come hon rfl, hfit.count]
    · rw [hfit.holder, move_stage]
      rcases eq_or_ne u t with rfl | hut
      · simp [ht]
      · simp [hut]
    · rw [List.mem_append, hfit.queue, List.mem_singleton, move_stage]
      rcases eq_or_ne u t with rfl | hut
      · simp
      · simp [hut]
    · exact List.nodup_append.2 ⟨hfit.nodup, List.nodup_singleton t, fun a ha b hb => by
        rw [List.mem_singleton] at hb
        rintro rfl
        exact hnot (hb ▸ ha)⟩

theorem grant_inv (h : Inv slug s) (ht : s.stage t = .awaiting e)
    (hfree : (s.heap e).lock.holder = none) (hhead : (s.heap e).lock.queue.head? = some t) :
    Inv slug (s.grant t e) := by
  have hon : (s.stage t).on = some e := by rw [ht]; rfl
  have hk := h.known t e hon
  have hfit := h.fits _ _ hk
  obtain ⟨q, hq⟩ : ∃ q, (s.heap e).lock.queue = t :: q := by
    rcases hl : (s.heap e).lock.queue with _ | ⟨x, q⟩
    · rw [hl] at hhead
      cases hhead
    · rw [hl] at hhead
      obtain rfl := Option.some.inj hhead
      exact ⟨q, rfl⟩
  have hnodup := hfit.nodup
  rw [hq] at hnodup
  refine h.move hk rfl (Or.inr hon) (Or.inr rfl) (fun _ _ hx => hx) (fun hx => h.used _ _ hk hx)
    ⟨hfit.old, ?_, fun u => ?_, fun u => ?_, ?_⟩ <;> simp only [move_heap_self, hq, List.tail_cons]
  · rw [hfit.count, users_stay hon rfl]
  · rw [move_stage]
    have := hfit.holder u
    rw [hfree] at this
    simp only [reduceCtorEq, false_iff] at this
    simp [this, eq_comm]
  · have := hfit.queue u
    rw [hq, List.mem_cons] at this
    rw [move_stage]
    rcases eq_or_ne u t with rfl | hut
    · simp [(List.nodup_cons.1 hnodup).1]
    · simp only [hut, false_or] at this
      simp [hut, this]
  · exact (List.nodup_cons.1 hnodup).2

theorem part_inv (h : Inv slug s) (hon : (s.stage t).on = some e) :
    InvBut slug (some (slug t)) (s.part t e) := by
  have hk := h.known t e hon
  have hfit := h.fits _ _ hk
  refine h.move hk rfl (Or.inr hon) (Or.inl rfl) (fun _ _ _ => by simp) (fun hx => absurd rfl hx)
    ⟨hfit.old, ?_, fun u => ?_, fun u => ?_, ?_⟩ <;> simp only [move_heap_self]
  · rw [users_go hon rfl, hfit.count]
  · rw [move_stage]
    split_ifs with hh
    · have hu := hfit.holder u
      rw [hh] at hu
      rcases eq_or_ne u t with rfl | hut
      · simp
      · have : s.stage u ≠ .inside e := fun hc => hut (Option.some.inj (hu.2 hc)).symm
        simp [this]
    · have hu := hfit.holder u
      rw [hu]
      rcases eq_or_ne u t with rfl | hut
      · simpa using fun hc => hh (hu.2 hc)
      · simp [hut]
  · rw [hfit.nodup.mem_erase_iff, hfit.queue, move_stage]
    simp
  · exact hfit.nodup.erase t

theorem part_drop_inv (h : Inv slug s) (hon : (s.stage t).on = some e) :
    Inv slug ((s.part t e).drop (slug t) e) :=
  drop_inv (part_inv h hon) (h.known t e hon)

/-- **Every step keeps the invariant.** -/
theorem step_inv {a : Action ι} (h : Inv slug s) (hs : step slug s a = some s') : Inv slug s' := by
  cases a with
  | enter t =>
    rw [step] at hs
    split at hs
    · next ht =>
      obtain rfl := Option.some.inj hs
      obtain ⟨h1, hk, hst⟩ := entry_inv h (slug t)
      exact join_inv h1 hk (by rw [hst, ht])
    · cases hs
  | grant t =>
    rw [step] at hs
    split at hs
    · next e ht =>
      split_ifs at hs with hg
      obtain rfl := Option.some.inj hs
      exact grant_inv h ht hg.1 hg.2
    · cases hs
  | exit t =>
    rw [step] at hs
    split at hs
    · next e ht =>
      obtain rfl := Option.some.inj hs
      exact part_drop_inv h (by rw [ht]; rfl)
    · cases hs
  | cancel t =>
    rw [step] at hs
    split at hs
    · next e ht =>
      obtain rfl := Option.some.inj hs
      exact part_drop_inv h (by rw [ht]; rfl)
    · next e ht =>
      obtain rfl := Option.some.inj hs
      exact part_drop_inv h (by rw [ht]; rfl)
    · next ht =>
      obtain rfl := Option.some.inj hs
      have hon : ∀ u e, (Function.update s.stage t .ended u).on = some e → u ≠ t := by
        rintro u e hu rfl
        rw [Function.update_self] at hu
        cases hu
      refine ⟨fun u e hu => ?_, h.inj, fun k e he => (h.fits k e he).frame le_rfl rfl fun u hu => ?_,
        h.used⟩
      · have hstage : Function.update s.stage t .ended u = s.stage u :=
          Function.update_of_ne (hon u e hu) ..
        exact h.known u e (by rw [← hstage]; exact hu)
      · refine Function.update_of_ne ?_ ..
        rintro rfl
        rcases hu with hu | hu
        · rw [ht] at hu
          cases hu
        · exact hon u e hu rfl
    · cases hs

/-- **The invariant holds in every run.** -/
theorem run_inv : ∀ {as : List (Action ι)} {s s' : State ι}, Inv slug s →
    run slug s as = some s' → Inv slug s'
  | [], _, _, h, hr => by
    obtain rfl := Option.some.inj hr
    exact h
  | _ :: _, _, _, h, hr => by
    obtain ⟨_, h1, h2⟩ := Option.bind_eq_some_iff.1 hr
    exact run_inv (step_inv h h1) h2

/-! ### What the locks are good for -/

/-- **What is asked of the locks**, of one state. -/
structure Correct (slug : ι → Str) (s : State ι) : Prop where
  /-- at most one task is in the body for a slug -/
  exclusive : ∀ t u e f, s.stage t = .inside e → s.stage u = .inside f → slug t = slug u → t = u
  /-- a slug has an entry exactly while a task holds or awaits it -/
  entry : ∀ k : Str, s.entries[k]? ≠ none ↔ ∃ t, slug t = k ∧ (s.stage t).on ≠ none
  /-- `waiting` is the number of these tasks -/
  waiting : ∀ (k : Str) (e : ℕ), s.entries[k]? = some e → (s.heap e).waiting =
    (Finset.univ.filter fun t => slug t = k ∧ (s.stage t).on ≠ none).card
  /-- two tasks of a slug are on one lock -/
  one_lock : ∀ t u e f, (s.stage t).on = some e → (s.stage u).on = some f → slug t = slug u → e = f
  /-- tasks of two slugs are on two locks -/
  apart : ∀ t u e f, (s.stage t).on = some e → (s.stage u).on = some f → slug t ≠ slug u → e ≠ f
  /-- a task whose slug nobody else is on goes in at once -/
  enters : ∀ t, s.stage t = .ready → (∀ u, slug u = slug t → (s.stage u).on = none) →
    ∃ s' e, step slug s (.enter t) = some s' ∧ s'.stage t = .inside e
  /-- a task that waits, waits for a task of its own slug -/
  waits : ∀ t e, s.stage t = .awaiting e → step slug s (.grant t) = none →
    ∃ u, u ≠ t ∧ slug u = slug t ∧ (s.stage u).on = some e
  /-- the table is empty when all tasks have ended -/
  empty : (∀ t, s.stage t = .ended) → s.entries = ∅

theorem Inv.correct (h : Inv slug s) : Correct slug s where
  exclusive t u e f ht hu hs := by
    have hte := h.known t e (by rw [ht]; rfl)
    have huf := h.known u f (by rw [hu]; rfl)
    rw [hs, huf] at hte
    obtain rfl := Option.some.inj hte
    have hfit := h.fits _ _ huf
    exact Option.some.inj (((hfit.holder t).2 ht).symm.trans ((hfit.holder u).2 hu))
  entry k := by
    constructor
    · intro hk
      obtain ⟨e, hk⟩ := Option.ne_none_iff_exists'.1 hk
      obtain ⟨t, ht, hon⟩ := h.user_of_entry hk
      exact ⟨t, ht, by simp [hon]⟩
    · rintro ⟨t, rfl, hon⟩
      obtain ⟨e, he⟩ := Option.ne_none_iff_exists'.1 hon
      rw [h.known t e he]
      simp
  waiting k e hk := by
    rw [(h.fits k e hk).count, h.users_eq hk]
  one_lock t u e f ht hu hs := by
    have hte := h.known t e ht
    rw [hs, h.known u f hu] at hte
    exact (Option.some.inj hte).symm
  apart t u e f ht hu hs hef := by
    subst hef
    exact hs (h.inj _ _ _ (h.known t e ht) (h.known u e hu))
  enters t ht hnone := by
    have hk : s.entries[slug t]? = none := by
      by_contra hk
      obtain ⟨e, hk⟩ := Option.ne_none_iff_exists'.1 hk
      obtain ⟨u, hu, hon⟩ := h.user_of_entry hk
      rw [hnone u hu] at hon
      cases hon
    have hent : s.entry (slug t) = (s.fresh, { s with
        entries := s.entries.insert (slug t) s.fresh
        heap := Function.update s.heap s.fresh ⟨⟨none, []⟩, 0⟩
        fresh := s.fresh + 1 }) := by
      rw [State.entry, hk]
    refine ⟨_, s.fresh, by rw [step, ht], ?_⟩
    rw [hent, State.join, if_pos (by simp)]
    exact move_stage_self
  waits t e ht hg := by
    have hon : (s.stage t).on = some e := by rw [ht]; rfl
    have hk := h.known t e hon
    have hfit := h.fits _ _ hk
    rw [step, ht] at hg
    dsimp only at hg
    split_ifs at hg with hc
    rw [not_and_or] at hc
    have hslug : ∀ u, (s.stage u).on = some e → slug u = slug t := fun u hu =>
      h.slug_of_entry hu hk
    rcases hc with hc | hc
    · obtain ⟨u, hu⟩ := Option.ne_none_iff_exists'.1 hc
      have hin := (hfit.holder u).1 hu
      refine ⟨u, ?_, hslug u (by rw [hin]; rfl), by rw [hin]; rfl⟩
      rintro rfl
      rw [ht] at hin
      cases hin
    · have hmem := (hfit.queue t).2 ht
      rcases hq : (s.heap e).lock.queue with _ | ⟨u, q⟩
      · rw [hq] at hmem
        cases hmem
      · have hin := (hfit.queue u).1 (by rw [hq]; simp)
        refine ⟨u, ?_, hslug u (by rw [hin]; rfl), by rw [hin]; rfl⟩
        rintro rfl
        exact hc (by rw [hq]; rfl)
  empty hall := by
    refine Tables.ext fun k => ?_
    rw [get_empty]
    by_contra hk
    obtain ⟨e, hk⟩ := Option.ne_none_iff_exists'.1 hk
    obtain ⟨t, -, hon⟩ := h.user_of_entry hk
    rw [hall t] at hon
    cases hon

/-- **The locks are correct in every run**: any tasks, any order of their steps, any cancellations. -/
theorem locks_correct (slug : ι → Str) (as : List (Action ι))
    (h : run slug State.init as = some s) : Correct slug s :=
  (run_inv init_inv h).correct

/-- Three tasks, two of them of one slug; the first to wait is cancelled. -/
theorem locks_correct_three : ∃ s, run (fun t : Fin 3 => if t = 2 then lit "b" else lit "a") State.init
    [.enter 0, .enter 1, .enter 2, .cancel 1, .exit 0] = some s ∧
    Correct (fun t : Fin 3 => if t = 2 then lit "b" else lit "a") s := by
  obtain ⟨s, hs⟩ := Option.isSome_iff_exists.1 (by decide +kernel :
    (run (fun t : Fin 3 => if t = 2 then lit "b" else lit "a") State.init
      [.enter 0, .enter 1, .enter 2, .cancel 1, .exit 0]).isSome = true)
  exact ⟨s, hs, locks_correct _ _ hs⟩

/-! ### Seen from outside -/

/-- Who holds the lock of a slug. -/
def State.held (s : State ι) (slug : Str) : Option ι :=
  (s.entries[slug]?).bind fun e => (s.heap e).lock.holder

omit [DecidableEq ι] in
theorem held_eq_some (h : Inv slug s) {k : Str} {t : ι} :
    s.held k = some t ↔ slug t = k ∧ ∃ e, s.stage t = .inside e := by
  rw [State.held, Option.bind_eq_some_iff]
  constructor
  · rintro ⟨e, hk, hh⟩
    have hin := ((h.fits k e hk).holder t).1 hh
    exact ⟨h.slug_of_entry (by rw [hin]; rfl) hk, e, hin⟩
  · rintro ⟨rfl, e, hin⟩
    have hk := h.known t e (by rw [hin]; rfl)
    exact ⟨e, hk, ((h.fits _ e hk).holder t).2 hin⟩

/-- The task an action is about. -/
def Action.task : Action ι → ι
  | .enter t | .grant t | .exit t | .cancel t => t

/-- Only the task of an action changes its stage. -/
theorem step_stage {a : Action ι} (h : Inv slug s) (hs : step slug s a = some s') {u : ι}
    (hu : u ≠ a.task) : s'.stage u = s.stage u := by
  have hdrop : ∀ (s : State ι) (k : Str) (e : ℕ), (s.drop k e).stage = s.stage := by
    intro s k e
    rw [State.drop]
    split_ifs <;> rfl
  cases a with
  | enter t =>
    rw [step] at hs
    split at hs
    · obtain rfl := Option.some.inj hs
      have hst := (entry_inv h (slug t)).2.2
      rw [State.join]
      split_ifs <;> exact (move_stage_of_ne hu).trans (congrFun hst u)
    · cases hs
  | grant t =>
    rw [step] at hs
    split at hs
    · split_ifs at hs
      obtain rfl := Option.some.inj hs
      exact move_stage_of_ne hu
    · cases hs
  | exit t =>
    rw [step] at hs
    split at hs
    · obtain rfl := Option.some.inj hs
      rw [hdrop]
      exact move_stage_of_ne hu
    · cases hs
  | cancel t =>
    rw [step] at hs
    split at hs
    · obtain rfl := Option.some.inj hs
      rw [hdrop]
      exact move_stage_of_ne hu
    · obtain rfl := Option.some.inj hs
      rw [hdrop]
      exact move_stage_of_ne hu
    · obtain rfl := Option.some.inj hs
      exact Function.update_of_ne hu ..
    · cases hs

/-- **Seen from outside**, a step leaves who holds the locks as it is, or takes one that is free, or
gives one back: what `acquire` and `release` do in `Backend.Calls`. -/
theorem step_held {a : Action ι} (h : Inv slug s) (hs : step slug s a = some s') :
    s'.held = s.held ∨
    (s.held (slug a.task) = none ∧
      s'.held = Function.update s.held (slug a.task) (some a.task)) ∨
    (s.held (slug a.task) = some a.task ∧ s'.held = Function.update s.held (slug a.task) none) := by
  have h' := step_inv h hs
  have hothers : ∀ k, k ≠ slug a.task → s'.held k = s.held k := by
    intro k hk
    refine Option.ext fun u => ?_
    rw [held_eq_some h, held_eq_some h']
    refine and_congr_right fun hu => ?_
    rw [step_stage h hs (by rintro rfl; exact hk hu.symm)]
  have hupdate : ∀ o, s'.held (slug a.task) = o →
      s'.held = Function.update s.held (slug a.task) o := by
    rintro o rfl
    funext k
    rcases eq_or_ne k (slug a.task) with rfl | hk
    · rw [Function.update_self]
    · rw [Function.update_of_ne hk, hothers k hk]
  rcases hnew : s'.held (slug a.task) with _ | u
  · rcases hold : s.held (slug a.task) with _ | v
    · left
      rw [hupdate none hnew, ← hold, Function.update_eq_self]
    · -- the holder is gone, so it is the task that stepped
      right; right
      refine ⟨?_, hupdate none hnew⟩
      by_contra hv
      obtain ⟨hslug, e, he⟩ := (held_eq_some h).1 hold
      have hvt : v ≠ a.task := fun hc => hv (by rw [hc])
      have := (held_eq_some h').2 ⟨hslug, e, (step_stage h hs hvt).trans he⟩
      rw [hnew] at this
      cases this
  · rcases hold : s.held (slug a.task) with _ | v
    · right; left
      refine ⟨rfl, ?_⟩
      obtain ⟨hslug, e, he⟩ := (held_eq_some h').1 hnew
      have hut : u = a.task := by
        by_contra hut
        have := (held_eq_some h).2 ⟨hslug, e, (step_stage h hs hut).symm.trans he⟩
        rw [hold] at this
        cases this
      rw [hupdate _ hnew, hut]
    · left
      rw [hupdate _ hnew]
      have huv : u = v := by
        by_contra huv
        obtain ⟨hu, e, he⟩ := (held_eq_some h').1 hnew
        obtain ⟨hv, f, hf⟩ := (held_eq_some h).1 hold
        -- one of the two did not step, and is inside before and after
        by_cases hut : u = a.task
        · have hvin := (step_stage h hs fun hc => huv (hut.trans hc.symm)).trans hf
          exact huv (h'.correct.exclusive u v e f he hvin (hu.trans hv.symm))
        · have huin := (step_stage h hs hut).symm.trans he
          exact huv (h.correct.exclusive u v e f huin hf (hu.trans hv.symm))
      rw [huv, ← hold, Function.update_eq_self]

end PaperBoxing.Backend.SiteLocks
