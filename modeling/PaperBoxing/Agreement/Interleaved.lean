import PaperBoxing.Agreement.Sections
import PaperBoxing.Backend.Whole
import PaperBoxing.Lib.Locality

/-! # The sites and the fake, among threads

The fake is kept beside a history of calls: the request of a lock takes effect on it when the lock is
taken. A site whose lock is free is then the same on both sides; a site whose lock is held belongs to its
holder, who leaves it as a run of its critical section alone would (`Agreement.Sections`).

* `Service.serial`: the fake, after the requests of all locks taken so far;
* `setting`: what threads rely on: their names in staging, and the sites whose locks they hold;
* `safe_quiet`, `safe_fair`, `safe_local`: programs among other threads;
* `safe_hold`: a critical section among other threads. -/

namespace PaperBoxing.Agreement.Interleaved

open PaperBoxing.Lib PaperBoxing.Lib.Action PaperBoxing.Lib.Program PaperBoxing.Lib.Threads
open PaperBoxing.Lib.Text PaperBoxing.Lib.Tables PaperBoxing.Lib.Trees PaperBoxing.Lib.Disk
open PaperBoxing.Lib.Locality (Upward LooksAt exec_alike)
open PaperBoxing.Common PaperBoxing.Common.Schema PaperBoxing.Common.Naming
open PaperBoxing.Common.FakeBackend (FakeSite FakeState Draw)
open PaperBoxing.Backend PaperBoxing.Backend.Db PaperBoxing.Backend.Calls PaperBoxing.Backend.Storage
open PaperBoxing.Backend.Operations (answers_faultless)
open PaperBoxing.Backend.Alone PaperBoxing.Backend.Frames PaperBoxing.Backend.Whole
open PaperBoxing.Agreement.Relation PaperBoxing.Agreement.Sections

/-- **A service, what it is asked, and the fake beside it**: the request of each thread, what the fake
draws for it, the fake at the start, and what the threads draw. -/
structure Service : Type where
  cfg : Calls.Config
  rt : Runtime
  requests : ℕ → Routes.Request
  draws : ℕ → Draw
  fake : FakeState
  oracle : ℕ → Oracle

variable {P : Service} {A B : Type} {i j : ℕ} {S S' : Str → Prop} {w w' : World} {h h' : Hist sig Exn World}
  {slug name : Str} {c : Calls.Call}

/-- **The fake, after the requests of all locks taken so far**, in the order they were taken. -/
def Service.serial (P : Service) (tr : List (Event sig Exn World)) : FakeState :=
  tr.foldl (fun s e => match e.call with
    | .acquire _ => effect P.cfg P.rt (P.draws e.tid) (P.requests e.tid) s
    | _ => s) P.fake

theorem serial_acquire (tr : List (Event sig Exn World)) {r} :
    P.serial (tr ++ [⟨i, .acquire slug, r, w, w'⟩]) =
      effect P.cfg P.rt (P.draws i) (P.requests i) (P.serial tr) := by
  rw [Service.serial, List.foldl_append]
  rfl

theorem serial_other (tr : List (Event sig Exn World)) (hc : ∀ slug, c ≠ .acquire slug) {r} :
    P.serial (tr ++ [⟨i, c, r, w, w'⟩]) = P.serial tr := by
  rw [Service.serial, List.foldl_append]
  cases c <;> first | rfl | exact absurd rfl (hc _)

/-- The call takes a lock. -/
def takes : Calls.Call → Bool
  | .acquire _ => true
  | _ => false

/-- How many locks a thread has taken so far. -/
def took (i : ℕ) (tr : List (Event sig Exn World)) : ℕ := tr.countP fun e => e.tid == i && takes e.call

theorem took_push (tr : List (Event sig Exn World)) {r} :
    took j (tr ++ [⟨i, c, r, w, w'⟩]) = took j tr + if i = j ∧ takes c = true then 1 else 0 := by
  rw [took, List.countP_append, List.countP_singleton]
  simp only [Bool.and_eq_true, beq_iff_eq]
  rfl

theorem took_kept (tr : List (Event sig Exn World)) (h : i ≠ j ∨ takes c = false) {r} :
    took j (tr ++ [⟨i, c, r, w, w'⟩]) = took j tr := by
  rw [took_push, if_neg, Nat.add_zero]
  rintro ⟨hij, hc⟩
  rcases h with h | h
  · exact h hij
  · exact Bool.false_ne_true (h.symm.trans hc)

/-! ### The names in the staging folder -/

/-- **The random names do not repeat** between threads, those of parked sites included. -/
structure Apart (o : ℕ → Oracle) : Prop extends Names o where
  parks : ∀ i j m n, i ≠ j → (o i).token_hex 4 m ≠ (o j).token_hex 4 n

/-- A name in the staging folder that is the thread's own. -/
def Service.Mine (P : Service) (i : ℕ) (name : Str) : Prop :=
  (∃ n, name = (P.oracle i).token_hex 8 n ++ lit ".part") ∨
    ∃ slug n, name = slug ++ lit ".deleting-" ++ (P.oracle i).token_hex 4 n

/-- A path at or below a name of the thread's own. -/
def Service.Own (P : Service) (i : ℕ) (q : Path Str) : Prop :=
  ∃ name, P.Mine i name ∧ P.cfg.staging_dir ++ [name] <+: q

/-- What follows the last mark is found again. -/
theorem after_last {α : Type} {a b x y : List α} {m : α} (hx : m ∉ x) (hy : m ∉ y)
    (h : a ++ m :: x = b ++ m :: y) : x = y := by
  have hone : ∀ {x y t : List α}, m ∉ x → m :: x = t ++ m :: y → x = y := by
    intro x y t hx ht
    rcases t with _ | ⟨c, t⟩
    · exact (List.cons.inj ht).2
    · rw [(List.cons.inj ht).2] at hx
      exact absurd (List.mem_append_right _ List.mem_cons_self) hx
  rcases List.append_eq_append_iff.1 h with ⟨t, -, ht⟩ | ⟨t, -, ht⟩
  · exact hone hx ht
  · exact (hone hy ht).symm

theorem mine_apart (hn : Apart P.oracle) (hij : i ≠ j) {a b : Str} (ha : P.Mine i a) (hb : P.Mine j b) :
    a ≠ b := by
  have hmixed : ∀ {i j : ℕ} {slug : Str} {m n : ℕ}, i ≠ j →
      slug ++ lit ".deleting-" ++ (P.oracle i).token_hex 4 m ≠ (P.oracle j).token_hex 8 n ++ lit ".part" := by
    intro i j slug m n hij he
    have hspare : Spare P.cfg P.oracle i (parkedPath P.cfg slug ((P.oracle i).token_hex 4 m)) :=
      spare_parked (hn.hexadecimal i 4 m)
    refine (hspare j hij.symm n).1 ?_
    rw [parkedPath, he]
    exact List.prefix_rfl
  rintro rfl
  rcases ha with ⟨m, rfl⟩ | ⟨slug, m, rfl⟩ <;> rcases hb with ⟨n, hb⟩ | ⟨slug', n, hb⟩
  · exact hn.distinct i j m n hij (List.append_cancel_right hb)
  · exact hmixed hij.symm hb.symm
  · exact hmixed hij hb
  · have hdash : lit ".deleting-" = lit ".deleting" ++ [45] := by decide
    have hclear : ∀ i n, (45 : CodePoint) ∉ (P.oracle i).token_hex 4 n := fun i n hc =>
      absurd (hn.hexadecimal i 4 n _ hc) (by decide)
    rw [hdash] at hb
    have hb' : slug ++ lit ".deleting" ++ 45 :: (P.oracle i).token_hex 4 m =
        slug' ++ lit ".deleting" ++ 45 :: (P.oracle j).token_hex 4 n := by
      simpa only [List.append_assoc, List.singleton_append] using hb
    exact hn.parks i j m n hij (after_last (hclear i m) (hclear j n) hb')

theorem own_apart (hn : Apart P.oracle) (hij : i ≠ j) {p q : Path Str} (hp : P.Own i p) (hq : P.Own j q) :
    ¬ p <+: q := by
  obtain ⟨a, ha, hap⟩ := hp
  obtain ⟨b, hb, hbq⟩ := hq
  intro hpq
  have he : P.cfg.staging_dir ++ [a] = P.cfg.staging_dir ++ [b] :=
    (List.prefix_of_prefix_length_le (hap.trans hpq) hbq (by simp)).eq_of_length (by simp)
  exact mine_apart hn hij ha hb (List.cons.inj (List.append_cancel_left he)).1

theorem own_site {p q : Path Str} (hp : P.Own i p) : ¬ p <+: site_dir P.cfg slug ++ q := by
  obtain ⟨a, -, ha⟩ := hp
  exact fun hpq => not_staging_prefix P.cfg slug _ _ (ha.trans hpq)

theorem site_own {q : Path Str} (hq : P.Own i q) : ¬ site_dir P.cfg slug <+: q := by
  obtain ⟨a, -, x, rfl⟩ := hq
  intro h
  have := not_site_prefix_staging P.cfg slug [] ([a] ++ x)
  rw [List.append_nil, ← List.append_assoc] at this
  exact this h

/-- Nothing that is a thread's own, and no site, is above the folders the service keeps. -/
theorem own_dirs {p q : Path Str} (hp : P.Own i p) (hq : q = P.cfg.sites_dir ∨ q = P.cfg.staging_dir) :
    ¬ p <+: q := by
  obtain ⟨a, -, ha⟩ := hp
  intro hpq
  have := (ha.trans hpq).length_le
  rcases hq with rfl | rfl <;> simp [Calls.Config.sites_dir, Calls.Config.staging_dir] at this

theorem site_dirs {q : Path Str} (hq : q = P.cfg.sites_dir ∨ q = P.cfg.staging_dir) :
    ¬ site_dir P.cfg slug <+: q := by
  intro hpq
  have := hpq.length_le
  rcases hq with rfl | rfl <;> simp [site_dir, Calls.Config.sites_dir, Calls.Config.staging_dir] at this

/-! ### What one call changes -/

/-- The site whose rows a query writes, if any. -/
def rowOf : Query → Option Str
  | .insert_site site => some site.slug
  | .delete_site slug | .delete_file_row slug _ | .delete_files_under slug _ => some slug
  | .upsert_file row => some row.site
  | _ => none

theorem exec_row {q : Query} {d : Database} (hq : rowOf q ≠ some slug) :
    (Db.exec q d).2.sites[slug]? = d.sites[slug]? := by
  by_cases ha : onAccounts q = true
  · rw [exec_sites ha]
  cases q <;> try first | rfl | exact absurd rfl ha
  case insert_site site =>
    have hne : slug ≠ site.slug := fun h => hq (h ▸ rfl)
    rw [Db.exec, Db.insert_site]
    split
    · rfl
    · exact get_insert_of_ne hne
  case delete_site s =>
    have hne : slug ≠ s := fun h => hq (h ▸ rfl)
    exact get_erase_of_ne hne
  case upsert_file row =>
    have hne : slug ≠ row.site := fun h => hq (h ▸ rfl)
    rw [Db.exec, Db.upsert_file]
    split
    · rfl
    · exact (get_sites_set_files _).trans (if_neg hne)
  case delete_file_row s p =>
    have hne : slug ≠ s := fun h => hq (h ▸ rfl)
    exact (get_sites_set_files _).trans (if_neg hne)
  case delete_files_under s p =>
    have hne : slug ≠ s := fun h => hq (h ▸ rfl)
    exact (get_sites_set_files _).trans (if_neg hne)

/-- **The calls that keep to a thread's own**: its names in staging, and the sites of `S`. -/
def Service.Fair (P : Service) (i : ℕ) (S : Str → Prop) : Calls.Call → Prop
  | .disk (.mkdir p) => p <+: P.cfg.sites_dir ∨ ∃ slug, S slug ∧ site_dir P.cfg slug <+: p
  | .disk c => ∀ p ∈ writes c, P.Own i p ∨ ∃ slug, S slug ∧ site_dir P.cfg slug <+: p
  | .db q => ∀ slug, rowOf q = some slug → S slug
  | .acquire _ | .release _ => False
  | _ => True

theorem Service.Fair.mono (hc : P.Fair i S c) (hS : ∀ slug, S slug → S' slug) : P.Fair i S' c := by
  have hmap : ∀ p, (∃ slug, S slug ∧ site_dir P.cfg slug <+: p) →
      ∃ slug, S' slug ∧ site_dir P.cfg slug <+: p := by
    rintro p ⟨slug, h, hp⟩
    exact ⟨slug, hS slug h, hp⟩
  cases c with
  | disk c =>
    cases c with
    | mkdir p => exact Or.imp_right (hmap p) hc
    | _ => exact fun p hp => (hc p hp).imp_right (hmap p)
  | db q => exact fun slug hq => hS slug (hc slug hq)
  | _ => exact hc

/-- **What a fair call leaves alone.** -/
structure Beside (P : Service) (i : ℕ) (S : Str → Prop) (w w' : World) : Prop where
  locks : w'.locks = w.locks
  oracle : w'.oracle = w.oracle
  scan : w'.scan = w.scan
  drawn : ∀ j, j ≠ i → w'.drawn j = w.drawn j
  row : ∀ slug, ¬ S slug → w'.db.sites[slug]? = w.db.sites[slug]?
  get : ∀ q, (∀ p, P.Own i p → ¬ p <+: q) → (∀ slug, S slug → ¬ site_dir P.cfg slug <+: q) →
    w'.disk.get q = w.disk.get q

theorem fair_get {env : Env Str} {c : Disk.Call Str} {t : Files Str} (hc : P.Fair i S (.disk c))
    (hdir : t.get P.cfg.sites_dir = some .folder) {q : Path Str} (hown : ∀ p, P.Own i p → ¬ p <+: q)
    (hS : ∀ slug, S slug → ¬ site_dir P.cfg slug <+: q) : (Disk.exec env c t).2.get q = t.get q := by
  have hwrites : (∀ p ∈ writes c, P.Own i p ∨ ∃ slug, S slug ∧ site_dir P.cfg slug <+: p) →
      (Disk.exec env c t).2.get q = t.get q := by
    intro hc
    refine exec_get_of_not_writes env fun p hp hpq => ?_
    rcases hc p hp with hp | ⟨slug, hs, hp⟩
    · exact hown p hp hpq
    · exact hS slug hs (hp.trans hpq)
  cases c with
  | mkdir p =>
    rcases hc with hp | hp
    · -- a folder above the sites is there
      have hthere : t.get p = some .folder := by
        obtain ⟨x, hx⟩ := hp
        rcases eq_or_ne x [] with rfl | hx0
        · rw [List.append_nil] at hx
          rw [hx, hdir]
        · exact Tree.get_ancestor (q := x) (by rw [hx, hdir]; simp) hx0
      rw [Disk.exec, Disk.mkdir, hthere]
    · exact hwrites (by rintro p' hp'; obtain rfl := List.mem_singleton.1 hp'; exact Or.inr hp)
  | _ => exact hwrites hc

theorem fair_beside (hc : P.Fair i S c) (hdir : w.disk.get P.cfg.sites_dir = some .folder) :
    Beside P i S w (Calls.exec i c w).2 := by
  have hdraw : ∀ j, j ≠ i → Function.update w.drawn i (w.drawn i + 1) j = w.drawn j := fun j hj =>
    Function.update_of_ne hj _ _
  cases c with
  | disk c =>
    refine ⟨rfl, rfl, rfl, fun j hj => ?_, fun _ _ => rfl, fun q hown hS => fair_get hc hdir hown hS⟩
    change (if isTimed c then Function.update w.drawn i (w.drawn i + 1) else w.drawn) j = w.drawn j
    split_ifs
    · exact hdraw j hj
    · rfl
  | db q =>
    refine ⟨rfl, rfl, rfl, fun _ _ => rfl, fun slug hS => exec_row fun hq => hS (hc slug hq),
      fun _ _ _ => rfl⟩
  | receive chunk => exact ⟨rfl, rfl, rfl, fun _ _ => rfl, fun _ _ => rfl, fun _ _ _ => rfl⟩
  | acquire slug => exact hc.elim
  | release slug => exact hc.elim
  | _ => exact ⟨rfl, rfl, rfl, hdraw, fun _ _ => rfl, fun _ _ _ => rfl⟩

/-! ### The setting -/

/-- **What a thread relies on**: its names in staging, its place in its oracle, the folders of the
service, and the sites whose locks it holds. -/
structure Rely (P : Service) (i : ℕ) (h h' : Hist sig Exn World) : Prop where
  oracle : h'.2.oracle = h.2.oracle
  scan : h'.2.scan = h.2.scan
  drawn : h'.2.drawn i = h.2.drawn i
  dirs : ∀ q, q = P.cfg.sites_dir ∨ q = P.cfg.staging_dir → h'.2.disk.get q = h.2.disk.get q
  own : ∀ q, P.Own i q → h'.2.disk.get q = h.2.disk.get q
  locks : ∀ slug, h'.2.locks slug = some i ↔ h.2.locks slug = some i
  row : ∀ slug, h.2.locks slug = some i → h'.2.db.sites[slug]? = h.2.db.sites[slug]?
  tree : ∀ slug, h.2.locks slug = some i → ∀ q,
    h'.2.disk.get (site_dir P.cfg slug ++ q) = h.2.disk.get (site_dir P.cfg slug ++ q)
  fake : ∀ slug, h.2.locks slug = some i → (P.serial h'.1).sites[slug]? = (P.serial h.1).sites[slug]?
  took : took i h'.1 = took i h.1

/-- **The invariant**: a site whose lock is free is the same on both sides, and no thread took two
locks. -/
structure Serial (P : Service) (h : Hist sig Exn World) : Prop where
  oracle : h.2.oracle = P.oracle
  sites_dir : h.2.disk.get P.cfg.sites_dir = some .folder
  staging_dir : h.2.disk.get P.cfg.staging_dir = some .folder
  keyed : Keyed (P.serial h.1)
  site : ∀ slug, h.2.locks slug = none → SameSite P.cfg P.rt h.2 (P.serial h.1) slug
  once : ∀ i, took i h.1 ≤ 1

/-- **The setting**. -/
def setting (P : Service) : Setting sig Exn World where
  machine := faultless
  inv := Serial P
  rely := Rely P
  refl _ _ := ⟨rfl, rfl, rfl, fun _ _ => rfl, fun _ _ => rfl, fun _ => Iff.rfl, fun _ _ => rfl,
    fun _ _ _ => rfl, fun _ _ => rfl, rfl⟩
  trans _ _ _ _ h h' := by
    refine ⟨h'.oracle.trans h.oracle, h'.scan.trans h.scan, h'.drawn.trans h.drawn,
      fun q hq => (h'.dirs q hq).trans (h.dirs q hq), fun q hq => (h'.own q hq).trans (h.own q hq),
      fun slug => (h'.locks slug).trans (h.locks slug), fun slug hs => ?_, fun slug hs q => ?_,
      fun slug hs => ?_, h'.took.trans h.took⟩ <;> have hs' := (h.locks slug).2 hs
    · exact (h'.row slug hs').trans (h.row slug hs)
    · exact (h'.tree slug hs' q).trans (h.tree slug hs q)
    · exact (h'.fake slug hs').trans (h.fake slug hs)

/-- The slugs whose locks a thread holds. -/
def Holds (w : World) (i : ℕ) (slug : Str) : Prop := w.locks slug = some i

theorem holds_taken : Holds (taken w i slug) j name ↔ if name = slug then i = j else Holds w j name := by
  change Function.update w.locks slug (some i) name = some j ↔ _
  rw [Function.update_apply]
  split_ifs
  · exact Option.some_inj
  · exact Iff.rfl

theorem holds_freed : Holds (freed w slug) j name ↔ name ≠ slug ∧ Holds w j name := by
  change Function.update w.locks slug none name = some j ↔ _
  rw [Function.update_apply]
  split_ifs with h
  · exact iff_of_false (by rintro ⟨⟩) fun hs => hs.1 h
  · exact ⟨fun hs => ⟨h, hs⟩, And.right⟩

/-- The world after a call that was answered. -/
theorem after_answer {r : Except Exn (sig.Resp c)} (ha : faultless.Answers i c w r w') :
    w' = (Calls.exec i c w).2 := congrArg Prod.snd (answers_faultless.1 ha).2

/-- A lock that was taken was free. -/
theorem free_before {r : Except Exn Unit} (ha : faultless.Answers i (.acquire slug) w r w') :
    w.locks slug = none := Option.isNone_iff_eq_none.1 ha.1

theorem Service.Fair.takes (hc : P.Fair i S c) : takes c = false := by
  cases c <;> first | rfl | exact hc.elim

theorem apart_site {slug slug' : Str} (hne : slug ≠ slug') (q : Path Str) :
    ¬ site_dir P.cfg slug <+: site_dir P.cfg slug' ++ q := by
  have := not_site_prefix_site P.cfg hne [] q
  rwa [List.append_nil] at this

/-- **A fair call owes nobody anything.** -/
theorem fair_owes (hn : Apart P.oracle) (hc : P.Fair i (Holds h.2 i) c) (hinv : Serial P h)
    {r : Except Exn (sig.Resp c)} (ha : faultless.Answers i c h.2 r w) :
    (setting P).Owes i h (h.push i c r w) := by
  obtain rfl : w = (Calls.exec i c h.2).2 := after_answer ha
  have hb := fair_beside hc hinv.sites_dir
  have hserial : P.serial (h.push i c r (Calls.exec i c h.2).2).1 = P.serial h.1 :=
    serial_other _ (by rintro slug rfl; exact hc)
  have hdirs : ∀ q, q = P.cfg.sites_dir ∨ q = P.cfg.staging_dir →
      (Calls.exec i c h.2).2.disk.get q = h.2.disk.get q := fun q hq =>
    hb.get q (fun p hp => own_dirs hp hq) fun slug _ => site_dirs hq
  have htree : ∀ slug, ¬ Holds h.2 i slug → ∀ q,
      (Calls.exec i c h.2).2.disk.get (site_dir P.cfg slug ++ q) =
        h.2.disk.get (site_dir P.cfg slug ++ q) := by
    intro slug hs q
    refine hb.get _ (fun p hp => own_site hp) fun slug' hs' => apart_site ?_ q
    rintro rfl
    exact hs hs'
  refine ⟨⟨hb.oracle.trans hinv.oracle, (hdirs _ (Or.inl rfl)).trans hinv.sites_dir,
    (hdirs _ (Or.inr rfl)).trans hinv.staging_dir, ?_, fun slug hs => ?_,
    fun j => (took_kept _ (Or.inr hc.takes)).trans_le (hinv.once j)⟩, fun j hj => ?_⟩
  · rw [hserial]
    exact hinv.keyed
  · change (Calls.exec i c h.2).2.locks slug = none at hs
    rw [hb.locks] at hs
    have hnot : ¬ Holds h.2 i slug := by
      rw [Holds, hs]
      rintro ⟨⟩
    rw [hserial]
    exact (hinv.site slug hs).congr (htree slug hnot) (hb.row slug hnot) rfl
  · have hnot : ∀ slug, h.2.locks slug = some j → ¬ Holds h.2 i slug := by
      intro slug hs
      rw [Holds, hs, Option.some.injEq]
      exact hj
    exact ⟨hb.oracle, hb.scan, hb.drawn j hj, hdirs,
      fun q hq => hb.get q (fun p hp => own_apart hn hj.symm hp hq) fun slug _ => site_own hq,
      fun slug => by rw [show (h.push i c r (Calls.exec i c h.2).2).2.locks = h.2.locks from hb.locks],
      fun slug hs => hb.row slug (hnot slug hs), fun slug hs => htree slug (hnot slug hs),
      fun slug _ => by rw [hserial], took_kept _ (Or.inr hc.takes)⟩

/-- **Taking a lock** owes nobody anything: the request takes effect on the fake, on its own site. -/
theorem acquire_owes (hslug : changed P.rt (P.requests i) = some slug) (hfresh : took i h.1 = 0)
    (hinv : Serial P h) {r : Except Exn Unit} (ha : faultless.Answers i (.acquire slug) h.2 r w) :
    (setting P).Owes i h (h.push i (.acquire slug) r w) := by
  have hfree := free_before ha
  obtain rfl : w = taken h.2 i slug := after_answer ha
  have hone : OneSite slug (P.serial h.1) (P.serial (h.push i (.acquire slug) r (taken h.2 i slug)).1) := by
    change OneSite slug (P.serial h.1) (P.serial (h.1 ++ [_]))
    rw [serial_acquire]
    exact effect_one hinv.keyed hslug
  refine ⟨⟨hinv.oracle, hinv.sites_dir, hinv.staging_dir, hone.keyed hinv.keyed, fun slug' hs => ?_,
    fun j => ?_⟩, fun j hj => ?_⟩
  · change Function.update h.2.locks slug (some i) slug' = none at hs
    rcases eq_or_ne slug' slug with rfl | hne
    · rw [Function.update_self] at hs
      cases hs
    · rw [Function.update_of_ne hne] at hs
      exact (hinv.site slug' hs).congr (fun _ => rfl) rfl (hone.other hne)
  · rcases eq_or_ne i j with rfl | hne
    · rw [Hist.push_events, took_push, hfresh, if_pos ⟨rfl, rfl⟩]
    · exact (took_kept _ (Or.inl hne)).trans_le (hinv.once j)
  · have hne : ∀ slug', h.2.locks slug' = some j → slug' ≠ slug := by
      rintro slug' hs rfl
      rw [hfree] at hs
      cases hs
    refine ⟨rfl, rfl, rfl, fun _ _ => rfl, fun _ _ => rfl, fun slug' => holds_taken.trans ?_, fun _ _ => rfl,
      fun _ _ _ => rfl, fun slug' hs => hone.other (hne slug' hs), took_kept _ (Or.inl hj.symm)⟩
    split_ifs with heq
    · exact iff_of_false hj.symm fun hs => hne slug' hs heq
    · exact Iff.rfl

/-- **Giving a lock back** owes nobody anything, when the site is the same on both sides again. -/
theorem release_owes (hheld : h.2.locks slug = some i)
    (hsame : SameSite P.cfg P.rt h.2 (P.serial h.1) slug) (hinv : Serial P h)
    {r : Except Exn Unit} (ha : faultless.Answers i (.release slug) h.2 r w) :
    (setting P).Owes i h (h.push i (.release slug) r w) := by
  obtain rfl : w = freed h.2 slug := after_answer ha
  have hserial : P.serial (h.push i (.release slug) r (freed h.2 slug)).1 = P.serial h.1 :=
    serial_other _ (by rintro slug ⟨⟩)
  refine ⟨⟨hinv.oracle, hinv.sites_dir, hinv.staging_dir, by rw [hserial]; exact hinv.keyed,
    fun slug' hs => ?_, fun j => (took_kept _ (Or.inr rfl)).trans_le (hinv.once j)⟩, fun j hj => ?_⟩
  · rw [hserial]
    rcases eq_or_ne slug' slug with rfl | hne
    · exact hsame.congr (fun _ => rfl) rfl rfl
    · change Function.update h.2.locks slug none slug' = none at hs
      rw [Function.update_of_ne hne] at hs
      exact (hinv.site slug' hs).congr (fun _ => rfl) rfl rfl
  · refine ⟨rfl, rfl, rfl, fun _ _ => rfl, fun _ _ => rfl, fun slug' => holds_freed.trans ?_,
      fun _ _ => rfl, fun _ _ _ => rfl, fun _ _ => by rw [hserial], took_kept _ (Or.inr rfl)⟩
    refine ⟨And.right, fun hs => ⟨?_, hs⟩⟩
    rintro rfl
    exact hj (Option.some.inj (hs.symm.trans hheld))

/-! ### A part of the world -/

/-- The paths above and below the sites of `S` and a name in staging. -/
def Around (cfg : Calls.Config) (S : Str → Prop) (name : Str) (q : Path Str) : Prop :=
  (∃ slug, S slug ∧ (q <+: site_dir cfg slug ∨ site_dir cfg slug <+: q)) ∨
    q <+: cfg.staging_dir ++ [name] ∨ cfg.staging_dir ++ [name] <+: q

theorem upward_around (cfg : Calls.Config) (S : Str → Prop) (name : Str) : Upward (Around cfg S name) := by
  have hone : ∀ {p q d : Path Str}, p <+: q → q <+: d ∨ d <+: q → p <+: d ∨ d <+: p := by
    rintro p q d hpq (h | h)
    · exact Or.inl (hpq.trans h)
    · exact List.prefix_or_prefix_of_prefix hpq h
  rintro p q hpq (⟨slug, hs, h⟩ | h)
  · exact Or.inl ⟨slug, hs, hone hpq h⟩
  · exact Or.inr (hone hpq h)

/-- **What a thread sees** of the disk around some sites and a name in staging, of the rows of these
sites, and of what it draws from. -/
structure Sight (cfg : Calls.Config) (S : Str → Prop) (name : Str) : Type where
  disk : {q // Around cfg S name q} → Option (Node Str FileData)
  rows : {slug // S slug} → Option SiteRec
  oracle : Oracle
  drawn : ℕ
  scan : ScanOrder Str

def sight (cfg : Calls.Config) (S : Str → Prop) (name : Str) (i : ℕ) (w : World) : Sight cfg S name :=
  ⟨fun q => w.disk.get q.1, fun slug => w.db.sites[slug.1]?, w.oracle i, w.drawn i, w.scan⟩

theorem sight_iff {cfg : Calls.Config} : sight cfg S name i w = sight cfg S name i w' ↔
    (∀ q, Around cfg S name q → w.disk.get q = w'.disk.get q) ∧
      (∀ slug, S slug → w.db.sites[slug]? = w'.db.sites[slug]?) ∧ w.oracle i = w'.oracle i ∧
        w.drawn i = w'.drawn i ∧ w.scan = w'.scan := by
  rw [sight, sight, Sight.mk.injEq]
  refine and_congr ⟨fun h q hq => congrFun h ⟨q, hq⟩, fun h => funext fun q => h q.1 q.2⟩
    (and_congr_left fun _ => ⟨fun h s hs => congrFun h ⟨s, hs⟩, fun h => funext fun s => h s.1 s.2⟩)

/-- The calls that look at that part only. -/
def Inside (cfg : Calls.Config) (S : Str → Prop) (name : Str) : Calls.Call → Prop
  | .disk c => LooksAt (Around cfg S name) c
  | .db (.site_by_slug slug) | .db (.delete_site slug) | .db (.delete_file_row slug _)
  | .db (.delete_files_under slug _) => S slug
  | .db (.insert_site site) => S site.slug
  | .db (.upsert_file row) => S row.site
  | .token_hex _ | .receive _ => True
  | _ => False

/-- **They do look at that part only.** -/
theorem local_exec (cfg : Calls.Config) (S : Str → Prop) (name : Str) (i : ℕ) :
    LocalTo (S := sig) (Calls.exec i) (sight cfg S name i) (Inside cfg S name) := by
  intro c hc w w' hw
  obtain ⟨hd, hr, ho, hdr, hscan⟩ := sight_iff.1 hw
  have hset : ∀ {s : Str} {f : Index → Index}, ∀ slug, S slug →
      (w.db.set_files s f).sites[slug]? = (w'.db.set_files s f).sites[slug]? := by
    intro s f slug hs
    rw [get_sites_set_files, get_sites_set_files, hr slug hs]
  have hdb : ∀ (d d' : Database), (∀ slug, S slug → d.sites[slug]? = d'.sites[slug]?) →
      sight cfg S name i { w with db := d } = sight cfg S name i { w' with db := d' } := fun d d' h =>
    sight_iff.2 ⟨hd, h, ho, hdr, hscan⟩
  cases c with
  | disk c =>
    have henv : (⟨(w.oracle i).stamp (w.drawn i), w.scan⟩ : Env Str) =
        ⟨(w'.oracle i).stamp (w'.drawn i), w'.scan⟩ := by rw [ho, hdr, hscan]
    obtain ⟨h1, h2⟩ := exec_alike ⟨(w'.oracle i).stamp (w'.drawn i), w'.scan⟩
      (upward_around cfg S name) hd hc
    refine ⟨?_, sight_iff.2 ⟨fun q hq => ?_, hr, ho, ?_, hscan⟩⟩
    · change (Disk.exec ⟨(w.oracle i).stamp (w.drawn i), w.scan⟩ c w.disk).1.mapError Exn.os =
        (Disk.exec ⟨(w'.oracle i).stamp (w'.drawn i), w'.scan⟩ c w'.disk).1.mapError Exn.os
      rw [henv, h1]
    · change (Disk.exec ⟨(w.oracle i).stamp (w.drawn i), w.scan⟩ c w.disk).2.get q =
        (Disk.exec ⟨(w'.oracle i).stamp (w'.drawn i), w'.scan⟩ c w'.disk).2.get q
      rw [henv]
      exact h2 q hq
    · change (if isTimed c then Function.update w.drawn i (w.drawn i + 1) else w.drawn) i =
        (if isTimed c then Function.update w'.drawn i (w'.drawn i + 1) else w'.drawn) i
      split_ifs
      · rw [Function.update_self, Function.update_self, hdr]
      · exact hdr
  | db q =>
    cases q with
    | site_by_slug slug =>
      exact ⟨congrArg (fun x : Option SiteRec => Except.ok (x.map (Db._site slug))) (hr slug hc), hw⟩
    | delete_site slug =>
      refine ⟨congrArg (fun x : Option SiteRec => Except.ok x.isSome) (hr slug hc),
        hdb _ _ fun slug' hs => ?_⟩
      change (w.db.sites.erase slug)[slug']? = (w'.db.sites.erase slug)[slug']?
      rcases eq_or_ne slug' slug with rfl | hne
      · rw [get_erase_self, get_erase_self]
      · rw [get_erase_of_ne hne, get_erase_of_ne hne, hr slug' hs]
    | delete_file_row slug path => exact ⟨rfl, hdb _ _ hset⟩
    | delete_files_under slug folder =>
      refine ⟨?_, hdb _ _ hset⟩
      change Except.ok ((w.db.files slug).filter fun path _ => _below folder path).size =
        Except.ok ((w'.db.files slug).filter fun path _ => _below folder path).size
      rw [Database.files, Database.files, hr slug hc]
    | insert_site site =>
      have hrow := hr site.slug hc
      change (Db.insert_site site w.db).1 = (Db.insert_site site w'.db).1 ∧
        sight cfg S name i { w with db := (Db.insert_site site w.db).2 } =
          sight cfg S name i { w' with db := (Db.insert_site site w'.db).2 }
      rw [Db.insert_site, Db.insert_site, hrow]
      split
      · exact ⟨rfl, hw⟩
      · refine ⟨rfl, hdb _ _ fun slug' hs => ?_⟩
        rcases eq_or_ne slug' site.slug with rfl | hne
        · exact (get_insert_self ..).trans (get_insert_self ..).symm
        · exact (get_insert_of_ne hne).trans ((hr slug' hs).trans (get_insert_of_ne hne).symm)
    | upsert_file row =>
      have hrow := hr row.site hc
      change (Db.upsert_file row w.db).1 = (Db.upsert_file row w'.db).1 ∧
        sight cfg S name i { w with db := (Db.upsert_file row w.db).2 } =
          sight cfg S name i { w' with db := (Db.upsert_file row w'.db).2 }
      rw [Db.upsert_file, Db.upsert_file, hrow]
      split
      · exact ⟨rfl, hw⟩
      · exact ⟨rfl, hdb _ _ hset⟩
    | _ => exact hc.elim
  | token_hex n =>
    refine ⟨?_, sight_iff.2 ⟨hd, hr, ho, ?_, hscan⟩⟩
    · change Except.ok ((w.oracle i).token_hex n (w.drawn i)) =
        Except.ok ((w'.oracle i).token_hex n (w'.drawn i))
      rw [ho, hdr]
    · change Function.update w.drawn i (w.drawn i + 1) i = Function.update w'.drawn i (w'.drawn i + 1) i
      rw [Function.update_self, Function.update_self, hdr]
  | receive chunk => exact ⟨rfl, hw⟩
  | _ => exact hc.elim

/-! ### Programs among other threads -/

/-- The ground a thread stands on: the oracle, and the two folders of the service. -/
structure Grounds (P : Service) (w : World) : Prop where
  oracle : w.oracle = P.oracle
  sites_dir : w.disk.get P.cfg.sites_dir = some .folder
  staging_dir : w.disk.get P.cfg.staging_dir = some .folder

/-- The thread holds no lock. -/
def Free (i : ℕ) (w : World) : Prop := ∀ slug, ¬ Holds w i slug

/-- The thread has begun nothing: it took no lock, and has nothing in staging. -/
structure Idle (P : Service) (i : ℕ) (h : Hist sig Exn World) : Prop where
  grounds : Grounds P h.2
  free : Free i h.2
  clean : ∀ q, P.Own i q → h.2.disk.get q = none
  fresh : took i h.1 = 0

theorem Serial.grounds (h : Serial P h') : Grounds P h'.2 := ⟨h.oracle, h.sites_dir, h.staging_dir⟩

theorem Grounds.rely (hg : Grounds P h.2) (hr : Rely P i h h') : Grounds P h'.2 :=
  ⟨hr.oracle.trans hg.oracle, (hr.dirs _ (Or.inl rfl)).trans hg.sites_dir,
    (hr.dirs _ (Or.inr rfl)).trans hg.staging_dir⟩

theorem Free.rely (hf : Free i h.2) (hr : Rely P i h h') : Free i h'.2 := fun slug hs =>
  hf slug ((hr.locks slug).1 hs)

theorem Idle.rely (hi : Idle P i h) (hr : Rely P i h h') : Idle P i h' :=
  ⟨hi.grounds.rely hr, hi.free.rely hr, fun q hq => (hr.own q hq).trans (hi.clean q hq),
    hr.took.trans hi.fresh⟩

/-- The calls that change nothing of the sites and of the staging folder. -/
def quiet : Calls.Call → Prop
  | .disk c => writes c = []
  | .db q => rowOf q = none
  | .acquire _ | .release _ => False
  | _ => True

theorem fair_of_quiet (hc : quiet c) : P.Fair i S c := by
  cases c with
  | disk c =>
    have hnil : ∀ p, p ∈ writes c → P.Own i p ∨ ∃ slug, S slug ∧ site_dir P.cfg slug <+: p := by
      rw [show writes c = [] from hc]
      rintro p ⟨⟩
    cases c with
    | mkdir p => cases (show writes _ = [] from hc)
    | _ => exact hnil
  | db q =>
    intro slug hq
    rw [show rowOf q = none from hc] at hq
    cases hq
  | _ => exact hc

theorem quiet_of_accounts (hc : ofAccounts c) : quiet c := by
  cases c with
  | db q => cases q <;> first | rfl | cases hc
  | disk c => exact hc.elim
  | acquire slug => exact hc.elim
  | release slug => exact hc.elim
  | _ => trivial

theorem quiet_of_glances (hc : glances c) : quiet c := by
  cases c with
  | disk c => exact hc
  | _ => exact hc.elim

/-- **A quiet call** leaves a thread that has begun nothing so. -/
theorem quiet_step (hn : Apart P.oracle) (hc : quiet c) (hinv : Serial P h) (hi : Idle P i h)
    {r : Except Exn (sig.Resp c)} (ha : faultless.Answers i c h.2 r w) :
    (setting P).Owes i h (h.push i c r w) ∧ Idle P i (h.push i c r w) := by
  have hfair : P.Fair i (Holds h.2 i) c := fair_of_quiet hc
  have howes := fair_owes hn hfair hinv ha
  obtain rfl : w = (Calls.exec i c h.2).2 := after_answer ha
  have hb := fair_beside hfair hinv.sites_dir
  refine ⟨howes, howes.1.grounds, fun slug hs => hi.free slug ?_, fun q hq => ?_,
    (took_kept _ (Or.inr hfair.takes)).trans hi.fresh⟩
  · rwa [Holds, show (h.push i c r (Calls.exec i c h.2).2).2.locks = h.2.locks from hb.locks] at hs
  · cases c with
    | disk c =>
      refine (exec_get_of_not_writes _ ?_).trans (hi.clean q hq)
      rw [show writes c = [] from hc]
      rintro p ⟨⟩
    | _ => exact hi.clean q hq

theorem safe_quiet (hn : Apart P.oracle) {p : Code A} (hp : Uses quiet p) (hi : Idle P i h) :
    Safe (setting P) i (fun _ h' => Idle P i h') p h :=
  Safe.of_uses (G := fun h => Idle P i h) (fun _ _ hi hr => hi.rely hr)
    (fun _ hc _ _ _ hinv hi ha => quiet_step hn hc hinv hi ha) hp hi

/-- **A program that keeps to its own names in staging** takes no lock. -/
theorem safe_fair (hn : Apart P.oracle) {p : Code A} (hp : Uses (P.Fair i fun _ => False) p)
    (hf : Free i h.2) : Safe (setting P) i (fun _ h' => Free i h'.2) p h := by
  refine Safe.of_uses (G := fun h => Free i h.2) (fun h h' hf hr => hf.rely hr) ?_ hp hf
  intro c hc h r w hinv hf ha
  have hc' : P.Fair i (Holds h.2 i) c := hc.mono fun _ hs => hs.elim
  have howes := fair_owes hn hc' hinv ha
  obtain rfl : w = (Calls.exec i c h.2).2 := after_answer ha
  refine ⟨howes, fun slug hs => hf slug ?_⟩
  rwa [Holds, show (h.push i c r _).2.locks = h.2.locks from (fair_beside hc' hinv.sites_dir).locks] at hs

/-- **What a thread sees of its own stays**, while the others act as it relies on. -/
theorem sight_rely (hS : ∀ slug, S slug → h.2.locks slug = some i) (hname : P.Mine i name)
    (hg : Grounds P h.2) (hr : Rely P i h h') :
    sight P.cfg S name i h'.2 = sight P.cfg S name i h.2 := by
  have hg' := hg.rely hr
  have habove : ∀ {t : Files Str} {d q : Path Str}, t.get d = some .folder → q <+: d →
      t.get q = some .folder := by
    rintro t d q hd ⟨x, rfl⟩
    rcases eq_or_ne x [] with rfl | hx
    · rwa [List.append_nil] at hd
    · exact Tree.get_ancestor (q := x) (by rw [hd]; simp) hx
  refine sight_iff.2 ⟨?_, fun slug hs => hr.row slug (hS slug hs), by rw [hr.oracle], hr.drawn, hr.scan⟩
  rintro q (⟨slug, hs, hq | ⟨x, rfl⟩⟩ | hq | hq)
  · rcases List.prefix_concat_iff.1 hq with rfl | hq
    · have := hr.tree slug (hS slug hs) []
      rwa [List.append_nil] at this
    · rw [habove hg'.sites_dir hq, habove hg.sites_dir hq]
  · exact hr.tree slug (hS slug hs) x
  · rcases List.prefix_concat_iff.1 hq with rfl | hq
    · exact hr.own _ ⟨name, hname, List.prefix_rfl⟩
    · rw [habove hg'.staging_dir hq, habove hg.staging_dir hq]
  · exact hr.own q ⟨name, hname, hq⟩

/-- What stays while a thread runs by itself on the sites it holds. -/
structure Stays (P : Service) (i : ℕ) (S : Str → Prop) (h h' : Hist sig Exn World) : Prop where
  grounds : Grounds P h'.2
  locks : ∀ slug, Holds h'.2 i slug ↔ Holds h.2 i slug
  fake : ∀ slug, S slug → (P.serial h'.1).sites[slug]? = (P.serial h.1).sites[slug]?
  took : took i h'.1 = took i h.1

/-- The calls that look at, and change, what is a thread's own. -/
def Service.Close (P : Service) (i : ℕ) (S : Str → Prop) (name : Str) (c : Calls.Call) : Prop :=
  Inside P.cfg S name c ∧ P.Fair i S c

/-- **A program on what is a thread's own runs as if alone.** -/
theorem safe_local (hn : Apart P.oracle) (hname : P.Mine i name) (hS : ∀ slug, S slug → Holds h.2 i slug)
    (hg : Grounds P h.2) {p : Code A}
    (hp : Along (S := sig) (Calls.exec i) (P.Close i S name) p h.2) :
    Safe (setting P) i (fun r h' => Stays P i S h h' ∧ r = (run (Calls.exec i) p h.2).1 ∧
      sight P.cfg S name i h'.2 = sight P.cfg S name i (run (Calls.exec i) p h.2).2) p h := by
  refine Safe.of_local (R := setting P) (G := Stays P i S h)
    (L := P.Close i S name)
    (fun c hc => local_exec P.cfg S name i c hc.1) ?_ (fun c _ w e w' hf => hf) ?_ hp
    ⟨hg, fun _ => Iff.rfl, fun _ _ => rfl, rfl⟩ rfl
  · intro h1 h2 hst hr
    have hheld : ∀ slug, S slug → h1.2.locks slug = some i := fun slug hs => (hst.locks slug).2 (hS slug hs)
    exact ⟨⟨hst.grounds.rely hr, fun slug => (hr.locks slug).trans (hst.locks slug),
      fun slug hs => (hr.fake slug (hheld slug hs)).trans (hst.fake slug hs), hr.took.trans hst.took⟩,
      sight_rely hheld hname hst.grounds hr⟩
  · intro c hc h1 r w hinv hst ha
    have hc' : P.Fair i (Holds h1.2 i) c := hc.2.mono fun slug hs => (hst.locks slug).2 (hS slug hs)
    have howes := fair_owes hn hc' hinv ha
    obtain rfl : w = (Calls.exec i c h1.2).2 := after_answer ha
    have hserial : P.serial (h1.push i c r (Calls.exec i c h1.2).2).1 = P.serial h1.1 :=
      serial_other _ (by rintro slug rfl; exact hc')
    refine ⟨howes, howes.1.grounds, fun slug => ?_, fun slug hs => ?_,
      (took_kept _ (Or.inr hc'.takes)).trans hst.took⟩
    · rw [Holds, show (h1.push i c r (Calls.exec i c h1.2).2).2.locks = h1.2.locks from
        (fair_beside hc' hinv.sites_dir).locks]
      exact hst.locks slug
    · rw [hserial]
      exact hst.fake slug hs

/-- The site of a lock that is held is the same on both sides while the others act. -/
theorem sameSite_rely (hheld : h.2.locks slug = some i) (hr : Rely P i h h')
    (hs : SameSite P.cfg P.rt h.2 (P.serial h.1) slug) : SameSite P.cfg P.rt h'.2 (P.serial h'.1) slug :=
  hs.congr (hr.tree slug hheld) (hr.row slug hheld) (hr.fake slug hheld)

/-- **A critical section among other threads.** Run alone it does to its site what the request does to
the fake, looking at nothing but the site and a name of the thread's own in staging, on which `K` holds:
then it does so in the midst of others, and answers as it does alone. -/
theorem safe_hold (hn : Apart P.oracle) (hslug : changed P.rt (P.requests i) = some slug)
    (hname : P.Mine i name) {K : World → Prop} {p : Code A}
    (hK : ∀ w w', (∀ q, P.cfg.staging_dir ++ [name] <+: q → w'.disk.get q = w.disk.get q) →
      w'.oracle i = w.oracle i → w'.drawn i = w.drawn i → K w → K w')
    (hp : ∀ w s, Grounds P w → K w → SameSite P.cfg P.rt w s slug →
      SameSite P.cfg P.rt (run (Calls.exec i) p w).2
        (effect P.cfg P.rt (P.draws i) (P.requests i) s) slug ∧
      Along (S := sig) (Calls.exec i) (P.Close i (· = slug) name) p w)
    (hfree : Free i h.2) (hfresh : took i h.1 = 0) (hkh : K h.2) :
    Safe (setting P) i (fun r h' => (Grounds P h'.2 ∧ Free i h'.2) ∧
      ∃ w, w.oracle = P.oracle ∧ r = (run (Calls.exec i) p w).1) (hold slug p) h := by
  refine Safe.seq (P := fun r h1 => r = .ok () ∧ Grounds P h1.2 ∧ K h1.2 ∧
      (∀ slug', Holds h1.2 i slug' ↔ slug' = slug) ∧ ∃ s, SameSite P.cfg P.rt h1.2 s slug ∧
        (P.serial h1.1).sites[slug]? = (effect P.cfg P.rt (P.draws i) (P.requests i) s).sites[slug]?)
    (Safe.invoke fun h1 hr hinv r w ha => ?acquire) ?body ?never
  case acquire =>
    have howes := acquire_owes hslug (hr.took.trans hfresh) hinv ha
    have hopen := free_before ha
    obtain ⟨rfl, rfl⟩ := Prod.mk.inj (answers_faultless.1 ha).2
    refine ⟨howes, rfl, howes.1.grounds, ?_, fun slug' => holds_taken.trans ?_, P.serial h1.1,
      (hinv.site slug hopen).congr (fun _ => rfl) rfl rfl, ?_⟩
    · exact hK h.2 _ (fun q hq => hr.own q ⟨name, hname, hq⟩) (congrFun hr.oracle i) hr.drawn hkh
    · split_ifs with heq
      · exact iff_of_true rfl heq
      · exact iff_of_false (hfree.rely hr slug') heq
    · exact congrArg (fun s : FakeState => s.sites[slug]?) (serial_acquire h1.1)
  case never =>
    rintro e h1 ⟨he, -⟩
    cases he
  rintro _ h1 ⟨-, hg, hk, hheld, s, hsame, hfake⟩
  obtain ⟨hafter, halong⟩ := hp h1.2 s hg hk hsame
  have hS : ∀ slug', slug' = slug → Holds h1.2 i slug' := fun slug' h => (hheld slug').2 h
  refine Safe.seq (P := fun r h2 => ∃ r', r = .ok r' ∧ r' = (run (Calls.exec i) p h1.2).1 ∧
      (∀ slug', Holds h2.2 i slug' ↔ slug' = slug) ∧ Grounds P h2.2 ∧
      SameSite P.cfg P.rt h2.2 (P.serial h2.1) slug)
    (Safe.attempt ((safe_local hn hname hS hg halong).mono ?_)) ?release ?never'
  · rintro r h2 ⟨hst, hr, hsight⟩
    obtain ⟨hdisk, hrows, -⟩ := sight_iff.1 hsight
    refine ⟨r, rfl, hr, fun slug' => (hst.locks slug').trans (hheld slug'), hst.grounds,
      hafter.congr (fun q => ?_) (hrows slug rfl) ((hst.fake slug rfl).trans hfake)⟩
    exact hdisk _ (Or.inl ⟨slug, rfl, Or.inr (List.prefix_append _ _)⟩)
  case never' =>
    rintro e h2 ⟨r', he, -⟩
    cases he
  rintro r h2 ⟨_, hrr, hr, hheld2, -, hsame2⟩
  obtain rfl := Except.ok.inj hrr
  refine Safe.seq (P := fun r h3 => r = .ok () ∧ Grounds P h3.2 ∧ Free i h3.2)
    (Safe.invoke fun h3 hrel hinv r3 w ha => ?_) ?_ ?_
  · have hh : h2.2.locks slug = some i := (hheld2 slug).2 rfl
    have howes := release_owes ((hrel.locks slug).2 hh) (sameSite_rely hh hrel hsame2) hinv ha
    obtain ⟨rfl, rfl⟩ := Prod.mk.inj (answers_faultless.1 ha).2
    refine ⟨howes, rfl, howes.1.grounds, fun slug' hs => ?_⟩
    obtain ⟨hne, hs⟩ := holds_freed.1 hs
    exact hne ((hheld2 slug').1 ((hrel.locks slug').1 hs))
  · rintro _ h3 ⟨-, hg3, hf3⟩
    rcases r with e | a <;> exact ⟨⟨hg3, hf3⟩, h1.2, hg.oracle, hr⟩
  · rintro e h3 ⟨he, -⟩
    cases he

end PaperBoxing.Agreement.Interleaved
