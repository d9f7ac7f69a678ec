import PaperBoxing.Backend.App
import PaperBoxing.Backend.Scoped

/-! # No partial file is served

A body is received into a staging file of its own, and only a body that was received whole is renamed
into a site. Whatever the requests are, however their calls are interleaved and whichever of them fail,
and wherever the process stops and starts again, a file below `sites/` was there from the beginning or
is the whole body of an upload to its place.

* `WholeFiles`: the invariant; `call_whole`: what one call does to it;
* `safe_stage`, `safe_landFile`: the two halves of an upload, in the midst of other threads;
* `keeps_handle`: any request, so;
* `served_files_are_whole`: over every life of the service. -/

namespace PaperBoxing.Backend.Whole

open PaperBoxing.Lib PaperBoxing.Lib.Action PaperBoxing.Lib.Program PaperBoxing.Lib.Threads
open PaperBoxing.Lib.Text PaperBoxing.Lib.Tables PaperBoxing.Lib.Trees PaperBoxing.Lib.Disk
open PaperBoxing.Common.Schema PaperBoxing.Common.Naming PaperBoxing.Backend PaperBoxing.Backend.Db
open PaperBoxing.Backend.Calls PaperBoxing.Backend.Storage PaperBoxing.Backend.Alone
open PaperBoxing.Backend.Frames PaperBoxing.Backend.App

variable {cfg : Calls.Config} {rt : Runtime} {hasher : Hasher} {A B : Type} {i : ℕ}
  {o : ℕ → Oracle} {L : Path Str → Bytes → Prop} {fails : ℕ → Calls.Call → World → Exn → World → Prop}

/-! ### The invariant -/

/-- **Every file below `sites/`** has a content that `L` allows at its place. -/
def WholeFiles (cfg : Calls.Config) (L : Path Str → Bytes → Prop) (t : Files Str) : Prop :=
  ∀ q d, cfg.sites_dir <+: q → t.get q = some (.file d) → L q d.content

/-- **What a failing call leaves**: the disk as it was, but that a write may have written a part. -/
def Mild (fails : ℕ → Calls.Call → World → Exn → World → Prop) : Prop :=
  ∀ i c w e w', fails i c w e w' → w'.oracle = w.oracle ∧ (w'.disk = w.disk ∨
    ∃ p bytes part stamp d, c = .disk (.write p bytes) ∧ part <+: bytes ∧
      w.disk.get p = some (.file d) ∧ w'.disk = w.disk.put p (.file ⟨d.content ++ part, stamp⟩))

/-- The staging file under a name that the thread `j` may draw. -/
abbrev part (cfg : Calls.Config) (o : ℕ → Oracle) (j n : ℕ) : Path Str :=
  stagingPath cfg ((o j).token_hex 8 n)

/-- A path apart from the staging files of all threads but `i`. -/
def Spare (cfg : Calls.Config) (o : ℕ → Oracle) (i : ℕ) (p : Path Str) : Prop :=
  ∀ j, j ≠ i → ∀ n, ¬ p <+: part cfg o j n ∧ ¬ part cfg o j n <+: p

/-- **The calls that keep the files whole**, of the thread `i` on the tree `t`. -/
def Lawful (cfg : Calls.Config) (o : ℕ → Oracle) (L : Path Str → Bytes → Prop) (i : ℕ)
    (t : Files Str) : Calls.Call → Prop
  | .disk (.mkdir p) => ¬ cfg.staging_dir <+: p ∨ p = cfg.staging_dir
  | .disk (.rmdir p) | .disk (.unlink p) => Spare cfg o i p
  | .disk (.create p) | .disk (.write p _) => cfg.staging_dir <+: p ∧ Spare cfg o i p
  | .disk (.replace src dst) => Spare cfg o i src ∧ Spare cfg o i dst ∧
      (cfg.staging_dir <+: dst ∨ ∃ d, t.get src = some (.file d) ∧ L dst d.content)
  | _ => True

/-- The calls that keep the files whole, whoever else is there. -/
def Honest (cfg : Calls.Config) (L : Path Str → Bytes → Prop) (t : Files Str) : Calls.Call → Prop
  | .disk (.create p) | .disk (.write p _) => cfg.staging_dir <+: p
  | .disk (.replace src dst) =>
    cfg.staging_dir <+: dst ∨ ∃ d, t.get src = some (.file d) ∧ L dst d.content
  | _ => True

theorem Lawful.honest {t : Files Str} {c : Calls.Call} (h : Lawful cfg o L i t c) :
    Honest cfg L t c := by
  cases c with
  | disk c =>
    cases c with
    | create p => exact h.1
    | write p bytes => exact h.1
    | replace src dst => exact h.2.2
    | _ => trivial
  | _ => trivial

theorem under_staging (j n : ℕ) : cfg.staging_dir <+: part cfg o j n := List.prefix_append _ _

theorem spare_of_sites {p : Path Str} (h : cfg.sites_dir <+: p) : Spare cfg o i p := fun j _ n =>
  ⟨fun hp => by
    -- both folders lie in the same one
    have hs : cfg.sites_dir <+: part cfg o j n := h.trans hp
    exact staged_apart (under_staging j n) hs List.prefix_rfl,
   staged_apart (under_staging j n) h⟩

theorem Spare.below {p q : Path Str} (h : Spare cfg o i p) (hpq : p <+: q) : Spare cfg o i q :=
  fun j hj n => ⟨fun hq => (h j hj n).1 (hpq.trans hq), fun hq =>
    (List.prefix_or_prefix_of_prefix hq hpq).elim (h j hj n).2 (h j hj n).1⟩

/-- What lies in another's staging file is not below a spare path. -/
theorem Spare.apart {p q : Path Str} (h : Spare cfg o i p) {j n : ℕ} (hj : j ≠ i)
    (hq : part cfg o j n <+: q) : ¬ p <+: q := fun hp =>
  (List.prefix_or_prefix_of_prefix hp hq).elim (h j hj n).1 (h j hj n).2

/-- Another path shows a new folder as it was. -/
theorem exec_mkdir_get (env : Env Str) {p q : Path Str} (t : Files Str) (h : q ≠ p) :
    (Disk.exec env (.mkdir p) t).2.get q = t.get q := by
  rw [Disk.exec, Disk.mkdir]
  split
  · rfl
  · split_ifs with hf
    · rw [Tree.get_put hf, if_neg h]
    · rfl

/-- **An honest call keeps the files whole.** -/
theorem call_whole (env : Env Str) {c : Disk.Call Str} {t : Files Str}
    (hc : Honest cfg L t (.disk c)) (h : WholeFiles cfg L t) : WholeFiles cfg L (Disk.exec env c t).2 := by
  intro q d hq hd
  have hsame : (Disk.exec env c t).2.get q = t.get q → L q d.content := fun he => h q d hq (he ▸ hd)
  have hremove : ∀ {p}, (Disk.exec env c t).2 = t ∨ (p ≠ [] ∧ (Disk.exec env c t).2 = t.prune p) →
      L q d.content := by
    rintro p (he | ⟨hp, he⟩)
    · exact hsame (by rw [he])
    · rw [he, Tree.get_prune hp] at hd
      split_ifs at hd
      exact h q d hq hd
  have hstaged : ∀ {p}, writes c = [p] → cfg.staging_dir <+: p → L q d.content := fun hw hp =>
    hsame (exec_get_of_not_writes env fun p' hp' => by
      rw [hw, List.mem_singleton] at hp'
      rw [hp']
      exact staged_apart hp hq)
  cases c with
  | mkdir p =>
    by_cases hqp : q = p
    · rw [Disk.exec, Disk.mkdir] at hd
      split at hd
      · exact h q d hq hd
      · split_ifs at hd with hf
        · rw [Tree.get_put hf, if_pos hqp] at hd
          cases hd
        · exact h q d hq hd
    · exact hsame (exec_mkdir_get env t hqp)
  | rmdir p =>
    refine hremove (p := p) ?_
    rw [Disk.exec, Disk.rmdir]
    split
    · split_ifs with hp
      · exact Or.inr ⟨hp.1, rfl⟩
      · exact Or.inl rfl
    · exact Or.inl rfl
    · exact Or.inl rfl
  | unlink p =>
    refine hremove (p := p) ?_
    rw [Disk.exec, Disk.unlink]
    split
    · exact Or.inl rfl
    · next n hn hg =>
      refine Or.inr ⟨?_, rfl⟩
      rintro rfl
      exact hn (by rw [Tree.get_root] at hg; exact (Option.some.inj hg).symm)
    · exact Or.inl rfl
  | create p => exact hstaged rfl hc
  | write p bytes => exact hstaged rfl hc
  | replace src dst =>
    rcases replace_cases src dst t with he | ⟨hm, he⟩
    · exact hsame (by rw [Disk.exec, he])
    rw [Disk.exec, he, Tree.get_move hm] at hd
    split_ifs at hd with h1 h2
    · rcases hc with hdst | ⟨d', hsrc, hL⟩
      · exact absurd h1 (staged_apart hdst hq)
      · -- a file has nothing below it
        obtain ⟨r, rfl⟩ := h1
        rw [List.drop_left] at hd
        rcases r with _ | ⟨s, r⟩
        · rw [List.append_nil, hsrc] at hd
          cases hd
          rwa [List.append_nil]
        · rw [Tree.get_below_none (by rw [hsrc]; simp) (by simp)] at hd
          cases hd
    · exact h q d hq hd
  | _ => exact hsame (exec_get_of_not_writes env (by rintro p ⟨⟩))

/-- **A lawful call leaves the staging files of the others** as they were. -/
theorem call_spares (env : Env Str) {c : Disk.Call Str} {t : Files Str}
    (hc : Lawful cfg o L i t (.disk c)) {j n : ℕ} (hj : j ≠ i) {q : Path Str}
    (hq : part cfg o j n <+: q) : (Disk.exec env c t).2.get q = t.get q := by
  have hone : ∀ {p}, writes c = [p] → Spare cfg o i p → (Disk.exec env c t).2.get q = t.get q :=
    fun hw hp => exec_get_of_not_writes env fun p' hp' => by
      rw [hw, List.mem_singleton] at hp'
      rw [hp']
      exact hp.apart hj hq
  cases c with
  | mkdir p =>
    refine exec_mkdir_get env t ?_
    rintro rfl
    rcases hc with hc | rfl
    · exact hc ((under_staging j n).trans hq)
    · have := hq.length_le
      simp [stagingPath] at this
  | rmdir p => exact hone rfl hc
  | unlink p => exact hone rfl hc
  | create p => exact hone rfl hc.2
  | write p bytes => exact hone rfl hc.2
  | replace src dst =>
    refine exec_get_of_not_writes env fun p' hp' => ?_
    rw [writes, List.mem_pair] at hp'
    rcases hp' with rfl | rfl
    · exact hc.1.apart hj hq
    · exact hc.2.1.apart hj hq
  | _ => exact exec_get_of_not_writes env (by rintro p ⟨⟩)

/-! ### The setting -/

/-- **The setting**: the files are whole, and a thread relies on its own staging files. -/
def setting (cfg : Calls.Config) (o : ℕ → Oracle) (L : Path Str → Bytes → Prop)
    (fails : ℕ → Calls.Call → World → Exn → World → Prop) : Setting sig Exn World where
  machine := machine fails
  inv h := h.2.oracle = o ∧ WholeFiles cfg L h.2.disk
  rely i h h' := ∀ n q, part cfg o i n <+: q → h'.2.disk.get q = h.2.disk.get q
  refl _ _ _ _ _ := rfl
  trans _ _ _ _ h h' n q hq := (h' n q hq).trans (h n q hq)

theorem exec_oracle (i : ℕ) (c : Calls.Call) (w : World) : (Calls.exec i c w).2.oracle = w.oracle := by
  cases c <;> rfl

/-- **A lawful call owes nobody anything**, whether it fails or not. -/
theorem step_owes (hm : Mild fails) {c : Calls.Call} {h : Hist sig Exn World} {r} {w : World}
    (hc : Lawful cfg o L i h.2.disk c) (hinv : (setting cfg o L fails).inv h)
    (ha : (machine fails).Answers i c h.2 r w) :
    (setting cfg o L fails).Owes i h (h.push i c r w) := by
  obtain ⟨ho, hw⟩ := hinv
  rcases ha.2 with he | ⟨e, -, hf⟩
  · obtain rfl : w = (Calls.exec i c h.2).2 := congrArg Prod.snd he
    have ho' : (Calls.exec i c h.2).2.oracle = o := (exec_oracle i c h.2).trans ho
    cases c with
    | disk c => exact ⟨⟨ho', call_whole _ hc.honest hw⟩, fun j hj n q hq => call_spares _ hc hj hq⟩
    | _ => exact ⟨⟨ho', hw⟩, fun _ _ _ _ _ => rfl⟩
  · obtain ⟨ho', hd | ⟨p, bytes, pt, stamp, d, rfl, -, hp, hd⟩⟩ := hm _ _ _ _ _ hf
    · refine ⟨⟨ho'.trans ho, ?_⟩, fun j hj n q hq => ?_⟩
      · change WholeFiles cfg L w.disk
        rwa [hd]
      · change w.disk.get q = _
        rw [hd]
    · -- a part was appended to the own staging file
      have hfits : h.2.disk.Fits p := Tree.fits_iff.2 ⟨by rintro rfl; simp at hp,
        Tree.get_dropLast (by simp [hp]), by simp [hp]⟩
      refine ⟨⟨ho'.trans ho, fun q d' hq hd' => ?_⟩, fun j hj n q hq => ?_⟩
      · change w.disk.get q = _ at hd'
        rw [hd, Tree.get_put hfits, if_neg] at hd'
        · exact hw q d' hq hd'
        · rintro rfl
          exact staged_apart hc.1 hq List.prefix_rfl
      · change w.disk.get q = _
        rw [hd, Tree.get_put hfits, if_neg]
        rintro rfl
        exact hc.2.apart hj hq List.prefix_rfl

/-! ### Programs that keep the files whole -/

/-- **A program that keeps the files whole**, in the midst of other threads, and returns what `P`
allows. -/
def Keeps (cfg : Calls.Config) (o : ℕ → Oracle) (L : Path Str → Bytes → Prop)
    (fails : ℕ → Calls.Call → World → Exn → World → Prop) (i : ℕ) (P : A → Prop) (p : Code A) : Prop :=
  ∀ h, Safe (setting cfg o L fails) i (fun r _ => ∀ a, r = .ok a → P a) p h

section
variable {P : A → Prop} {Q : B → Prop}

theorem keeps_of_uses (hm : Mild fails) {p : Code A}
    (hp : Uses (fun c => ∀ t, Lawful cfg o L i t c) p) : Keeps cfg o L fails i (fun _ => True) p := by
  intro h
  induction p generalizing h with
  | ret a => exact fun _ _ => trivial
  | raise e => exact fun _ _ => trivial
  | call c k ih =>
    intro h' _ hi r w ha
    exact ⟨step_owes hm (hp.1 _) hi ha, ih r (hp.2 r) _⟩

theorem keeps_ret {a : A} (h : P a) : Keeps cfg o L fails i P (.ret a) := by
  rintro _ _ ⟨⟩
  exact h

theorem keeps_raise (e : Exn) : Keeps cfg o L fails i P (.raise e) := by
  rintro _ _ ⟨⟩

theorem Keeps.returns {p : Code A} {P' : A → Prop} (hp : Keeps cfg o L fails i P' p)
    (hr : Returns P p) : Keeps cfg o L fails i P p := fun h =>
  ((hp h).returns hr).mono fun _ _ hq => hq.2

theorem Keeps.any {p : Code A} (hp : Keeps cfg o L fails i P p) :
    Keeps cfg o L fails i (fun _ => True) p := fun h => (hp h).mono fun _ _ _ _ _ => trivial

theorem Keeps.bind {p : Code A} {f : A → Code B} (hp : Keeps cfg o L fails i P p)
    (hf : ∀ a, P a → Keeps cfg o L fails i Q (f a)) : Keeps cfg o L fails i Q (p >>= f) := fun h =>
  (hp h).seq (fun a h' hq => hf a (hq a rfl) h') (by rintro _ _ _ _ ⟨⟩)

theorem Keeps.except {p : Code A} {g : Exn → Code A} (hp : Keeps cfg o L fails i P p)
    (hg : ∀ e, Keeps cfg o L fails i P (g e)) : Keeps cfg o L fails i P (p.except g) := fun h =>
  (hp h).except (fun _ _ hq => hq) fun e h' _ => hg e h'

theorem lawful_of_looks {c : Calls.Call} (hc : looks c) (t : Files Str) : Lawful cfg o L i t c := by
  cases c with
  | disk c => cases c <;> trivial
  | _ => trivial

theorem keeps_looks (hm : Mild fails) {p : Code A} (hp : Uses looks p) :
    Keeps cfg o L fails i (fun _ => True) p :=
  keeps_of_uses hm (hp.mono fun _ hc t => lawful_of_looks hc t)

theorem lawful_of_accounts {c : Calls.Call} (hc : ofAccounts c) (t : Files Str) :
    Lawful cfg o L i t c := by
  cases c with
  | disk c => exact hc.elim
  | _ => trivial

theorem keeps_accounts (hm : Mild fails) {p : Code A} (hp : Uses ofAccounts p) :
    Keeps cfg o L fails i (fun _ => True) p :=
  keeps_of_uses hm (hp.mono fun _ hc t => lawful_of_accounts hc t)

/-- What the locks bracket. -/
theorem keeps_hold (hm : Mild fails) {slug : Str} {p : Code A} (hp : Keeps cfg o L fails i P p) :
    Keeps cfg o L fails i P (hold slug p) := by
  have hlock : ∀ c : Calls.Call, (∀ t, Lawful cfg o L i t c) →
      Keeps cfg o L fails i (fun _ => True) (Prog.invoke (S := sig) (E := Exn) c) := fun c hc =>
    keeps_of_uses hm ((uses_invoke (S := sig) c).2 hc)
  refine (hlock (.acquire slug) fun _ => trivial).bind fun _ _ => Keeps.bind
    (P := fun r => ∀ a, r = .ok a → P a) (fun h => Safe.attempt ((hp h).mono ?_)) fun r hr =>
      (hlock (.release slug) fun _ => trivial).bind fun _ _ => ?_
  · rintro r _ hq _ ⟨⟩ a rfl
    exact hq a rfl
  · rcases r with e | a
    · exact keeps_raise e
    · exact keeps_ret (hr a rfl)

end

/-- The entries of a walk are below where it began. -/
theorem walk_below {env : Env Str} {p : Path Str} {t : Files Str} {entries : List (Path Str × Bool)}
    (h : (Disk.exec env (.walk p) t).1 = .ok entries) : ∀ e ∈ entries, p <+: e.1 := by
  rw [Disk.exec, Disk.walk] at h
  split at h
  · obtain rfl := Except.ok.inj h
    intro e he
    obtain ⟨⟨q, n⟩, hq, rfl⟩ := List.mem_map.1 he
    exact (Tree.mem_below.1 hq).1
  · cases h
  · cases h

/-- **What a call on the disk answers**, where it does not raise. -/
theorem answers_disk {c : Disk.Call Str} {w w' : World} {a : Disk.Resp Str c}
    (ha : (machine fails).Answers i (.disk c) w (.ok a) w') :
    (Disk.exec ⟨(w.oracle i).stamp (w.drawn i), w.scan⟩ c w.disk).1 = .ok a ∧
      w'.disk = (Disk.exec ⟨(w.oracle i).stamp (w.drawn i), w.scan⟩ c w.disk).2 := by
  rcases ha.2 with he | ⟨e, hne, -⟩
  · obtain ⟨hr, hw⟩ := Prod.mk.inj he
    refine ⟨?_, by rw [hw]⟩
    change Except.ok a = ((Disk.exec _ c w.disk).1).mapError Exn.os at hr
    rcases hx : (Disk.exec ⟨(w.oracle i).stamp (w.drawn i), w.scan⟩ c w.disk).1 with e | a' <;>
      rw [hx] at hr
    · cases hr
    · rw [Except.ok.inj hr]
  · cases hne

theorem keeps_rmtree (hm : Mild fails) (ignore_errors : Bool) {p : Path Str} (hp : Spare cfg o i p) :
    Keeps cfg o L fails i (fun _ => True) (rmtree ignore_errors p) := by
  refine Keeps.bind (P := fun r => ∀ entries, r = .ok entries → ∀ e ∈ entries, p <+: e.1)
    (fun h => Safe.attempt (Safe.invoke fun h' _ hi r w ha => ⟨step_owes hm trivial hi ha, ?_⟩))
    fun r hr => ?_
  · rintro r' hr entries rfl
    obtain rfl := Except.ok.inj hr
    exact walk_below (answers_disk ha).1
  · rcases r with e | entries
    · rcases e with _ | _ | _ | _ | _ | _ | _ | _ <;> cases ignore_errors <;>
        exact fun _ _ _ => trivial
    · exact keeps_of_uses hm (uses_removeAll _ _ fun e he =>
        ⟨fun _ => hp.below (hr _ rfl e he), fun _ => hp.below (hr _ rfl e he)⟩)

theorem keeps_unlink (hm : Mild fails) {p : Path Str} (hp : Spare cfg o i p) :
    Keeps cfg o L fails i (fun _ => True) (_unlink p) := keeps_of_uses hm (uses_unlink fun _ => hp)

/-! ### The operations that create or remove -/

/-- **What `resolve` returns** is the place of the path in its site. -/
theorem returns_resolve (slug path : Str) :
    Returns (fun target => target = site_dir cfg slug ++ segments path) (resolve cfg rt slug path) := by
  refine Returns.bind fun mode => ?_
  split_ifs
  · trivial
  refine Returns.bind fun _ => Returns.bind fun real => Returns.bind fun real_root => ?_
  split_ifs
  · rfl
  · trivial

theorem under_sites (slug : Str) (p : Path Str) : cfg.sites_dir <+: site_dir cfg slug ++ p :=
  ⟨[slug] ++ p, by rw [site_dir, List.append_assoc]⟩

/-- The folders on the way to a place in a site are not in the staging folder. -/
theorem way_apart {slug : Str} {p q : Path Str} (h : q <+: site_dir cfg slug ++ p) :
    ¬ cfg.staging_dir <+: q := fun hq =>
  staged_apart hq (under_sites slug p) h

theorem keeps_resolve (hm : Mild fails) (slug path : Str) :
    Keeps cfg o L fails i (fun target => target = site_dir cfg slug ++ segments path)
      (resolve cfg rt slug path) :=
  (keeps_looks hm (uses_resolve _ _)).returns (returns_resolve slug path)

theorem keeps_create_site (hm : Mild fails) (slug name : Str) (created_at : IsoTime.Instant) :
    Keeps cfg o L fails i (fun _ => True) (Storage.create_site cfg rt slug name created_at) := by
  refine keeps_hold hm (keeps_of_uses hm (Uses.bind (uses_query fun _ => trivial) fun existing => ?_))
  split_ifs
  · trivial
  have hway : ∀ q, q <+: (site_dir cfg slug).reverse.reverse → ¬ cfg.staging_dir <+: q := fun q hq => by
    rw [List.reverse_reverse, ← List.append_nil (site_dir cfg slug)] at hq
    exact way_apart hq
  refine ((uses_mkdirParents _ _ fun q hq =>
    ⟨fun _ => Or.inl (hway q hq), fun _ => trivial⟩).except fun e => ?_).bind fun _ =>
      (Uses.except (uses_query fun _ => trivial) fun e => ?_).bind fun _ => uses_ret _
  · rcases e with _ | e | _ | _ | _ | _ | _ | _ <;> try trivial
    rcases e with _ | _ | _ | _ | _ | _ | _ | _ | _ <;> trivial
  · refine (uses_suppressOs (uses_disk fun _ => spare_of_sites ?_)).bind fun _ => ?_
    · exact List.prefix_append _ _
    · rcases e with _ | _ | _ | _ | _ | _ | _ | _ <;> trivial

theorem keeps_delete_file (hm : Mild fails) (slug path : Str) :
    Keeps cfg o L fails i (fun _ => True) (Storage.delete_file cfg rt slug path) := by
  refine keeps_hold hm ((keeps_resolve hm slug path).bind fun target ht =>
    (keeps_looks hm (uses_kind_of _)).bind fun kind _ => ?_)
  rcases kind with _ | _ | _ | _
  · exact keeps_raise _
  · refine keeps_of_uses hm ((uses_disk fun _ => ?_).bind fun _ => uses_query fun _ => trivial)
    rw [ht]
    exact spare_of_sites (under_sites slug _)
  · exact keeps_raise _
  · exact keeps_raise _

theorem keeps_delete_folder (hm : Mild fails) (slug path : Str) (recursive : Bool) :
    Keeps cfg o L fails i (fun _ => True) (Storage.delete_folder cfg rt slug path recursive) := by
  refine keeps_hold hm ((keeps_resolve hm slug path).bind fun target ht =>
    (keeps_looks hm (uses_kind_of _)).bind fun kind _ => ?_)
  rcases kind with _ | _ | _ | _
  · exact keeps_raise _
  · exact keeps_raise _
  · refine (keeps_looks hm (uses_look rfl)).bind fun entries _ => ?_
    split_ifs
    · exact keeps_raise _
    · refine (keeps_rmtree hm false ?_).bind fun _ _ => keeps_of_uses hm
        (Uses.bind (uses_query fun _ => trivial) fun _ => uses_ret _)
      rw [ht]
      exact spare_of_sites (under_sites slug _)
  · exact keeps_raise _

/-! ### The names in the staging folder -/

/-- **The random names do not repeat** between threads, and are hexadecimal. -/
structure Names (o : ℕ → Oracle) : Prop where
  distinct : ∀ i j m n, i ≠ j → (o i).token_hex 8 m ≠ (o j).token_hex 8 n
  hexadecimal : ∀ i k n, ∀ c ∈ (o i).token_hex k n, c ∈ lit "0123456789abcdef"

theorem part_incomparable {name : Str} {j n : ℕ} (h : name ≠ (o j).token_hex 8 n ++ lit ".part") :
    ¬ cfg.staging_dir ++ [name] <+: part cfg o j n ∧ ¬ part cfg o j n <+: cfg.staging_dir ++ [name] := by
  have hne : cfg.staging_dir ++ [name] ≠ part cfg o j n := by
    intro he
    rw [part, stagingPath, List.append_cancel_left_eq, List.cons.injEq] at he
    exact h he.1
  exact ⟨fun hp => hne (hp.eq_of_length (by simp [stagingPath])),
    fun hp => hne (hp.eq_of_length (by simp [stagingPath])).symm⟩

theorem spare_own (hn : Names o) (n : ℕ) : Spare cfg o i (part cfg o i n) := fun j hj m =>
  part_incomparable fun he => hn.distinct i j n m hj.symm (List.append_cancel_right he)

/-- What a site was parked as is nobody's staging file: it does not end as those do. -/
theorem spare_parked {slug hex : Str} (h : ∀ c ∈ hex, c ∈ lit "0123456789abcdef") :
    Spare cfg o i (parkedPath cfg slug hex) := fun j _ n => by
  refine part_incomparable fun he => ?_
  have hlast := congrArg List.getLast? he
  have hpart : ((o j).token_hex 8 n ++ lit ".part").getLast? = (lit ".part").getLast? := by
    rw [List.getLast?_append, show (lit ".part").getLast? = some 116 by decide]
    rfl
  rw [hpart, List.getLast?_append] at hlast
  rcases hx : hex.getLast? with _ | c
  · rw [hx, Option.none_or, List.getLast?_append,
      show (lit ".deleting-").getLast? = some 45 by decide] at hlast
    exact absurd (Option.some.inj hlast) (by decide)
  · rw [hx, Option.some_or, show (lit ".part").getLast? = some 116 by decide] at hlast
    obtain rfl := Option.some.inj hlast
    exact absurd (h _ (List.mem_of_getLast? hx)) (by decide)

/-- **A random name** is one of the thread's. -/
theorem answers_token_hex {k : ℕ} {w w' : World} {hex : Str}
    (ha : (machine fails).Answers i (.token_hex k) w (.ok hex) w') :
    hex = (w.oracle i).token_hex k (w.drawn i) := by
  rcases ha.2 with he | ⟨e, hne, -⟩
  · exact Except.ok.inj (congrArg Prod.fst he)
  · cases hne

theorem keeps_delete_site (hm : Mild fails) (hn : Names o) (slug : Str) :
    Keeps cfg o L fails i (fun _ => True) (Storage.delete_site cfg slug) := by
  have hroot : Spare cfg o i (site_dir cfg slug) := spare_of_sites (List.prefix_append _ _)
  refine Keeps.bind (P := fun parked => ∀ p, parked = some p → Spare cfg o i p) (keeps_hold hm
    ((keeps_looks hm (uses_kind_of _)).bind fun kind _ => Keeps.bind
      (P := fun parked => ∀ p, parked = some p → Spare cfg o i p) ?_ fun parked hparked =>
        Keeps.bind (keeps_of_uses hm (uses_query fun _ => trivial)) fun _ _ => keeps_ret hparked))
    fun parked hparked => ?_
  · split_ifs
    · refine Keeps.bind (P := fun hex => ∀ c ∈ hex, c ∈ lit "0123456789abcdef")
        (fun h => Safe.invoke fun h' _ hi r w ha => ⟨step_owes hm trivial hi ha, ?_⟩) fun hex hhex => ?_
      · rintro hex rfl
        obtain rfl := answers_token_hex ha
        rw [hi.1]
        exact hn.hexadecimal _ _ _
      · have hpark : ∀ t, Lawful cfg o L i t
            (.disk (.replace (site_dir cfg slug) (parkedPath cfg slug hex))) := fun _ =>
          ⟨hroot, spare_parked hhex, Or.inl (List.prefix_append _ _)⟩
        refine (keeps_of_uses hm (uses_disk hpark)).bind fun _ _ => keeps_ret ?_
        rintro p ⟨⟩
        exact spare_parked hhex
    · exact keeps_ret (by rintro _ ⟨⟩)
  · rcases parked with _ | parked
    · exact keeps_ret trivial
    refine (keeps_looks hm (uses_kind_of _)).bind fun kind _ => ?_
    split_ifs
    · exact keeps_rmtree hm true (hparked _ rfl)
    · exact keeps_unlink hm (hparked _ rfl)

/-! ### An upload -/

/-- **The staging file of the thread `i`** holds a content. -/
def Held (cfg : Calls.Config) (o : ℕ → Oracle) (i n : ℕ) (content : Bytes) (h : Hist sig Exn World) :
    Prop :=
  ∃ d, h.2.disk.get (part cfg o i n) = some (.file d) ∧ d.content = content

theorem Held.rely {n : ℕ} {content : Bytes} {h h' : Hist sig Exn World} (hh : Held cfg o i n content h)
    (hr : (setting cfg o L fails).rely i h h') : Held cfg o i n content h' := by
  obtain ⟨d, hd, hc⟩ := hh
  exact ⟨d, (hr n _ List.prefix_rfl).trans hd, hc⟩

/-- The calls that leave the staging folder alone. -/
def calm (cfg : Calls.Config) : Calls.Call → Prop
  | .disk (.mkdir p) => ¬ cfg.staging_dir <+: p
  | .disk c => writes c = []
  | _ => True

theorem calm_of_looks {c : Calls.Call} (hc : looks c) : calm cfg c := by
  cases c with
  | disk c => cases c <;> first | exact hc | cases (show writes _ = [] from hc)
  | _ => trivial

theorem lawful_of_calm {c : Calls.Call} (hc : calm cfg c) (t : Files Str) : Lawful cfg o L i t c := by
  cases c with
  | disk c => cases c <;> first | trivial | exact Or.inl hc
  | _ => trivial

/-- **A calm call leaves the own staging files**, also where it fails. -/
theorem calm_rely (hm : Mild fails) {c : Calls.Call} (hc : calm cfg c) {h : Hist sig Exn World} {r}
    {w : World} (ha : (machine fails).Answers i c h.2 r w) :
    (setting cfg o L fails).rely i h (h.push i c r w) := by
  intro n q hq
  change w.disk.get q = h.2.disk.get q
  rcases ha.2 with he | ⟨e, -, hf⟩
  · obtain rfl : w = (Calls.exec i c h.2).2 := congrArg Prod.snd he
    cases c with
    | disk c =>
      cases c with
      | mkdir p =>
        refine exec_mkdir_get _ _ ?_
        rintro rfl
        exact hc ((under_staging i n).trans hq)
      | _ => exact exec_get_of_not_writes _ (by rw [show writes _ = [] from hc]; rintro p ⟨⟩)
    | _ => rfl
  · obtain ⟨-, hd | ⟨p, bytes, pt, stamp, d, rfl, -⟩⟩ := hm _ _ _ _ _ hf
    · rw [hd]
    · cases (show writes _ = [] from hc)

theorem safe_calm (hm : Mild fails) {p : Code A} (hp : Uses (calm cfg) p) {h0 h : Hist sig Exn World}
    (h1 : (setting cfg o L fails).rely i h0 h) :
    Safe (setting cfg o L fails) i (fun _ h' => (setting cfg o L fails).rely i h0 h') p h := by
  induction p generalizing h with
  | ret a => exact h1
  | raise e => exact h1
  | call c k ih =>
    intro h' hr hi r w ha
    exact ⟨step_owes hm (lawful_of_calm hp.1 _) hi ha, ih r (hp.2 r)
      ((setting cfg o L fails).trans i h1 ((setting cfg o L fails).trans i hr (calm_rely hm hp.1 ha)))⟩

/-- A call of the thread on its staging file. -/
theorem safe_own (hm : Mild fails) (hn : Names o) {n : ℕ} {c : Disk.Call Str} {b : Bytes}
    (b' : Bytes) {h : Hist sig Exn World}
    (hc : (∃ bytes, c = .write (part cfg o i n) bytes) ∨ c = .sync (part cfg o i n))
    (hh : Held cfg o i n b h)
    (hexec : ∀ (env : Env Str) (t : Files Str) (a : Disk.Resp Str c) d,
      t.get (part cfg o i n) = some (.file d) → d.content = b → (Disk.exec env c t).1 = .ok a →
        ∃ d', (Disk.exec env c t).2.get (part cfg o i n) = some (.file d') ∧ d'.content = b') :
    Safe (setting cfg o L fails) i (fun r h' => ∀ a, r = .ok a → Held cfg o i n b' h') (disk c) h := by
  refine Safe.invoke fun h' hr hi r w ha => ⟨step_owes hm ?_ hi ha, ?_⟩
  · rcases hc with ⟨bytes, rfl⟩ | rfl
    · exact ⟨under_staging i n, spare_own hn n⟩
    · trivial
  · rintro a rfl
    obtain ⟨hok, hw⟩ := answers_disk ha
    obtain ⟨d, hd, hb⟩ := hh.rely hr
    obtain ⟨d', hd', hb'⟩ := hexec _ _ a d hd hb hok
    refine ⟨d', ?_, hb'⟩
    change w.disk.get _ = _
    rwa [hw]

/-- **The chunks of a body** are in the staging file as they come. -/
theorem safe_stageChunks (hm : Mild fails) (hn : Names o) (n : ℕ) (ending : Option Exn) :
    ∀ (chunks : List Bytes) (received : Bytes) (h : Hist sig Exn World), Held cfg o i n received h →
      Safe (setting cfg o L fails) i (fun r h' => ∀ b, r = .ok b → Held cfg o i n b h')
        (stageChunks cfg (part cfg o i n) ending chunks received) h
  | [], received, h, hh => by
    have hreceive : Uses (calm cfg) (receive none) := uses_receive (P := calm cfg) trivial
    rcases ending with _ | e
    · refine (safe_calm hm hreceive ((setting cfg o L fails).refl i h)).seq (fun _ h' hr => ?_)
        (by rintro _ _ _ _ ⟨⟩)
      rintro b ⟨⟩
      exact hh.rely hr
    · rintro b ⟨⟩
  | chunk :: chunks, received, h, hh => by
    have hreceive : Uses (calm cfg) (receive (some chunk)) := uses_receive (P := calm cfg) trivial
    refine (safe_calm hm hreceive ((setting cfg o L fails).refl i h)).seq (fun _ h' hr => ?_)
      (by rintro _ _ _ _ ⟨⟩)
    split_ifs
    · exact safe_stageChunks hm hn n ending chunks received h' (hh.rely hr)
    · rintro b ⟨⟩
    · refine (safe_own hm hn (received ++ chunk) (Or.inl ⟨chunk, rfl⟩) (hh.rely hr) ?_).seq
        (fun a h'' hh' => safe_stageChunks hm hn n ending chunks (received ++ chunk) h'' (hh' a rfl))
        (by rintro _ _ _ _ ⟨⟩)
      intro env t a d hd hb _
      rw [Disk.exec, write_of_file hd]
      have hfits : t.Fits (part cfg o i n) := Tree.fits_iff.2 ⟨by simp [stagingPath],
        Tree.get_dropLast (by simp [hd]), by simp [hd]⟩
      exact ⟨⟨d.content ++ chunk, env.stamp⟩, by rw [Tree.get_put hfits, if_pos rfl], by rw [hb]⟩

/-- **What the loop over a body returns** is the body, received whole within the cap. -/
theorem returns_stageChunks (staging : Path Str) (ending : Option Exn) :
    ∀ (chunks : List Bytes) (received : Bytes), received.length ≤ cfg.max_upload_bytes →
      Returns (fun b => b = received ++ chunks.flatten ∧ ending = none ∧ b.length ≤ cfg.max_upload_bytes)
        (stageChunks cfg staging ending chunks received)
  | [], received, h => by
    rcases ending with _ | e
    · exact Returns.bind fun _ => ⟨by simp, rfl, h⟩
    · trivial
  | chunk :: chunks, received, h => by
    refine Returns.bind fun _ => ?_
    split_ifs with h1 h2
    · rw [h1, List.flatten_cons, List.nil_append]
      exact returns_stageChunks staging ending chunks received h
    · trivial
    · rw [List.flatten_cons, ← List.append_assoc]
      exact Returns.bind fun _ =>
        returns_stageChunks staging ending chunks (received ++ chunk) (not_lt.1 h2)

/-- A body that arrived whole, within the cap. -/
def Arrived (cfg : Calls.Config) (body : Incoming) : Prop :=
  body.ending = none ∧ body.chunks.flatten.length ≤ cfg.max_upload_bytes

theorem create_inv {env : Env Str} {p : Path Str} {t : Files Str} {a : Unit}
    (h : (Disk.exec env (.create p) t).1 = .ok a) :
    (Disk.exec env (.create p) t).2.get p = some (.file ⟨[], env.stamp⟩) := by
  rcases hg : t.get p with _ | n
  · by_cases hf : t.Fits p
    · rw [Disk.exec, create_of_none hg hf, Tree.get_put hf, if_pos rfl]
    · rw [Disk.exec, Disk.create, hg] at h
      dsimp only at h
      rw [if_neg hf] at h
      cases h
  · rw [Disk.exec, Disk.create, hg] at h
    cases h

/-- **A staging that returns** holds the whole body in a staging file of the thread. -/
theorem safe_stage (hm : Mild fails) (hn : Names o) (body : Incoming) (h : Hist sig Exn World) :
    Safe (setting cfg o L fails) i (fun r h' => ∀ staged, r = .ok staged → Arrived cfg body ∧
      ∃ n, staged.path = part cfg o i n ∧ Held cfg o i n body.chunks.flatten h') (_stage cfg rt body) h := by
  refine Safe.seq (P := fun r _ => ∀ hex, r = .ok hex → ∃ n, hex = (o i).token_hex 8 n)
    (Safe.invoke fun h' _ hi r w ha => ⟨step_owes hm trivial hi ha, ?_⟩) (fun hex h1 hhex => ?_)
    (by rintro _ _ _ _ ⟨⟩)
  · rintro hex rfl
    exact ⟨_, by rw [answers_token_hex ha, hi.1]⟩
  obtain ⟨n, rfl⟩ := hhex hex rfl
  -- between opening and closing the file
  have hfill : Safe (setting cfg o L fails) i (fun r h' => ∀ b, r = .ok b → Held cfg o i n b h')
      (fillStaging cfg (part cfg o i n) body) h1 := by
    refine Safe.seq (P := fun r h' => ∀ a, r = .ok a → Held cfg o i n [] h')
      (Safe.invoke fun h' _ hi r w ha => ⟨step_owes hm ⟨under_staging i n, spare_own hn n⟩ hi ha, ?_⟩)
      (fun a h2 hh => (safe_stageChunks hm hn n body.ending body.chunks [] h2 (hh a rfl)).seq
        (fun received h3 hh3 => (safe_own hm hn received (Or.inr rfl) (hh3 _ rfl) ?_).seq (fun _ h4 hh4 => ?_)
          (by rintro _ _ _ _ ⟨⟩)) (by rintro _ _ _ _ ⟨⟩)) (by rintro _ _ _ _ ⟨⟩)
    · rintro a rfl
      obtain ⟨hok, hw⟩ := answers_disk ha
      refine ⟨⟨[], (h'.2.oracle i).stamp (h'.2.drawn i)⟩, ?_, rfl⟩
      change w.disk.get _ = _
      rw [hw]
      exact create_inv hok
    · intro env t a d hd hb _
      exact ⟨d, by rw [Disk.exec, bind_lookup_tree]; exact hd, hb⟩
    · rintro b ⟨⟩
      exact hh4 _ rfl
  have hreturns : Returns (fun b => b = body.chunks.flatten ∧ Arrived cfg body)
      (fillStaging cfg (part cfg o i n) body) := by
    refine Returns.bind fun _ => (returns_stageChunks _ body.ending body.chunks [] (Nat.zero_le _)).bind_of
      fun b hb => Returns.bind fun _ => ?_
    obtain ⟨rfl, he, hl⟩ := hb
    exact ⟨rfl, he, hl⟩
  refine ((hfill.returns hreturns).except (Q := fun r h' => ∀ b, r = .ok b → Held cfg o i n b h' ∧
    b = body.chunks.flatten ∧ Arrived cfg body) (fun b h' hq b' hb' => ?_) fun e h' _ => ?_).seq
      (fun b h' hq => ?_) (by rintro _ _ _ _ ⟨⟩)
  · exact ⟨hq.1 b' hb', hq.2 b' hb'⟩
  · exact (keeps_unlink hm (spare_own hn n) h').seq (fun _ _ _ => by rintro _ ⟨⟩)
      (by rintro _ _ _ _ ⟨⟩)
  · obtain ⟨hh, rfl, hall⟩ := hq b rfl
    rintro staged ⟨⟩
    exact ⟨hall, n, rfl, hh⟩

/-- **What was received whole is landed whole.** -/
theorem safe_landFile (hm : Mild fails) {slug path : Str} {staged : Staged} {content : Bytes} {n : ℕ}
    (overwrite : Bool) (hL : L (site_dir cfg slug ++ segments path) content)
    (hpath : staged.path = part cfg o i n) (hn : Names o) {h : Hist sig Exn World}
    (hh : Held cfg o i n content h) :
    Safe (setting cfg o L fails) i (fun _ _ => True) (landFile cfg rt slug path overwrite staged) h := by
  have hcalm : ∀ {A : Type} {p : Code A} {P : A → Prop} {h' : Hist sig Exn World}, Uses (calm cfg) p →
      Returns P p → (setting cfg o L fails).rely i h h' → Safe (setting cfg o L fails) i
        (fun r h'' => (setting cfg o L fails).rely i h h'' ∧ ∀ a, r = .ok a → P a) p h' :=
    fun hp hr h1 => (safe_calm hm hp h1).returns hr
  have hany : ∀ {A : Type} (p : Code A), Returns (fun _ => True) p := fun p => by
    induction p with
    | ret a => trivial
    | raise e => trivial
    | call c k ih => exact ih
  refine (hcalm (uses_query (P := calm cfg) trivial) (hany _) ((setting cfg o L fails).refl i h)).seq
    (fun site h1 hq1 => ?_) fun _ _ _ => trivial
  split_ifs
  · trivial
  refine (hcalm ((uses_resolve _ _).mono fun _ => calm_of_looks) (returns_resolve slug path) hq1.1).seq
    (fun target h2 hq2 => ?_) fun _ _ _ => trivial
  obtain rfl := hq2.2 target rfl
  refine (hcalm ((uses_check_write_target _ _ _ _).mono fun _ => calm_of_looks) (hany _) hq2.1).seq
    (fun replaced h3 hq3 => ?_) fun _ _ _ => trivial
  refine (hcalm (uses_mkdirParents _ _ fun q hq => ⟨?_, rfl⟩) (hany _) hq3.1).seq
    (fun _ h4 hq4 => ?_) fun _ _ _ => trivial
  · rw [List.reverse_reverse] at hq
    exact way_apart (hq.trans (List.dropLast_prefix _))
  -- the rename: the staging file still holds the body
  refine Safe.seq (P := fun _ _ => True) (Safe.invoke fun h' hr hi r w ha => ⟨step_owes hm ?_ hi ha, trivial⟩)
    (fun _ h5 _ => ?_) fun _ _ _ => trivial
  · obtain ⟨d, hd, rfl⟩ := (hh.rely hq4.1).rely hr
    rw [hpath]
    exact ⟨spare_own hn n, spare_of_sites (under_sites slug _), Or.inr ⟨d, hd, hL⟩⟩
  · exact ((keeps_looks hm (uses_look rfl)).bind fun mtime_ns _ =>
      keeps_of_uses hm (Uses.bind (uses_query fun _ => trivial) fun _ => uses_ret _)) h5 |>.mono
        fun _ _ _ => trivial

/-- **An upload keeps the files whole**, where its body may stand at its place. -/
theorem keeps_write_file (hm : Mild fails) (hn : Names o) (slug path : Str) (body : Incoming)
    (overwrite : Bool) (declared_length : Option ℤ)
    (hL : Arrived cfg body → L (site_dir cfg slug ++ segments path) body.chunks.flatten) :
    Keeps cfg o L fails i (fun _ => True)
      (Storage.write_file cfg rt slug path body overwrite declared_length) := by
  refine (keeps_looks hm (uses_resolve _ _)).bind fun _ _ => ?_
  split_ifs
  · exact keeps_raise _
  intro h
  refine (safe_stage hm hn body h).seq (fun staged h1 hq => ?_) (by rintro _ _ _ _ ⟨⟩)
  obtain ⟨hall, n, hpath, hh⟩ := hq staged rfl
  have hacquire : Uses (calm cfg) (Prog.invoke (S := sig) (E := Exn) (.acquire slug)) :=
    (uses_invoke (S := sig) _).2 trivial
  have hrelease : Keeps cfg o L fails i (fun _ => True) (Prog.invoke (S := sig) (E := Exn) (.release slug)) :=
    keeps_of_uses hm ((uses_invoke (S := sig) _).2 fun _ => trivial)
  -- the critical section
  have hland : Safe (setting cfg o L fails) i (fun _ _ => True)
      (hold slug (landFile cfg rt slug path overwrite staged)) h1 := by
    refine (safe_calm hm hacquire ((setting cfg o L fails).refl i h1)).seq (fun _ h2 hr => ?_)
      fun _ _ _ => trivial
    refine Safe.seq (P := fun _ _ => True) (Safe.attempt (safe_landFile hm overwrite (hL hall) hpath hn
      (hh.rely hr))) (fun r h3 _ => ?_) fun _ _ _ => trivial
    refine (hrelease h3).seq (fun _ h4 _ => ?_) fun _ _ _ => trivial
    cases r <;> trivial
  refine (hland.except (Q := fun r _ => ∀ a, r = .ok a → True) (fun _ _ _ _ _ => trivial)
    fun e h2 _ => ?_).seq (fun _ _ _ => fun _ _ => trivial) (by rintro _ _ _ _ ⟨⟩)
  rw [hpath]
  exact (keeps_unlink hm (spare_own hn n)).bind (Q := fun _ => True) (fun _ _ => keeps_raise e) h2

/-! ### Any request -/

/-- **The site a look-up finds** has the slug it was looked up by. -/
theorem keeps_site (hm : Mild fails) (slug : Str) :
    Keeps cfg o L fails i (fun site => site.slug = slug) (Routes._site rt slug) := by
  rw [Routes._site]
  split
  · exact keeps_raise _
  refine Keeps.bind (P := fun site => ∀ s, site = some s → s.slug = slug)
    (fun h => Safe.invoke fun h' _ hi r w ha => ⟨step_owes hm trivial hi ha, ?_⟩) fun site hsite => ?_
  · rintro site rfl s rfl
    rcases ha.2 with he | ⟨e, hne, -⟩
    · have hrow : some s = h'.2.db.sites[slug]?.map (Db._site slug) :=
        Except.ok.inj (congrArg Prod.fst he)
      obtain ⟨r, -, rfl⟩ := Option.map_eq_some_iff.1 hrow.symm
      rfl
    · cases hne
  · rcases site with _ | site
    · exact keeps_raise _
    · exact keeps_ret (hsite site rfl)

/-- The uploads that were asked for, as what they may leave at a place. -/
def Uploaded (cfg : Calls.Config) (rt : Runtime) (request : Routes.Request) (q : Path Str)
    (content : Bytes) : Prop :=
  ∃ slug raw path body declared overwrite, request = .upload_file slug raw body declared overwrite ∧
    validate_site_path rt raw false = .ok path ∧ q = site_dir cfg slug ++ segments path ∧
    Arrived cfg body ∧ content = body.chunks.flatten

theorem returns_valid_path (raw : Str) (allow_root : Bool) :
    Returns (fun path => validate_site_path rt raw allow_root = .ok path)
      (Routes._valid_path rt raw allow_root) := by
  rw [Routes._valid_path]
  split
  · next path hp => exact hp
  · trivial

theorem keeps_serve (hm : Mild fails) (hn : Names o) (actor : Accounts.Actor) (request : Routes.Request)
    (hL : ∀ q content, Uploaded cfg rt request q content → L q content) :
    Keeps cfg o L fails i (fun _ => True) (Routes.serve cfg rt hasher actor request) := by
  by_cases hr : reads request = true
  · exact keeps_looks hm (uses_serve_reads actor hr)
  by_cases hs : aboutSites request = true
  swap
  · by_cases hd : ∃ user_id, request = .delete_user user_id
    · obtain ⟨user_id, rfl⟩ := hd
      exact keeps_accounts hm (uses_delete_user user_id)
    · exact keeps_accounts hm ((uses_serve_accounts actor (Bool.not_eq_true _ ▸ hs) fun u hu =>
        hd ⟨u, hu⟩).mono fun _ => only_mono onAccounts_of_routes)
  have hpath : ∀ raw, Keeps cfg o L fails i (fun path => validate_site_path rt raw false = .ok path)
      (Routes._valid_path rt raw false) := fun raw =>
    (keeps_looks hm (uses_valid_path raw false)).returns (returns_valid_path raw false)
  cases request <;> try first | exact absurd rfl hr | exact absurd hs Bool.false_ne_true
  case create_site name =>
    change Keeps cfg o L fails i _ (Routes.create_site cfg rt name)
    rw [Routes.create_site]
    split
    · exact keeps_raise _
    · exact (keeps_looks hm (uses_now (P := looks) trivial)).bind fun _ _ =>
        (keeps_create_site hm _ _ _).bind fun site _ => (keeps_looks hm (uses_public_site site)).bind
          fun _ _ => keeps_ret trivial
  case delete_site slug confirm =>
    refine (keeps_site hm slug).bind fun site _ => ?_
    split_ifs
    · exact keeps_raise _
    · exact (keeps_delete_site hm hn _).bind fun _ _ => keeps_ret trivial
  case upload_file slug raw body declared_length overwrite =>
    refine (keeps_site hm slug).bind fun site hslug => (hpath raw).bind fun path hp =>
      (keeps_write_file hm hn _ _ _ _ _ fun hall => ?_).bind fun _ _ => keeps_ret trivial
    rw [hslug]
    exact hL _ _ ⟨slug, raw, path, body, declared_length, overwrite, rfl, hp, rfl, hall, rfl⟩
  case delete_file slug raw =>
    exact (keeps_site hm slug).bind fun _ _ => (hpath raw).bind fun _ _ =>
      (keeps_delete_file hm _ _).bind fun _ _ => keeps_ret trivial
  case delete_folder slug raw recursive =>
    exact (keeps_site hm slug).bind fun _ _ => (hpath raw).bind fun _ _ =>
      (keeps_delete_folder hm _ _ _).bind fun _ _ => keeps_ret trivial

/-- **Any request keeps the files whole**, in the midst of any others. -/
theorem keeps_handle (hm : Mild fails) (hn : Names o) (header : Option Str) (request : Routes.Request)
    (hL : ∀ q content, Uploaded cfg rt request q content → L q content) :
    Keeps cfg o L fails i (fun _ => True) (Routes.handle cfg rt hasher header request) := by
  refine Keeps.except ?_ fun e => ?_
  · by_cases hlogin : ∃ body, request = .login body
    · obtain ⟨body, rfl⟩ := hlogin
      exact keeps_accounts hm ((uses_login_route body).mono fun _ => only_mono onAccounts_of_routes)
    · rw [route_of_not_login fun body hb => hlogin ⟨body, hb⟩]
      exact (keeps_accounts hm (uses_requires ..)).bind fun actor _ => keeps_serve hm hn actor request hL
  · split_ifs
    · exact keeps_raise e
    · exact keeps_ret trivial

/-! ### A start -/

/-- **A leftover goes**, whatever it is. -/
theorem run_cleanEntry {w : World} {p : Path Str} {n : Node Str FileData} (hp : p ≠ [])
    (h : w.disk.get p = some n) :
    run (Calls.exec i) (cleanEntry p) w = (.ok (), { w with disk := w.disk.prune p }) := by
  rw [cleanEntry, run_bind_of_ok _ (run_isDir p), run_bind_of_ok _ (run_lstat p), h]
  by_cases hf : n = .folder
  · subst hf
    rw [if_pos ⟨rfl, by rintro ⟨⟩⟩]
    exact run_rmtree true hp h
  · have hdir : isFolder (some n) = false := by
      rw [← Bool.not_eq_true, isFolder_iff]
      exact fun hn => hf (Option.some.inj hn)
    rw [if_neg fun hc => Bool.false_ne_true (hdir.symm.trans hc.1)]
    exact run_suppressOs_ok _ _ (run_unlink h hf)

/-- **Leftovers go one by one**, and nothing else does. -/
theorem run_cleanAll : ∀ (names : List Str) (w : World), names.Nodup →
    (∀ name ∈ names, w.disk.get (cfg.staging_dir ++ [name]) ≠ none) →
    ∃ t, run (Calls.exec i) (cleanAll cfg names) w = (.ok (), { w with disk := t }) ∧
      ∀ q, t.get q = if ∃ name ∈ names, cfg.staging_dir ++ [name] <+: q then none else w.disk.get q
  | [], w, _, _ => ⟨w.disk, rfl, fun q => by rw [if_neg (by simp)]⟩
  | name :: names, w, hnodup, h => by
    rw [List.nodup_cons] at hnodup
    obtain ⟨n, hn⟩ := Option.ne_none_iff_exists'.1 (h name List.mem_cons_self)
    have hp : cfg.staging_dir ++ [name] ≠ [] := by simp
    have hget : ∀ q, (w.disk.prune (cfg.staging_dir ++ [name])).get q =
        if cfg.staging_dir ++ [name] <+: q then none else w.disk.get q := fun q => Tree.get_prune hp q
    obtain ⟨t, hrun, ht⟩ := run_cleanAll names
      { w with disk := w.disk.prune (cfg.staging_dir ++ [name]) } hnodup.2 fun name' hname' => by
        change (w.disk.prune _).get _ ≠ none
        rw [hget, if_neg]
        · exact h name' (List.mem_cons_of_mem _ hname')
        · intro hpre
          have heq := hpre.eq_of_length (by simp)
          rw [List.append_cancel_left_eq, List.cons.injEq] at heq
          exact hnodup.1 (heq.1 ▸ hname')
    refine ⟨t, (run_bind_of_ok _ (run_cleanEntry hp hn)).trans hrun, fun q => ?_⟩
    rw [ht q]
    change (if _ then none else (w.disk.prune _).get q) = _
    rw [hget q]
    by_cases h1 : cfg.staging_dir ++ [name] <+: q
    · rw [if_pos h1, ite_self, if_pos ⟨name, List.mem_cons_self, h1⟩]
    · rw [if_neg h1]
      refine if_congr ⟨?_, ?_⟩ rfl rfl
      · rintro ⟨name', hname', hq⟩
        exact ⟨name', List.mem_cons_of_mem _ hname', hq⟩
      · rintro ⟨name', hname', hq⟩
        rcases List.mem_cons.1 hname' with rfl | hname'
        · exact absurd hq h1
        · exact ⟨name', hname', hq⟩

/-- **The staging folder is empty** once it was cleaned. -/
theorem run_clean_staging {w w' : World} {n : ℕ}
    (h : run (Calls.exec i) (clean_staging cfg) w = (.ok n, w')) :
    w'.disk.get cfg.staging_dir = some .folder ∧ w'.disk.children cfg.staging_dir = [] := by
  obtain ⟨names, w1, hscan, h1⟩ := run_bind_inv _ h
  have hfolder : w.disk.get cfg.staging_dir = some .folder := by
    by_contra hno
    have hscan' := congrArg Prod.fst hscan
    rw [run_disk] at hscan'
    change ((Disk.scandir _ cfg.staging_dir w.disk).1).mapError Exn.os = _ at hscan'
    rw [Disk.scandir] at hscan'
    rcases hg : w.disk.get cfg.staging_dir with _ | m
    · rw [hg] at hscan'
      cases hscan'
    · rcases m with _ | _ | _ | _ <;> rw [hg] at hscan' hno <;>
        first | exact (hno rfl).elim | cases hscan'
  have hrun := run_scandir (i := i) hfolder
  rw [hrun] at hscan
  obtain ⟨hnames, rfl⟩ := Prod.mk.inj hscan
  obtain rfl := Except.ok.inj hnames
  have hperm := w.scan.perm (w.disk.children cfg.staging_dir)
  obtain ⟨t, hclean, ht⟩ := run_cleanAll (i := i)
    (w.scan.order (w.disk.children cfg.staging_dir)) w
    (hperm.nodup_iff.2 (w.disk.children_nodup _))
    fun name hname => Tree.mem_children.1 (hperm.mem_iff.1 hname)
  rw [run_bind_of_ok _ hclean] at h1
  obtain rfl := (Prod.mk.inj h1).2
  constructor
  · change t.get _ = _
    rw [ht, if_neg]
    · exact hfolder
    · rintro ⟨name, -, hpre⟩
      have := hpre.length_le
      simp at this
  · rw [List.eq_nil_iff_forall_not_mem]
    intro name hname
    have hget : t.get (cfg.staging_dir ++ [name]) ≠ none := Tree.mem_children.1 hname
    rw [ht] at hget
    split_ifs at hget with hin
    · exact hget rfl
    · exact hin ⟨name, hperm.mem_iff.2 (Tree.mem_children.2 hget), List.prefix_rfl⟩

theorem accounts_bootstrap (hasher : Hasher) (admin_username admin_password : Option Str) :
    Uses ofAccounts (Accounts.bootstrap hasher admin_username admin_password) :=
  (uses_bootstrap _ _).mono fun _ =>
    only_mono fun q hq => onAccounts_of_routes q (forRoutes_of_settled q hq)

theorem accounts_purge : Uses ofAccounts Accounts.purge_dead_sessions :=
  (uses_now (P := ofAccounts) trivial).bind fun now =>
    uses_accounts (q := .delete_dead_sessions now) rfl

/-- **A start that succeeds** leaves nothing in the staging folder. -/
theorem run_lifespan {admin_username admin_password : Option Str} {w w' : World}
    (h : run (Calls.exec i) (lifespan cfg hasher admin_username admin_password) w = (.ok (), w')) :
    w'.disk.get cfg.staging_dir = some .folder ∧ w'.disk.children cfg.staging_dir = [] := by
  obtain ⟨_, w1, -, h1⟩ := run_bind_inv _ h
  obtain ⟨n, w2, hclean, h2⟩ := run_bind_inv _ h1
  obtain ⟨user, w3, hboot, h3⟩ := run_bind_inv _ h2
  obtain ⟨purged, w4, hpurge, h4⟩ := run_bind_inv _ h3
  obtain rfl := (Prod.mk.inj h4).2
  have hdisk3 : w3.disk = w2.disk := by
    have := (run_sameSites (i := i) (accounts_bootstrap hasher admin_username admin_password) w2).disk
    rwa [hboot] at this
  have hdisk4 : w4.disk = w3.disk := by
    have := (run_sameSites (i := i) accounts_purge w3).disk
    rwa [hpurge] at this
  rw [hdisk4, hdisk3]
  exact run_clean_staging hclean

/-- The calls of a start. -/
def clears : Calls.Call → Prop
  | .disk (.create _) | .disk (.write _ _) | .disk (.replace _ _) => False
  | _ => True

theorem clears_of_looks {c : Calls.Call} (hc : looks c) : clears c := by
  cases c with
  | disk c => cases c <;> trivial
  | _ => trivial

theorem uses_lifespan (admin_username admin_password : Option Str) :
    Uses clears (lifespan cfg hasher admin_username admin_password) := by
  have hlayout : Uses clears (ensure_data_layout cfg) :=
    (uses_mkdirParents _ _ fun _ _ => ⟨trivial, trivial⟩).bind fun _ =>
      uses_mkdirParents _ _ fun _ _ => ⟨trivial, trivial⟩
  have hentry : ∀ p, Uses clears (cleanEntry p) := fun p => by
    refine (uses_disk (c := .isDir p) (P := clears) trivial).bind fun is_dir =>
      ((uses_lstat p).mono fun _ => clears_of_looks).bind fun mode => ?_
    split_ifs
    · refine (Uses.attempt (uses_disk (c := .walk p) (P := clears) trivial)).bind fun r => ?_
      rcases r with e | entries
      · rcases e with _ | _ | _ | _ | _ | _ | _ | _ <;> trivial
      · exact uses_removeAll _ _ fun _ _ => ⟨trivial, trivial⟩
    · exact uses_unlink trivial
  have hall : ∀ names, Uses clears (cleanAll cfg names) := fun names => by
    induction names with
    | nil => trivial
    | cons name names ih => exact (hentry _).bind fun _ => ih
  have haccounts : ∀ {A : Type} {p : Code A}, Uses ofAccounts p → Uses clears p := fun hp =>
    hp.mono fun c hc => by
      cases c with
      | disk c => exact hc.elim
      | _ => trivial
  have hclean : Uses clears (clean_staging cfg) :=
    (uses_disk (c := .scandir cfg.staging_dir) (P := clears) trivial).bind fun names =>
      (hall names).bind fun _ => uses_ret _
  exact hlayout.bind fun _ => hclean.bind fun _ => (haccounts
    (accounts_bootstrap hasher admin_username admin_password)).bind fun _ =>
      (haccounts accounts_purge).bind fun _ => uses_ret _

/-- **A run of calls that clear** keeps the files whole. -/
theorem whole_of_clears (hm : Mild fails) {g g' : Threads.Config sig Exn A World}
    {tr : List (Event sig Exn World)} (hg : ∀ i, Uses clears (g.threads i))
    (h : Run (machine fails) g tr g') (hw : WholeFiles cfg L g.world.disk) :
    WholeFiles cfg L g'.world.disk := by
  refine h.induct (fun _ g => WholeFiles cfg L g.world.disk) hw fun tr g1 i c k r w hrun ih hnext ha => ?_
  have hc : clears c := by
    have := (hrun.uses hg).1 i
    rw [hnext] at this
    exact this.1
  change WholeFiles cfg L w.disk
  rcases ha.2 with he | ⟨e, -, hf⟩
  · obtain rfl : w = (Calls.exec i c g1.world).2 := congrArg Prod.snd he
    cases c with
    | disk c => exact call_whole _ (by cases c <;> trivial) ih
    | _ => exact ih
  · obtain ⟨-, hd | ⟨p, bytes, pt, stamp, d, rfl, -⟩⟩ := hm _ _ _ _ _ hf
    · rwa [hd]
    · exact hc.elim

/-! ### Over the lives of the service -/

/-- **The lives of the service**: it serves requests, all at once, or starts, each time on the volume
that the time before left, wherever that had got to. -/
inductive Lives (cfg : Calls.Config) (rt : Runtime) (hasher : Hasher)
    (fails : ℕ → Calls.Call → World → Exn → World → Prop) (asked : Routes.Request → Prop) (w0 : World) :
    World → Prop where
  | begin : Lives cfg rt hasher fails asked w0 w0
  | serves {w w1 : World} {requests : ℕ → Option Str × Routes.Request}
      {tr : List (Event sig Exn World)} {g : Threads.Config sig Exn Response World}
      (life : Lives cfg rt hasher fails asked w0 w) (volume : w1.disk = w.disk)
      (names : Names w1.oracle) (of : ∀ i, asked (requests i).2)
      (run : Run (machine fails)
        ⟨w1, fun i => Routes.handle cfg rt hasher (requests i).1 (requests i).2⟩ tr g) :
      Lives cfg rt hasher fails asked w0 g.world
  | starts {w w1 : World} {admin_username admin_password : Option Str}
      {tr : List (Event sig Exn World)} {g : Threads.Config sig Exn Unit World}
      (life : Lives cfg rt hasher fails asked w0 w) (volume : w1.disk = w.disk)
      (run : Run (machine fails) ⟨w1, fun i =>
        if i = 0 then lifespan cfg hasher admin_username admin_password else .ret ()⟩ tr g) :
      Lives cfg rt hasher fails asked w0 g.world

/-- What may be served at a place: what was there from the beginning, or what was uploaded to it. -/
def Served (cfg : Calls.Config) (rt : Runtime) (asked : Routes.Request → Prop) (w0 : World)
    (q : Path Str) (content : Bytes) : Prop :=
  (∃ d, w0.disk.get q = some (.file d) ∧ d.content = content) ∨
    ∃ request, asked request ∧ Uploaded cfg rt request q content

theorem whole_of_lives (hm : Mild fails) {asked : Routes.Request → Prop} {w0 w : World}
    (h : Lives cfg rt hasher fails asked w0 w) :
    WholeFiles cfg (Served cfg rt asked w0) w.disk := by
  induction h with
  | begin => exact fun q d _ hd => Or.inl ⟨d, hd, rfl⟩
  | @serves w w1 requests tr g life volume names of run ih =>
    have hinv := Setting.run (R := setting cfg w1.oracle (Served cfg rt asked w0) fails)
      (Q := fun _ _ _ => True) (fun _ _ _ _ _ _ => trivial) (g := ⟨w1, fun i =>
        Routes.handle cfg rt hasher (requests i).1 (requests i).2⟩) ⟨rfl, by rw [volume]; exact ih⟩
      (fun i => (keeps_handle hm names _ _ (fun q content hu => Or.inr ⟨_, of i, hu⟩) _).mono
        fun _ _ _ => trivial) run
    exact hinv.1.2
  | @starts w w1 admin_username admin_password tr g life volume run ih =>
    refine whole_of_clears hm (fun i => ?_) run (by rw [volume]; exact ih)
    dsimp only
    split_ifs
    · exact uses_lifespan _ _
    · trivial

/-- **No partial file is ever served**: in every life of the service, with requests of any kind
interleaved call by call, calls that fail, bodies that break off or are too large, and stops and
restarts anywhere, every file below `sites/` was there from the beginning or is the whole body of an
upload, received within the cap, to exactly that site and path. And a start whose calls succeed leaves
the staging folder empty. -/
theorem served_files_are_whole (cfg : Calls.Config) (rt : Runtime) (hasher : Hasher)
    (fails : ℕ → Calls.Call → World → Exn → World → Prop) (asked : Routes.Request → Prop)
    (w0 w : World) (hm : Mild fails) (h : Lives cfg rt hasher fails asked w0 w) :
    (∀ q d, cfg.sites_dir <+: q → w.disk.get q = some (.file d) →
      Served cfg rt asked w0 q d.content) ∧
    ∀ i admin_username admin_password w1 w2, w1.disk = w.disk →
      run (Calls.exec i) (lifespan cfg hasher admin_username admin_password) w1 = (.ok (), w2) →
      w2.disk.get cfg.staging_dir = some .folder ∧ w2.disk.children cfg.staging_dir = [] :=
  ⟨whole_of_lives hm h, fun _ _ _ _ _ _ hrun => run_lifespan hrun⟩

section Small

/-- Each thread has names of a length of its own. -/
def unary (i : ℕ) : Oracle := { counting i with token_hex := fun _ _ => List.replicate (i + 1) (ofChar 'a') }

theorem names_unary : Names unary where
  distinct i j m n hij h := hij (by
    have := congrArg List.length h
    simpa [unary] using this)
  hexadecimal i k n c hc := by
    rw [List.eq_of_mem_replicate hc]
    decide

/-- A small backend with the site `a` and a token that may write to it. -/
def withWriter : World :=
  { Operations.withSite with
    db := (insert_site ⟨lit "a", lit "a", ⟨62135596800000000, IsoTime.unixStart_lt⟩⟩
      (smallDb .read_write)).2
    oracle := unary }

/-- An upload in two chunks. -/
def sent : Routes.Request := .upload_file (lit "a") (lit "x") ⟨[[104], [105]], none⟩ none false

def sending : Threads.Config sig Exn Response World :=
  ⟨withWriter, fun _ => Routes.handle smallConfig plainRuntime plainHasher (some (lit "Bearer pb_s")) sent⟩

/-- The process stops right after the rename: the file is the whole body. -/
theorem served_files_are_whole_stopped : ∃ w : World,
    (w.disk.get (site_dir smallConfig (lit "a") ++ [lit "x"])).isSome ∧
    ∀ q d, smallConfig.sites_dir <+: q → w.disk.get q = some (.file d) →
      Served smallConfig plainRuntime (fun request => request = sent) withWriter q d.content := by
  have hplay : ((faultless.play (List.replicate 27 0) sending).map fun g =>
      (g.world.disk.get (site_dir smallConfig (lit "a") ++ [lit "x"])).isSome) = some true := by
    decide +kernel
  obtain ⟨g, hg, hget⟩ := Option.map_eq_some_iff.1 hplay
  obtain ⟨tr, hrun⟩ := Machine.play_run hg
  have hlife : Lives smallConfig plainRuntime plainHasher (fun _ _ _ _ _ => False)
      (fun request => request = sent) withWriter g.world :=
    @Lives.serves _ _ _ _ _ _ _ _ (fun _ => (some (lit "Bearer pb_s"), sent)) _ _ .begin rfl names_unary
      (fun _ => rfl) hrun
  exact ⟨g.world, hget, (served_files_are_whole smallConfig plainRuntime plainHasher _ _ withWriter g.world
    (by rintro _ _ _ _ _ ⟨⟩) hlife).1⟩

end Small

end PaperBoxing.Backend.Whole
