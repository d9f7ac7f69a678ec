import PaperBoxing.Backend.Whole
import PaperBoxing.Lib.Faults

/-! # An upload of which a step fails

`write_file`, run alone, where one call of it may raise anything: the staging file being opened,
written, flushed or removed, a look at a path, the folders above the target being made, the rename,
the query of the site, the lock, and after the rename the time of the file and its row. An upload that
raises has lost nothing: what was there is there, with every row of the database. If the call that
failed came before the rename, all that may be new are folders on the way to the target; if it came
after it, the target holds the body, whole, and its row is the one from before.

* `Unharmed`, `Landed`: the two ways in which an upload that raised may leave the disk;
* `stage_outcome`, `land_outcome`: the two halves of an upload;
* `failed_upload`: the whole. -/

namespace PaperBoxing.Backend.FailedUpload

open PaperBoxing.Lib PaperBoxing.Lib.Action PaperBoxing.Lib.Program PaperBoxing.Lib.Faults
open PaperBoxing.Lib.Text PaperBoxing.Lib.Tables PaperBoxing.Lib.Trees PaperBoxing.Lib.Disk
open PaperBoxing.Common.Schema PaperBoxing.Common.Naming PaperBoxing.Backend PaperBoxing.Backend.Db
open PaperBoxing.Backend.Calls PaperBoxing.Backend.Storage PaperBoxing.Backend.Alone
open PaperBoxing.Backend.Frames PaperBoxing.Backend.Whole

variable {cfg : Calls.Config} {rt : Runtime} {A : Type} {i : ℕ} {w w' w'' : World}
  {fails : Calls.Call → Exn → Prop} {s : Option (Failure sig World)} {staging way target : Path Str}

/-! ### What is left -/

/-- What is at `q` is what was there, or a folder on the way to a target that was not there. -/
def SameOrMade (way : Path Str) (t t' : Files Str) (q : Path Str) : Prop :=
  t'.get q = t.get q ∨ (t.get q = none ∧ t'.get q = some .folder ∧ q <+: way)

/-- **Nothing is harmed**: apart from the staging file, all that was there is there, and all that is
new is a folder on the way to the target. -/
structure Unharmed (staging way : Path Str) (w w' : World) : Prop where
  kept : Kept w w'
  tree : ∀ q, ¬ staging <+: q → SameOrMade way w.disk w'.disk q

/-- **The file has landed**: the target holds the content, and nothing else is harmed. -/
structure Landed (staging target : Path Str) (content : Bytes) (w w' : World) : Prop where
  kept : Kept w w'
  file : ∃ d, w'.disk.get target = some (.file d) ∧ d.content = content
  tree : ∀ q, q ≠ target → ¬ staging <+: q → SameOrMade target.dropLast w.disk w'.disk q

theorem SameOrMade.trans {t t' t'' : Files Str} {q : Path Str} (h : SameOrMade way t t' q)
    (h' : SameOrMade way t' t'' q) : SameOrMade way t t'' q := by
  rcases h with h | ⟨h, hf, hq⟩ <;> rcases h' with h' | ⟨h', hf', hq'⟩
  · exact Or.inl (h'.trans h)
  · exact Or.inr ⟨h ▸ h', hf', hq'⟩
  · exact Or.inr ⟨h, h'.trans hf, hq⟩
  · rw [hf] at h'
    cases h'

theorem Unharmed.refl (w : World) : Unharmed staging way w w := ⟨.refl w, fun _ _ => Or.inl rfl⟩

theorem Unharmed.trans (h : Unharmed staging way w w') (h' : Unharmed staging way w' w'') :
    Unharmed staging way w w'' :=
  ⟨h.kept.trans h'.kept, fun q hq => (h.tree q hq).trans (h'.tree q hq)⟩

theorem Unharmed.landed {content : Bytes} (h : Unharmed staging target.dropLast w w')
    (h' : Landed staging target content w' w'') : Landed staging target content w w'' :=
  ⟨h.kept.trans h'.kept, h'.file, fun q hq hs => (h.tree q hs).trans (h'.tree q hq hs)⟩

/-- A landed file is still there where nothing is harmed since. -/
theorem Landed.unharmed {content : Bytes} (h : Landed staging target content w w')
    (hs : ¬ staging <+: target) (h' : Unharmed staging target.dropLast w' w'') :
    Landed staging target content w w'' := by
  refine ⟨h.kept.trans h'.kept, ?_, fun q hq hq' => (h.tree q hq hq').trans (h'.tree q hq')⟩
  obtain ⟨d, hd, hc⟩ := h.file
  rcases h'.tree target hs with hsame | ⟨hn, -⟩
  · exact ⟨d, hsame.trans hd, hc⟩
  · rw [hd] at hn
    cases hn

/-- What is unharmed on no way at all is unharmed on any. -/
theorem Unharmed.widen (h : Unharmed staging [] w w') : Unharmed staging way w w' :=
  ⟨h.kept, fun q hq => by
    rcases h.tree q hq with h | ⟨hn, hf, hr⟩
    · exact Or.inl h
    · obtain rfl := List.prefix_nil.1 hr
      rw [Tree.get_root] at hn
      cases hn⟩

/-- The calls that come after a file has landed. -/
def late : Calls.Call → Bool
  | .disk (.mtime _) | .db (.upsert_file _) => true
  | _ => false

/-- The call that failed came after the file had landed. -/
def afterLanding (s : Option (Failure sig World)) : Bool := s.any fun x => late x.1

theorem afterLanding_of_uses {p : Code A} (hp : Uses (fun c => late c = false) p)
    {r : Except Exn A} (ho : Outcome (exec i) fails p w s r w') : afterLanding s = false := by
  rcases s with _ | ⟨c, v⟩
  · rfl
  · exact ho.uses hp

/-- What of a failure is still to come: it itself, or, once it has happened before the landing,
nothing. -/
def Rest (s s' : Option (Failure sig World)) : Prop := s' = s ∨ (s' = none ∧ afterLanding s = false)

theorem Rest.late {s s' : Option (Failure sig World)} (h : Rest s s') :
    afterLanding s = afterLanding s' := by
  rcases h with rfl | ⟨rfl, h⟩
  · rfl
  · exact h

theorem Rest.trans {s s1 s2 : Option (Failure sig World)} (h : Rest s s1) (h' : Rest s1 s2) :
    Rest s s2 := by
  rcases h' with rfl | ⟨rfl, h'⟩
  · exact h
  · exact Or.inr ⟨rfl, h.late.trans h'⟩

theorem Rest.some {s s' : Option (Failure sig World)} {x : Failure sig World} (h : Rest s s')
    (hx : s' = some x) : s = some x := by
  rcases h with rfl | ⟨rfl, -⟩
  · exact hx
  · cases hx

theorem rest_of_none {s s2 : Option (Failure sig World)}
    (h : none = s ∧ s2 = none ∨ (none : Option (Failure sig World)) = none ∧ s2 = s) : s2 = s := by
  rcases h with ⟨rfl, h⟩ | ⟨-, h⟩ <;> exact h

/-! ### Single calls -/

/-- **One call on the disk**: it is executed, or it raises and changes nothing. -/
theorem disk_outcome {c : Disk.Call Str} {r : Except Exn (Disk.Resp Str c)}
    (ho : Outcome (exec i) fails (disk c) w s r w') :
    (s = none ∧ run (exec i) (disk c) w = (r, w')) ∨
      (s = some (.disk c, w) ∧ w' = w ∧ ∃ e, r = .error e) := by
  rcases outcome_invoke.1 ho with ⟨rfl, hr⟩ | ⟨rfl, rfl, e, -, rfl⟩
  · exact Or.inl ⟨rfl, (run_disk ..).trans hr⟩
  · exact Or.inr ⟨rfl, rfl, e, rfl⟩

theorem query_outcome {q : Query} {r : Except Exn q.Answer}
    (ho : Outcome (exec i) fails (query q) w s r w') :
    (s = none ∧ run (exec i) (query q) w = (r, w')) ∨
      (s = some (.db q, w) ∧ w' = w ∧ ∃ e, r = .error e) := by
  rcases outcome_invoke.1 ho with ⟨rfl, hr⟩ | ⟨rfl, rfl, e, -, rfl⟩
  · exact Or.inl ⟨rfl, (run_query ..).trans hr⟩
  · exact Or.inr ⟨rfl, rfl, e, rfl⟩

/-- The calls that write nothing but the staging file. -/
def sparing (staging : Path Str) : Calls.Call → Prop
  | .disk c => ∀ p ∈ writes c, p = staging
  | .db (.site_by_slug _) | .receive _ | .token_hex _ => True
  | _ => False

theorem call_sparing {c : Calls.Call} (h : sparing staging c) (w : World) :
    Unharmed staging way w (exec i c w).2 := by
  cases c with
  | disk c =>
    exact ⟨⟨rfl, rfl, rfl, rfl⟩, fun q hq => Or.inl (exec_get_of_not_writes _ fun p hp => h p hp ▸ hq)⟩
  | db q => cases q <;> first | exact .refl w | exact h.elim
  | token_hex n => exact ⟨⟨rfl, rfl, rfl, rfl⟩, fun _ _ => Or.inl rfl⟩
  | receive chunk => exact .refl w
  | _ => exact h.elim

/-- **Code that writes nothing but the staging file** harms nothing, whatever fails. -/
theorem sparing_outcome {p : Code A} (hp : Uses (sparing staging) p) {r : Except Exn A}
    (ho : Outcome (exec i) fails p w s r w') : Unharmed staging way w w' :=
  ho.preserves (I := Unharmed staging way w) (fun _ hc w1 h1 => h1.trans (call_sparing hc w1)) hp
    (.refl w)

/-- **The clean-up**: a file that is there goes, unless its removal fails. -/
theorem unlink_outcome {r : Except Exn Unit}
    (hget : w.disk.get staging = none ∨ ∃ d, w.disk.get staging = some (.file d))
    (ho : Outcome (exec i) fails (_unlink staging) w s r w') :
    Unharmed staging way w w' ∧
      (w'.disk.get staging = none ∨ ∃ v, s = some (.disk (.unlink staging), v)) := by
  have hun : Unharmed staging way w w' := sparing_outcome
    (uses_unlink (P := sparing staging) fun p hp => List.mem_singleton.1 hp) ho
  refine ⟨hun, ?_⟩
  have hclean : s = none → w'.disk.get staging = none := by
    rintro rfl
    have hr := outcome_none.1 ho
    rcases hget with hn | ⟨d, hd⟩
    · have hrun : run (exec i) (disk (.unlink staging)) w = (.error (.os (absent w.disk staging)), w) :=
        run_disk_error rfl fun _ => unlink_absent hn
      rw [_unlink, run_suppressOs_os _ _ hrun] at hr
      rw [← (Prod.mk.inj hr).2]
      exact hn
    · have hne : staging ≠ [] := by
        rintro rfl
        simp at hd
      rw [_unlink, run_suppressOs_ok _ _ (run_unlink hd (by simp))] at hr
      rw [← (Prod.mk.inj hr).2]
      exact (Tree.get_prune hne staging).trans (if_pos List.prefix_rfl)
  rcases s with _ | ⟨c, v⟩
  · exact Or.inl (hclean rfl)
  · right
    obtain rfl : c = .disk (.unlink staging) :=
      ho.uses (P := fun c : Calls.Call => c = .disk (.unlink staging)) (uses_unlink rfl)
    exact ⟨v, rfl⟩

/-- **Code that cleans up and raises**, whatever fails. -/
theorem cleaned_outcome {e : Exn} {r : Except Exn A}
    (hget : w.disk.get staging = none ∨ ∃ d, w.disk.get staging = some (.file d))
    (ho : Outcome (exec i) fails (_unlink staging >>= fun _ => (.raise e : Code A)) w s r w') :
    (∃ e', r = .error e') ∧ Unharmed staging way w w' ∧
      (w'.disk.get staging = none ∨ ∃ v, s = some (.disk (.unlink staging), v)) := by
  rcases ho.split with ⟨e', rfl, hun⟩ | ⟨s1, s2, _, w1, hun, hraise, hs⟩
  · exact ⟨⟨e', rfl⟩, unlink_outcome hget hun⟩
  · cases hraise
    obtain rfl : s1 = s := by
      rcases hs with ⟨h, -⟩ | ⟨h1, h2⟩
      · exact h
      · exact h1.trans h2
    exact ⟨⟨e, rfl⟩, unlink_outcome hget hun⟩

/-! ### The staging -/

/-- The calls on a staging file while it is filled. -/
def filling (staging : Path Str) : Calls.Call → Prop
  | .disk (.create p) | .disk (.write p _) | .disk (.sync p) => p = staging
  | .receive _ => True
  | _ => False

theorem filling_sparing {c : Calls.Call} (h : filling staging c) : sparing staging c := by
  cases c with
  | disk c => cases c <;> first | exact h.elim | (cases h; simp [sparing, writes])
  | receive chunk => trivial
  | _ => exact h.elim

theorem uses_filling (staging : Path Str) (body : Incoming) :
    Uses (filling staging) (fillStaging cfg staging body) :=
  (uses_disk (P := filling staging) (c := .create staging) rfl).bind fun _ =>
    (uses_stageChunks (P := filling staging) (fun _ => rfl) (fun _ => trivial) _ _ _).bind fun _ =>
      (uses_disk (P := filling staging) (c := .sync staging) rfl).bind fun _ => uses_ret _

theorem uncaught_stageChunks (staging : Path Str) (ending : Option Exn) :
    ∀ (chunks : List Bytes) (received : Bytes),
      Uncaught (stageChunks cfg staging ending chunks received)
  | [], received => by
    rcases ending with _ | e
    · exact (uncaught_invoke (S := sig) _).bind fun _ => trivial
    · trivial
  | chunk :: chunks, received => by
    refine (uncaught_invoke (S := sig) _).bind fun _ => ?_
    split_ifs
    · exact uncaught_stageChunks staging ending chunks received
    · trivial
    · exact (uncaught_invoke (S := sig) _).bind fun _ =>
        uncaught_stageChunks staging ending chunks _

theorem uncaught_fillStaging (staging : Path Str) (body : Incoming) :
    Uncaught (fillStaging cfg staging body) :=
  (uncaught_invoke (S := sig) _).bind fun _ => (uncaught_stageChunks _ _ _ _).bind fun _ =>
    (uncaught_invoke (S := sig) _).bind fun _ => trivial

/-- Filling a staging file leaves a file there, or nothing. -/
theorem call_filling {c : Calls.Call} (h : filling staging c) {w : World}
    (hget : w.disk.get staging = none ∨ ∃ d, w.disk.get staging = some (.file d)) :
    (exec i c w).2.disk.get staging = none ∨
      ∃ d, (exec i c w).2.disk.get staging = some (.file d) := by
  cases c with
  | disk c =>
    change (Disk.exec _ c w.disk).2.get staging = none ∨
      ∃ d, (Disk.exec _ c w.disk).2.get staging = some (.file d)
    generalize Env.mk ((w.oracle i).stamp (w.drawn i)) w.scan = env
    cases c with
    | create p =>
      obtain rfl : p = staging := h
      rw [Disk.exec, Disk.create]
      split
      · exact hget
      · split_ifs with hf
        · exact Or.inr ⟨_, (Tree.get_put hf _ p).trans (if_pos rfl)⟩
        · exact hget
    | write p bytes =>
      obtain rfl : p = staging := h
      rcases hget with hn | ⟨d, hd⟩
      · rw [Disk.exec, Disk.write, hn]
        exact Or.inl hn
      · have hf : w.disk.Fits p := Tree.fits_iff.2
          ⟨by rintro rfl; simp at hd, Tree.get_dropLast (by simp [hd]), by simp [hd]⟩
        rw [Disk.exec, write_of_file hd]
        exact Or.inr ⟨_, (Tree.get_put hf _ p).trans (if_pos rfl)⟩
    | sync p =>
      rw [exec_get_of_not_writes env (c := .sync p) (by simp [writes])]
      exact hget
    | _ => exact h.elim
  | receive chunk => exact hget
  | _ => exact h.elim

/-- **A staging file of which a call failed** is removed again, unless its removal is what failed. -/
theorem fill_outcome {body : Incoming} {x : Failure sig World} {r : Except Exn Bytes}
    (hfresh : w.disk.get staging = none)
    (ho : Outcome (exec i) fails ((fillStaging cfg staging body).except fun e =>
      _unlink staging >>= fun _ => .raise e) w (some x) r w') :
    (∃ e, r = .error e) ∧ Unharmed staging way w w' ∧
      (w'.disk.get staging = none ∨ ∃ v, some x = some (.disk (.unlink staging), v)) := by
  have hfill : ∀ {s r1 w1}, Outcome (exec i) fails (fillStaging cfg staging body) w s r1 w1 →
      Unharmed staging way w w1 ∧
        (w1.disk.get staging = none ∨ ∃ d, w1.disk.get staging = some (.file d)) := fun h =>
    ⟨sparing_outcome ((uses_filling staging body).mono fun _ => filling_sparing) h,
      h.preserves (I := fun w1 => w1.disk.get staging = none ∨ ∃ d, w1.disk.get staging = some (.file d))
        (fun _ hc _ hw => call_filling hc hw) (uses_filling staging body) (Or.inl hfresh)⟩
  rcases outcome_except.1 ho with ⟨r1, w1, -, hf, hm⟩ | ⟨r1, w1, hr, hm⟩
  · obtain ⟨-, -, e, -, rfl⟩ := Outcome.made (uncaught_fillStaging staging body) hf
    obtain ⟨hun, hget⟩ := hfill hf
    have hclean : Outcome (exec i) fails (_unlink staging >>= fun _ => (.raise e : Code Bytes))
      w1 none r w' :=
      outcome_none.2 hm
    obtain ⟨hr, hun', hgone⟩ := cleaned_outcome hget hclean
    refine ⟨hr, hun.trans hun', Or.inl (hgone.resolve_right ?_)⟩
    rintro ⟨v, hv⟩
    cases hv
  · obtain ⟨hun, hget⟩ := hfill (outcome_none.2 hr)
    rcases r1 with e | b
    · obtain ⟨hr, hun', hgone⟩ := cleaned_outcome hget hm
      exact ⟨hr, hun.trans hun', hgone⟩
    · cases hm.1

theorem collected_ok {ending : Option Exn} : ∀ {chunks : List Bytes} {received b : Bytes},
    collected cfg ending chunks received = .ok b → b = received ++ chunks.flatten
  | [], received, b, h => by
    rcases ending with _ | e
    · rw [← Except.ok.inj h, List.flatten_nil, List.append_nil]
    · cases h
  | chunk :: chunks, received, b, h => by
    rw [collected] at h
    split_ifs at h with h1 h2
    · rw [collected_ok h, h1, List.flatten_cons, List.nil_append]
    · rw [collected_ok h, List.flatten_cons, List.append_assoc]

/-- **The staging**: it answers where no call failed, and then it holds the body; otherwise it leaves
nothing behind, unless it cannot remove what it has. -/
theorem stage_outcome {body : Incoming} {r : Except Exn Staged}
    (hdir : w.disk.get cfg.staging_dir = some .folder)
    (hfresh : w.disk.get (nextStaging cfg w i) = none)
    (ho : Outcome (exec i) fails (_stage cfg rt body) w s r w') :
    Unharmed (nextStaging cfg w i) way w w' ∧
      ((∃ staged d, r = .ok staged ∧ s = none ∧ staged.path = nextStaging cfg w i ∧
          w'.disk.get (nextStaging cfg w i) = some (.file d) ∧ d.content = body.chunks.flatten) ∨
        ((∃ e, r = .error e) ∧ (w'.disk.get (nextStaging cfg w i) = none ∨
          ∃ v, s = some (.disk (.unlink (nextStaging cfg w i)), v)))) := by
  rcases s with _ | x
  · -- no call failed
    obtain ⟨d, w1, hrun, hk, hget, hcontent, -⟩ := run_stage rt body hdir hfresh
    obtain ⟨rfl, rfl⟩ := Prod.mk.inj (hrun.symm.trans (outcome_none.1 ho))
    refine ⟨⟨hk, fun q hq => Or.inl ?_⟩, ?_⟩
    · rw [hget, if_neg]
      rintro ⟨rfl, -⟩
      exact hq List.prefix_rfl
    rw [stagedAs]
    rcases hcol : collected cfg body.ending body.chunks [] with e | b
    · refine Or.inr ⟨⟨e, rfl⟩, Or.inl ?_⟩
      rw [hget, hcol]
      exact (if_neg (by simp [Except.toOption])).trans hfresh
    · refine Or.inl ⟨_, d, rfl, rfl, rfl, ?_, ?_⟩
      · rw [hget, hcol]
        exact if_pos ⟨rfl, rfl⟩
      · rw [hcontent b hcol, collected_ok hcol, List.nil_append]
  · rw [_stage] at ho
    rcases ho.split with ⟨e, rfl, htoken⟩ | ⟨s1, s2, hex, w1, htoken, hrest, hs⟩
    · rcases outcome_invoke.1 htoken with ⟨h, -⟩ | ⟨-, rfl, -⟩
      · cases h
      · exact ⟨.refl w', Or.inr ⟨⟨e, rfl⟩, Or.inl hfresh⟩⟩
    rcases outcome_invoke.1 htoken with ⟨rfl, hr⟩ | ⟨-, -, e, -, hr⟩
    swap
    · cases hr
    obtain ⟨hhex, rfl⟩ := Prod.mk.inj hr
    obtain rfl := Except.ok.inj hhex
    obtain rfl := rest_of_none hs
    have hdrew : Unharmed (nextStaging cfg w i) way w (drew w i) :=
      call_sparing (i := i) (c := .token_hex 8) trivial w
    rcases hrest.split with ⟨e, rfl, hfill⟩ | ⟨s1, s2, b, w1, hfill, hret, hs⟩
    · obtain ⟨-, hun, hgone⟩ := fill_outcome (w := drew w i) hfresh hfill
      exact ⟨hdrew.trans hun, Or.inr ⟨⟨e, rfl⟩, hgone⟩⟩
    · cases hret
      obtain rfl : s1 = some x := by simpa using hs
      obtain ⟨⟨e, he⟩, -⟩ := @fill_outcome cfg i (drew w i) _ fails _ way body x _ hfresh hfill
      cases he

/-! ### Before the landing -/

/-- The calls before a file lands: looks at paths, and folders made on the way. -/
def making (way : Path Str) : Calls.Call → Prop
  | .disk (.lstat _) | .disk (.realpath _) | .disk (.isDir _) | .db (.site_by_slug _) => True
  | .disk (.mkdir p) => p <+: way
  | _ => False

theorem making_resolve (slug path : Str) : Uses (making way) (resolve cfg rt slug path) :=
  uses_resolve_at slug path (fun _ _ _ => trivial) fun _ => trivial

theorem making_check_write_target (slug : Str) (target : Path Str) (path : Str) (overwrite : Bool) :
    Uses (making way) (_check_write_target cfg rt slug target path overwrite) :=
  uses_check_write_target_at slug target path overwrite (fun _ _ _ => trivial) trivial

/-- What is left before the landing: all that was there, and folders on the way. -/
structure MadeOn (way : Path Str) (w w' : World) : Prop where
  kept : Kept w w'
  drawn : w'.drawn = w.drawn
  tree : ∀ q, SameOrMade way w.disk w'.disk q

theorem MadeOn.refl (w : World) : MadeOn way w w := ⟨.refl w, rfl, fun _ => Or.inl rfl⟩

theorem MadeOn.trans (h : MadeOn way w w') (h' : MadeOn way w' w'') : MadeOn way w w'' :=
  ⟨h.kept.trans h'.kept, h'.drawn.trans h.drawn, fun q => (h.tree q).trans (h'.tree q)⟩

theorem MadeOn.unharmed (h : MadeOn way w w') : Unharmed staging way w w' :=
  ⟨h.kept, fun q _ => h.tree q⟩

theorem MadeOn.get {p : Path Str} {n : Node Str FileData} (h : MadeOn way w w')
    (hp : w.disk.get p = some n) : w'.disk.get p = some n := by
  rcases h.tree p with h | ⟨hn, -⟩
  · exact h.trans hp
  · rw [hp] at hn
    cases hn

/-- Where nothing was, off the way, nothing is. -/
theorem MadeOn.none {p : Path Str} (h : MadeOn way w w') (hp : w.disk.get p = none)
    (hway : ¬ p <+: way) : w'.disk.get p = none := by
  rcases h.tree p with h | ⟨-, -, hr⟩
  · exact h.trans hp
  · exact absurd hr hway

theorem call_making {c : Calls.Call} (h : making way c) (w : World) :
    MadeOn way w (exec i c w).2 := by
  cases c with
  | disk c =>
    refine ⟨⟨rfl, rfl, rfl, rfl⟩, ?_, fun q => ?_⟩
    · cases c <;> first | rfl | exact h.elim
    cases c with
    | lstat p => exact Or.inl (exec_get_of_not_writes _ (by simp [writes]))
    | realpath p => exact Or.inl rfl
    | isDir p => exact Or.inl rfl
    | mkdir p =>
      by_cases hq : q = p
      · subst hq
        change SameOrMade way w.disk (Disk.mkdir q w.disk).2 q
        rw [Disk.mkdir]
        split
        · exact Or.inl rfl
        · next hn =>
          split_ifs with hf
          · exact Or.inr ⟨hn, (Tree.get_put hf _ q).trans (if_pos rfl), h⟩
          · exact Or.inl rfl
      · exact Or.inl (exec_mkdir_get _ _ hq)
    | _ => exact h.elim
  | db q => cases q <;> first | exact .refl w | exact h.elim
  | _ => exact h.elim

/-- **A first part that only looks and makes folders**: it raised, or the rest goes on from where all
that was there is there. -/
theorem early_outcome {B : Type} {p : Code A} {f : A → Code B} {r : Except Exn B}
    (hp : Uses (making way) p) (ho : Outcome (exec i) fails (p >>= f) w s r w') :
    ((∃ e, r = .error e) ∧ afterLanding s = false ∧ MadeOn way w w') ∨
      ∃ s1 s2 a w1, Outcome (exec i) fails p w s1 (.ok a) w1 ∧ MadeOn way w w1 ∧
        Outcome (exec i) fails (f a) w1 s2 r w' ∧ Rest s s2 := by
  have hearly : ∀ {s r1 w1}, Outcome (exec i) fails p w s r1 w1 →
      afterLanding s = false ∧ MadeOn way w w1 := fun h =>
    ⟨afterLanding_of_uses (hp.mono fun c hc => by
      cases c with
      | disk c => cases c <;> first | rfl | exact hc.elim
      | db q => cases q <;> first | rfl | exact hc.elim
      | _ => rfl) h,
      h.preserves (I := MadeOn way w) (fun _ hc w1 h1 => h1.trans (call_making hc w1)) hp (.refl w)⟩
  rcases ho.split with ⟨e, rfl, h⟩ | ⟨s1, s2, a, w1, h, hrest, hs⟩
  · exact Or.inl ⟨⟨e, rfl⟩, hearly h⟩
  · refine Or.inr ⟨s1, s2, a, w1, h, (hearly h).2, hrest, ?_⟩
    rcases hs with ⟨rfl, rfl⟩ | ⟨-, rfl⟩
    · exact Or.inr ⟨rfl, (hearly h).1⟩
    · exact Or.inl rfl

/-! ### The landing -/

/-- A rename of a file to another place that succeeded. -/
theorem landed_of_move {src : Path Str} {d : FileData} (hsrc : w.disk.get src = some (.file d))
    (h2 : ¬ target <+: src) (hm : w.disk.Movable src target)
    (hw : w' = { w with disk := w.disk.move src target }) :
    Landed src target d.content w w' ∧ w'.disk.get src = none := by
  subst hw
  have hget := Tree.get_move hm
  refine ⟨⟨Kept.disk .., ⟨d, ?_, rfl⟩, fun q hq hs => Or.inl ?_⟩, ?_⟩
  · rw [hget, if_pos List.prefix_rfl, List.drop_length, List.append_nil, hsrc]
  · rw [hget]
    split_ifs with hbelow
    · -- nothing is below a file, and nothing was below what it replaced
      obtain ⟨r, rfl⟩ := hbelow
      have hr : r ≠ [] := by
        rintro rfl
        exact hq (List.append_nil _)
      rw [List.drop_left, Tree.get_below_none (by rw [hsrc]; simp) hr]
      obtain ⟨name, r, rfl⟩ := List.exists_cons_of_ne_nil hr
      have hchild : w.disk.get (target ++ [name]) = none := by
        by_contra hc
        have := Tree.mem_children.2 hc
        rw [hm.2.2.2.2.2] at this
        cases this
      rcases eq_or_ne r [] with rfl | hr'
      · exact hchild.symm
      · rw [show target ++ name :: r = (target ++ [name]) ++ r by simp,
          Tree.get_below_none (by rw [hchild]; simp) hr']
    · rfl
  · rw [hget, if_neg h2, if_pos List.prefix_rfl]

/-- **The rename and what follows it**: it raised before the rename or at it, and changed nothing, or
after it, with the file landed. -/
theorem finish_outcome {slug path : Str} {staged : Staged} {d : FileData} {replaced : Bool}
    {r : Except Exn Bool} (hsrc : w.disk.get staged.path = some (.file d))
    (h1 : ¬ staged.path <+: target) (h2 : ¬ target <+: staged.path)
    (hrow : (w.db.sites[slug]?).isSome = true)
    (ho : Outcome (exec i) fails (disk (.replace staged.path target) >>= fun _ =>
      disk (.mtime target) >>= fun mtime_ns =>
        query (.upsert_file ⟨slug, path, staged.bytes, mtime_ns, staged.sha256⟩) >>= fun _ =>
          (.ret replaced : Code Bool)) w s r w') :
    (∃ b, r = .ok b) ∨ ((∃ e, r = .error e) ∧
      (afterLanding s = false ∧ MadeOn target.dropLast w w' ∨
        afterLanding s = true ∧ Landed staged.path target d.content w w' ∧
          w'.disk.get staged.path = none)) := by
  have hne : staged.path ≠ target := fun he => h1 (he ▸ List.prefix_rfl)
  have hrename : ∀ {r0 w0}, run (exec i) (disk (.replace staged.path target)) w = (r0, w0) →
      (∃ e, r0 = .error e ∧ w0 = w) ∨ (r0 = .ok () ∧ w.disk.Movable staged.path target ∧
        w0 = { w with disk := w.disk.move staged.path target }) := by
    intro r0 w0 hr
    rcases replace_outcome hne w.disk with ⟨e, he⟩ | ⟨hm, he⟩
    · rw [run_disk_error (c := .replace staged.path target) (e := e) rfl fun _ => he] at hr
      obtain ⟨rfl, rfl⟩ := Prod.mk.inj hr
      exact Or.inl ⟨_, rfl, rfl⟩
    · rw [run_disk_ok (c := .replace staged.path target) (r := ()) rfl fun _ => he] at hr
      obtain ⟨rfl, rfl⟩ := Prod.mk.inj hr
      exact Or.inr ⟨rfl, hm, rfl⟩
  rcases ho.split with ⟨e, rfl, h⟩ | ⟨s1, s2, _, w1, h, hrest, hs⟩
  · -- the rename raised
    refine Or.inr ⟨⟨e, rfl⟩, Or.inl ?_⟩
    rcases disk_outcome h with ⟨rfl, hr⟩ | ⟨rfl, rfl, -⟩
    · rcases hrename hr with ⟨_, -, rfl⟩ | ⟨he, -⟩
      · exact ⟨rfl, .refl w'⟩
      · cases he
    · exact ⟨rfl, .refl w'⟩
  rcases disk_outcome h with ⟨rfl, hr⟩ | ⟨-, -, e, he⟩
  swap
  · cases he
  obtain rfl := rest_of_none hs
  rcases hrename hr with ⟨_, he, -⟩ | ⟨-, hm, hw⟩
  · cases he
  obtain ⟨hland, hgone⟩ := landed_of_move hsrc h2 hm hw
  obtain ⟨d', hfile, -⟩ := hland.file
  rcases hrest.split with ⟨e, rfl, h⟩ | ⟨s1, s3, _, w2, h, hrest, hs⟩
  · -- the time of the file was not found out
    rcases disk_outcome h with ⟨-, hr⟩ | ⟨rfl, rfl, -⟩
    · rw [run_mtime hfile] at hr
      cases (Prod.mk.inj hr).1
    · exact Or.inr ⟨⟨e, rfl⟩, Or.inr ⟨rfl, hland, hgone⟩⟩
  rcases disk_outcome h with ⟨rfl, hr⟩ | ⟨-, -, e, he⟩
  swap
  · cases he
  obtain rfl := rest_of_none hs
  rw [run_mtime hfile] at hr
  obtain ⟨-, rfl⟩ := Prod.mk.inj hr
  rcases hrest.split with ⟨e, rfl, h⟩ | ⟨_, _, _, _, _, hret, _⟩
  · -- the row was not written
    rcases query_outcome h with ⟨-, hr⟩ | ⟨rfl, rfl, -⟩
    · obtain ⟨row, hrow⟩ := Option.isSome_iff_exists.1 hrow
      rw [run_query, Db.exec, Db.upsert_file, hland.kept.db, hrow] at hr
      cases (Prod.mk.inj hr).1
    · exact Or.inr ⟨⟨e, rfl⟩, Or.inr ⟨rfl, hland, hgone⟩⟩
  · cases hret
    exact Or.inl ⟨_, rfl⟩

/-- **The critical section of an upload**: it raised with nothing harmed and the staging file still
there, or, when what failed came after the rename, with the file landed. -/
theorem land_outcome {slug path : Str} {overwrite : Bool} {staged : Staged} {d : FileData}
    {r : Except Exn Bool} (hsrc : w.disk.get staged.path = some (.file d))
    (hstaging : cfg.staging_dir <+: staged.path)
    (ho : Outcome (exec i) fails (landFile cfg rt slug path overwrite staged) w s r w') :
    (∃ b, r = .ok b) ∨ ((∃ e, r = .error e) ∧
      (afterLanding s = false ∧ MadeOn (site_dir cfg slug ++ segments path).dropLast w w' ∨
        afterLanding s = true ∧
          Landed staged.path (site_dir cfg slug ++ segments path) d.content w w' ∧
          w'.disk.get staged.path = none)) := by
  set target := site_dir cfg slug ++ segments path with htarget
  have h1 : ¬ staged.path <+: target := staged_apart hstaging (under_sites slug _)
  have h2 : ¬ target <+: staged.path := by
    obtain ⟨q, hq⟩ := hstaging
    rw [← hq]
    exact not_site_prefix_staging cfg slug _ q
  rw [landFile] at ho
  rcases early_outcome (uses_query (P := making target.dropLast) (q := .site_by_slug slug) trivial) ho with
    ⟨he, hs, hmade⟩ | ⟨s1, s2, site, w1, hq, hmade1, ho, hs1⟩
  · exact Or.inr ⟨he, Or.inl ⟨hs, hmade⟩⟩
  split_ifs at ho with hsite
  · cases ho
    exact Or.inr ⟨⟨_, rfl⟩, Or.inl ⟨hs1.late, hmade1⟩⟩
  have hrow : (w.db.sites[slug]?).isSome = true := by
    rcases query_outcome hq with ⟨-, hr⟩ | ⟨-, -, e, he⟩
    · rw [run_site_by_slug] at hr
      rw [← Except.ok.inj (Prod.mk.inj hr).1, Option.map_eq_none_iff] at hsite
      exact Option.isSome_iff_ne_none.2 hsite
    · cases he
  rcases early_outcome (@making_resolve _ _ target.dropLast _ _) ho with
    ⟨he, hs, hmade⟩ | ⟨s3, s4, t, w2, hres, hmade2, ho, hs2⟩
  · exact Or.inr ⟨he, Or.inl ⟨hs1.late.trans hs, hmade1.trans hmade⟩⟩
  obtain rfl : t = target := hres.returns (returns_resolve slug path)
  rcases early_outcome (@making_check_write_target _ _ target.dropLast _ _ _ _) ho with
    ⟨he, hs, hmade⟩ | ⟨s5, s6, replaced, w3, -, hmade3, ho, hs3⟩
  · exact Or.inr ⟨he, Or.inl ⟨(hs1.trans hs2).late.trans hs, (hmade1.trans hmade2).trans hmade⟩⟩
  rcases early_outcome (uses_mkdirParents (P := making target.dropLast) _ _ fun q hq =>
      ⟨by rwa [List.reverse_reverse] at hq, trivial⟩) ho with
    ⟨he, hs, hmade⟩ | ⟨s7, s8, _, w4, -, hmade4, ho, hs4⟩
  · exact Or.inr ⟨he, Or.inl ⟨((hs1.trans hs2).trans hs3).late.trans hs,
      ((hmade1.trans hmade2).trans hmade3).trans hmade⟩⟩
  have hmade := ((hmade1.trans hmade2).trans hmade3).trans hmade4
  rw [(((hs1.trans hs2).trans hs3).trans hs4).late]
  rcases finish_outcome (hmade.get hsrc) h1 h2 (hmade.kept.db ▸ hrow) ho
    with hok | ⟨he, ⟨hs, hm⟩ | ⟨hs, hl, hg⟩⟩
  · exact Or.inl hok
  · exact Or.inr ⟨he, Or.inl ⟨hs, hmade.trans hm⟩⟩
  · exact Or.inr ⟨he, Or.inr ⟨hs, hmade.unharmed.landed hl, hg⟩⟩

/-! ### The whole -/

/-- **A held section** of which any call may fail but the release of the lock. -/
theorem hold_outcome {slug : Str} {p : Code A} {r : Except Exn A}
    (hrelease : ∀ e, ¬ fails (.release slug) e)
    (ho : Outcome (exec i) fails (hold slug p) w s r w') :
    (s = some (.acquire slug, w) ∧ w' = w) ∨
      ∃ w1, Outcome (exec i) fails p (taken w i slug) s r w1 ∧ w' = freed w1 slug := by
  have hfreed : ∀ {r0 : Except Exn A} {w1 s0}, Outcome (exec i) fails
      (Prog.invoke (S := sig) (.release slug) >>= fun _ => Prog.ofExcept r0) w1 s0 r w' →
      s0 = none ∧ r0 = r ∧ w' = freed w1 slug := by
    intro r0 w1 s0 ho
    obtain rfl := ho.unfailing (((uses_invoke (S := sig) _).2 hrelease).bind fun _ => uses_ofExcept _)
    have hr := outcome_none.1 ho
    rw [run_bind_of_ok _ (run_invoke ..), run_ofExcept] at hr
    obtain ⟨rfl, rfl⟩ := Prod.mk.inj hr
    exact ⟨rfl, rfl, rfl⟩
  rw [hold] at ho
  rcases ho.split with ⟨e, -, h⟩ | ⟨s1, s2, _, w1, h, hrest, hs⟩
  · rcases outcome_invoke.1 h with ⟨-, hr⟩ | ⟨rfl, rfl, -⟩
    · cases (Prod.mk.inj hr).1
    · exact Or.inl ⟨rfl, rfl⟩
  rcases outcome_invoke.1 h with ⟨rfl, hr⟩ | ⟨-, -, e, -, he⟩
  swap
  · cases he
  obtain rfl := rest_of_none hs
  obtain ⟨-, rfl⟩ := Prod.mk.inj hr
  right
  rw [Prog.finallyDo] at hrest
  rcases hrest.split with ⟨e, -, h⟩ | ⟨s1, s3, r0, w1, h, hrest, hs⟩
  · obtain ⟨_, he, -⟩ := outcome_attempt.1 h
    cases he
  obtain ⟨_, hr0, hbody⟩ := outcome_attempt.1 h
  obtain rfl := Except.ok.inj hr0
  obtain ⟨rfl, rfl, rfl⟩ := hfreed hrest
  rcases hs with ⟨rfl, -⟩ | ⟨rfl, rfl⟩ <;> exact ⟨w1, hbody, rfl⟩

/-- What is kept while a lock is held is kept when it is free again. -/
theorem held_kept {slug : Str} (hfree : w.locks slug = none) (h : Kept (taken w i slug) w') :
    Kept w (freed w' slug) := by
  refine ⟨h.db, ?_, h.oracle, h.scan⟩
  change Function.update w'.locks slug none = w.locks
  rw [h.locks]
  change Function.update (Function.update w.locks slug (some i)) slug none = w.locks
  rw [Function.update_idem, ← hfree, Function.update_eq_self]

theorem early_stage (body : Incoming) : Uses (fun c => late c = false) (_stage cfg rt body) := by
  refine (uses_token_hex (P := fun c => late c = false) rfl).bind fun hex =>
    Uses.bind (Uses.except ?_ fun e =>
      (uses_unlink (P := fun c => late c = false) rfl).bind fun _ => uses_raise _) fun _ => uses_ret _
  refine (uses_filling _ _).mono fun c hc => ?_
  cases c with
  | disk c => cases c <;> first | rfl | exact hc.elim
  | db q => exact hc.elim
  | _ => rfl

/-- **The second half of an upload**, with its clean-up: the staging file has landed or goes. -/
theorem landing_outcome {slug path : Str} {overwrite : Bool} {staged : Staged} {d : FileData} {e : Exn}
    (hrelease : ∀ e, ¬ fails (.release slug) e) (hfree : w.locks slug = none)
    (hsrc : w.disk.get staged.path = some (.file d)) (hstaging : cfg.staging_dir <+: staged.path)
    (ho : Outcome (exec i) fails ((hold slug (landFile cfg rt slug path overwrite staged)).except
      fun e => _unlink staged.path >>= fun _ => .raise e) w s (.error e) w') :
    (afterLanding s = false ∧
        Unharmed staged.path (site_dir cfg slug ++ segments path).dropLast w w' ∧
        (w'.disk.get staged.path = none ∨ ∃ v, s = some (.disk (.unlink staged.path), v))) ∨
      (afterLanding s = true ∧
        Landed staged.path (site_dir cfg slug ++ segments path) d.content w w' ∧
        w'.disk.get staged.path = none) := by
  -- the section raised, and then the clean-up did
  obtain ⟨s1, s2, e1, w1, hhold, hclean, hs⟩ : ∃ s1 s2 e1 w1,
      Outcome (exec i) fails (hold slug (landFile cfg rt slug path overwrite staged)) w s1
        (.error e1) w1 ∧
      Outcome (exec i) fails (_unlink staged.path >>= fun _ => (.raise e1 : Code Bool)) w1 s2
        (.error e) w' ∧ (s1 = s ∧ s2 = none ∨ s1 = none ∧ s2 = s) := by
    rcases outcome_except.1 ho with ⟨r1, w1, -, hp, hm⟩ | ⟨r1, w1, hr, hm⟩ <;> rcases r1 with e1 | b
    · exact ⟨s, none, e1, w1, hp, outcome_none.2 hm, Or.inl ⟨rfl, rfl⟩⟩
    · cases hm.1
    · exact ⟨none, s, e1, w1, outcome_none.2 hr, hm, Or.inr ⟨rfl, rfl⟩⟩
    · cases hm.2.1
  have hclear : afterLanding s2 = false := afterLanding_of_uses
    ((uses_unlink (P := fun c => late c = false) rfl).bind fun _ => uses_raise _) hclean
  have hlate : afterLanding s = afterLanding s1 := by
    rcases hs with ⟨rfl, -⟩ | ⟨rfl, rfl⟩
    · rfl
    · exact hclear
  have hstruck : ∀ {v}, s2 = some (.disk (.unlink staged.path), v) →
      s = some (.disk (.unlink staged.path), v) := by
    rintro v rfl
    rcases hs with ⟨-, hs⟩ | ⟨-, hs⟩
    · cases hs
    · exact hs.symm
  rw [hlate]
  rcases hold_outcome hrelease hhold with ⟨rfl, rfl⟩ | ⟨w3, hbody, rfl⟩
  · -- the lock was not taken
    obtain ⟨-, hun, hgone⟩ := cleaned_outcome (Or.inr ⟨d, hsrc⟩) hclean
    exact Or.inl ⟨rfl, hun, hgone.imp_right (Exists.imp fun _ => hstruck)⟩
  rcases land_outcome (w := taken w i slug) hsrc hstaging hbody with
    ⟨b, hb⟩ | ⟨-, ⟨hs1, hmade⟩ | ⟨hs1, hland, hgone⟩⟩
  · cases hb
  · have hget : (freed w3 slug).disk.get staged.path = some (.file d) := hmade.get hsrc
    obtain ⟨-, hun, hgone⟩ := cleaned_outcome (Or.inr ⟨d, hget⟩) hclean
    have hheld : Unharmed staged.path (site_dir cfg slug ++ segments path).dropLast w (freed w3 slug) :=
      ⟨held_kept hfree hmade.kept, fun q _ => hmade.tree q⟩
    exact Or.inl ⟨hs1, hheld.trans hun, hgone.imp_right (Exists.imp fun _ => hstruck)⟩
  · obtain rfl : s2 = none := by
      rcases hs with ⟨-, hs⟩ | ⟨rfl, -⟩
      · exact hs
      · exact absurd hs1 Bool.false_ne_true
    obtain ⟨-, hun, hgone'⟩ : _ ∧ Unharmed staged.path (site_dir cfg slug ++ segments path).dropLast
        (freed w3 slug) w' ∧ _ := cleaned_outcome (Or.inl hgone) hclean
    have hheld : Landed staged.path (site_dir cfg slug ++ segments path) d.content w (freed w3 slug) :=
      ⟨held_kept hfree hland.kept, hland.file, hland.tree⟩
    refine Or.inr ⟨hs1, hheld.unharmed (staged_apart hstaging (under_sites slug _)) hun,
      hgone'.resolve_right ?_⟩
    rintro ⟨v, hv⟩
    cases hv

section Small

/-- An upload of two chunks to the site `a`. -/
def sending : Code UploadResult :=
  Storage.write_file smallConfig plainRuntime (lit "a") (lit "x") ⟨[[104], [105]], none⟩ false none

/-- The upload, with the query failing that writes its row. -/
def struck : Option (Failure sig World) × Except Exn UploadResult × World :=
  strike (exec 0) late .database 1 sending withWriter

def raised : Except Exn UploadResult → Option Exn
  | .error e => some e
  | .ok _ => none

end Small

end PaperBoxing.Backend.FailedUpload
