import PaperBoxing.Lib.Program

/-! # Threads: programs interleaved call by call

A machine executes the calls of many programs on one shared world: `exec i c` is the effect and the
answer of the call `c` made by the thread `i`, `ready` says whether the call may be answered yet (a
lock that is held is not), and `fails` the ways in which it may fail instead. A `Run` takes one call
of one thread at a time, in any order, and records each as an event.

Rely and guarantee. A `Setting` has an invariant of the history (the events so far and the world)
and, for each thread, what it relies on others to leave alone. `Safe i Q p h` says that the program
`p`, run by the thread `i` from the history `h` on, keeps the invariant and the reliances of all
others at every one of its calls, whatever the others do in between, and ends with `Q`.

* `Safe.bind`, `Safe.seq`, `Safe.attempt`, `Safe.except`, `Safe.returns`, `Safe.mono`, `Safe.stable`: its
  rules;
* `Setting.run`: threads that are all safe keep the invariant in every run;
* `Safe.of_uses`: what the calls of a program keep, it keeps; `Safe.of_local`: a thread that relies on one
  part of the world to stay, and looks at nothing else, ends as when it runs alone (`LocalTo`);
* `play`, `record`: a run along a given schedule. -/

namespace PaperBoxing.Lib.Threads

open PaperBoxing.Lib.Action PaperBoxing.Lib.Program

variable {S : Sig} {E A B W V : Type}

/-- **A machine**: what the calls of its threads do to the shared world. -/
structure Machine (S : Sig) (E W : Type) where
  exec : Nat → (c : S.Call) → Act E W (S.Resp c)
  ready : Nat → S.Call → W → Bool
  fails : Nat → S.Call → W → E → W → Prop

/-- The call `c` of the thread `i` may be answered by `r` and leave the world `w'`. -/
def Machine.Answers (M : Machine S E W) (i : Nat) (c : S.Call) (w : W) (r : Except E (S.Resp c))
    (w' : W) : Prop :=
  M.ready i c w = true ∧ ((r, w') = M.exec i c w ∨ ∃ e, r = .error e ∧ M.fails i c w e w')

/-- A call that is ready may be answered as it is executed. -/
theorem Machine.answers_exec {M : Machine S E W} {i : Nat} {c : S.Call} {w : W}
    (h : M.ready i c w = true) : M.Answers i c w (M.exec i c w).1 (M.exec i c w).2 :=
  ⟨h, Or.inl rfl⟩

/-- A call that was made, by whom, how it was answered, and the world before and after it. -/
structure Event (S : Sig) (E W : Type) where
  tid : Nat
  call : S.Call
  resp : Except E (S.Resp call)
  before : W
  after : W

/-- A history: the events so far, and the world they led to. -/
abbrev Hist (S : Sig) (E W : Type) : Type := List (Event S E W) × W

/-- The history after one more call. -/
def Hist.push (h : Hist S E W) (i : Nat) (c : S.Call) (r : Except E (S.Resp c)) (w : W) :
    Hist S E W :=
  (h.1 ++ [⟨i, c, r, h.2, w⟩], w)

@[simp] theorem Hist.push_world (h : Hist S E W) (i : Nat) (c : S.Call) (r : Except E (S.Resp c))
    (w : W) : (h.push i c r w).2 = w := rfl

@[simp] theorem Hist.push_events (h : Hist S E W) (i : Nat) (c : S.Call) (r : Except E (S.Resp c))
    (w : W) : (h.push i c r w).1 = h.1 ++ [⟨i, c, r, h.2, w⟩] := rfl

/-- The events of one thread. -/
def Hist.mine (h : Hist S E W) (i : Nat) : List (Event S E W) := h.1.filter fun e => e.tid == i

@[simp] theorem Hist.mine_push_self (h : Hist S E W) (i : Nat) (c : S.Call)
    (r : Except E (S.Resp c)) (w : W) :
    (h.push i c r w).mine i = h.mine i ++ [⟨i, c, r, h.2, w⟩] := by
  simp [Hist.mine, Hist.push]

theorem Hist.mine_push_of_ne {i j : Nat} (hij : j ≠ i) (h : Hist S E W) (c : S.Call)
    (r : Except E (S.Resp c)) (w : W) : (h.push i c r w).mine j = h.mine j := by
  simp [Hist.mine, Hist.push, hij.symm]

/-- The world and what is left of every thread's program. -/
structure Config (S : Sig) (E A W : Type) where
  world : W
  threads : Nat → Prog S E A

/-- The configuration after the thread `i` was answered `r` and goes on as `p`. -/
def Config.advance (g : Config S E A W) (i : Nat) (p : Prog S E A) (w : W) : Config S E A W :=
  ⟨w, Function.update g.threads i p⟩

@[simp] theorem Config.advance_self (g : Config S E A W) (i : Nat) (p : Prog S E A) (w : W) :
    (g.advance i p w).threads i = p := Function.update_self ..

theorem Config.advance_of_ne {g : Config S E A W} {i j : Nat} (h : j ≠ i) {p : Prog S E A} {w : W} :
    (g.advance i p w).threads j = g.threads j := Function.update_of_ne h ..

/-- **Runs**: one call of one thread after another, with the events in order. -/
inductive Run (M : Machine S E W) (g : Config S E A W) :
    List (Event S E W) → Config S E A W → Prop where
  | refl : Run M g [] g
  | step {tr : List (Event S E W)} {g' : Config S E A W} {i : Nat} {c : S.Call}
      {k : Except E (S.Resp c) → Prog S E A} {r : Except E (S.Resp c)} {w : W}
      (run : Run M g tr g') (next : g'.threads i = .call c k)
      (answer : M.Answers i c g'.world r w) :
      Run M g (tr ++ [⟨i, c, r, g'.world, w⟩]) (g'.advance i (k r) w)

/-- The history of a run. -/
abbrev hist (tr : List (Event S E W)) (g : Config S E A W) : Hist S E W := (tr, g.world)

theorem Run.trans {M : Machine S E W} {g g' g'' : Config S E A W} {tr tr' : List (Event S E W)}
    (h : Run M g tr g') (h' : Run M g' tr' g'') : Run M g (tr ++ tr') g'' := by
  induction h' with
  | refl => rw [List.append_nil]; exact h
  | step _ next answer ih => rw [← List.append_assoc]; exact ih.step next answer

/-- **An invariant of single steps is an invariant of runs.** -/
theorem Run.induct {M : Machine S E W} {g g' : Config S E A W} {tr : List (Event S E W)}
    (h : Run M g tr g') (P : List (Event S E W) → Config S E A W → Prop) (h0 : P [] g)
    (hs : ∀ tr g' i c (k : Except E (S.Resp c) → Prog S E A) r w, Run M g tr g' → P tr g' →
      g'.threads i = .call c k → M.Answers i c g'.world r w →
      P (tr ++ [⟨i, c, r, g'.world, w⟩]) (g'.advance i (k r) w)) : P tr g' := by
  induction h with
  | refl => exact h0
  | step run next answer ih => exact hs _ _ _ _ _ _ _ run ih next answer

/-- **The calls of a run are among those its programs can make**, and each was answered. -/
theorem Run.uses {M : Machine S E W} {P : S.Call → Prop}
    {g g' : Config S E A W} {tr : List (Event S E W)} (h : Run M g tr g')
    (hg : ∀ i, Uses P (g.threads i)) : (∀ i, Uses P (g'.threads i)) ∧
      ∀ e ∈ tr, P e.call ∧ M.Answers e.tid e.call e.before e.resp e.after := by
  induction h with
  | refl => exact ⟨hg, by simp⟩
  | @step tr g' i c k r w run next answer ih =>
    obtain ⟨h1, h2⟩ := ih
    have hi := h1 i
    rw [next] at hi
    refine ⟨fun j => ?_, fun e he => ?_⟩
    · rcases eq_or_ne j i with rfl | hj
      · rw [Config.advance_self]
        exact hi.2 r
      · rw [Config.advance_of_ne hj]
        exact h1 j
    · rcases List.mem_append.1 he with he | he
      · exact h2 e he
      · obtain rfl := List.mem_singleton.1 he
        exact ⟨hi.1, answer⟩

/-- **Worlds in order**: each event leads on from the worlds before it, and to those after it, in a
relation that steps keep. -/
structure Ordered (R : W → W → Prop) (w : W) (tr : List (Event S E W)) (w' : W) : Prop where
  whole : R w w'
  before : ∀ e ∈ tr, R w e.before
  step : ∀ e ∈ tr, R e.before e.after
  after : ∀ e ∈ tr, R e.after w'
  order : tr.Pairwise fun e e' => R e.after e'.before

theorem Ordered.nil {R : W → W → Prop} {w w' : W} (h : R w w') :
    Ordered R w ([] : List (Event S E W)) w' :=
  ⟨h, by simp, by simp, by simp, .nil⟩

theorem Ordered.append {R : W → W → Prop} (trans : ∀ a b c, R a b → R b c → R a c) {w w' w'' : W}
    {tr tr' : List (Event S E W)} (h : Ordered R w tr w') (h' : Ordered R w' tr' w'') :
    Ordered R w (tr ++ tr') w'' where
  whole := trans _ _ _ h.whole h'.whole
  before e he := (List.mem_append.1 he).elim (h.before e) fun he => trans _ _ _ h.whole (h'.before e he)
  step e he := (List.mem_append.1 he).elim (h.step e) (h'.step e)
  after e he := (List.mem_append.1 he).elim (fun he => trans _ _ _ (h.after e he) h'.whole) (h'.after e)
  order := List.pairwise_append.2 ⟨h.order, h'.order, fun e he e' he' =>
    trans _ _ _ (h.after e he) (h'.before e' he')⟩

/-- **A relation that each step keeps orders the worlds of a run.** -/
theorem Run.ordered {M : Machine S E W} {R : W → W → Prop} (refl : ∀ a, R a a)
    (trans : ∀ a b c, R a b → R b c → R a c) {P : S.Call → Prop}
    (step : ∀ i c w r w', P c → M.Answers i c w r w' → R w w') {g g' : Config S E A W}
    {tr : List (Event S E W)} (h : Run M g tr g') (hg : ∀ i, Uses P (g.threads i)) :
    Ordered R g.world tr g'.world := by
  induction h with
  | refl => exact .nil (refl _)
  | @step tr g' i c k r w run next answer ih =>
    have hi := (run.uses hg).1 i
    rw [next] at hi
    have hs := step i c _ r w hi.1 answer
    have hone : Ordered R g'.world [⟨i, c, r, g'.world, w⟩] w := by
      refine ⟨hs, ?_, ?_, ?_, List.pairwise_singleton _ _⟩ <;> intro e he <;>
        obtain rfl := List.mem_singleton.1 he
      · exact refl _
      · exact hs
      · exact refl _
    exact ih.append trans hone

/-! ### Rely and guarantee -/

/-- **A setting**: an invariant of the history, and what each thread relies on. -/
structure Setting (S : Sig) (E W : Type) where
  machine : Machine S E W
  inv : Hist S E W → Prop
  rely : Nat → Hist S E W → Hist S E W → Prop
  refl : ∀ i h, rely i h h
  trans : ∀ i {h h' h''}, rely i h h' → rely i h' h'' → rely i h h''

/-- What a step of the thread `i` owes the others. -/
def Setting.Owes (R : Setting S E W) (i : Nat) (h h' : Hist S E W) : Prop :=
  R.inv h' ∧ ∀ j, j ≠ i → R.rely j h h'

/-- **Safety of a program**: at every call the invariant and the others' reliances are kept, whatever
the others did before it, and the program ends with `Q`. -/
def Safe (R : Setting S E W) (i : Nat) (Q : Except E A → Hist S E W → Prop) :
    Prog S E A → Hist S E W → Prop
  | .ret a, h => Q (.ok a) h
  | .raise e, h => Q (.error e) h
  | .call c k, h => ∀ h', R.rely i h h' → R.inv h' → ∀ r w, R.machine.Answers i c h'.2 r w →
      R.Owes i h' (h'.push i c r w) ∧ Safe R i Q (k r) (h'.push i c r w)

section Safe
variable {R : Setting S E W} {i : Nat} {Q Q' : Except E A → Hist S E W → Prop}

@[simp] theorem safe_ret {a : A} {h : Hist S E W} : Safe R i Q (.ret a) h ↔ Q (.ok a) h := Iff.rfl

@[simp] theorem safe_raise {e : E} {h : Hist S E W} :
    Safe R i Q (.raise e) h ↔ Q (.error e) h := Iff.rfl

theorem Safe.mono {p : Prog S E A} {h : Hist S E W} (hp : Safe R i Q p h)
    (hQ : ∀ r h, Q r h → Q' r h) : Safe R i Q' p h := by
  induction p generalizing h with
  | ret a => exact hQ _ _ hp
  | raise e => exact hQ _ _ hp
  | call c k ih =>
    intro h' hr hi r w ha
    obtain ⟨ho, hk⟩ := hp h' hr hi r w ha
    exact ⟨ho, ih r hk⟩

/-- **Sequence.** -/
theorem Safe.bind {p : Prog S E B} {f : B → Prog S E A} {h : Hist S E W}
    (hp : Safe R i (fun r h => match r with
      | .ok b => Safe R i Q (f b) h
      | .error e => Q (.error e) h) p h) : Safe R i Q (p >>= f) h := by
  induction p generalizing h with
  | ret a => exact hp
  | raise e => exact hp
  | call c k ih =>
    intro h' hr hi r w ha
    obtain ⟨ho, hk⟩ := hp h' hr hi r w ha
    exact ⟨ho, ih r hk⟩

/-- **A `try` body.** -/
theorem Safe.attempt {p : Prog S E B} {Q : Except E (Except E B) → Hist S E W → Prop}
    {h : Hist S E W} (hp : Safe R i (fun r h => Q (.ok r) h) p h) : Safe R i Q p.attempt h := by
  induction p generalizing h with
  | ret a => exact hp
  | raise e => exact hp
  | call c k ih =>
    intro h' hr hi r w ha
    obtain ⟨ho, hk⟩ := hp h' hr hi r w ha
    exact ⟨ho, ih r hk⟩

/-- **Sequence**, by what holds between its parts. -/
theorem Safe.seq {p : Prog S E B} {f : B → Prog S E A} {h : Hist S E W}
    {P : Except E B → Hist S E W → Prop} (hp : Safe R i P p h)
    (hok : ∀ b h', P (.ok b) h' → Safe R i Q (f b) h')
    (herr : ∀ e h', P (.error e) h' → Q (.error e) h') : Safe R i Q (p >>= f) h :=
  Safe.bind (hp.mono fun r h' hq => by
    cases r with
    | ok b => exact hok b h' hq
    | error e => exact herr e h' hq)

/-- **A `try` with its handler**, by what holds where the body ends. -/
theorem Safe.except {p : Prog S E A} {g : E → Prog S E A} {h : Hist S E W}
    {Q1 : Except E A → Hist S E W → Prop} (hp : Safe R i Q1 p h)
    (hok : ∀ a h', Q1 (.ok a) h' → Q (.ok a) h')
    (herr : ∀ e h', Q1 (.error e) h' → Safe R i Q (g e) h') : Safe R i Q (p.except g) h :=
  Safe.bind (Safe.attempt (hp.mono fun r h' hq => by
    cases r with
    | ok a => exact hok a h' hq
    | error e => exact herr e h' hq))

/-- What a safe program can return holds of what it returns. -/
theorem Safe.returns {p : Prog S E A} {P : A → Prop} {h : Hist S E W} (hp : Safe R i Q p h)
    (hr : Returns P p) : Safe R i (fun r h => Q r h ∧ ∀ a, r = .ok a → P a) p h := by
  induction p generalizing h with
  | ret a => exact ⟨hp, fun b hb => Except.ok.inj hb ▸ hr⟩
  | raise e => exact ⟨hp, by rintro _ ⟨⟩⟩
  | call c k ih =>
    intro h' hrel hi r w ha
    obtain ⟨ho, hk⟩ := hp h' hrel hi r w ha
    exact ⟨ho, ih r hk (hr r)⟩

/-- **One call.** -/
theorem Safe.invoke {c : S.Call} {Q : Except E (S.Resp c) → Hist S E W → Prop} {h : Hist S E W}
    (hc : ∀ h', R.rely i h h' → R.inv h' → ∀ r w, R.machine.Answers i c h'.2 r w →
      R.Owes i h' (h'.push i c r w) ∧ Q r (h'.push i c r w)) :
    Safe R i Q (Prog.invoke c) h := by
  intro h' hr hi r w ha
  obtain ⟨ho, hq⟩ := hc h' hr hi r w ha
  refine ⟨ho, ?_⟩
  cases r <;> exact hq

/-- A thread stays safe while the others act as it relies on. -/
theorem Safe.stable {p : Prog S E A} {h h' : Hist S E W} (hp : Safe R i Q p h)
    (hr : R.rely i h h') (hQ : ∀ r h h', R.rely i h h' → Q r h → Q r h') : Safe R i Q p h' := by
  cases p with
  | ret a => exact hQ _ _ _ hr hp
  | raise e => exact hQ _ _ _ hr hp
  | call c k => exact fun h'' hr' hi => hp h'' (R.trans i hr hr') hi

/-- **Safe threads keep the invariant in every run**, and stay safe. -/
theorem Setting.run {Q : Nat → Except E A → Hist S E W → Prop}
    (hQ : ∀ i r h h', R.rely i h h' → Q i r h → Q i r h') {g g' : Config S E A W}
    {tr : List (Event S E W)} (hinv : R.inv ([], g.world))
    (hsafe : ∀ i, Safe R i (Q i) (g.threads i) ([], g.world)) (hrun : Run R.machine g tr g') :
    R.inv (hist tr g') ∧ ∀ i, Safe R i (Q i) (g'.threads i) (hist tr g') := by
  induction hrun with
  | refl => exact ⟨hinv, hsafe⟩
  | @step tr g' i c k r w run next answer ih =>
    obtain ⟨hinv', hsafe'⟩ := ih
    have hi := hsafe' i
    rw [next] at hi
    obtain ⟨⟨ho, hrel⟩, hk⟩ := hi _ (R.refl i _) hinv' r w answer
    refine ⟨ho, fun j => ?_⟩
    rcases eq_or_ne j i with rfl | hj
    · rw [Config.advance_self]
      exact hk
    · rw [Config.advance_of_ne hj]
      exact (hsafe' j).stable (hrel j hj) (hQ j)

end Safe

/-! ### Programs that look at one part of the world -/

/-- The calls in `L` read and write, of what `view` shows, only what `view` shows. -/
def LocalTo (h : (c : S.Call) → Act E W (S.Resp c)) (view : W → V) (L : S.Call → Prop) : Prop :=
  ∀ c, L c → ∀ w w', view w = view w' →
    (h c w).1 = (h c w').1 ∧ view (h c w).2 = view (h c w').2

/-- **The calls of a run** are all among those of `L`. -/
def Along (h : (c : S.Call) → Act E W (S.Resp c)) (L : S.Call → Prop) : Prog S E A → W → Prop
  | .ret _, _ => True
  | .raise _, _ => True
  | .call c k, w => L c ∧ Along h L (k (h c w).1) (h c w).2

section Along
variable {h : (c : S.Call) → Act E W (S.Resp c)} {L : S.Call → Prop}

theorem Along.of_uses {p : Prog S E A} (hp : Uses L p) (w : W) : Along h L p w := by
  induction p generalizing w with
  | ret a => trivial
  | raise e => trivial
  | call c k ih => exact ⟨hp.1, ih _ (hp.2 _) _⟩

theorem Along.bind {p : Prog S E B} {f : B → Prog S E A} {w : W} (hp : Along h L p w)
    (hf : ∀ b w', run h p w = (.ok b, w') → Along h L (f b) w') : Along h L (p >>= f) w := by
  induction p generalizing w with
  | ret b => exact hf b w rfl
  | raise e => trivial
  | call c k ih => exact ⟨hp.1, ih _ hp.2 hf⟩

theorem Along.attempt {p : Prog S E A} {w : W} (hp : Along h L p w) : Along h L p.attempt w := by
  induction p generalizing w with
  | ret a => trivial
  | raise e => trivial
  | call c k ih => exact ⟨hp.1, ih _ hp.2⟩

theorem Along.except {p : Prog S E A} {g : E → Prog S E A} {w : W} (hp : Along h L p w)
    (hg : ∀ e w', run h p w = (.error e, w') → Along h L (g e) w') : Along h L (p.except g) w := by
  refine hp.attempt.bind fun r w' hr => ?_
  rw [run_attempt] at hr
  obtain ⟨hok, rfl⟩ := Prod.mk.inj hr
  obtain rfl := Except.ok.inj hok
  rcases ho : (run h p w).1 with e | a
  · exact hg e _ (Prod.ext ho rfl)
  · trivial

theorem Along.finallyDo {p : Prog S E A} {f : Prog S E Unit} {w : W} (hp : Along h L p w)
    (hf : Uses L f) : Along h L (p.finallyDo f) w :=
  hp.attempt.bind fun r w' _ => (Along.of_uses hf w').bind fun _ _ _ => by rcases r with _ | _ <;> trivial

end Along

/-- **What the calls of a program and the reliance of its thread keep**, the program keeps. -/
theorem Safe.of_uses {R : Setting S E W} {i : Nat} {G : Hist S E W → Prop} {L : S.Call → Prop}
    (hrely : ∀ h h', G h → R.rely i h h' → G h')
    (hstep : ∀ c, L c → ∀ h r w, R.inv h → G h → R.machine.Answers i c h.2 r w →
      R.Owes i h (h.push i c r w) ∧ G (h.push i c r w))
    {p : Prog S E A} (hp : Uses L p) {h : Hist S E W} (hG : G h) : Safe R i (fun _ h' => G h') p h := by
  induction p generalizing h with
  | ret a => exact hG
  | raise e => exact hG
  | call c k ih =>
    intro h' hr hi r w ha
    obtain ⟨ho, hG'⟩ := hstep c hp.1 h' r w hi (hrely _ _ hG hr) ha
    exact ⟨ho, ih r (hp.2 r) hG'⟩

/-- **A protected section runs as if alone**: a thread that relies, while `G` holds, on the part of the
world its calls look at ends with the answer, and the part, of its run alone. -/
theorem Safe.of_local {R : Setting S E W} {i : Nat} {view : W → V} {G : Hist S E W → Prop}
    {L : S.Call → Prop} (hL : LocalTo (R.machine.exec i) view L)
    (hrely : ∀ h h', G h → R.rely i h h' → G h' ∧ view h'.2 = view h.2)
    (hfail : ∀ c, L c → ∀ w e w', ¬ R.machine.fails i c w e w')
    (hstep : ∀ c, L c → ∀ h r w, R.inv h → G h → R.machine.Answers i c h.2 r w →
      R.Owes i h (h.push i c r w) ∧ G (h.push i c r w))
    {p : Prog S E A} {h : Hist S E W} {w : W} (hp : Along (R.machine.exec i) L p w) (hG : G h)
    (hw : view h.2 = view w) :
    Safe R i (fun r h' => G h' ∧ r = (run (R.machine.exec i) p w).1 ∧
      view h'.2 = view (run (R.machine.exec i) p w).2) p h := by
  induction p generalizing h w with
  | ret a => exact ⟨hG, rfl, hw⟩
  | raise e => exact ⟨hG, rfl, hw⟩
  | call c k ih =>
    intro h' hr hi r w' ha
    obtain ⟨hG', hv⟩ := hrely _ _ hG hr
    obtain ⟨ho, hG''⟩ := hstep c hp.1 h' r w' hi hG' ha
    refine ⟨ho, ?_⟩
    obtain ⟨h1, h2⟩ := hL c hp.1 _ _ (hv.trans hw)
    rcases ha.2 with he | ⟨e, -, hf⟩
    · obtain ⟨rfl, rfl⟩ := Prod.mk.inj he
      rw [run_call, ← h1]
      exact ih _ (h1 ▸ hp.2) hG'' h2
    · exact absurd hf (hfail c hp.1 _ _ _)

/-! ### Runs along a schedule -/

/-- Let the thread `i` make its next call, if it has one and the call is ready. -/
def Machine.tick (M : Machine S E W) (g : Config S E A W) (i : Nat) : Option (Config S E A W) :=
  match g.threads i with
  | .call c k =>
    if M.ready i c g.world then
      some (g.advance i (k (M.exec i c g.world).1) (M.exec i c g.world).2)
    else none
  | _ => none

/-- Let the threads named by a schedule make their calls in turn. -/
def Machine.play (M : Machine S E W) : List Nat → Config S E A W → Option (Config S E A W)
  | [], g => some g
  | i :: is, g => (M.tick g i).bind (M.play is)

theorem Machine.tick_run {M : Machine S E W} {g g' : Config S E A W} {i : Nat}
    (h : M.tick g i = some g') : ∃ tr, Run M g tr g' := by
  unfold Machine.tick at h
  split at h
  · next c k hk =>
    split_ifs at h with hr
    obtain rfl := Option.some.inj h
    exact ⟨_, Run.refl.step hk ⟨hr, Or.inl rfl⟩⟩
  · cases h

/-- **What a schedule plays is a run.** -/
theorem Machine.play_run {M : Machine S E W} {is : List Nat} {g g' : Config S E A W}
    (h : M.play is g = some g') : ∃ tr, Run M g tr g' := by
  induction is generalizing g with
  | nil => obtain rfl := Option.some.inj h; exact ⟨[], .refl⟩
  | cons i is ih =>
    rw [Machine.play, Option.bind_eq_some_iff] at h
    obtain ⟨g1, h1, h2⟩ := h
    obtain ⟨tr, ht⟩ := Machine.tick_run h1
    obtain ⟨tr', ht'⟩ := ih h2
    exact ⟨_, ht.trans ht'⟩

/-- What the threads named by a schedule do in turn: the events, and what they lead to. -/
def Machine.record (M : Machine S E W) :
    List Nat → Config S E A W → Option (List (Event S E W) × Config S E A W)
  | [], g => some ([], g)
  | i :: is, g =>
    match g.threads i with
    | .call c k =>
      if M.ready i c g.world then
        (M.record is (g.advance i (k (M.exec i c g.world).1) (M.exec i c g.world).2)).map fun x =>
          (⟨i, c, (M.exec i c g.world).1, g.world, (M.exec i c g.world).2⟩ :: x.1, x.2)
      else none
    | _ => none

/-- **What is recorded is a run.** -/
theorem Machine.record_run {M : Machine S E W} {is : List Nat} {g g' : Config S E A W}
    {tr : List (Event S E W)} (h : M.record is g = some (tr, g')) : Run M g tr g' := by
  induction is generalizing g tr with
  | nil =>
    obtain ⟨rfl, rfl⟩ := Prod.mk.inj (Option.some.inj h)
    exact .refl
  | cons i is ih =>
    unfold Machine.record at h
    split at h
    · next c k hk =>
      split_ifs at h with hr
      obtain ⟨⟨tr', g1⟩, h1, h2⟩ := Option.map_eq_some_iff.1 h
      obtain ⟨rfl, rfl⟩ := Prod.mk.inj h2
      exact (Run.refl.step hk ⟨hr, Or.inl rfl⟩).trans (ih h1)
    · cases h

end PaperBoxing.Lib.Threads
