import PaperBoxing.Lib.Threads

/-! # Tasks that hand work to worker threads

A task of an event loop makes the calls of its program one by one, and may hand a program to a worker
thread and wait for it to end. While it waits, for the answer of a call or for its worker, a task may
be cancelled: the call, or the wait, then raises. A worker whose task was cancelled is an orphan, and
runs on to its end.

* `inPlace`: a task with what it hands over in place;
* `Run`: the tasks and their workers, one call after another;
* `Follows`: a task that takes and gives back locks, and makes the calls that need a lock while it
  holds it; `Follows.bind` and the like: its rules;
* `Run.guarded`: in a run of such tasks every call that needs a lock is made while the lock is held by
  the call's task, when no wait was cancelled on a worker that makes such calls. -/

namespace PaperBoxing.Lib.Workers

open PaperBoxing.Lib.Action PaperBoxing.Lib.Program PaperBoxing.Lib.Threads

variable {S : Sig} {E A B W L : Type}

/-- The calls of a task: those of its surroundings, and the handing of a program to a worker. -/
inductive TaskCall (S : Sig) (E : Type) : Type where
  | call (c : S.Call)
  | to_thread (p : Prog S E Unit)

/-- What each is answered with. -/
@[reducible] def TaskCall.Resp : TaskCall S E → Type
  | .call c => S.Resp c
  | .to_thread _ => Unit

@[reducible] def taskSig (S : Sig) (E : Type) : Sig := ⟨TaskCall S E, TaskCall.Resp⟩

/-- **A task.** -/
abbrev Task (S : Sig) (E A : Type) : Type := Prog (taskSig S E) E A

/-- Hand a program to a worker, and wait for it. -/
def to_thread (p : Prog S E Unit) : Task S E Unit := .invoke (S := taskSig S E) (.to_thread p)

/-- A program as a task that hands nothing over. -/
def lift : Prog S E A → Task S E A
  | .ret a => .ret a
  | .raise e => .raise e
  | .call c k => .call (S := taskSig S E) (.call c) fun r => lift (k r)

@[simp] theorem lift_bind (p : Prog S E A) (f : A → Prog S E B) :
    lift (p >>= f) = lift p >>= fun a => lift (f a) := by
  induction p with
  | ret a => rfl
  | raise e => rfl
  | call c k ih => exact congrArg _ (funext ih)

@[simp] theorem lift_attempt (p : Prog S E A) : lift p.attempt = (lift p).attempt := by
  induction p with
  | ret a => rfl
  | raise e => rfl
  | call c k ih => exact congrArg _ (funext ih)

@[simp] theorem lift_finallyDo (p : Prog S E A) (g : Prog S E Unit) :
    lift (p.finallyDo g) = (lift p).finallyDo (lift g) := by
  rw [Prog.finallyDo, lift_bind, lift_attempt, Prog.finallyDo]
  refine congrArg _ (funext fun r => ?_)
  rw [lift_bind]
  refine congrArg _ (funext fun _ => ?_)
  rcases r with e | a <;> rfl

/-! ### Tasks as programs -/

/-- **A task with what it hands over in place.** -/
def inPlace : Task S E A → Prog S E A
  | .ret a => .ret a
  | .raise e => .raise e
  | .call (.call c) k => .call c fun r => inPlace (k r)
  | .call (.to_thread p) k => p.attempt >>= fun r => inPlace (k r)

@[simp] theorem inPlace_ret (a : A) : inPlace (.ret a : Task S E A) = .ret a := rfl

@[simp] theorem inPlace_raise (e : E) : inPlace (.raise e : Task S E A) = .raise e := rfl

@[simp] theorem inPlace_lift (p : Prog S E A) : inPlace (lift p) = p := by
  induction p with
  | ret a => rfl
  | raise e => rfl
  | call c k ih =>
    rw [lift, inPlace]
    exact congrArg _ (funext ih)

@[simp] theorem inPlace_bind (p : Task S E A) (f : A → Task S E B) :
    inPlace (p >>= f) = inPlace p >>= fun a => inPlace (f a) := by
  induction p with
  | ret a => rfl
  | raise e => rfl
  | call c k ih =>
    rcases c with c | p
    · exact congrArg _ (funext ih)
    · rw [inPlace, Prog.bind_assoc]
      exact congrArg _ (funext ih)

@[simp] theorem inPlace_to_thread (p : Prog S E Unit) : inPlace (to_thread p) = p := by
  rw [to_thread, Prog.invoke, inPlace]
  induction p with
  | ret a => rfl
  | raise e => rfl
  | call c k ih => exact congrArg _ (funext ih)

theorem attempt_bind (p : Prog S E A) (f : A → Prog S E B) :
    (p >>= f).attempt = p.attempt >>= fun r => match r with
      | .ok a => (f a).attempt
      | .error e => .ret (.error e) := by
  induction p with
  | ret a => rfl
  | raise e => rfl
  | call c k ih => exact congrArg _ (funext ih)

theorem attempt_attempt (p : Prog S E A) : p.attempt.attempt = p.attempt >>= fun r => .ret (.ok r) := by
  induction p with
  | ret a => rfl
  | raise e => rfl
  | call c k ih => exact congrArg _ (funext ih)

@[simp] theorem inPlace_attempt (p : Task S E A) : inPlace p.attempt = (inPlace p).attempt := by
  induction p with
  | ret a => rfl
  | raise e => rfl
  | call c k ih =>
    rcases c with c | p
    · exact congrArg _ (funext ih)
    · rw [inPlace, attempt_bind, attempt_attempt, Prog.bind_assoc]
      exact congrArg _ (funext ih)

@[simp] theorem inPlace_except (p : Task S E A) (g : E → Task S E A) :
    inPlace (p.except g) = (inPlace p).except fun e => inPlace (g e) := by
  rw [Prog.except, inPlace_bind, inPlace_attempt, Prog.except]
  refine congrArg _ (funext fun r => ?_)
  rcases r with e | a <;> rfl

@[simp] theorem inPlace_finallyDo (p : Task S E A) (g : Task S E Unit) :
    inPlace (p.finallyDo g) = (inPlace p).finallyDo (inPlace g) := by
  rw [Prog.finallyDo, inPlace_bind, inPlace_attempt, Prog.finallyDo]
  refine congrArg _ (funext fun r => ?_)
  rw [inPlace_bind]
  refine congrArg _ (funext fun _ => ?_)
  rcases r with e | a <;> rfl

/-! ### Runs -/

/-- **An event loop**: the machine of the calls, the calls at which a task waits, and the exception
that a cancelled task is given. -/
structure Loop (S : Sig) (E W : Type) where
  machine : Machine S E W
  awaits : S.Call → Bool
  cancelled : E

/-- The world, the tasks and their workers. -/
structure State (S : Sig) (E A W : Type) where
  world : W
  tasks : ℕ → Task S E A
  /-- the worker that a task waits for -/
  busy : ℕ → Option (Prog S E Unit)
  /-- the workers that no task waits for, each with the task that handed it over -/
  orphans : List (ℕ × Prog S E Unit)

/-- Tasks that have not begun. -/
def State.start (w : W) (tasks : ℕ → Task S E A) : State S E A W := ⟨w, tasks, fun _ => none, []⟩

/-- What happens in a step: a call is made, for the task that made it or handed it over, or a task is
cancelled at a call, hands a program over, is told that it ended, or is cancelled in between. -/
inductive Mark (S : Sig) (E W : Type) where
  | made (e : Event S E W)
  | cancelled (i : ℕ)
  | started (i : ℕ)
  | joined (i : ℕ)
  | abandoned (i : ℕ)

/-- The call that was made. -/
def Mark.event : Mark S E W → Option (Event S E W)
  | .made e => some e
  | _ => none

theorem Mark.event_eq_some {m : Mark S E W} {e : Event S E W} (h : m.event = some e) : m = .made e := by
  cases m <;> cases h
  rfl

/-- **The steps of an event loop.** -/
inductive Step (Λ : Loop S E W) : State S E A W → Mark S E W → State S E A W → Prop where
  | made {g : State S E A W} {i : ℕ} {c : S.Call} {k : Except E (S.Resp c) → Task S E A}
      {r : Except E (S.Resp c)} {w : W} (next : g.tasks i = .call (S := taskSig S E) (.call c) k)
      (answer : Λ.machine.Answers i c g.world r w) :
      Step Λ g (.made ⟨i, c, r, g.world, w⟩)
        { g with world := w, tasks := Function.update g.tasks i (k r) }
  | cancelled {g : State S E A W} {i : ℕ} {c : S.Call} {k : Except E (S.Resp c) → Task S E A}
      (next : g.tasks i = .call (S := taskSig S E) (.call c) k) (waits : Λ.awaits c = true) :
      Step Λ g (.cancelled i) { g with tasks := Function.update g.tasks i (k (.error Λ.cancelled)) }
  | started {g : State S E A W} {i : ℕ} {p : Prog S E Unit} {k : Except E Unit → Task S E A}
      (next : g.tasks i = .call (S := taskSig S E) (.to_thread p) k) (idle : g.busy i = none) :
      Step Λ g (.started i) { g with busy := Function.update g.busy i (some p) }
  | worked {g : State S E A W} {i : ℕ} {c : S.Call} {k : Except E (S.Resp c) → Prog S E Unit}
      {r : Except E (S.Resp c)} {w : W} (busy : g.busy i = some (.call c k))
      (answer : Λ.machine.Answers i c g.world r w) :
      Step Λ g (.made ⟨i, c, r, g.world, w⟩)
        { g with world := w, busy := Function.update g.busy i (some (k r)) }
  | joined {g : State S E A W} {i : ℕ} {p : Prog S E Unit} {k : Except E Unit → Task S E A}
      {o : Except E Unit} (next : g.tasks i = .call (S := taskSig S E) (.to_thread p) k)
      (busy : g.busy i = some (.ofExcept o)) :
      Step Λ g (.joined i)
        { g with tasks := Function.update g.tasks i (k o), busy := Function.update g.busy i none }
  | abandoned {g : State S E A W} {i : ℕ} {p q : Prog S E Unit} {k : Except E Unit → Task S E A}
      (next : g.tasks i = .call (S := taskSig S E) (.to_thread p) k) (busy : g.busy i = some q) :
      Step Λ g (.abandoned i)
        { g with
          tasks := Function.update g.tasks i (k (.error Λ.cancelled))
          busy := Function.update g.busy i none
          orphans := (i, q) :: g.orphans }
  | strayed {g : State S E A W} {i : ℕ} {c : S.Call} {k : Except E (S.Resp c) → Prog S E Unit}
      {r : Except E (S.Resp c)} {w : W} {before after : List (ℕ × Prog S E Unit)}
      (orphan : g.orphans = before ++ (i, .call c k) :: after)
      (answer : Λ.machine.Answers i c g.world r w) :
      Step Λ g (.made ⟨i, c, r, g.world, w⟩)
        { g with world := w, orphans := before ++ (i, k r) :: after }

/-- **Runs**: one step after another, each with its mark. -/
inductive Run (Λ : Loop S E W) (g : State S E A W) : List (Mark S E W) → State S E A W → Prop where
  | refl : Run Λ g [] g
  | step {tr : List (Mark S E W)} {g' g'' : State S E A W} {m : Mark S E W} (run : Run Λ g tr g')
      (next : Step Λ g' m g'') : Run Λ g (tr ++ [m]) g''

/-- The calls of a run are answered as the machine allows. -/
theorem Run.answers {Λ : Loop S E W} {g g' : State S E A W} {tr : List (Mark S E W)} (h : Run Λ g tr g') :
    ∀ e, .made e ∈ tr → Λ.machine.Answers e.tid e.call e.before e.resp e.after := by
  induction h with
  | refl => exact fun _ he => absurd he List.not_mem_nil
  | step _ next ih =>
    intro e he
    rcases List.mem_append.1 he with he | he
    · exact ih e he
    · obtain rfl := List.mem_singleton.1 he
      cases next with
      | made _ answer => exact answer
      | worked _ answer => exact answer
      | strayed _ answer => exact answer

/-! ### Locks -/

/-- What a call does to the locks. -/
inductive Use (L : Type) where
  | acquire (l : L)
  | release (l : L)
  | plain

/-- **Calls under locks**: what each does to the locks, which locks it needs, and what it may be
answered with. -/
structure Guard (S : Sig) (L W : Type) where
  use : S.Call → Use L
  needs : S.Call → L → Prop
  replies : (c : S.Call) → S.Resp c → Prop
  holder : W → L → Option ℕ

/-- A call that a task may make while it holds `held`. -/
def Guard.Allows (G : Guard S L W) (held : Option L) (c : S.Call) : Prop :=
  G.use c = .plain ∧ ∀ l, G.needs c l → held = some l

/-- An answer that a call may be given. -/
def Guard.Fits (G : Guard S L W) (c : S.Call) (r : Except E (S.Resp c)) : Prop :=
  ∀ a, r = .ok a → G.replies c a

/-- **A loop keeps the locks of a guard**; no task waits where it gives a lock back. -/
structure Guard.Sound [DecidableEq L] (G : Guard S L W) (Λ : Loop S E W) : Prop where
  needs : ∀ c l, G.needs c l → G.use c = .plain
  waits : ∀ c l, Λ.awaits c = true → G.use c ≠ .release l
  replies : ∀ i c w r w', Λ.machine.Answers i c w r w' → G.Fits c r
  acquire : ∀ i c l w r w', G.use c = .acquire l → Λ.machine.Answers i c w r w' →
    (∃ a, r = .ok a ∧ G.holder w l = none ∧
      G.holder w' = Function.update (G.holder w) l (some i)) ∨
    ∃ e, r = .error e ∧ G.holder w' = G.holder w
  release : ∀ i c l w r w', G.use c = .release l → Λ.machine.Answers i c w r w' →
    G.holder w' = Function.update (G.holder w) l none
  plain : ∀ i c w r w', G.use c = .plain → Λ.machine.Answers i c w r w' →
    G.holder w' = G.holder w

/-- **A program whose calls are all allowed** while `held` is held, and that returns what is in `Q`. -/
def Within (G : Guard S L W) (held : Option L) (Q : A → Prop) : Prog S E A → Prop
  | .ret a => Q a
  | .raise _ => True
  | .call c k => G.Allows held c ∧ ∀ r, G.Fits c r → Within G held Q (k r)

section Within
variable {G : Guard S L W} {held : Option L} {Q : A → Prop} {R : B → Prop}

theorem within_invoke {c : S.Call} {Q : S.Resp c → Prop} (h : G.Allows held c)
    (hQ : ∀ a, G.replies c a → Q a) : Within G held Q (.invoke c : Prog S E _) := by
  refine ⟨h, fun r hr => ?_⟩
  rcases r with e | a
  · trivial
  · exact hQ a (hr a rfl)

theorem within_of_uses {p : Prog S E A} (h : Uses (G.Allows held) p) :
    Within G held (fun _ => True) p := by
  induction p with
  | ret a => trivial
  | raise e => trivial
  | call c k ih => exact ⟨h.1, fun r _ => ih r (h.2 r)⟩

theorem Within.mono {Q' : A → Prop} {p : Prog S E A} (hp : Within G held Q p) (h : ∀ a, Q a → Q' a) :
    Within G held Q' p := by
  induction p with
  | ret a => exact h a hp
  | raise e => trivial
  | call c k ih => exact ⟨hp.1, fun r hr => ih r (hp.2 r hr)⟩

theorem Within.bind {p : Prog S E A} {f : A → Prog S E B} (hp : Within G held Q p)
    (hf : ∀ a, Q a → Within G held R (f a)) : Within G held R (p >>= f) := by
  induction p with
  | ret a => exact hf a hp
  | raise e => trivial
  | call c k ih => exact ⟨hp.1, fun r hr => ih r (hp.2 r hr)⟩

theorem Within.attempt {p : Prog S E A} (hp : Within G held Q p) :
    Within G held (fun r => ∀ a, r = .ok a → Q a) p.attempt := by
  induction p with
  | ret a =>
    rintro _ ⟨⟩
    exact hp
  | raise e => rintro _ ⟨⟩
  | call c k ih => exact ⟨hp.1, fun r hr => ih r (hp.2 r hr)⟩

theorem Within.except {p : Prog S E A} {g : E → Prog S E A} (hp : Within G held Q p)
    (hg : ∀ e, Within G held Q (g e)) : Within G held Q (p.except g) :=
  hp.attempt.bind fun r hr => by
    rcases r with e | a
    · exact hg e
    · exact hr a rfl

end Within

/-- **A task that obeys the locks**, from holding `held` on to holding `post`: it takes a lock while it
holds none, gives back the one it holds, and makes and hands over nothing but what is allowed; what it
returns is in `Q`. Where `free`, it hands over only what is allowed without a lock. -/
inductive Follows (G : Guard S L W) (free : Prop) (post : Option L) (Q : A → Prop) :
    Option L → Task S E A → Prop where
  | ret {a : A} (returned : Q a) : Follows G free post Q post (.ret a)
  | raise (e : E) : Follows G free post Q post (.raise e)
  | plain {held : Option L} {c : S.Call} {k : Except E (S.Resp c) → Task S E A}
      (allowed : G.Allows held c) (rest : ∀ r, G.Fits c r → Follows G free post Q held (k r)) :
      Follows G free post Q held (.call (S := taskSig S E) (.call c) k)
  | acquire {l : L} {c : S.Call} {k : Except E (S.Resp c) → Task S E A} (use : G.use c = .acquire l)
      (taken : ∀ a, Follows G free post Q (some l) (k (.ok a)))
      (missed : ∀ e, Follows G free post Q none (k (.error e))) :
      Follows G free post Q none (.call (S := taskSig S E) (.call c) k)
  | release {l : L} {c : S.Call} {k : Except E (S.Resp c) → Task S E A} (use : G.use c = .release l)
      (rest : ∀ r, Follows G free post Q none (k r)) :
      Follows G free post Q (some l) (.call (S := taskSig S E) (.call c) k)
  | to_thread {held : Option L} {p : Prog S E Unit} {k : Except E Unit → Task S E A}
      (work : Within G held (fun _ => True) p) (alone : free → Within G none (fun _ => True) p)
      (rest : ∀ r, Follows G free post Q held (k r)) :
      Follows G free post Q held (.call (S := taskSig S E) (.to_thread p) k)

section Follows
variable {G : Guard S L W} {free : Prop} {held mid post : Option L} {Q : A → Prop} {R : B → Prop}

theorem follows_lift {p : Prog S E A} (h : Within G held Q p) : Follows G free held Q held (lift p) := by
  induction p with
  | ret a => exact .ret h
  | raise e => exact .raise e
  | call c k ih => exact .plain h.1 fun r hr => ih r (h.2 r hr)

theorem follows_to_thread {p : Prog S E Unit} (h : Within G held (fun _ => True) p)
    (alone : free → Within G none (fun _ => True) p) :
    Follows G free held (fun _ => True) held (to_thread p) :=
  .to_thread h alone fun r => by
    rcases r with e | a
    · exact .raise e
    · exact .ret trivial

theorem Follows.bind {p : Task S E A} {f : A → Task S E B} (hp : Follows G free mid Q held p)
    (hf : ∀ a, Q a → Follows G free mid R mid (f a)) : Follows G free mid R held (p >>= f) := by
  induction hp with
  | ret returned => exact hf _ returned
  | raise e => exact .raise e
  | plain allowed _ ih => exact .plain allowed ih
  | acquire use _ _ ih1 ih2 => exact .acquire use ih1 ih2
  | release use _ ih => exact .release use ih
  | to_thread work alone _ ih => exact .to_thread work alone ih

theorem Follows.attempt {p : Task S E A} (hp : Follows G free mid Q held p) :
    Follows G free mid (fun r => ∀ a, r = .ok a → Q a) held p.attempt := by
  induction hp with
  | ret returned => exact .ret fun a ha => by cases ha; exact returned
  | raise e => exact .ret fun a ha => by cases ha
  | plain allowed _ ih => exact .plain allowed ih
  | acquire use _ _ ih1 ih2 => exact .acquire use ih1 ih2
  | release use _ ih => exact .release use ih
  | to_thread work alone _ ih => exact .to_thread work alone ih

theorem Follows.except {p : Task S E A} {g : E → Task S E A} (hp : Follows G free mid Q held p)
    (hg : ∀ e, Follows G free mid Q mid (g e)) : Follows G free mid Q held (p.except g) :=
  hp.attempt.bind fun r hr => by
    rcases r with e | a
    · exact hg e
    · exact .ret (hr a rfl)

/-- **A `finally`**: its body, and then what follows it however the body ended. -/
theorem Follows.finallyDo {p : Task S E A} {g : Task S E Unit} (hp : Follows G free mid Q held p)
    (hg : Follows G free post (fun _ => True) mid g) : Follows G free post Q held (p.finallyDo g) := by
  induction hp with
  | ret returned => exact hg.bind fun _ _ => .ret returned
  | raise e => exact hg.bind fun _ _ => .raise e
  | plain allowed _ ih => exact .plain allowed ih
  | acquire use _ _ ih1 ih2 => exact .acquire use ih1 ih2
  | release use _ ih => exact .release use ih
  | to_thread work alone _ ih => exact .to_thread work alone ih

end Follows

/-- **The tasks obey the locks**: `held` is what each holds, and so is its worker allowed; the orphans
are allowed without, and so are the workers of the tasks in `F`. -/
structure Kept (G : Guard S L W) (F : ℕ → Prop) (g : State S E A W) (held : ℕ → Option L) : Prop where
  follows : ∀ i, Follows G (F i) none (fun _ => True) (held i) (g.tasks i)
  holder : ∀ i l, G.holder g.world l = some i ↔ held i = some l
  busy : ∀ i q, g.busy i = some q → Within G (held i) (fun _ => True) q
  waits : ∀ i q, g.busy i = some q →
    ∃ p k, g.tasks i = .call (S := taskSig S E) (.to_thread p) k
  orphans : ∀ x ∈ g.orphans, Within G none (fun _ => True) x.2
  idle : ∀ i q, F i → g.busy i = some q → Within G none (fun _ => True) q

section Kept
variable {G : Guard S L W} {Λ : Loop S E W} {F : ℕ → Prop} {g g' : State S E A W}
  {held : ℕ → Option L} {m : Mark S E W}

/-- A task that takes a free lock holds it, and no other task does. -/
theorem holder_taken [DecidableEq L] {w w' : W} (h : ∀ i l, G.holder w l = some i ↔ held i = some l)
    {i : ℕ} {l : L}
    (hi : held i = none) (hfree : G.holder w l = none)
    (hw : G.holder w' = Function.update (G.holder w) l (some i)) (j : ℕ) (l' : L) :
    G.holder w' l' = some j ↔ Function.update held i (some l) j = some l' := by
  rw [hw]
  rcases eq_or_ne l' l with rfl | hl <;> rcases eq_or_ne j i with rfl | hj
  · simp
  · rw [Function.update_self, Function.update_of_ne hj, ← h, hfree]
    exact iff_of_false (fun he => hj (Option.some.inj he).symm) (by rintro ⟨⟩)
  · rw [Function.update_of_ne hl, Function.update_self, h, hi]
    exact iff_of_false (by rintro ⟨⟩) fun he => hl (Option.some.inj he).symm
  · rw [Function.update_of_ne hl, Function.update_of_ne hj, h]

/-- A task that gives its lock back holds none, and nobody holds the lock. -/
theorem holder_given [DecidableEq L] {w w' : W} (h : ∀ i l, G.holder w l = some i ↔ held i = some l)
    {i : ℕ} {l : L}
    (hi : held i = some l) (hw : G.holder w' = Function.update (G.holder w) l none) (j : ℕ) (l' : L) :
    G.holder w' l' = some j ↔ Function.update held i none j = some l' := by
  rw [hw]
  rcases eq_or_ne l' l with rfl | hl <;> rcases eq_or_ne j i with rfl | hj
  · simp
  · rw [Function.update_self, Function.update_of_ne hj]
    refine iff_of_false (by rintro ⟨⟩) fun he => hj ?_
    exact Option.some.inj (((h j l').2 he).symm.trans ((h i l').2 hi))
  · rw [Function.update_of_ne hl, Function.update_self, h, hi]
    exact iff_of_false (fun he => hl (Option.some.inj he).symm) (by rintro ⟨⟩)
  · rw [Function.update_of_ne hl, Function.update_of_ne hj, h]

/-- A task that waits for no worker goes on. -/
theorem Kept.moved (h : Kept G F g held) {i : ℕ} {t : Task S E A} {x : Option L} {w : W}
    (hidle : g.busy i = none) (ht : Follows G (F i) none (fun _ => True) x t)
    (hw : ∀ j l, G.holder w l = some j ↔ Function.update held i x j = some l) :
    Kept G F { g with world := w, tasks := Function.update g.tasks i t } (Function.update held i x) := by
  have hne : ∀ j q, g.busy j = some q → j ≠ i := by
    rintro j q hq rfl
    rw [hidle] at hq
    cases hq
  refine ⟨fun j => ?_, hw, fun j q hq => ?_, fun j q hq => ?_, h.orphans, h.idle⟩
  · rcases eq_or_ne j i with rfl | hj
    · simpa using ht
    · simpa [Function.update_of_ne hj] using h.follows j
  · rw [Function.update_of_ne (hne j q hq)]
    exact h.busy j q hq
  · simpa only [Function.update_of_ne (hne j q hq)] using h.waits j q hq

theorem Kept.idle_of_call (h : Kept G F g held) {i : ℕ} {c : S.Call}
    {k : Except E (S.Resp c) → Task S E A} (next : g.tasks i = .call (S := taskSig S E) (.call c) k) :
    g.busy i = none := by
  rcases hb : g.busy i with _ | q
  · rfl
  · obtain ⟨p, k', hp⟩ := h.waits i q hb
    rw [next] at hp
    cases hp

/-- What a task may hand over next. -/
theorem Kept.handed (h : Kept G F g held) {i : ℕ} {p : Prog S E Unit} {k : Except E Unit → Task S E A}
    (next : g.tasks i = .call (S := taskSig S E) (.to_thread p) k) :
    Within G (held i) (fun _ => True) p ∧ (F i → Within G none (fun _ => True) p) ∧
      ∀ r, Follows G (F i) none (fun _ => True) (held i) (k r) := by
  have hf := h.follows i
  rw [next] at hf
  generalize held i = x at hf
  cases hf with
  | to_thread work alone rest => exact ⟨work, alone, rest⟩

/-- A task goes on when its wait for a worker is over, with that worker among the orphans or ended. -/
theorem Kept.resumed (h : Kept G F g held) {i : ℕ} {p : Prog S E Unit} {k : Except E Unit → Task S E A}
    (next : g.tasks i = .call (S := taskSig S E) (.to_thread p) k) (r : Except E Unit)
    {orphans : List (ℕ × Prog S E Unit)} (ho : ∀ x ∈ orphans, Within G none (fun _ => True) x.2) :
    Kept G F { g with
      tasks := Function.update g.tasks i (k r)
      busy := Function.update g.busy i none
      orphans := orphans } held := by
  obtain ⟨-, -, hrest⟩ := h.handed next
  have hbusy : ∀ j q, Function.update g.busy i none j = some q → j ≠ i ∧ g.busy j = some q := by
    intro j q hq
    rcases eq_or_ne j i with rfl | hj
    · rw [Function.update_self] at hq
      cases hq
    · rw [Function.update_of_ne hj] at hq
      exact ⟨hj, hq⟩
  refine ⟨fun j => ?_, h.holder, fun j q hq => h.busy j q (hbusy j q hq).2, fun j q hq => ?_, ho,
    fun j q hj hq => h.idle j q hj (hbusy j q hq).2⟩
  · rcases eq_or_ne j i with rfl | hj
    · simpa using hrest r
    · simpa [Function.update_of_ne hj] using h.follows j
  · simpa only [Function.update_of_ne (hbusy j q hq).1] using h.waits j q (hbusy j q hq).2

/-- A worker is at work. -/
theorem Kept.engaged (h : Kept G F g held) {i : ℕ} {p q : Prog S E Unit} {k : Except E Unit → Task S E A}
    {w : W} (next : g.tasks i = .call (S := taskSig S E) (.to_thread p) k)
    (hw : ∀ j l, G.holder w l = some j ↔ held j = some l) (hq : Within G (held i) (fun _ => True) q)
    (hfree : F i → Within G none (fun _ => True) q) :
    Kept G F { g with world := w, busy := Function.update g.busy i (some q) } held := by
  have hbusy : ∀ j q', Function.update g.busy i (some q) j = some q' →
      (j = i ∧ q' = q) ∨ (j ≠ i ∧ g.busy j = some q') := by
    intro j q' hq'
    rcases eq_or_ne j i with rfl | hj
    · rw [Function.update_self] at hq'
      exact Or.inl ⟨rfl, (Option.some.inj hq').symm⟩
    · rw [Function.update_of_ne hj] at hq'
      exact Or.inr ⟨hj, hq'⟩
  refine ⟨h.follows, hw, fun j q' hq' => ?_, fun j q' hq' => ?_, h.orphans, fun j q' hj hq' => ?_⟩
  · rcases hbusy j q' hq' with ⟨rfl, rfl⟩ | ⟨-, hq'⟩
    · exact hq
    · exact h.busy j q' hq'
  · rcases hbusy j q' hq' with ⟨rfl, rfl⟩ | ⟨-, hq'⟩
    · exact ⟨p, k, next⟩
    · exact h.waits j q' hq'
  · rcases hbusy j q' hq' with ⟨rfl, rfl⟩ | ⟨-, hq'⟩
    · exact hfree hj
    · exact h.idle j q' hj hq'

/-- **A step keeps the obedience of the tasks**, unless it cancels a wait for a worker that needs a
lock. -/
theorem Kept.step [DecidableEq L] (hG : G.Sound Λ) (h : Kept G F g held) (hs : Step Λ g m g')
    (hF : ∀ i, m = .abandoned i → F i) : ∃ held', Kept G F g' held' := by
  have hplain : ∀ {i c r w}, G.use c = .plain → Λ.machine.Answers i c g.world r w →
      ∀ j l, G.holder w l = some j ↔ held j = some l := fun hc ha j l => by
    rw [hG.plain _ _ _ _ _ hc ha]
    exact h.holder j l
  cases hs with
  | @made i c k r w next answer =>
    have hidle := h.idle_of_call next
    have hf := h.follows i
    rw [next] at hf
    generalize hx : held i = x at hf
    cases hf with
    | plain allowed rest =>
      refine ⟨_, h.moved hidle (rest r (hG.replies _ _ _ _ _ answer)) fun j l => ?_⟩
      rw [← hx, Function.update_eq_self]
      exact hplain allowed.1 answer j l
    | @acquire l _ _ use taken missed =>
      rcases hG.acquire _ _ _ _ _ _ use answer with ⟨a, rfl, hnone, hw⟩ | ⟨e, rfl, hw⟩
      · exact ⟨_, h.moved hidle (taken a) (holder_taken h.holder hx hnone hw)⟩
      · refine ⟨_, h.moved hidle (missed e) fun j l => ?_⟩
        rw [← hx, Function.update_eq_self, hw]
        exact h.holder j l
    | @release l _ _ use rest =>
      exact ⟨_, h.moved hidle (rest r) (holder_given h.holder hx
        (hG.release _ _ _ _ _ _ use answer))⟩
  | @cancelled i c k next waits =>
    have hf := h.follows i
    rw [next] at hf
    generalize hx : held i = x at hf
    have hmoved : Follows G (F i) none (fun _ => True) x (k (.error Λ.cancelled)) →
        ∃ held', Kept G F { g with tasks := Function.update g.tasks i (k (.error Λ.cancelled)) } held' :=
      fun hk => ⟨_, h.moved (h.idle_of_call next) hk (fun j l => by
        rw [← hx, Function.update_eq_self]
        exact h.holder j l)⟩
    cases hf with
    | plain allowed rest => exact hmoved (rest _ fun a ha => by cases ha)
    | acquire use taken missed => exact hmoved (missed _)
    | @release l _ _ use rest => exact absurd use (hG.waits _ _ waits)
  | @started i p k next idle =>
    obtain ⟨hp, halone, -⟩ := h.handed next
    exact ⟨held, h.engaged next h.holder hp halone⟩
  | @worked i c k r w busy answer =>
    obtain ⟨p, k', next⟩ := h.waits i _ busy
    obtain ⟨hc, hk⟩ := h.busy i _ busy
    have hr := hG.replies _ _ _ _ _ answer
    exact ⟨held, h.engaged next (hplain hc.1 answer) (hk r hr) fun hi => (h.idle i _ hi busy).2 r hr⟩
  | @joined i p k o next busy => exact ⟨held, h.resumed next o h.orphans⟩
  | @abandoned i p q k next busy =>
    refine ⟨held, h.resumed next _ fun x hx => ?_⟩
    rcases List.mem_cons.1 hx with rfl | hx
    · exact h.idle i q (hF i rfl) busy
    · exact h.orphans x hx
  | @strayed i c k r w before after orphan answer =>
    have hmem := h.orphans
    rw [orphan] at hmem
    obtain ⟨hc, hk⟩ := hmem (i, .call c k) (by simp)
    refine ⟨held, ⟨h.follows, hplain hc.1 answer, h.busy, h.waits, fun x hx => ?_, h.idle⟩⟩
    rcases List.mem_append.1 hx with hx | hx
    · exact hmem x (List.mem_append_left _ hx)
    · rcases List.mem_cons.1 hx with rfl | hx
      · exact hk r (hG.replies _ _ _ _ _ answer)
      · exact hmem x (List.mem_append_right _ (List.mem_cons_of_mem _ hx))

/-- **A call that needs a lock is made while its task holds the lock.** -/
theorem Kept.needs [DecidableEq L] (hG : G.Sound Λ) (h : Kept G F g held) {e : Event S E W}
    (hs : Step Λ g (.made e) g') {l : L} (hl : G.needs e.call l) :
    G.holder e.before l = some e.tid := by
  have huse := hG.needs _ _ hl
  cases hs with
  | @made i c k r w next answer =>
    have hf := h.follows i
    rw [next] at hf
    generalize hx : held i = x at hf
    cases hf with
    | plain allowed rest => exact (h.holder i l).2 (hx.trans (allowed.2 l hl))
    | acquire use taken missed => cases huse.symm.trans use
    | release use rest => cases huse.symm.trans use
  | @worked i c k r w busy answer => exact (h.holder i l).2 ((h.busy i _ busy).1.2 l hl)
  | @strayed i c k r w before after orphan answer =>
    have hmem := h.orphans
    rw [orphan] at hmem
    cases (hmem (i, .call c k) (by simp)).1.2 l hl

/-- **In a run of tasks that obey the locks, every call that needs a lock is made while its task holds
it**, where each wait that was cancelled was of a task that hands over nothing that needs a lock. -/
theorem Run.guarded [DecidableEq L] (hG : G.Sound Λ) {w : W} {tasks : ℕ → Task S E A}
    (hfollows : ∀ i, Follows G (F i) none (fun _ => True) none (tasks i))
    (hfree : ∀ l, G.holder w l = none) {tr : List (Mark S E W)} (hrun : Run Λ (.start w tasks) tr g')
    (habandoned : ∀ i, .abandoned i ∈ tr → F i) :
    ∀ e, .made e ∈ tr → ∀ l, G.needs e.call l → G.holder e.before l = some e.tid := by
  have hstart : Kept G F (.start w tasks) fun _ => none :=
    ⟨hfollows, fun i l => iff_of_false (by rw [State.start, hfree]; rintro ⟨⟩) (by rintro ⟨⟩),
      by rintro i q ⟨⟩, by rintro i q ⟨⟩, fun x hx => absurd hx List.not_mem_nil, by rintro i q - ⟨⟩⟩
  have hrun' : (∃ held, Kept G F g' held) ∧
      ∀ e, .made e ∈ tr → ∀ l, G.needs e.call l → G.holder e.before l = some e.tid := by
    induction hrun with
    | refl => exact ⟨⟨_, hstart⟩, fun e he => absurd he List.not_mem_nil⟩
    | @step tr g1 g2 m run next ih =>
      obtain ⟨⟨held, hk⟩, hall⟩ := ih fun i hi => habandoned i (List.mem_append_left _ hi)
      refine ⟨hk.step hG next fun i hi => habandoned i (by rw [hi]; simp), fun e he l hl => ?_⟩
      rcases List.mem_append.1 he with he | he
      · exact hall e he l hl
      · obtain rfl := List.mem_singleton.1 he
        exact hk.needs hG next hl
  exact hrun'.2

end Kept

/-! ### Runs along a schedule -/

/-- Who moves: a task or the worker it waits for, a task whose wait is cancelled, or the newest
orphan. -/
inductive Move : Type where
  | act (i : ℕ)
  | cancel (i : ℕ)
  | stray

/-- A call that is made, with what goes on from its answer. -/
def Loop.make (Λ : Loop S E W) (g : State S E A W) (i : ℕ) (c : S.Call)
    (k : Except E (S.Resp c) → W → State S E A W) : Option (Mark S E W × State S E A W) :=
  if Λ.machine.ready i c g.world then
    some (.made ⟨i, c, (Λ.machine.exec i c g.world).1, g.world, (Λ.machine.exec i c g.world).2⟩,
      k (Λ.machine.exec i c g.world).1 (Λ.machine.exec i c g.world).2)
  else none

/-- The move of a schedule, if it can be made. -/
def Loop.move (Λ : Loop S E W) (g : State S E A W) : Move → Option (Mark S E W × State S E A W)
  | .act i =>
    match g.tasks i, g.busy i with
    | .call (.call c) k, _ =>
      Λ.make g i c fun r w => { g with world := w, tasks := Function.update g.tasks i (k r) }
    | .call (.to_thread p) _, none =>
      some (.started i, { g with busy := Function.update g.busy i (some p) })
    | .call (.to_thread _) _, some (.call c k) =>
      Λ.make g i c fun r w => { g with world := w, busy := Function.update g.busy i (some (k r)) }
    | _, _ => none
  | .cancel i =>
    match g.tasks i, g.busy i with
    | .call (.to_thread _) k, some q => some (.abandoned i, { g with
        tasks := Function.update g.tasks i (k (.error Λ.cancelled))
        busy := Function.update g.busy i none
        orphans := (i, q) :: g.orphans })
    | _, _ => none
  | .stray =>
    match g.orphans with
    | (i, .call c k) :: rest =>
      Λ.make g i c fun r w => { g with world := w, orphans := (i, k r) :: rest }
    | _ => none

/-- What a schedule plays: the marks, and what they lead to. -/
def Loop.play (Λ : Loop S E W) : List Move → State S E A W → Option (List (Mark S E W) × State S E A W)
  | [], g => some ([], g)
  | move :: moves, g =>
    (Λ.move g move).bind fun x => (Λ.play moves x.2).map fun y => (x.1 :: y.1, y.2)

section Play
variable {Λ : Loop S E W} {g g' g'' : State S E A W} {m : Mark S E W} {tr tr' : List (Mark S E W)}

theorem Loop.make_eq_some {i : ℕ} {c : S.Call} {k : Except E (S.Resp c) → W → State S E A W}
    (h : Λ.make g i c k = some (m, g')) : ∃ r w, Λ.machine.Answers i c g.world r w ∧
      m = .made ⟨i, c, r, g.world, w⟩ ∧ g' = k r w := by
  rw [Loop.make] at h
  split_ifs at h with hr
  obtain ⟨rfl, rfl⟩ := Prod.mk.inj (Option.some.inj h)
  exact ⟨_, _, Machine.answers_exec hr, rfl, rfl⟩

theorem Loop.move_step {move : Move} (h : Λ.move g move = some (m, g')) : Step Λ g m g' := by
  cases move with
  | act i =>
    rw [Loop.move] at h
    split at h
    · next c k next =>
      obtain ⟨r, w, answer, rfl, rfl⟩ := Loop.make_eq_some h
      exact .made next answer
    · next p k next busy =>
      obtain ⟨rfl, rfl⟩ := Prod.mk.inj (Option.some.inj h)
      exact .started next busy
    · next c k next busy =>
      obtain ⟨r, w, answer, rfl, rfl⟩ := Loop.make_eq_some h
      exact .worked busy answer
    · cases h
  | cancel i =>
    rw [Loop.move] at h
    split at h
    · next p k q next busy =>
      obtain ⟨rfl, rfl⟩ := Prod.mk.inj (Option.some.inj h)
      exact .abandoned next busy
    · cases h
  | stray =>
    rw [Loop.move] at h
    split at h
    · next i c k rest orphan =>
      obtain ⟨r, w, answer, rfl, rfl⟩ := Loop.make_eq_some h
      have orphan' : g.orphans = [] ++ (i, .call c k) :: rest := orphan
      exact .strayed orphan' answer
    · cases h

theorem Run.trans (h : Run Λ g tr g') (h' : Run Λ g' tr' g'') : Run Λ g (tr ++ tr') g'' := by
  induction h' with
  | refl => rw [List.append_nil]; exact h
  | step _ next ih => rw [← List.append_assoc]; exact ih.step next

/-- **What a schedule plays is a run.** -/
theorem Loop.play_run {moves : List Move} (h : Λ.play moves g = some (tr, g')) : Run Λ g tr g' := by
  induction moves generalizing g tr with
  | nil =>
    obtain ⟨rfl, rfl⟩ := Prod.mk.inj (Option.some.inj h)
    exact .refl
  | cons move moves ih =>
    obtain ⟨⟨m, g1⟩, h1, h2⟩ := Option.bind_eq_some_iff.1 h
    obtain ⟨⟨tr', g2⟩, h3, h4⟩ := Option.map_eq_some_iff.1 h2
    obtain ⟨rfl, rfl⟩ := Prod.mk.inj h4
    exact (Run.refl.step (Loop.move_step h1)).trans (ih h3)

end Play

end PaperBoxing.Lib.Workers
