import PaperBoxing.Lib.Action

/-! # Programs over calls

A program is a tree of calls to its surroundings (an operating system, a database, a lock). Each
call is answered by a value or an exception, and the rest of the program depends on the answer.
The one text of a program then has several meanings: `run` executes it alone against a handler of
its calls, and `Lib.Threads` interleaves several programs call by call, with failing calls.

* `run_bind`, `run_attempt`: the meaning of a sequence and of a `try`;
* `Uses P p`: every call the program can make satisfies `P`, whatever the answers were;
  `run_preserves`: a property kept by those calls is kept by the run;
* `Returns Q p`: every value the program can return satisfies `Q`;
* `Throughout`: a property that holds at every moment of a run; `Throughout.bind` and the like;
* `Local`: a program whose calls read and write one part of the state only; `run_local`: its run is
  the run on that part. -/

namespace PaperBoxing.Lib.Program

open PaperBoxing.Lib.Action

/-- The calls a program may make, and the type of each call's answer. -/
structure Sig where
  Call : Type
  Resp : Call → Type

variable {S : Sig} {E A B C W V : Type}

/-- **A program**: it returns, raises, or makes a call and goes on with the answer. -/
inductive Prog (S : Sig) (E A : Type) : Type where
  | ret (a : A)
  | raise (e : E)
  | call (c : S.Call) (k : Except E (S.Resp c) → Prog S E A)

namespace Prog

/-- Sequence. -/
def bind : Prog S E A → (A → Prog S E B) → Prog S E B
  | ret a, f => f a
  | raise e, _ => raise e
  | call c k, f => call c fun r => (k r).bind f

/-- Run a program and return its outcome as a value: the body of a `try`. -/
def attempt : Prog S E A → Prog S E (Except E A)
  | ret a => ret (.ok a)
  | raise e => ret (.error e)
  | call c k => call c fun r => (k r).attempt

/-- Return or raise a given outcome. -/
def ofExcept : Except E A → Prog S E A
  | .ok a => ret a
  | .error e => raise e

/-- Make one call; an exception it is answered with is raised. -/
def invoke (c : S.Call) : Prog S E (S.Resp c) := call c ofExcept

instance : Monad (Prog S E) where
  pure := ret
  bind := bind

/-- `try p finally f`: `f` runs after `p` whether or not `p` raised. -/
def finallyDo (p : Prog S E A) (f : Prog S E Unit) : Prog S E A :=
  p.attempt >>= fun r => f >>= fun _ => ofExcept r

/-- `try p except e: h e`. -/
def except (p : Prog S E A) (h : E → Prog S E A) : Prog S E A :=
  p.attempt >>= fun r => match r with
    | .ok a => ret a
    | .error e => h e

@[simp] theorem ret_bind (a : A) (f : A → Prog S E B) : (ret a : Prog S E A) >>= f = f a := rfl

@[simp] theorem pure_eq (a : A) : (pure a : Prog S E A) = ret a := rfl

@[simp] theorem raise_bind (e : E) (f : A → Prog S E B) :
    (raise e : Prog S E A) >>= f = raise e := rfl

theorem call_bind (c : S.Call) (k : Except E (S.Resp c) → Prog S E A) (f : A → Prog S E B) :
    call c k >>= f = call c fun r => k r >>= f := rfl

@[simp] theorem bind_eq (p : Prog S E A) (f : A → Prog S E B) : p.bind f = p >>= f := rfl

theorem bind_assoc (p : Prog S E A) (f : A → Prog S E B) (g : B → Prog S E C) :
    p >>= f >>= g = p >>= fun a => f a >>= g := by
  induction p with
  | ret a => rfl
  | raise e => rfl
  | call c k ih =>
    rw [call_bind, call_bind, call_bind]
    exact congrArg _ (funext ih)

end Prog

open Prog

/-! ### Running a program alone -/

/-- **The run**: every call is executed by the handler `h`, on the state the one before left. -/
def run (h : (c : S.Call) → Act E W (S.Resp c)) : Prog S E A → Act E W A
  | .ret a => Act.ret a
  | .raise e => Act.raise e
  | .call c k => fun w => run h (k (h c w).1) (h c w).2

section Run
variable (h : (c : S.Call) → Act E W (S.Resp c))

@[simp] theorem run_ret (a : A) (w : W) : run h (.ret a : Prog S E A) w = (.ok a, w) := rfl

@[simp] theorem run_raise (e : E) (w : W) : run h (.raise e : Prog S E A) w = (.error e, w) := rfl

theorem run_call (c : S.Call) (k : Except E (S.Resp c) → Prog S E A) (w : W) :
    run h (.call c k) w = run h (k (h c w).1) (h c w).2 := rfl

@[simp] theorem run_ofExcept (r : Except E A) (w : W) :
    run h (ofExcept r : Prog S E A) w = (r, w) := by
  cases r <;> rfl

@[simp] theorem run_invoke (c : S.Call) (w : W) : run h (invoke c) w = h c w := by
  rw [invoke, run_call, run_ofExcept]

/-- **A sequence runs in sequence.** -/
theorem run_bind (p : Prog S E A) (f : A → Prog S E B) (w : W) :
    run h (p >>= f) w = match run h p w with
      | (.ok a, w') => run h (f a) w'
      | (.error e, w') => (.error e, w') := by
  induction p generalizing w with
  | ret a => rfl
  | raise e => rfl
  | call c k ih => rw [call_bind, run_call, run_call, ih]

theorem run_bind_of_ok {p : Prog S E A} {f : A → Prog S E B} {w w' : W} {a : A}
    (hp : run h p w = (.ok a, w')) : run h (p >>= f) w = run h (f a) w' := by
  rw [run_bind, hp]

theorem run_bind_of_error {p : Prog S E A} {f : A → Prog S E B} {w w' : W} {e : E}
    (hp : run h p w = (.error e, w')) : run h (p >>= f) w = (.error e, w') := by
  rw [run_bind, hp]

/-- **What a sequence that returned did**: its first part returned. -/
theorem run_bind_inv {p : Prog S E A} {f : A → Prog S E B} {w w' : W} {b : B}
    (hp : run h (p >>= f) w = (.ok b, w')) :
    ∃ a w1, run h p w = (.ok a, w1) ∧ run h (f a) w1 = (.ok b, w') := by
  rw [run_bind] at hp
  rcases hr : run h p w with ⟨e | a, w1⟩
  · rw [hr] at hp
    cases (Prod.mk.inj hp).1
  · rw [hr] at hp
    exact ⟨a, w1, rfl, hp⟩

/-- **A `try` body runs as the program does**, and its outcome becomes a value. -/
@[simp] theorem run_attempt (p : Prog S E A) (w : W) :
    run h p.attempt w = (.ok (run h p w).1, (run h p w).2) := by
  induction p generalizing w with
  | ret a => rfl
  | raise e => rfl
  | call c k ih => rw [attempt, run_call, run_call, ih]

theorem run_finallyDo (p : Prog S E A) (f : Prog S E Unit) (w : W) :
    run h (p.finallyDo f) w = match run h f (run h p w).2 with
      | (.ok _, w') => ((run h p w).1, w')
      | (.error e, w') => (.error e, w') := by
  rw [finallyDo, run_bind, run_attempt]
  simp only [run_bind, run_ofExcept]
  rcases run h f (run h p w).2 with ⟨_ | _, w'⟩ <;> rfl

theorem run_except (p : Prog S E A) (g : E → Prog S E A) (w : W) :
    run h (p.except g) w = match run h p w with
      | (.ok a, w') => (.ok a, w')
      | (.error e, w') => run h (g e) w' := by
  rw [Prog.except, run_bind, run_attempt]
  rcases run h p w with ⟨_ | _, w'⟩ <;> rfl

theorem run_except_of_ok {p : Prog S E A} {g : E → Prog S E A} {w w' : W} {a : A}
    (hp : run h p w = (.ok a, w')) : run h (p.except g) w = (.ok a, w') := by
  rw [run_except, hp]

theorem run_except_of_error {p : Prog S E A} {g : E → Prog S E A} {w w' : W} {e : E}
    (hp : run h p w = (.error e, w')) : run h (p.except g) w = run h (g e) w' := by
  rw [run_except, hp]

end Run

/-! ### The calls a program can make -/

/-- **Every call the program can make satisfies `P`**, whatever it was answered. -/
def Uses (P : S.Call → Prop) : Prog S E A → Prop
  | .ret _ => True
  | .raise _ => True
  | .call c k => P c ∧ ∀ r, Uses P (k r)

section Uses
variable {P Q : S.Call → Prop}

@[simp] theorem uses_ret (a : A) : Uses P (.ret a : Prog S E A) := trivial

@[simp] theorem uses_raise (e : E) : Uses P (.raise e : Prog S E A) := trivial

@[simp] theorem uses_ofExcept (r : Except E A) : Uses P (ofExcept r : Prog S E A) := by
  cases r <;> trivial

@[simp] theorem uses_invoke (c : S.Call) : Uses P (invoke c : Prog S E _) ↔ P c :=
  ⟨fun h => h.1, fun h => ⟨h, uses_ofExcept⟩⟩

theorem Uses.bind {p : Prog S E A} {f : A → Prog S E B} (hp : Uses P p) (hf : ∀ a, Uses P (f a)) :
    Uses P (p >>= f) := by
  induction p with
  | ret a => exact hf a
  | raise e => trivial
  | call c k ih => exact ⟨hp.1, fun r => ih r (hp.2 r)⟩

theorem Uses.attempt {p : Prog S E A} (hp : Uses P p) : Uses P p.attempt := by
  induction p with
  | ret a => trivial
  | raise e => trivial
  | call c k ih => exact ⟨hp.1, fun r => ih r (hp.2 r)⟩

theorem Uses.finallyDo {p : Prog S E A} {f : Prog S E Unit} (hp : Uses P p) (hf : Uses P f) :
    Uses P (p.finallyDo f) :=
  hp.attempt.bind fun _ => hf.bind fun _ => uses_ofExcept _

theorem Uses.except {p : Prog S E A} {g : E → Prog S E A} (hp : Uses P p)
    (hg : ∀ e, Uses P (g e)) : Uses P (p.except g) :=
  hp.attempt.bind fun r => by
    cases r with
    | ok a => trivial
    | error e => exact hg e

theorem Uses.mono {p : Prog S E A} (hp : Uses P p) (h : ∀ c, P c → Q c) : Uses Q p := by
  induction p with
  | ret a => trivial
  | raise e => trivial
  | call c k ih => exact ⟨h c hp.1, fun r => ih r (hp.2 r)⟩

theorem uses_of_all (h : ∀ c, P c) (p : Prog S E A) : Uses P p := by
  induction p with
  | ret a => trivial
  | raise e => trivial
  | call c k ih => exact ⟨h c, ih⟩

/-- **A property kept by every call a program makes is kept by its run.** -/
theorem run_preserves {h : (c : S.Call) → Act E W (S.Resp c)} {I : W → Prop}
    (hI : ∀ c, P c → ∀ w, I w → I (h c w).2) {p : Prog S E A} (hp : Uses P p) {w : W} (hw : I w) :
    I (run h p w).2 := by
  induction p generalizing w with
  | ret a => exact hw
  | raise e => exact hw
  | call c k ih => exact ih _ (hp.2 _) (hI c hp.1 w hw)

end Uses

/-! ### The values a program returns -/

/-- **Every value the program can return satisfies `Q`**, whatever its calls were answered. -/
def Returns (Q : A → Prop) : Prog S E A → Prop
  | .ret a => Q a
  | .raise _ => True
  | .call _ k => ∀ r, Returns Q (k r)

section Returns
variable {Q : A → Prop}

theorem Returns.bind {p : Prog S E B} {f : B → Prog S E A} (h : ∀ b, Returns Q (f b)) :
    Returns Q (p >>= f) := by
  induction p with
  | ret b => exact h b
  | raise e => trivial
  | call c k ih => exact fun r => ih r

/-- What a sequence returns, by what its first part can return. -/
theorem Returns.bind_of {P : B → Prop} {p : Prog S E B} {f : B → Prog S E A} (hp : Returns P p)
    (hf : ∀ b, P b → Returns Q (f b)) : Returns Q (p >>= f) := by
  induction p with
  | ret b => exact hf b hp
  | raise e => trivial
  | call c k ih => exact fun r => ih r (hp r)

theorem Returns.run {h : (c : S.Call) → Act E W (S.Resp c)} {p : Prog S E A} (hp : Returns Q p)
    {w w' : W} {a : A} (hrun : run h p w = (.ok a, w')) : Q a := by
  induction p generalizing w with
  | ret b =>
    obtain rfl := Except.ok.inj (Prod.mk.inj hrun).1
    exact hp
  | raise e => cases (Prod.mk.inj hrun).1
  | call c k ih => exact ih _ (hp _) hrun

end Returns

/-! ### The moments of a run -/

/-- **`I` holds at every moment of the run**: whenever a call is made, and at the end. -/
def Throughout (h : (c : S.Call) → Act E W (S.Resp c)) (I : W → Prop) : Prog S E A → W → Prop
  | .ret _, w => I w
  | .raise _, w => I w
  | .call c k, w => I w ∧ Throughout h I (k (h c w).1) (h c w).2

section Throughout
variable {h : (c : S.Call) → Act E W (S.Resp c)} {I : W → Prop} {p : Prog S E A} {w : W}

theorem Throughout.start (hp : Throughout h I p w) : I w := by
  cases p with
  | ret | raise => exact hp
  | call => exact hp.1

theorem Throughout.last (hp : Throughout h I p w) : I (run h p w).2 := by
  induction p generalizing w with
  | ret a => exact hp
  | raise e => exact hp
  | call c k ih => exact ih _ hp.2

/-- What every call of a program keeps holds throughout. -/
theorem throughout_of_uses {P : S.Call → Prop} (hI : ∀ c, P c → ∀ w, I w → I (h c w).2)
    (hp : Uses P p) (hw : I w) : Throughout h I p w := by
  induction p generalizing w with
  | ret a => exact hw
  | raise e => exact hw
  | call c k ih => exact ⟨hw, ih _ (hp.2 _) (hI c hp.1 w hw)⟩

theorem throughout_invoke {c : S.Call} (hw : I w) (hc : I (h c w).2) :
    Throughout h I (invoke c) w := by
  refine ⟨hw, ?_⟩
  rcases (h c w).1 with _ | _ <;> exact hc

/-- **A sequence**: throughout its first part, and then its second. -/
theorem Throughout.bind {f : A → Prog S E B} (hp : Throughout h I p w)
    (hf : ∀ a w', run h p w = (.ok a, w') → I w' → Throughout h I (f a) w') :
    Throughout h I (p >>= f) w := by
  induction p generalizing w with
  | ret a => exact hf a w rfl hp
  | raise e => exact hp
  | call c k ih => exact ⟨hp.1, ih _ hp.2 hf⟩

theorem Throughout.attempt (hp : Throughout h I p w) : Throughout h I p.attempt w := by
  induction p generalizing w with
  | ret a => exact hp
  | raise e => exact hp
  | call c k ih => exact ⟨hp.1, ih _ hp.2⟩

theorem Throughout.except {g : E → Prog S E A} (hp : Throughout h I p w)
    (hg : ∀ e w', run h p w = (.error e, w') → I w' → Throughout h I (g e) w') :
    Throughout h I (p.except g) w := by
  refine hp.attempt.bind fun r w' hr hw' => ?_
  rw [run_attempt] at hr
  obtain ⟨hok, rfl⟩ := Prod.mk.inj hr
  obtain rfl := Except.ok.inj hok
  rcases ho : (run h p w).1 with e | a
  · exact hg e _ (Prod.ext ho rfl) hw'
  · exact hw'

theorem Throughout.finallyDo {f : Prog S E Unit} (hp : Throughout h I p w)
    (hf : Throughout h I f (run h p w).2) : Throughout h I (p.finallyDo f) w := by
  refine hp.attempt.bind fun r w' hr _ => ?_
  rw [run_attempt] at hr
  obtain ⟨-, rfl⟩ := Prod.mk.inj hr
  refine hf.bind fun _ w'' _ hw => ?_
  rcases r with _ | _ <;> exact hw

end Throughout

end PaperBoxing.Lib.Program
