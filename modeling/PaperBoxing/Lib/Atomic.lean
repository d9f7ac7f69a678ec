import PaperBoxing.Lib.Threads

/-! # Sections that run without interruption

Where tasks take turns, a section of a program without a turn in it runs as one step. A program over
`Sections` makes such a section in one call, and `flatten` forgets where the sections were: the flat
program is the one the text says, and runs alone as the other does (`run_flatten`). `lift` is a
program with a turn at each of its calls. -/

namespace PaperBoxing.Lib.Atomic

open PaperBoxing.Lib.Action PaperBoxing.Lib.Program PaperBoxing.Lib.Threads

variable {S : Sig} {E A B W : Type}

/-- **The sections** that run without interruption, and the program of each. -/
structure Sections (S : Sig) (E : Type) where
  Block : Type
  Answer : Block → Type
  code : (b : Block) → Prog S E (Answer b)

/-- A call is a section or a single call. -/
@[reducible] def Sections.sig (bs : Sections S E) : Sig where
  Call := bs.Block ⊕ S.Call
  Resp c := match c with
    | .inl b => bs.Answer b
    | .inr c => S.Resp c

variable {bs : Sections S E}

/-- A section is executed as its program runs alone. -/
def Sections.exec (bs : Sections S E) (h : (c : S.Call) → Act E W (S.Resp c)) :
    (c : bs.sig.Call) → Act E W (bs.sig.Resp c)
  | .inl b => run h (bs.code b)
  | .inr c => h c

/-- A section, as a program. -/
def block (b : bs.Block) : Prog bs.sig E (bs.Answer b) := .invoke (S := bs.sig) (.inl b)

/-- A program with a turn at each of its calls. -/
def lift : Prog S E A → Prog bs.sig E A
  | .ret a => .ret a
  | .raise e => .raise e
  | .call c k => .call (S := bs.sig) (.inr c) fun r => lift (k r)

/-- The program without its sections. -/
def flatten : Prog bs.sig E A → Prog S E A
  | .ret a => .ret a
  | .raise e => .raise e
  | .call (.inl b) k => (bs.code b).attempt >>= fun r => flatten (k r)
  | .call (.inr c) k => .call c fun r => flatten (k r)

theorem flatten_lift (p : Prog S E A) : flatten (lift p : Prog bs.sig E A) = p := by
  induction p with
  | ret a => rfl
  | raise e => rfl
  | call c k ih => exact congrArg (Prog.call c) (funext ih)

theorem attempt_ofExcept (p : Prog S E A) : p.attempt >>= Prog.ofExcept = p := by
  induction p with
  | ret a => rfl
  | raise e => rfl
  | call c k ih => exact congrArg (Prog.call c) (funext ih)

theorem flatten_ofExcept (r : Except E A) :
    flatten (.ofExcept r : Prog bs.sig E A) = .ofExcept r := by
  cases r <;> rfl

theorem flatten_block (b : bs.Block) : flatten (block b) = bs.code b := by
  rw [block, Prog.invoke, flatten]
  simp only [flatten_ofExcept]
  exact attempt_ofExcept _

theorem flatten_bind (p : Prog bs.sig E A) (f : A → Prog bs.sig E B) :
    flatten (p >>= f) = flatten p >>= fun a => flatten (f a) := by
  induction p with
  | ret a => rfl
  | raise e => rfl
  | call c k ih =>
    rcases c with b | c
    · rw [Prog.call_bind, flatten, flatten, Prog.bind_assoc]
      simp only [ih]
    · exact congrArg (Prog.call c) (funext ih)

theorem attempt_bind (p : Prog S E A) (f : A → Prog S E B) :
    (p >>= f).attempt = p.attempt >>= fun r => match r with
      | .ok a => (f a).attempt
      | .error e => .ret (.error e) := by
  induction p with
  | ret a => rfl
  | raise e => rfl
  | call c k ih => exact congrArg (Prog.call c) (funext ih)

theorem attempt_attempt (p : Prog S E A) :
    p.attempt.attempt = p.attempt >>= fun r => .ret (.ok r) := by
  induction p with
  | ret a => rfl
  | raise e => rfl
  | call c k ih => exact congrArg (Prog.call c) (funext ih)

theorem flatten_attempt (p : Prog bs.sig E A) : flatten p.attempt = (flatten p).attempt := by
  induction p with
  | ret a => rfl
  | raise e => rfl
  | call c k ih =>
    rcases c with b | c
    · rw [Prog.attempt, flatten, flatten, attempt_bind, attempt_attempt, Prog.bind_assoc]
      exact congrArg _ (funext ih)
    · exact congrArg (Prog.call c) (funext ih)

theorem flatten_except (p : Prog bs.sig E A) (g : E → Prog bs.sig E A) :
    flatten (p.except g) = (flatten p).except fun e => flatten (g e) := by
  rw [Prog.except, Prog.except, flatten_bind, flatten_attempt]
  refine congrArg _ (funext fun r => ?_)
  cases r <;> rfl

/-- **The flat program runs alone as the one with sections does.** -/
theorem run_flatten (h : (c : S.Call) → Act E W (S.Resp c)) (p : Prog bs.sig E A) (w : W) :
    run h (flatten p) w = run (bs.exec h) p w := by
  induction p generalizing w with
  | ret a => rfl
  | raise e => rfl
  | call c k ih =>
    rcases c with b | c
    · rw [flatten, run_bind, run_attempt, run_call]
      exact ih _ _
    · exact ih _ _

theorem uses_block {P : bs.sig.Call → Prop} {b : bs.Block} (h : P (.inl b)) :
    Uses P (block b) := (uses_invoke (S := bs.sig) _).2 h

theorem uses_lift {P : bs.sig.Call → Prop} {p : Prog S E A} (h : Uses (fun c => P (.inr c)) p) :
    Uses P (lift p : Prog bs.sig E A) := by
  induction p with
  | ret a => trivial
  | raise e => trivial
  | call c k ih => exact ⟨h.1, fun r => ih r (h.2 r)⟩

end PaperBoxing.Lib.Atomic
