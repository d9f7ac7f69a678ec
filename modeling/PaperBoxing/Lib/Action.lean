import Mathlib

/-! # Actions: state transformers that may raise

An action on states `W` returns a value or raises an exception, and leaves a state in either case:
what was changed before the exception stays changed, as in a language with exceptions and mutable
state. `attempt` reifies the outcome, and `try … except` is `attempt` followed by a case split. -/

namespace PaperBoxing.Lib.Action

variable {E W A B C : Type}

/-- **An action**: from a state, an outcome and the state it leaves. -/
def Act (E W A : Type) : Type := W → Except E A × W

namespace Act

/-- Return a value and leave the state alone. -/
def ret (a : A) : Act E W A := fun w => (.ok a, w)

/-- Raise and leave the state alone. -/
def raise (e : E) : Act E W A := fun w => (.error e, w)

/-- Sequence: the second action runs on the state the first one left, unless that one raised. -/
def bind (x : Act E W A) (f : A → Act E W B) : Act E W B := fun w =>
  match x w with
  | (.ok a, w') => f a w'
  | (.error e, w') => (.error e, w')

/-- Run an action and return its outcome as a value. -/
def attempt (x : Act E W A) : Act E W (Except E A) := fun w => (.ok (x w).1, (x w).2)

/-- Read the state. -/
def get : Act E W W := fun w => (.ok w, w)

/-- Change the state. -/
def modify (f : W → W) : Act E W Unit := fun w => (.ok (), f w)

/-- Return or raise a given outcome. -/
def ofExcept : Except E A → Act E W A
  | .ok a => ret a
  | .error e => raise e

instance : Monad (Act E W) where
  pure := ret
  bind := bind

@[simp] theorem pure_apply (a : A) (w : W) : (pure a : Act E W A) w = (.ok a, w) := rfl

@[simp] theorem ret_apply (a : A) (w : W) : (ret a : Act E W A) w = (.ok a, w) := rfl

@[simp] theorem raise_apply (e : E) (w : W) : (raise e : Act E W A) w = (.error e, w) := rfl

@[simp] theorem attempt_apply (x : Act E W A) (w : W) : attempt x w = (.ok (x w).1, (x w).2) := rfl

@[simp] theorem get_apply (w : W) : (get : Act E W W) w = (.ok w, w) := rfl

@[simp] theorem modify_apply (f : W → W) (w : W) : (modify f : Act E W Unit) w = (.ok (), f w) := rfl

@[simp] theorem ofExcept_ok (a : A) (w : W) : (ofExcept (.ok a) : Act E W A) w = (.ok a, w) := rfl

@[simp] theorem ofExcept_error (e : E) (w : W) :
    (ofExcept (.error e) : Act E W A) w = (.error e, w) := rfl

theorem bind_apply (x : Act E W A) (f : A → Act E W B) (w : W) :
    (x >>= f) w = match x w with
      | (.ok a, w') => f a w'
      | (.error e, w') => (.error e, w') := rfl

theorem bind_of_ok {x : Act E W A} {f : A → Act E W B} {w w' : W} {a : A}
    (h : x w = (.ok a, w')) : (x >>= f) w = f a w' := by
  rw [bind_apply, h]

theorem bind_of_error {x : Act E W A} {f : A → Act E W B} {w w' : W} {e : E}
    (h : x w = (.error e, w')) : (x >>= f) w = (.error e, w') := by
  rw [bind_apply, h]

end Act

end PaperBoxing.Lib.Action
