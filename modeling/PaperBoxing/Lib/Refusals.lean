import PaperBoxing.Lib.Threads

/-! # Calls that are refused

The surroundings of a program may refuse some of its calls: these are answered at once, most of them
by an exception, and change nothing. A program that makes no refused call runs as it does anyway.

* `refusing`: the handler that refuses, over any other;
* `run_refusing_of_along`, `run_refusing_of_uses`: a run that meets no refusal;
* `throughout_refusing`: what holds throughout such a run;
* `refusing_preserves`: what the calls of a program keep, their refusals keep. -/

namespace PaperBoxing.Lib.Refusals

open PaperBoxing.Lib.Action PaperBoxing.Lib.Program PaperBoxing.Lib.Threads

variable {S : Sig} {E A W : Type} {refused : (c : S.Call) → Option (Except E (S.Resp c))}
  {h : (c : S.Call) → Act E W (S.Resp c)} {p : Prog S E A} {w : W}

/-- **The handler `h`, but for the calls that are refused**: `refused` says what these are answered. -/
def refusing (refused : (c : S.Call) → Option (Except E (S.Resp c)))
    (h : (c : S.Call) → Act E W (S.Resp c)) (c : S.Call) : Act E W (S.Resp c) := fun w =>
  match refused c with
  | some r => (r, w)
  | none => h c w

theorem refusing_of_some {c : S.Call} {r : Except E (S.Resp c)} (hc : refused c = some r) (w : W) :
    refusing refused h c w = (r, w) := by
  rw [refusing, hc]

theorem refusing_of_none {c : S.Call} (hc : refused c = none) : refusing refused h c = h c := by
  funext w
  rw [refusing, hc]

/-- Where nothing is refused, the handler is the plain one. -/
theorem refusing_nothing (hr : ∀ c, refused c = none) : refusing refused h = h :=
  funext fun c => refusing_of_none (hr c)

/-- **What a call keeps, its refusal keeps.** -/
theorem refusing_preserves {I : W → Prop} {c : S.Call} (hI : I (h c w).2) (hw : I w) :
    I (refusing refused h c w).2 := by
  rcases hc : refused c with _ | r
  · rw [refusing_of_none hc]
    exact hI
  · rw [refusing_of_some hc]
    exact hw

/-- **A run that meets no refusal** is the plain run. -/
theorem run_refusing_of_along (hp : Along h (fun c => refused c = none) p w) :
    run (refusing refused h) p w = run h p w := by
  induction p generalizing w with
  | ret a => rfl
  | raise e => rfl
  | call c k ih =>
    rw [run_call, run_call, refusing_of_none hp.1]
    exact ih _ hp.2

theorem run_refusing_of_uses (hp : Uses (fun c => refused c = none) p) (w : W) :
    run (refusing refused h) p w = run h p w :=
  run_refusing_of_along (Along.of_uses hp w)

/-- **The moments of a run that meets no refusal** are those of the plain run. -/
theorem throughout_refusing {I : W → Prop} (hp : Along h (fun c => refused c = none) p w)
    (hI : Throughout h I p w) : Throughout (refusing refused h) I p w := by
  induction p generalizing w with
  | ret a => exact hI
  | raise e => exact hI
  | call c k ih =>
    refine ⟨hI.1, ?_⟩
    rw [refusing_of_none hp.1]
    exact ih _ hp.2 hI.2

end PaperBoxing.Lib.Refusals
