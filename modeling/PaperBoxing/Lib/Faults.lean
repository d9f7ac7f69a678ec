import PaperBoxing.Lib.Program

/-! # Runs in which one call may fail

`Outcome h fails p w s r w'`: the program `p`, run alone from `w`, ends with `r` in the world `w'`,
and of its calls the one that `s` names, if any, raised instead of being executed; every other call
was executed by the handler. `s` holds the call that failed and the world in which it was made.

* `outcome_none`: without a failure the outcome is the run's;
* `outcome_bind`, `outcome_attempt`, `outcome_except`: the outcomes of a sequence and of a `try`;
* `Outcome.split`, `Outcome.preserves`, `Outcome.returns`: what is known of them, whichever call fails;
* `Makes`: the calls a run makes, and the worlds in which it makes them; where nothing catches what a
  call raises, an outcome with a failure is the world in which that call is made (`Outcome.made`);
* `strike`: an outcome, computed. -/

namespace PaperBoxing.Lib.Faults

open PaperBoxing.Lib.Action PaperBoxing.Lib.Program

variable {S : Sig} {E A B W : Type} {h : (c : S.Call) → Act E W (S.Resp c)} {fails : S.Call → E → Prop}

/-- A call that failed, and the world in which it was made. -/
abbrev Failure (S : Sig) (W : Type) : Type := S.Call × W

/-- **The outcomes of a program of which at most one call fails.** -/
inductive Outcome (h : (c : S.Call) → Act E W (S.Resp c)) (fails : S.Call → E → Prop) :
    Prog S E A → W → Option (Failure S W) → Except E A → W → Prop where
  | ret {a : A} {w : W} : Outcome h fails (.ret a) w none (.ok a) w
  | raise {e : E} {w : W} : Outcome h fails (.raise e) w none (.error e) w
  /-- the call is executed -/
  | step {c : S.Call} {k : Except E (S.Resp c) → Prog S E A} {w w' : W} {s : Option (Failure S W)}
      {r : Except E A} (rest : Outcome h fails (k (h c w).1) (h c w).2 s r w') :
      Outcome h fails (.call c k) w s r w'
  /-- the call raises, and all later ones are executed -/
  | struck {c : S.Call} {k : Except E (S.Resp c) → Prog S E A} {w w' : W} {e : E} {r : Except E A}
      (fail : fails c e) (rest : run h (k (.error e)) w = (r, w')) :
      Outcome h fails (.call c k) w (some (c, w)) r w'

/-- **Without a failure the outcome is the run's.** -/
theorem outcome_none {p : Prog S E A} {w w' : W} {r : Except E A} :
    Outcome h fails p w none r w' ↔ run h p w = (r, w') := by
  induction p generalizing w with
  | ret a => exact ⟨fun | .ret => rfl, fun hr => by cases hr; exact .ret⟩
  | raise e => exact ⟨fun | .raise => rfl, fun hr => by cases hr; exact .raise⟩
  | call c k ih => exact ⟨fun | .step rest => (ih _).1 rest, fun hr => .step ((ih _).2 hr)⟩

/-- **The outcomes of a sequence**: the failure is in the first part or in the second. -/
theorem outcome_bind {p : Prog S E A} {f : A → Prog S E B} {w w' : W} {s : Option (Failure S W)}
    {r : Except E B} : Outcome h fails (p >>= f) w s r w' ↔
      (∃ r1 w1, s ≠ none ∧ Outcome h fails p w s r1 w1 ∧ match r1 with
        | .ok a => run h (f a) w1 = (r, w')
        | .error e => r = .error e ∧ w' = w1) ∨
      (∃ r1 w1, run h p w = (r1, w1) ∧ match r1 with
        | .ok a => Outcome h fails (f a) w1 s r w'
        | .error e => s = none ∧ r = .error e ∧ w' = w1) := by
  induction p generalizing w with
  | ret a =>
    constructor
    · exact fun ho => Or.inr ⟨.ok a, _, rfl, ho⟩
    · rintro (⟨_, _, hs, ho, _⟩ | ⟨_, _, hr, ho⟩)
      · cases ho
        exact absurd rfl hs
      · cases hr
        exact ho
  | raise e =>
    constructor
    · intro ho
      cases ho
      exact Or.inr ⟨.error e, _, rfl, rfl, rfl, rfl⟩
    · rintro (⟨_, _, hs, ho, _⟩ | ⟨_, _, hr, ho⟩)
      · cases ho
        exact absurd rfl hs
      · cases hr
        obtain ⟨rfl, rfl, rfl⟩ := ho
        exact .raise
  | call c k ih =>
    rw [Prog.call_bind]
    constructor
    · intro ho
      cases ho with
      | step rest =>
        rcases (ih _).1 rest with ⟨r1, w1, hs, hp, hm⟩ | hr
        · exact Or.inl ⟨r1, w1, hs, .step hp, hm⟩
        · exact Or.inr hr
      | @struck _ _ _ _ e _ fail rest =>
        rcases hk : run h (k (.error e)) w with ⟨e' | a, w1⟩
        · obtain ⟨rfl, rfl⟩ := Prod.mk.inj ((run_bind_of_error h hk).symm.trans rest)
          exact Or.inl ⟨_, _, Option.some_ne_none _, .struck fail hk, rfl, rfl⟩
        · exact Or.inl ⟨_, _, Option.some_ne_none _, .struck fail hk,
            (run_bind_of_ok h hk).symm.trans rest⟩
    · rintro (⟨r1, w1, hs, hp, hm⟩ | hr)
      · cases hp with
        | step rest => exact .step ((ih _).2 (Or.inl ⟨r1, w1, hs, rest, hm⟩))
        | struck fail rest =>
          refine .struck fail ?_
          rcases r1 with e | a
          · obtain ⟨rfl, rfl⟩ := hm
            exact run_bind_of_error _ rest
          · exact (run_bind_of_ok _ rest).trans hm
      · exact .step ((ih _).2 (Or.inr hr))

/-- **The outcomes of a `try` body** are those of the program, as values. -/
theorem outcome_attempt {p : Prog S E A} {w w' : W} {s : Option (Failure S W)}
    {r : Except E (Except E A)} : Outcome h fails p.attempt w s r w' ↔
      ∃ r1, r = .ok r1 ∧ Outcome h fails p w s r1 w' := by
  induction p generalizing w with
  | ret a =>
    constructor
    · intro ho
      cases ho
      exact ⟨_, rfl, .ret⟩
    · rintro ⟨_, rfl, ho⟩
      cases ho
      exact .ret
  | raise e =>
    constructor
    · intro ho
      cases ho
      exact ⟨_, rfl, .raise⟩
    · rintro ⟨_, rfl, ho⟩
      cases ho
      exact .ret
  | call c k ih =>
    constructor
    · intro ho
      cases ho with
      | step rest =>
        obtain ⟨r1, rfl, ho⟩ := (ih _).1 rest
        exact ⟨r1, rfl, .step ho⟩
      | struck fail rest =>
        rw [run_attempt] at rest
        obtain ⟨rfl, rfl⟩ := Prod.mk.inj rest
        exact ⟨_, rfl, .struck fail rfl⟩
    · rintro ⟨r1, rfl, ho⟩
      cases ho with
      | step rest => exact .step ((ih _).2 ⟨r1, rfl, rest⟩)
      | struck fail rest =>
        refine .struck fail ?_
        rw [run_attempt, rest]

/-- **The outcomes of one call.** -/
theorem outcome_invoke {c : S.Call} {w w' : W} {s : Option (Failure S W)} {r : Except E (S.Resp c)} :
    Outcome h fails (.invoke c) w s r w' ↔
      (s = none ∧ h c w = (r, w')) ∨ (s = some (c, w) ∧ w' = w ∧ ∃ e, fails c e ∧ r = .error e) := by
  constructor
  · intro ho
    cases ho with
    | step rest =>
      have hend : ∀ (r0 : Except E (S.Resp c)) (w0 : W),
          Outcome h fails (.ofExcept r0) w0 s r w' → s = none ∧ (r0, w0) = (r, w') := by
        rintro (e | a) w0 (_ | _) <;> exact ⟨rfl, rfl⟩
      obtain ⟨hs, hr⟩ := hend _ _ rest
      exact Or.inl ⟨hs, hr⟩
    | struck fail rest =>
      obtain ⟨rfl, rfl⟩ := Prod.mk.inj rest
      exact Or.inr ⟨rfl, rfl, _, fail, rfl⟩
  · rintro (⟨rfl, hr⟩ | ⟨rfl, rfl, e, fail, rfl⟩)
    · exact outcome_none.2 (by rw [run_invoke, hr])
    · exact .struck fail rfl

/-- **The outcomes of a `try` with a handler**: the failure is in the body or in the handler. -/
theorem outcome_except {p : Prog S E A} {g : E → Prog S E A} {w w' : W} {s : Option (Failure S W)}
    {r : Except E A} : Outcome h fails (p.except g) w s r w' ↔
      (∃ r1 w1, s ≠ none ∧ Outcome h fails p w s r1 w1 ∧ match r1 with
        | .ok a => r = .ok a ∧ w' = w1
        | .error e => run h (g e) w1 = (r, w')) ∨
      (∃ r1 w1, run h p w = (r1, w1) ∧ match r1 with
        | .ok a => s = none ∧ r = .ok a ∧ w' = w1
        | .error e => Outcome h fails (g e) w1 s r w') := by
  rw [Prog.except, outcome_bind]
  constructor
  · rintro (⟨r0, w1, hs, hp, hm⟩ | ⟨r0, w1, hr, hm⟩)
    · obtain ⟨r1, rfl, hp1⟩ := outcome_attempt.1 hp
      refine Or.inl ⟨r1, w1, hs, hp1, ?_⟩
      rcases r1 with e | a
      · exact hm
      · obtain ⟨rfl, rfl⟩ := Prod.mk.inj hm
        exact ⟨rfl, rfl⟩
    · rw [run_attempt] at hr
      obtain ⟨rfl, rfl⟩ := Prod.mk.inj hr
      refine Or.inr ⟨(run h p w).1, (run h p w).2, rfl, ?_⟩
      generalize (run h p w).1 = r1 at hm ⊢
      rcases r1 with e | a
      · exact hm
      · cases hm
        exact ⟨rfl, rfl, rfl⟩
  · rintro (⟨r1, w1, hs, hp, hm⟩ | ⟨r1, w1, hr, hm⟩)
    · refine Or.inl ⟨.ok r1, w1, hs, outcome_attempt.2 ⟨r1, rfl, hp⟩, ?_⟩
      rcases r1 with e | a
      · exact hm
      · obtain ⟨rfl, rfl⟩ := hm
        rfl
    · refine Or.inr ⟨.ok r1, w1, by rw [run_attempt, hr], ?_⟩
      rcases r1 with e | a
      · exact hm
      · obtain ⟨rfl, rfl, rfl⟩ := hm
        exact .ret

/-- The outcome of a sequence, where it does not matter in which part the failure is. -/
theorem Outcome.seq {p : Prog S E A} {f : A → Prog S E B} {w w' : W} {s : Option (Failure S W)}
    {r : Except E B} (ho : Outcome h fails (p >>= f) w s r w') :
    ∃ s1 r1 w1, Outcome h fails p w s1 r1 w1 ∧ match r1 with
      | .ok a => ∃ s2, Outcome h fails (f a) w1 s2 r w'
      | .error e => r = .error e ∧ w' = w1 := by
  rcases outcome_bind.1 ho with ⟨r1, w1, -, hp, hm⟩ | ⟨r1, w1, hr, hm⟩
  · refine ⟨s, r1, w1, hp, ?_⟩
    rcases r1 with e | a
    · exact hm
    · exact ⟨none, outcome_none.2 hm⟩
  · refine ⟨none, r1, w1, outcome_none.2 hr, ?_⟩
    rcases r1 with e | a
    · exact hm.2
    · exact ⟨s, hm⟩

/-- **A sequence, split**: the failure is in one of its parts. -/
theorem Outcome.split {p : Prog S E A} {f : A → Prog S E B} {w w' : W} {s : Option (Failure S W)}
    {r : Except E B} (ho : Outcome h fails (p >>= f) w s r w') :
    (∃ e, r = .error e ∧ Outcome h fails p w s (.error e) w') ∨
      ∃ s1 s2 a w1, Outcome h fails p w s1 (.ok a) w1 ∧ Outcome h fails (f a) w1 s2 r w' ∧
        (s1 = s ∧ s2 = none ∨ s1 = none ∧ s2 = s) := by
  rcases outcome_bind.1 ho with ⟨r1, w1, -, hp, hm⟩ | ⟨r1, w1, hr, hm⟩ <;> rcases r1 with e | a
  · obtain ⟨rfl, rfl⟩ := hm
    exact Or.inl ⟨e, rfl, hp⟩
  · exact Or.inr ⟨s, none, a, w1, hp, outcome_none.2 hm, Or.inl ⟨rfl, rfl⟩⟩
  · obtain ⟨rfl, rfl, rfl⟩ := hm
    exact Or.inl ⟨e, rfl, outcome_none.2 hr⟩
  · exact Or.inr ⟨none, s, a, w1, outcome_none.2 hr, hm, Or.inr ⟨rfl, rfl⟩⟩

/-- The outcome of a `try` with a handler, where it does not matter in which part the failure is. -/
theorem Outcome.caught {p : Prog S E A} {g : E → Prog S E A} {w w' : W} {s : Option (Failure S W)}
    {r : Except E A} (ho : Outcome h fails (p.except g) w s r w') :
    ∃ s1 r1 w1, Outcome h fails p w s1 r1 w1 ∧ match r1 with
      | .ok a => r = .ok a ∧ w' = w1
      | .error e => ∃ s2, Outcome h fails (g e) w1 s2 r w' := by
  rcases outcome_except.1 ho with ⟨r1, w1, -, hp, hm⟩ | ⟨r1, w1, hr, hm⟩
  · refine ⟨s, r1, w1, hp, ?_⟩
    rcases r1 with e | a
    · exact ⟨none, outcome_none.2 hm⟩
    · exact hm
  · refine ⟨none, r1, w1, outcome_none.2 hr, ?_⟩
    rcases r1 with e | a
    · exact ⟨s, hm⟩
    · exact hm.2

/-- Where no call can fail, none does. -/
theorem Outcome.unfailing {p : Prog S E A} (hp : Uses (fun c => ∀ e, ¬ fails c e) p) {w w' : W}
    {s : Option (Failure S W)} {r : Except E A} (ho : Outcome h fails p w s r w') : s = none := by
  induction ho with
  | ret => rfl
  | raise => rfl
  | step rest ih => exact ih (hp.2 _)
  | struck fail rest => exact absurd fail (hp.1 _)

/-- What a program can return, it returns also where a call failed. -/
theorem Outcome.returns {P : A → Prop} {p : Prog S E A} (hp : Returns P p) {w w' : W}
    {s : Option (Failure S W)} {a : A} (ho : Outcome h fails p w s (.ok a) w') : P a := by
  generalize hr : Except.ok a = r at ho
  induction ho with
  | ret =>
    cases hr
    exact hp
  | raise => cases hr
  | step rest ih => exact ih (hp _) hr
  | struck fail rest =>
    subst hr
    exact Returns.run (hp _) rest

/-- The call that failed is one that the program makes. -/
theorem Outcome.uses {P : S.Call → Prop} {p : Prog S E A} (hp : Uses P p) {w w' v : W} {c : S.Call}
    {r : Except E A} (ho : Outcome h fails p w (some (c, v)) r w') : P c := by
  generalize hs : some (c, v) = s at ho
  induction ho with
  | ret => cases hs
  | raise => cases hs
  | step rest ih => exact ih (hp.2 _) hs
  | struck fail rest =>
    cases hs
    exact hp.1

/-- **A property kept by every call a program makes is kept by its outcomes**: a call that fails
changes nothing. -/
theorem Outcome.preserves {P : S.Call → Prop} {I : W → Prop} (hI : ∀ c, P c → ∀ w, I w → I (h c w).2)
    {p : Prog S E A} (hp : Uses P p) {w w' : W} {s : Option (Failure S W)} {r : Except E A}
    (ho : Outcome h fails p w s r w') (hw : I w) : I w' := by
  induction ho with
  | ret => exact hw
  | raise => exact hw
  | step rest ih => exact ih (hp.2 _) (hI _ hp.1 _ hw)
  | @struck c k w _ e _ fail rest =>
    have hk : I (run h (k (.error e)) w).2 := run_preserves hI (hp.2 _) hw
    rwa [rest] at hk

/-! ### The calls of a run -/

/-- **The run of `p` from `w` makes the call `c` in the world `v`.** -/
inductive Makes (h : (c : S.Call) → Act E W (S.Resp c)) : Prog S E A → W → S.Call → W → Prop where
  | here {c : S.Call} {k : Except E (S.Resp c) → Prog S E A} {w : W} : Makes h (.call c k) w c w
  | later {c c' : S.Call} {k : Except E (S.Resp c) → Prog S E A} {w v : W}
      (rest : Makes h (k (h c w).1) (h c w).2 c' v) : Makes h (.call c k) w c' v

/-- **The calls of a sequence** are those of its parts. -/
theorem makes_bind {p : Prog S E A} {f : A → Prog S E B} {w v : W} {c : S.Call} :
    Makes h (p >>= f) w c v ↔
      Makes h p w c v ∨ ∃ a w1, run h p w = (.ok a, w1) ∧ Makes h (f a) w1 c v := by
  induction p generalizing w with
  | ret a =>
    constructor
    · exact fun hm => Or.inr ⟨a, w, rfl, hm⟩
    · rintro (hm | ⟨_, _, hr, hm⟩)
      · cases hm
      · cases hr
        exact hm
  | raise e =>
    constructor
    · intro hm
      cases hm
    · rintro (hm | ⟨_, _, hr, -⟩)
      · cases hm
      · cases hr
  | call c k ih =>
    rw [Prog.call_bind]
    constructor
    · intro hm
      cases hm with
      | here => exact Or.inl .here
      | later rest =>
        rcases (ih _).1 rest with hp | hr
        · exact Or.inl (.later hp)
        · exact Or.inr hr
    · rintro (hm | hr)
      · cases hm with
        | here => exact .here
        | later rest => exact .later ((ih _).2 (Or.inl rest))
      · exact .later ((ih _).2 (Or.inr hr))

@[simp] theorem makes_invoke {c c' : S.Call} {w v : W} :
    Makes h (.invoke c) w c' v ↔ c' = c ∧ v = w := by
  constructor
  · intro hm
    cases hm with
    | here => exact ⟨rfl, rfl⟩
    | later rest =>
      have hend : ∀ (r : Except E (S.Resp c)) (w0 : W), ¬ Makes h (.ofExcept r) w0 c' v := by
        rintro (_ | _) w0 (_ | _)
      exact absurd rest (hend _ _)
  · rintro ⟨rfl, rfl⟩
    exact .here

theorem Makes.uses {P : S.Call → Prop} {p : Prog S E A} (hp : Uses P p) {w v : W} {c : S.Call}
    (hm : Makes h p w c v) : P c := by
  induction hm with
  | here => exact hp.1
  | later rest ih => exact ih (hp.2 _)

/-- Nothing catches what a call raises. -/
def Uncaught : Prog S E A → Prop
  | .ret _ => True
  | .raise _ => True
  | .call _ k => (∀ e, k (.error e) = .raise e) ∧ ∀ r, Uncaught (k r)

theorem Uncaught.bind {p : Prog S E A} {f : A → Prog S E B} (hp : Uncaught p)
    (hf : ∀ a, Uncaught (f a)) : Uncaught (p >>= f) := by
  induction p with
  | ret a => exact hf a
  | raise e => trivial
  | call c k ih =>
    refine ⟨fun e => ?_, fun r => ih r (hp.2 r)⟩
    change k (.error e) >>= f = .raise e
    rw [hp.1 e]
    rfl

theorem uncaught_invoke (c : S.Call) : Uncaught (.invoke c : Prog S E (S.Resp c)) :=
  ⟨fun _ => rfl, fun r => by cases r <;> trivial⟩

/-- **Where nothing catches what a call raises**, the program ends where the call failed, and with what
it raised. -/
theorem Outcome.made {p : Prog S E A} (hp : Uncaught p) {w w' v : W} {c : S.Call} {r : Except E A}
    (ho : Outcome h fails p w (some (c, v)) r w') :
    Makes h p w c v ∧ w' = v ∧ ∃ e, fails c e ∧ r = .error e := by
  generalize hs : some (c, v) = s at ho
  induction ho with
  | ret => cases hs
  | raise => cases hs
  | step rest ih =>
    obtain ⟨hm, hw, hr⟩ := ih (hp.2 _) hs
    exact ⟨.later hm, hw, hr⟩
  | struck fail rest =>
    cases hs
    rw [hp.1] at rest
    obtain ⟨rfl, rfl⟩ := Prod.mk.inj rest
    exact ⟨.here, rfl, _, fail, rfl⟩

/-- A handler of what `p` raises that makes no calls of its own leaves the world of `p`. -/
theorem Outcome.except {p : Prog S E A} {g : E → Prog S E A} (hg : ∀ e, ∃ r, g e = .ofExcept r)
    {w w' : W} {s : Option (Failure S W)} {r : Except E A} (ho : Outcome h fails (p.except g) w s r w') :
    ∃ r1, Outcome h fails p w s r1 w' := by
  have hquiet : ∀ (r1 : Except E A) (w1 : W) (s : Option (Failure S W)), Outcome h fails (match r1 with
      | .ok a => .ret a
      | .error e => g e) w1 s r w' → s = none ∧ w' = w1 := by
    rintro (e | a) w1 s ho
    · obtain ⟨r2, hr⟩ := hg e
      dsimp only at ho
      rw [hr] at ho
      rcases r2 with _ | _ <;> cases ho <;> exact ⟨rfl, rfl⟩
    · cases ho
      exact ⟨rfl, rfl⟩
  rcases outcome_bind.1 ho with ⟨r1, w1, -, ha, hm⟩ | ⟨r1, w1, hr, hm⟩
  · obtain ⟨r2, rfl, hp⟩ := outcome_attempt.1 ha
    obtain ⟨-, rfl⟩ := hquiet r2 w1 none (outcome_none.2 hm)
    exact ⟨r2, hp⟩
  · rw [run_attempt] at hr
    obtain ⟨rfl, rfl⟩ := Prod.mk.inj hr
    obtain ⟨rfl, rfl⟩ := hquiet _ _ s hm
    exact ⟨_, outcome_none.2 rfl⟩

/-! ### Outcomes, computed -/

/-- The outcome in which the call number `n` of those in `hits` raises `e`. -/
def strike (h : (c : S.Call) → Act E W (S.Resp c)) (hits : S.Call → Bool) (e : E) :
    ℕ → Prog S E A → W → Option (Failure S W) × Except E A × W
  | _, .ret a, w => (none, .ok a, w)
  | _, .raise e', w => (none, .error e', w)
  | n, .call c k, w =>
    if hits c then
      match n with
      | 0 => (some (c, w), run h (k (.error e)) w)
      | n + 1 => strike h hits e n (k (h c w).1) (h c w).2
    else strike h hits e n (k (h c w).1) (h c w).2

theorem strike_outcome {hits : S.Call → Bool} {e : E} (hf : ∀ c, hits c = true → fails c e)
    (n : ℕ) (p : Prog S E A) (w : W) : Outcome h fails p w (strike h hits e n p w).1
      (strike h hits e n p w).2.1 (strike h hits e n p w).2.2 := by
  induction p generalizing n w with
  | ret a => exact .ret
  | raise e => exact .raise
  | call c k ih =>
    unfold strike
    split_ifs with hc
    · rcases n with _ | n
      · exact .struck (hf c hc) rfl
      · exact .step (ih _ n _)
    · exact .step (ih _ n _)

end PaperBoxing.Lib.Faults
