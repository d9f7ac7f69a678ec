import PaperBoxing.Lib.Threads

/-! # The path of one thread

What one thread of a machine did in a run, whatever the others did in between: the calls it made, in
order, each with an answer that the machine allows in the world in which it was made.

* `Run.path`: the events of a thread in a run are a path through its program;
* `Ends`: a path to the end of the program, with its outcome;
* `Ends.bind`, `Ends.attempt`, `Ends.except`, `Ends.invoke`: what such a path consists of;
* `Throws`: what a program can end with, if it raises. -/

namespace PaperBoxing.Lib.Paths

open PaperBoxing.Lib.Action PaperBoxing.Lib.Program PaperBoxing.Lib.Threads

variable {S : Sig} {E A B W : Type} {M : Machine S E W} {i : ℕ}

/-- **The path of a thread** through its program. -/
inductive Path (M : Machine S E W) (i : ℕ) : Prog S E A → List (Event S E W) → Prog S E A → Prop where
  | refl {p : Prog S E A} : Path M i p [] p
  | step {c : S.Call} {k : Except E (S.Resp c) → Prog S E A} {r : Except E (S.Resp c)} {w w' : W}
      {es : List (Event S E W)} {q : Prog S E A} (answer : M.Answers i c w r w')
      (rest : Path M i (k r) es q) : Path M i (.call c k) (⟨i, c, r, w, w'⟩ :: es) q

variable {p q : Prog S E A} {f : A → Prog S E B} {es es' : List (Event S E W)}

theorem Path.trans {q' : Prog S E A} (h : Path M i p es q) (h' : Path M i q es' q') :
    Path M i p (es ++ es') q' := by
  induction h with
  | refl => exact h'
  | step answer _ ih => exact .step answer (ih h')

/-- **What a thread did in a run** is a path through its program. -/
theorem path_of_run {g g' : Config S E A W} {tr : List (Event S E W)} (h : Run M g tr g') (i : ℕ) :
    Path M i (g.threads i) (tr.filter fun e => e.tid == i) (g'.threads i) := by
  induction h with
  | refl => exact .refl
  | @step tr g' j c k r w run next answer ih =>
    rw [List.filter_append]
    rcases eq_or_ne j i with rfl | hj
    · rw [Config.advance_self]
      rw [next] at ih
      refine ih.trans ?_
      rw [List.filter_singleton, beq_self_eq_true]
      exact .step answer .refl
    · rw [Config.advance_of_ne hj.symm, List.filter_singleton, beq_eq_false_iff_ne.2 hj]
      rw [cond_false, List.append_nil]
      exact ih

/-- The events of a path are the thread's, each with an answer that the machine allows. -/
theorem Path.answers (h : Path M i p es q) :
    ∀ e ∈ es, e.tid = i ∧ M.Answers i e.call e.before e.resp e.after := by
  induction h with
  | refl => exact fun _ he => absurd he List.not_mem_nil
  | step answer _ ih =>
    intro e he
    rcases List.mem_cons.1 he with rfl | he
    · exact ⟨rfl, answer⟩
    · exact ih e he

/-- The calls of a path are among those its program can make. -/
theorem Path.uses {P : S.Call → Prop} (h : Path M i p es q) (hp : Uses P p) :
    (∀ e ∈ es, P e.call) ∧ Uses P q := by
  induction h with
  | refl => exact ⟨fun _ he => absurd he List.not_mem_nil, hp⟩
  | step _ _ ih =>
    obtain ⟨h1, h2⟩ := ih (hp.2 _)
    exact ⟨fun e he => (List.mem_cons.1 he).elim (fun he => he ▸ hp.1) (h1 e), h2⟩

/-! ### Paths to the end -/

/-- **The path of a thread that ended**, with the outcome `o`. -/
def Ends (M : Machine S E W) (i : ℕ) (p : Prog S E A) (es : List (Event S E W)) (o : Except E A) :
    Prop :=
  Path M i p es (.ofExcept o)

variable {a : A} {e : E} {o : Except E A}

theorem ends_ret : Ends M i (.ret a) es o ↔ es = [] ∧ o = .ok a := by
  constructor
  · intro h
    rcases o with e | a' <;> cases h
    exact ⟨rfl, rfl⟩
  · rintro ⟨rfl, rfl⟩
    exact .refl

theorem ends_raise : Ends M i (.raise e : Prog S E A) es o ↔ es = [] ∧ o = .error e := by
  constructor
  · intro h
    rcases o with e | a' <;> cases h
    exact ⟨rfl, rfl⟩
  · rintro ⟨rfl, rfl⟩
    exact .refl

/-- The first call of a path. -/
theorem ends_call {c : S.Call} {k : Except E (S.Resp c) → Prog S E A} :
    Ends M i (.call c k) es o ↔ ∃ r w w' es', es = ⟨i, c, r, w, w'⟩ :: es' ∧ M.Answers i c w r w' ∧
      Ends M i (k r) es' o := by
  constructor
  · intro h
    rcases o with e | a
    · cases h with
      | step answer rest => exact ⟨_, _, _, _, rfl, answer, rest⟩
    · cases h with
      | step answer rest => exact ⟨_, _, _, _, rfl, answer, rest⟩
  · rintro ⟨r, w, w', es', rfl, answer, rest⟩
    exact .step answer rest

/-- **A sequence** ends where its first part raises, or with its second part. -/
theorem Ends.bind {o : Except E B} (h : Ends M i (p >>= f) es o) :
    (∃ e, o = .error e ∧ Ends M i p es (.error e)) ∨
      ∃ a es1 es2, es = es1 ++ es2 ∧ Ends M i p es1 (.ok a) ∧ Ends M i (f a) es2 o := by
  induction p generalizing es with
  | ret a => exact Or.inr ⟨a, [], es, rfl, .refl, h⟩
  | raise e =>
    obtain ⟨rfl, rfl⟩ := ends_raise.1 h
    exact Or.inl ⟨e, rfl, .refl⟩
  | call c k ih =>
    obtain ⟨r, w, w', es', rfl, answer, rest⟩ := ends_call.1 h
    rcases ih r rest with ⟨e, rfl, h1⟩ | ⟨a, es1, es2, rfl, h1, h2⟩
    · exact Or.inl ⟨e, rfl, .step answer h1⟩
    · exact Or.inr ⟨a, _, es2, rfl, .step answer h1, h2⟩

/-- **A `try` body** ends with its outcome as a value. -/
theorem Ends.attempt {o : Except E (Except E A)} (h : Ends M i p.attempt es o) :
    ∃ o', o = .ok o' ∧ Ends M i p es o' := by
  induction p generalizing es with
  | ret a =>
    obtain ⟨rfl, rfl⟩ := ends_ret.1 h
    exact ⟨_, rfl, .refl⟩
  | raise e =>
    obtain ⟨rfl, rfl⟩ := ends_ret.1 h
    exact ⟨_, rfl, .refl⟩
  | call c k ih =>
    obtain ⟨r, w, w', es', rfl, answer, rest⟩ := ends_call.1 h
    obtain ⟨o', rfl, h'⟩ := ih r rest
    exact ⟨o', rfl, .step answer h'⟩

/-- **One call.** -/
theorem Ends.invoke {c : S.Call} {o : Except E (S.Resp c)} (h : Ends M i (.invoke c) es o) :
    ∃ w w', es = [⟨i, c, o, w, w'⟩] ∧ M.Answers i c w o w' := by
  obtain ⟨r, w, w', es', rfl, answer, rest⟩ := ends_call.1 h
  have hend : es' = [] ∧ o = r := by
    rcases r with e | a
    · exact ends_raise.1 rest
    · exact ends_ret.1 rest
  obtain ⟨rfl, rfl⟩ := hend
  exact ⟨w, w', rfl, answer⟩

/-- **A `try` with a handler** ends where its body returns, or with the handler. -/
theorem Ends.except {g : E → Prog S E A} (h : Ends M i (p.except g) es o) :
    (∃ a, o = .ok a ∧ Ends M i p es (.ok a)) ∨
      ∃ e es1 es2, es = es1 ++ es2 ∧ Ends M i p es1 (.error e) ∧ Ends M i (g e) es2 o := by
  rcases Ends.bind h with ⟨e, -, h1⟩ | ⟨r, es1, es2, rfl, h1, h2⟩
  · obtain ⟨_, h0, -⟩ := h1.attempt
    cases h0
  · obtain ⟨r', hr, h1⟩ := h1.attempt
    obtain rfl := Except.ok.inj hr
    rcases r with e | a
    · exact Or.inr ⟨e, es1, es2, rfl, h1, h2⟩
    · obtain ⟨rfl, rfl⟩ := ends_ret.1 h2
      rw [List.append_nil]
      exact Or.inl ⟨a, rfl, h1⟩

/-- **A `finally`** runs after its body, and lets the outcome stand unless it raises itself. -/
theorem Ends.finallyDo {g : Prog S E Unit} (h : Ends M i (p.finallyDo g) es o) :
    ∃ o' es1 es2, es = es1 ++ es2 ∧ Ends M i p es1 o' ∧
      ((∃ e, o = .error e ∧ Ends M i g es2 (.error e)) ∨ (o = o' ∧ Ends M i g es2 (.ok ()))) := by
  rcases Ends.bind h with ⟨e, -, h1⟩ | ⟨r, es1, es2, rfl, h1, h2⟩
  · obtain ⟨_, h0, -⟩ := h1.attempt
    cases h0
  obtain ⟨r', hr, h1⟩ := h1.attempt
  obtain rfl := Except.ok.inj hr
  refine ⟨r, es1, es2, rfl, h1, ?_⟩
  rcases Ends.bind h2 with ⟨e, rfl, h3⟩ | ⟨_, es3, es4, rfl, h3, h4⟩
  · exact Or.inl ⟨e, rfl, h3⟩
  · have hend : es4 = [] ∧ o = r := by
      rcases r with e | a
      · exact ends_raise.1 h4
      · exact ends_ret.1 h4
    obtain ⟨rfl, rfl⟩ := hend
    rw [List.append_nil]
    exact Or.inr ⟨rfl, h3⟩

/-- A mapped program ends with the mapped outcome. -/
theorem Ends.map {m : A → B} {o : Except E B} (h : Ends M i (p >>= fun a => .ret (m a)) es o) :
    ∃ o', o = o'.map m ∧ Ends M i p es o' := by
  rcases h.bind with ⟨e, rfl, h1⟩ | ⟨a, es1, es2, rfl, h1, h2⟩
  · exact ⟨.error e, rfl, h1⟩
  · obtain ⟨rfl, rfl⟩ := ends_ret.1 h2
    rw [List.append_nil]
    exact ⟨.ok a, rfl, h1⟩

/-! ### What a program raises -/

/-- **All that a program can raise** is in `X`. -/
def Throws (M : Machine S E W) (i : ℕ) (X : E → Prop) (p : Prog S E A) : Prop :=
  ∀ es e, Ends M i p es (.error e) → X e

variable {X : E → Prop}

theorem throws_ret : Throws M i X (.ret a : Prog S E A) := fun es e h => by
  cases (ends_ret.1 h).2

theorem throws_raise (he : X e) : Throws M i X (.raise e : Prog S E A) := fun es e' h => by
  obtain rfl := Except.error.inj (ends_raise.1 h).2
  exact he

/-- A sequence, by what its first part may return. -/
theorem Throws.bind_of (hp : Throws M i X p)
    (hf : ∀ es a, Ends M i p es (.ok a) → Throws M i X (f a)) : Throws M i X (p >>= f) := fun es e h => by
  rcases Ends.bind h with ⟨e', he, h1⟩ | ⟨a, es1, es2, rfl, h1, h2⟩
  · obtain rfl := Except.error.inj he
    exact hp _ _ h1
  · exact hf _ a h1 _ _ h2

theorem Throws.bind (hp : Throws M i X p) (hf : ∀ a, Throws M i X (f a)) :
    Throws M i X (p >>= f) := hp.bind_of fun _ a _ => hf a

theorem throws_attempt : Throws M i X p.attempt := fun es e h => by
  obtain ⟨_, h0, -⟩ := Ends.attempt h
  cases h0

/-- What a handler raises, on what the body raised. -/
theorem Throws.except {Y : E → Prop} {g : E → Prog S E A} (hp : Throws M i Y p)
    (hg : ∀ e, Y e → Throws M i X (g e)) : Throws M i X (p.except g) := fun es e h => by
  rcases Ends.except h with ⟨a, h0, -⟩ | ⟨e', es1, es2, rfl, h1, h2⟩
  · cases h0
  · exact hg e' (hp _ _ h1) _ _ h2

theorem throws_invoke {c : S.Call} (h : ∀ w e w', M.Answers i c w (.error e) w' → X e) :
    Throws M i X (.invoke c) := fun es e hc => by
  obtain ⟨w, w', -, answer⟩ := Ends.invoke hc
  exact h w e w' answer

end PaperBoxing.Lib.Paths
