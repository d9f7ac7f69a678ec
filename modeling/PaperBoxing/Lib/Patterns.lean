import PaperBoxing.Lib.Text

/-! # Regular expressions

The part of the language's regular expressions the sources use: classes of code points, sequences,
optional parts, bounded repetition, and `$`, which holds at the end and before a last line feed. A
match is what is left of the string after it, so that all matches are a list of remainders.

* `mem_iterate_chars`: what a repeated class matches. -/

namespace PaperBoxing.Lib.Patterns

open PaperBoxing.Lib.Text

/-- **Regular expressions.** -/
inductive Regex : Type where
  /-- one code point of a class -/
  | chars (p : CodePoint → Bool)
  | seq (a b : Regex)
  /-- `a?` -/
  | opt (a : Regex)
  /-- `a{0,n}` -/
  | upTo (n : ℕ) (a : Regex)
  /-- `$` -/
  | eol

/-- The remainders after at most `n` matches, the longest first. -/
def iterate (f : Str → List Str) : ℕ → Str → List Str
  | 0, s => [s]
  | n + 1, s => (f s).flatMap (iterate f n) ++ [s]

/-- **The matches** of an expression at the start of a string, each by what it leaves. -/
def Regex.remainders : Regex → Str → List Str
  | chars p, s => match s with
    | [] => []
    | c :: s => if p c then [s] else []
  | seq a b, s => (a.remainders s).flatMap b.remainders
  | opt a, s => a.remainders s ++ [s]
  | upTo n a, s => iterate a.remainders n s
  | eol, s => if s = [] ∨ s = [newline] then [s] else []

/-- `re.match`: whether the expression matches at the start of the string. -/
def Regex.matches (r : Regex) (s : Str) : Bool := !(r.remainders s).isEmpty

theorem matches_iff {r : Regex} {s : Str} : r.matches s = true ↔ ∃ u, u ∈ r.remainders s := by
  rw [Regex.matches, Bool.not_eq_true', List.isEmpty_eq_false_iff_exists_mem]

theorem mem_chars {p : CodePoint → Bool} {s r : Str} :
    r ∈ (Regex.chars p).remainders s ↔ ∃ c, p c = true ∧ s = c :: r := by
  rcases s with _ | ⟨c, s⟩
  · simp [Regex.remainders]
  · simp only [Regex.remainders, List.mem_ite_nil_right, List.mem_singleton, List.cons.injEq]
    constructor
    · rintro ⟨hc, rfl⟩
      exact ⟨c, hc, rfl, rfl⟩
    · rintro ⟨c', hc, rfl, rfl⟩
      exact ⟨hc, rfl⟩

theorem mem_eol {s r : Str} :
    r ∈ Regex.eol.remainders s ↔ r = s ∧ (s = [] ∨ s = [newline]) := by
  simp only [Regex.remainders, List.mem_ite_nil_right, List.mem_singleton]
  exact and_comm

/-- **A repeated class matches any run of it that is short enough.** -/
theorem mem_iterate_chars {p : CodePoint → Bool} {n : ℕ} {s r : Str} :
    r ∈ iterate (Regex.chars p).remainders n s ↔
      ∃ u, s = u ++ r ∧ u.length ≤ n ∧ ∀ c ∈ u, p c = true := by
  induction n generalizing s with
  | zero =>
    rw [iterate, List.mem_singleton]
    constructor
    · rintro rfl
      exact ⟨[], rfl, le_rfl, by simp⟩
    · rintro ⟨u, rfl, hu, -⟩
      rw [List.length_eq_zero_iff.1 (Nat.le_zero.1 hu)]
      rfl
  | succ n ih =>
    rw [iterate, List.mem_append, List.mem_flatMap, List.mem_singleton]
    constructor
    · rintro (⟨v, hv, hr⟩ | rfl)
      · obtain ⟨c, hc, rfl⟩ := mem_chars.1 hv
        obtain ⟨u, rfl, hu, hp⟩ := ih.1 hr
        refine ⟨c :: u, rfl, by simpa using hu, ?_⟩
        rintro d (_ | ⟨_, hd⟩)
        · exact hc
        · exact hp d hd
      · exact ⟨[], rfl, Nat.zero_le _, by simp⟩
    · rintro ⟨u, rfl, hu, hp⟩
      rcases u with _ | ⟨c, u⟩
      · exact Or.inr rfl
      · refine Or.inl ⟨u ++ r, mem_chars.2 ⟨c, hp c List.mem_cons_self, rfl⟩, ?_⟩
        exact ih.2 ⟨u, rfl, by simpa using hu, fun d hd => hp d (List.mem_cons_of_mem _ hd)⟩

end PaperBoxing.Lib.Patterns
