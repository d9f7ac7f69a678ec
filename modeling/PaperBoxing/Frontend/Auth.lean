import PaperBoxing.Lib.Urls

/-! # The way back after signing in

`safe_next` of `frontend/auth.py`: the return path a sign-in page was given, or `/` where that would
leave the site. A browser drops tabs and line ends before it looks for a host; `safe_next` looks at
the first two characters as they stand, and at what `urlsplit` makes of the rest.

* `safe_next_ordinary`: an ordinary path is kept;
* `safe_next_iff`: which candidates are handled well. -/

namespace PaperBoxing.Frontend.Auth

open PaperBoxing.Lib.Text PaperBoxing.Lib.Urls

def backslash : CodePoint := ofChar '\\'

section
variable (refuses : Str → Bool)

/-- `safe_next`; none is the `ValueError` of `urlsplit`. -/
def safe_next (candidate : Option Str) : Option Str :=
  match candidate with
  | none | some [] => some (lit "/")
  | some (first :: rest) =>
    if first ≠ slash then some (lit "/")
    else if rest.head? = some slash ∨ rest.head? = some backslash then some (lit "/")
    else match urlsplit refuses (first :: rest) with
      | none => none
      | some (scheme, host) =>
        if scheme ≠ [] ∨ host ≠ [] then some (lit "/") else some (first :: rest)

/-- Where a browser stays on the origin: once tabs and line ends are dropped, a slash comes first, and
no slash or backslash second. -/
def OnOrigin (r : Str) : Prop :=
  ∃ rest, cleaned r = slash :: rest ∧ rest.head? ≠ some slash ∧ rest.head? ≠ some backslash

/-- A path of ordinary characters, from the root on. -/
def Ordinary (candidate : Str) : Prop :=
  ∃ rest, candidate = slash :: rest ∧ rest.head? ≠ some slash ∧
    ∀ c ∈ rest, isDropped c = false ∧ c ≠ backslash ∧ c ≠ ofChar '[' ∧ c ≠ ofChar ']'

/-- **What is asked of `safe_next`**: it answers `/` or the candidate, which stays on the origin, and
keeps what is ordinary. -/
def SafeNext (candidate : Option Str) : Prop :=
  (∃ r, safe_next refuses candidate = some r ∧ (r = lit "/" ∨ candidate = some r) ∧ OnOrigin r) ∧
  ∀ c, candidate = some c → Ordinary c → safe_next refuses candidate = some c

/-- A candidate with a tab or a line end right after its first slash, and then a backslash, or a slash
before an empty host or one that `urlsplit` refuses. -/
def smuggles : Option Str → Bool
  | some (first :: c :: rest) =>
    first == slash && isDropped c && match cleaned rest with
      | [] => false
      | d :: host => d == backslash ||
        (d == slash && (hostOf host == [] || unbalanced (hostOf host) || refuses (hostOf host)))
  | _ => false

end

variable {refuses : Str → Bool}

theorem onOrigin_root : OnOrigin (lit "/") := ⟨[], by decide, by decide, by decide⟩

/-- What `safe_next` makes of a candidate whose first two characters pass. -/
theorem safe_next_slash {rest : Str} (h1 : rest.head? ≠ some slash)
    (h2 : rest.head? ≠ some backslash) : safe_next refuses (some (slash :: rest)) =
    match cleaned rest with
    | b :: host =>
      if b = slash then
        if unbalanced (hostOf host) || refuses (hostOf host) then none
        else if hostOf host = [] then some (slash :: rest) else some (lit "/")
      else some (slash :: rest)
    | [] => some (slash :: rest) := by
  rw [safe_next, if_neg (by simp), if_neg (by simp [h1, h2]), urlsplit_of_slash]
  rcases cleaned rest with _ | ⟨b, host⟩
  · rfl
  · dsimp only
    by_cases hb : b = slash
    · rw [if_pos hb, if_pos hb]
      by_cases hr : (unbalanced (hostOf host) || refuses (hostOf host)) = true
      · rw [if_pos hr, if_pos hr]
      · rw [if_neg hr, if_neg hr]
        by_cases hh : hostOf host = []
        · simp [hh]
        · simp [hh]
    · rw [if_neg hb, if_neg hb]
      rfl

/-- Without a tab or a line end in front, the second character is what a browser sees. -/
theorem cleaned_head {c : CodePoint} {rest : Str} (h : isDropped c = false) :
    cleaned (c :: rest) = c :: cleaned rest := List.filter_cons_of_pos (by simp [h])

theorem cleaned_dropped {c : CodePoint} {rest : Str} (h : isDropped c = true) :
    cleaned (c :: rest) = cleaned rest := List.filter_cons_of_neg (by simp [h])

/-- **An ordinary path is kept.** -/
theorem safe_next_ordinary {candidate : Str} (h : Ordinary candidate) :
    safe_next refuses (some candidate) = some candidate := by
  obtain ⟨rest, rfl, h1, hall⟩ := h
  rcases rest with _ | ⟨c, rest⟩
  · rfl
  · obtain ⟨hd, hb, -, -⟩ := hall c (by simp)
    rw [safe_next_slash h1 (by simpa using hb), cleaned_head hd]
    exact if_neg (by simpa using h1)

theorem onOrigin_slash (rest : Str) : OnOrigin (slash :: rest) ↔
    (cleaned rest).head? ≠ some slash ∧ (cleaned rest).head? ≠ some backslash := by
  rw [OnOrigin, cleaned_slash]
  constructor
  · rintro ⟨u, hu, h⟩
    obtain ⟨-, rfl⟩ := List.cons.inj hu
    exact h
  · exact fun h => ⟨_, rfl, h⟩

/-- What is asked of an answer. -/
def Fine (candidate : Option Str) (r : Str) : Prop :=
  (r = lit "/" ∨ candidate = some r) ∧ OnOrigin r

/-- The candidates whose first two characters pass: whether the answer is fine depends on what a
browser reads after the first slash. -/
theorem fine_iff {rest : Str} (h1 : rest.head? ≠ some slash) (h2 : rest.head? ≠ some backslash) :
    (∃ r, safe_next refuses (some (slash :: rest)) = some r ∧ Fine (some (slash :: rest)) r) ↔
    ∀ b host, cleaned rest = b :: host → b ≠ backslash ∧
      (b = slash → hostOf host ≠ [] ∧ (unbalanced (hostOf host) || refuses (hostOf host)) = false) := by
  have horigin := onOrigin_slash rest
  have hkept : OnOrigin (slash :: rest) → Fine (some (slash :: rest)) (slash :: rest) :=
    fun h => ⟨Or.inr rfl, h⟩
  rw [safe_next_slash h1 h2]
  generalize cleaned rest = seen at horigin ⊢
  rcases seen with _ | ⟨b, host⟩
  · refine iff_of_true ⟨_, rfl, hkept (horigin.2 ⟨by simp, by simp⟩)⟩ ?_
    intro b host h
    cases h
  have hfirst : (∀ b' host', b :: host = b' :: host' → b' ≠ backslash ∧
      (b' = slash → hostOf host' ≠ [] ∧
        (unbalanced (hostOf host') || refuses (hostOf host')) = false)) ↔
      b ≠ backslash ∧ (b = slash → hostOf host ≠ [] ∧
        (unbalanced (hostOf host) || refuses (hostOf host)) = false) := by
    constructor
    · exact fun h => h b host rfl
    · rintro h b' host' ⟨rfl, rfl⟩
      exact h
  rw [hfirst]
  simp only [List.head?_cons, ne_eq, Option.some.injEq] at horigin
  dsimp only
  by_cases hs : b = slash
  · have hb : b ≠ backslash := by
      rw [hs]
      decide
    rw [if_pos hs]
    by_cases hbad : (unbalanced (hostOf host) || refuses (hostOf host)) = true
    · -- `urlsplit` raises
      rw [if_pos hbad]
      exact iff_of_false (fun ⟨r, hr, _⟩ => by cases hr) fun h => by
        simp [(h.2 hs).2] at hbad
    · rw [if_neg hbad]
      rw [Bool.not_eq_true] at hbad
      by_cases hh : hostOf host = []
      · -- the host is empty: the candidate is kept
        rw [if_pos hh]
        refine iff_of_false ?_ fun h => (h.2 hs).1 hh
        rintro ⟨r, hr, -, ho⟩
        obtain rfl := Option.some.inj hr
        exact (horigin.1 ho).1 hs
      · rw [if_neg hh]
        exact iff_of_true ⟨_, rfl, Or.inl rfl, onOrigin_root⟩ ⟨hb, fun _ => ⟨hh, hbad⟩⟩
  · rw [if_neg hs]
    constructor
    · rintro ⟨r, hr, -, ho⟩
      obtain rfl := Option.some.inj hr
      exact ⟨(horigin.1 ho).2, fun h => absurd h hs⟩
    · exact fun h => ⟨_, rfl, hkept (horigin.2 ⟨hs, h.1⟩)⟩

/-- The candidates that are answered by `/` at once. -/
theorem fine_root {candidate : Option Str} (h : safe_next refuses candidate = some (lit "/")) :
    ∃ r, safe_next refuses candidate = some r ∧ Fine candidate r :=
  ⟨_, h, Or.inl rfl, onOrigin_root⟩

/-- **Which candidates are handled well**: all but those that smuggle a host past the first two
characters. -/
theorem safe_next_iff (candidate : Option Str) :
    SafeNext refuses candidate ↔ smuggles refuses candidate = false := by
  have hord : ∀ c, candidate = some c → Ordinary c → safe_next refuses candidate = some c := by
    rintro c rfl hc
    exact safe_next_ordinary hc
  rw [SafeNext, and_iff_left hord]
  change (∃ r, safe_next refuses candidate = some r ∧ Fine candidate r) ↔ _
  rcases candidate with _ | _ | ⟨first, rest⟩
  · exact iff_of_true (fine_root rfl) rfl
  · exact iff_of_true (fine_root rfl) rfl
  by_cases hf : first = slash
  swap
  · refine iff_of_true (fine_root (if_pos hf)) ?_
    rcases rest with _ | ⟨c, rest⟩
    · rfl
    · simp [smuggles, hf]
  subst hf
  rcases rest with _ | ⟨c, rest⟩
  · exact iff_of_true (fine_root rfl) rfl
  by_cases h1 : c = slash ∨ c = backslash
  · refine iff_of_true (fine_root ?_) ?_
    · rw [safe_next, if_neg (by simp), if_pos (by simpa using h1)]
    · have : isDropped c = false := by rcases h1 with rfl | rfl <;> decide
      simp [smuggles, this]
  rw [not_or] at h1
  rw [fine_iff (by simpa using h1.1) (by simpa using h1.2)]
  by_cases hd : isDropped c = true
  · -- a browser looks past the second character
    rw [cleaned_dropped hd, smuggles]
    rcases cleaned rest with _ | ⟨d, host⟩
    · simp
    · simp only [beq_self_eq_true, hd, Bool.true_and, Bool.or_eq_false_iff, Bool.and_eq_false_iff,
        beq_eq_false_iff_ne, ne_eq, List.cons.injEq, and_imp]
      grind
  · rw [Bool.not_eq_true] at hd
    rw [cleaned_head hd, smuggles]
    simp [hd, h1.1, h1.2]

/-- A tab hides the backslash from `safe_next` and not from the browser. -/
theorem safe_next_tab_backslash : ¬ ∀ candidate, SafeNext (fun _ => false) candidate := by
  intro h
  obtain ⟨⟨r, hr, -, rest, hrest, -, hb⟩, -⟩ := h (some (lit "/\t\\evil.test/"))
  have hkept : safe_next (fun _ => false) (some (lit "/\t\\evil.test/")) =
      some (lit "/\t\\evil.test/") := by decide
  rw [hkept] at hr
  obtain rfl := Option.some.inj hr
  have hclean : cleaned (lit "/\t\\evil.test/") = slash :: lit "\\evil.test/" := by decide
  rw [hclean] at hrest
  obtain ⟨-, rfl⟩ := List.cons.inj hrest
  exact hb (by decide)

end PaperBoxing.Frontend.Auth
