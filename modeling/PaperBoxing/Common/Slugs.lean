import PaperBoxing.Common.Naming

/-! # The image of the slugs

What `slug_from_name` makes of all names, and what `validate_slug` lets through.

* `subRuns_kept`: a string whose runs are already replaced is left as it is;
* `slug_of_name`: every slug is usable, stable, and the longest the name has;
* `guards_iff`: the slug expression is the grammar, but for a line feed at the end. -/

namespace PaperBoxing.Common.Slugs

open PaperBoxing.Lib.Text PaperBoxing.Common.Schema PaperBoxing.Common.Naming

/-! ### Runs -/

section
variable {keep : CodePoint → Bool} {r : CodePoint} {s : Str}

/-- Inside a run, nothing more is put for it. -/
theorem subRuns_true_head {c : CodePoint} {u : Str} (h : subRuns keep r true s = c :: u) :
    keep c = true := by
  induction s with
  | nil => cases h
  | cons d s ih =>
    rw [subRuns] at h
    by_cases hd : keep d = true
    · rw [if_pos hd] at h
      rw [← (List.cons.inj h).1]
      exact hd
    · rw [if_neg hd, if_pos rfl] at h
      exact ih h

/-- What is kept is what was there. -/
theorem mem_subRuns_iff (hr : keep r = false) {c : CodePoint} (hc : keep c = true) :
    ∀ {b : Bool} {s : Str}, c ∈ subRuns keep r b s ↔ c ∈ s
  | _, [] => Iff.rfl
  | b, d :: s => by
    rw [subRuns]
    have hne : keep d = false → c ≠ d := by
      rintro hd rfl
      rw [hc] at hd
      cases hd
    split_ifs with hd hb
    · rw [List.mem_cons, List.mem_cons, mem_subRuns_iff hr hc]
    · rw [List.mem_cons, mem_subRuns_iff hr hc, or_iff_right (hne (Bool.not_eq_true _ ▸ hd))]
    · have hcr : c ≠ r := by
        rintro rfl
        rw [hc] at hr
        cases hr
      rw [List.mem_cons, List.mem_cons, mem_subRuns_iff hr hc, or_iff_right hcr,
        or_iff_right (hne (Bool.not_eq_true _ ▸ hd))]

/-- **No two replacements in a row.** -/
theorem no_pair_subRuns (hr : keep r = false) : ∀ (b : Bool) (s : Str),
    ¬ [r, r] <:+: subRuns keep r b s
  | _, [] => by simp [subRuns]
  | b, d :: s => by
    rw [subRuns]
    split_ifs with hd hb
    · rw [List.infix_cons_iff, not_or]
      refine ⟨fun hp => ?_, no_pair_subRuns hr false s⟩
      rw [← (List.cons_prefix_cons.1 hp).1, hr] at hd
      cases hd
    · exact no_pair_subRuns hr true s
    · rw [List.infix_cons_iff, not_or]
      refine ⟨fun hp => ?_, no_pair_subRuns hr true s⟩
      obtain ⟨u, hu⟩ := (List.cons_prefix_cons.1 hp).2
      have hkeep := subRuns_true_head hu.symm
      rw [hr] at hkeep
      cases hkeep

/-- **Where every run is one replacement, nothing changes.** -/
theorem subRuns_kept (hs : ∀ c ∈ s, keep c = true ∨ c = r) (hpair : ¬ [r, r] <:+: s) :
    subRuns keep r false s = s ∧ (s.head? ≠ some r → subRuns keep r true s = s) := by
  induction s with
  | nil => exact ⟨rfl, fun _ => rfl⟩
  | cons c s ih =>
    obtain ⟨hfalse, htrue⟩ := ih (fun d hd => hs d (List.mem_cons_of_mem _ hd)) fun h =>
      hpair (List.infix_cons_iff.2 (Or.inr h))
    rw [subRuns, subRuns]
    by_cases hc : keep c = true
    · rw [if_pos hc, if_pos hc, hfalse]
      exact ⟨rfl, fun _ => rfl⟩
    · obtain rfl := (hs c List.mem_cons_self).resolve_left hc
      rw [if_neg hc, if_neg hc]
      constructor
      · rw [if_neg Bool.false_ne_true, htrue]
        intro hhead
        obtain ⟨u, rfl⟩ := List.head?_eq_some_iff.1 hhead
        exact hpair (List.infix_cons_iff.2 (Or.inl ⟨u, rfl⟩))
      · exact fun h => absurd rfl h

end

/-! ### The grammar -/

/-- **The slug grammar**, as it is written down: 1 to 63 characters, all from `a-z`, `0-9` and `-`,
and `-` neither first nor last. -/
structure InGrammar (s : Str) : Prop where
  pos : 1 ≤ s.length
  length : s.length ≤ 63
  chars : ∀ c ∈ s, isLower c = true ∨ isDigit c = true ∨ c = hyphen
  first : s.head? ≠ some hyphen
  last : s.getLast? ≠ some hyphen

theorem isSlugChar_iff {c : CodePoint} :
    isSlugChar c = true ↔ isLower c = true ∨ isDigit c = true ∨ c = hyphen := by
  rw [isSlugChar, isAlnum, Bool.or_eq_true, Bool.or_eq_true, beq_iff_eq, or_assoc]

/-- The numbers of the characters of slugs. -/
theorem slugChar_val {c : CodePoint} (h : isLower c = true ∨ isDigit c = true ∨ c = hyphen) :
    (97 ≤ c.val ∧ c.val ≤ 122) ∨ (48 ≤ c.val ∧ c.val ≤ 57) ∨ c.val = 45 := by
  rcases h with h | h | rfl
  · rw [isLower, between, Bool.and_eq_true, decide_eq_true_eq, decide_eq_true_eq] at h
    exact Or.inl h
  · rw [isDigit, between, Bool.and_eq_true, decide_eq_true_eq, decide_eq_true_eq] at h
    exact Or.inr (Or.inl h)
  · exact Or.inr (Or.inr rfl)

/-- They are ASCII, and in lower case. -/
theorem slugChar_plain {c : CodePoint} (h : isLower c = true ∨ isDigit c = true ∨ c = hyphen) :
    isAscii c = true ∧ asciiLower c = c := by
  have hval := slugChar_val h
  refine ⟨decide_eq_true (by omega), if_neg fun hupper => ?_⟩
  rw [isUpper, between, Bool.and_eq_true, decide_eq_true_eq, decide_eq_true_eq] at hupper
  have hbounds : 65 ≤ c.val ∧ c.val ≤ 90 := hupper
  omega

theorem isAlnum_of_slugChar {c : CodePoint} (h : isSlugChar c = true) (hc : c ≠ hyphen) :
    isAlnum c = true := by
  rw [isSlugChar, beq_false_of_ne hc, Bool.or_false] at h
  exact h

theorem hyphen_not_alnum : isAlnum hyphen = false := by decide

/-- The two ways to say it. -/
theorem isSlug_iff {s : Str} : IsSlug s ↔ InGrammar s := by
  constructor
  · rintro ⟨⟨c, u, hu, hc⟩, ⟨d, v, hv, hd⟩, hchars, hlen⟩
    refine ⟨?_, hlen, fun e he => isSlugChar_iff.1 (hchars e he), ?_, ?_⟩
    · rw [hu, List.length_cons]
      omega
    · rintro h
      rw [hu, List.head?_cons] at h
      rw [Option.some.inj h, hyphen_not_alnum] at hc
      cases hc
    · rintro h
      rw [hv, List.getLast?_concat] at h
      rw [Option.some.inj h, hyphen_not_alnum] at hd
      cases hd
  · rintro ⟨hpos, hlen, hchars, hfirst, hlast⟩
    have hslug : ∀ e ∈ s, isSlugChar e = true := fun e he => isSlugChar_iff.2 (hchars e he)
    have hne : s ≠ [] := List.length_pos_iff.1 hpos
    refine ⟨?_, ?_, hslug, hlen⟩
    · obtain ⟨c, u, rfl⟩ := List.exists_cons_of_ne_nil hne
      refine ⟨c, u, rfl, isAlnum_of_slugChar (hslug c List.mem_cons_self) ?_⟩
      rintro rfl
      exact hfirst rfl
    · obtain ⟨u, c, hu⟩ := (List.eq_nil_or_concat s).resolve_left hne
      rw [List.concat_eq_append] at hu
      refine ⟨c, u, hu, isAlnum_of_slugChar (hslug c (by rw [hu]; simp)) ?_⟩
      rintro rfl
      exact hlast (by rw [hu, List.getLast?_concat])

/-! ### The slug of a name -/

/-- The slug of a name before it is cut. -/
def uncut (rt : Runtime) (name : Str) : Str :=
  strip (· == hyphen) (subRuns isAlnum hyphen false (((rt.nfkd name).filter isAscii).map asciiLower))

theorem slug_from_name_eq (rt : Runtime) (name : Str) : slug_from_name rt name =
    if strip (· == hyphen) ((uncut rt name).take SLUG_MAX_LENGTH) = [] then
      .error (lit "no slug can be derived from the name " ++ rt.repr name)
    else .ok (strip (· == hyphen) ((uncut rt name).take SLUG_MAX_LENGTH)) := rfl

/-- **A usable slug**: in the grammar, and without two hyphens in a row. -/
structure Usable (s : Str) : Prop extends InGrammar s where
  single : ¬ [hyphen, hyphen] <:+: s

/-- An ASCII letter or digit. -/
def isLetterOrDigit (c : CodePoint) : Bool := isLower c || isUpper c || isDigit c

/-- In lower case, letters and digits are those of slugs. -/
theorem isAlnum_asciiLower (c : CodePoint) : isAlnum (asciiLower c) = isLetterOrDigit c := by
  have hupper : isUpper c = true ↔ 65 ≤ c.val ∧ c.val ≤ 90 := by
    rw [isUpper, between, Bool.and_eq_true, decide_eq_true_eq, decide_eq_true_eq]
    rfl
  rw [asciiLower, isLetterOrDigit]
  by_cases h : isUpper c = true
  · have hc := hupper.1 h
    have hval : (Fin.ofNat 0x110000 (c.val + 32) : CodePoint).val = c.val + 32 :=
      Nat.mod_eq_of_lt (by omega)
    have hlower : isLower (Fin.ofNat 0x110000 (c.val + 32)) = true := by
      rw [isLower, between, hval, Bool.and_eq_true, decide_eq_true_eq, decide_eq_true_eq]
      exact ⟨show 97 ≤ c.val + 32 by omega, show c.val + 32 ≤ 122 by omega⟩
    rw [if_pos h, isAlnum, hlower, h, Bool.or_true]
    rfl
  · have hfalse : isUpper c = false := Bool.eq_false_iff.2 h
    rw [if_neg h, isAlnum, hfalse, Bool.or_false]

theorem isAscii_of_letterOrDigit {c : CodePoint} (h : isLetterOrDigit c = true) :
    isAscii c = true := by
  have hbetween : ∀ lo hi : Char, between lo hi c = true → hi.toNat < 0x80 → isAscii c = true := by
    intro lo hi hc hhi
    rw [between, Bool.and_eq_true, decide_eq_true_eq, decide_eq_true_eq] at hc
    exact decide_eq_true (by omega)
  rw [isLetterOrDigit, Bool.or_eq_true, Bool.or_eq_true] at h
  rcases h with (h | h) | h
  · exact hbetween _ _ h (by decide)
  · exact hbetween _ _ h (by decide)
  · exact hbetween _ _ h (by decide)

/-- **A name has no uncut slug** when its normal form has no letter and no digit. -/
theorem uncut_eq_nil {rt : Runtime} {name : Str} :
    uncut rt name = [] ↔ ∀ c ∈ rt.nfkd name, isLetterOrDigit c = false := by
  rw [uncut, strip_eq_nil]
  constructor
  · intro h c hc
    by_contra hletter
    rw [Bool.not_eq_false] at hletter
    have halnum : isAlnum (asciiLower c) = true := by rw [isAlnum_asciiLower, hletter]
    have hmem : asciiLower c ∈ ((rt.nfkd name).filter isAscii).map asciiLower :=
      List.mem_map_of_mem (List.mem_filter.2 ⟨hc, isAscii_of_letterOrDigit hletter⟩)
    have hhyphen := beq_iff_eq.1 (h _ ((mem_subRuns_iff hyphen_not_alnum halnum).2 hmem))
    rw [hhyphen, hyphen_not_alnum] at halnum
    cases halnum
  · intro h c hc
    rcases mem_subRuns hc with halnum | rfl
    · obtain ⟨d, hd, rfl⟩ := List.mem_map.1 ((mem_subRuns_iff hyphen_not_alnum halnum).1 hc)
      rw [isAlnum_asciiLower, h d (List.mem_filter.1 hd).1] at halnum
      cases halnum
    · exact beq_self_eq_true _

theorem infix_strip (p : CodePoint → Bool) (s : Str) : strip p s <:+: s :=
  (List.rdropWhile_prefix p _).isInfix.trans (List.dropWhile_suffix p).isInfix

/-- The uncut slug has hyphens inside only, one at a time. -/
theorem uncut_single (rt : Runtime) (name : Str) : ¬ [hyphen, hyphen] <:+: uncut rt name :=
  fun h => no_pair_subRuns hyphen_not_alnum _ _ (h.trans (infix_strip _ _))

/-- **The cut of a string without two hyphens in a row** loses at most the hyphen at its end. -/
theorem strip_take {u : Str} (hfirst : ∀ c v, u = c :: v → (c == hyphen) = false)
    (hsingle : ¬ [hyphen, hyphen] <:+: u) (n : ℕ) :
    strip (· == hyphen) (u.take n) = u.take n ∨
      strip (· == hyphen) (u.take n) ++ [hyphen] = u.take n := by
  have hhead : ∀ c v, u.take n = c :: v → (c == hyphen) = false := fun c v hv => by
    obtain ⟨w, hw⟩ := List.take_prefix n u
    rw [hv, List.cons_append] at hw
    exact hfirst c _ hw.symm
  rcases List.eq_nil_or_concat (u.take n) with hnil | ⟨v, c, hv⟩
  · rw [hnil]
    exact Or.inl rfl
  rw [List.concat_eq_append] at hv
  by_cases hc : c = hyphen
  · -- the hyphen at the cut goes, and the one before it would be a second
    subst hc
    right
    have hlast : ∀ d x, v = x ++ [d] → (d == hyphen) = false := by
      rintro d x rfl
      refine Bool.eq_false_iff.2 fun hd => hsingle ?_
      refine List.IsInfix.trans ?_ (List.take_prefix n u).isInfix
      rw [hv, beq_iff_eq.1 hd, List.append_assoc]
      exact (List.suffix_append x _).isInfix
    have hvhead : ∀ d x, v = d :: x → (d == hyphen) = false := by
      rintro d x rfl
      exact hhead d (x ++ [hyphen]) hv
    have hgone : (hyphen == hyphen) = true := beq_self_eq_true _
    rw [hv, strip_concat (p := (· == hyphen)) hgone, strip_of_ends hvhead hlast]
  · left
    refine strip_of_ends hhead fun d x hx => ?_
    rw [hv] at hx
    obtain ⟨-, hcd⟩ := List.append_inj' hx rfl
    rw [← (List.cons.inj hcd).1]
    exact beq_false_of_ne hc

section
variable {rt : Runtime} {name s : Str}

theorem uncut_first {c : CodePoint} {v : Str} (h : uncut rt name = c :: v) : (c == hyphen) = false :=
  strip_head (p := (· == hyphen)) h

/-- **The slug of a name is its uncut slug**, cut, and without a hyphen at the cut. -/
theorem slug_cut (h : slug_from_name rt name = .ok s) :
    s = (uncut rt name).take 63 ∨ s ++ [hyphen] = (uncut rt name).take 63 := by
  rw [slug_from_name_eq] at h
  split_ifs at h
  obtain rfl := Except.ok.inj h
  exact (strip_take (fun _ _ => uncut_first) (uncut_single rt name) 63).imp_left fun h => h

theorem slug_refused : (∃ why, slug_from_name rt name = .error why) ↔ uncut rt name = [] := by
  rw [slug_from_name_eq]
  rcases hu : uncut rt name with _ | ⟨c, v⟩
  · exact iff_of_true ⟨_, if_pos rfl⟩ rfl
  · refine iff_of_false ?_ (List.cons_ne_nil _ _)
    rintro ⟨why, hwhy⟩
    split_ifs at hwhy with hnil
    have hcut := strip_take (u := c :: v) (n := 63) (fun d x hd => uncut_first (hu.trans hd))
      (hu ▸ uncut_single rt name)
    rw [SLUG_MAX_LENGTH] at hnil
    rw [hnil] at hcut
    rcases hcut with hcut | hcut
    · cases hcut
    · have hc := uncut_first hu
      rw [← (List.cons.inj hcut).1] at hc
      exact absurd hc (by decide)

theorem slug_part (h : slug_from_name rt name = .ok s) : s <+: uncut rt name := by
  have htake := List.take_prefix 63 (uncut rt name)
  rcases slug_cut h with hcut | hcut
  · rwa [hcut]
  · rw [← hcut] at htake
    exact (List.prefix_append _ _).trans htake

theorem slug_usable (h : slug_from_name rt name = .ok s) : Usable s where
  toInGrammar := isSlug_iff.1 (slug_from_name_valid h)
  single hpair := uncut_single rt name (hpair.trans (slug_part h).isInfix)

/-- **No longer part of the uncut slug** could be the slug. -/
theorem slug_longest (h : slug_from_name rt name = .ok s) {t : Str} (ht : t <+: uncut rt name)
    (husable : Usable t) : t.length ≤ s.length := by
  have hcut : t <+: (uncut rt name).take 63 := List.prefix_take_iff.2 ⟨ht, husable.length⟩
  rcases slug_cut h with hs | hs
  · rw [hs]
    exact hcut.length_le
  · rw [← hs] at hcut
    rcases List.prefix_concat_iff.1 hcut with rfl | hts
    · exact absurd (List.getLast?_concat ..) husable.last
    · exact hts.length_le

/-- **A usable slug is its own.** -/
theorem Usable.stable (h : Usable s) (hnfkd : rt.nfkd s = s) : slug_from_name rt s = .ok s := by
  have hchars : ∀ c ∈ s, isAlnum c = true ∨ c = hyphen := fun c hc => by
    rcases h.chars c hc with hl | hd | hh
    · exact Or.inl (by rw [isAlnum, hl, Bool.true_or])
    · exact Or.inl (by rw [isAlnum, hd, Bool.or_true])
    · exact Or.inr hh
  have hfilter : s.filter isAscii = s :=
    List.filter_eq_self.2 fun c hc => (slugChar_plain (h.chars c hc)).1
  have hmap : s.map asciiLower = s :=
    (List.map_congr_left fun c hc => (slugChar_plain (h.chars c hc)).2).trans (List.map_id s)
  have hstrip : strip (· == hyphen) s = s := by
    refine strip_of_ends (fun c u hu => beq_false_of_ne ?_) fun c u hu => beq_false_of_ne ?_
    · rintro rfl
      exact h.first (by rw [hu]; rfl)
    · rintro rfl
      exact h.last (by rw [hu, List.getLast?_concat])
  have huncut : uncut rt s = s := by
    rw [uncut, hnfkd, hfilter, hmap, (subRuns_kept hchars h.single).1, hstrip]
  have htake : s.take SLUG_MAX_LENGTH = s := List.take_of_length_le h.length
  rw [slug_from_name_eq, huncut, htake, hstrip]
  exact if_neg (List.length_pos_iff.1 h.pos)

end

/-- **What a slug made from a name is**: usable, accepted, its own slug, and as much of the uncut slug
as a slug can have. -/
structure SlugOf (rt : Runtime) (name s : Str) : Prop extends Usable s where
  validated : validate_slug rt s = .ok s
  stable : slug_from_name rt s = .ok s
  cut : s = (uncut rt name).take 63 ∨ s ++ [hyphen] = (uncut rt name).take 63
  part : s <+: uncut rt name
  longest : ∀ t, t <+: uncut rt name → Usable t → t.length ≤ s.length

/-- **Every name has a usable and stable slug**, unless it has no letter and no digit. -/
theorem slug_of_name (rt : Runtime) (hnfkd : ∀ s, (∀ c ∈ s, isAscii c = true) → rt.nfkd s = s)
    (name : Str) :
    ((∃ why, slug_from_name rt name = .error why) ↔
        ∀ c ∈ rt.nfkd name, isLetterOrDigit c = false) ∧
      ∀ s, slug_from_name rt name = .ok s → SlugOf rt name s := by
  refine ⟨slug_refused.trans uncut_eq_nil, fun s h => ?_⟩
  have husable := slug_usable h
  have hascii : ∀ c ∈ s, isAscii c = true := fun c hc => (slugChar_plain (husable.chars c hc)).1
  exact ⟨husable, (isSlug_iff.2 husable.toInGrammar).validate rt, husable.stable (hnfkd s hascii),
    slug_cut h, slug_part h, fun t => slug_longest h⟩

theorem slug_of_name_plain : (∃ s, slug_from_name plainRuntime (lit "A b") = .ok s) ∧
    ∀ s, slug_from_name plainRuntime (lit "A b") = .ok s → SlugOf plainRuntime (lit "A b") s :=
  ⟨⟨lit "a-b", by decide⟩, (slug_of_name plainRuntime (fun _ _ => rfl) (lit "A b")).2⟩

/-! ### What is let through -/

/-- A C0 or C1 control character, or DEL. -/
def isControl (c : CodePoint) : Bool := c.val < 0x20 || (0x7F ≤ c.val && c.val < 0xA0)

/-- **`validate_slug` decides the grammar on `s`**, and lets nothing through that a path component or a
URL segment could not hold. -/
structure Guards (rt : Runtime) (s : Str) : Prop where
  accepted : validate_slug rt s = .ok s ↔ InGrammar s
  rejected : ¬ InGrammar s → ∃ why, validate_slug rt s = .error why
  safe : ∀ t, validate_slug rt s = .ok t →
    ∀ c ∈ t, c ≠ slash ∧ c ≠ ofChar '.' ∧ isSpace c = false ∧ isControl c = false

theorem validate_slug_ok {rt : Runtime} {s t : Str} :
    validate_slug rt s = .ok t ↔ t = s ∧ SLUG_RE.matches s = true := by
  rw [validate_slug]
  split_ifs with h
  · rw [Except.ok.injEq, eq_comm, and_iff_left h]
  · exact iff_of_false (by rintro ⟨⟩) fun hc => h hc.2

/-- A character of a slug is safe. -/
theorem slugChar_safe {c : CodePoint} (h : isLower c = true ∨ isDigit c = true ∨ c = hyphen) :
    c ≠ slash ∧ c ≠ ofChar '.' ∧ isSpace c = false ∧ isControl c = false := by
  have hval := slugChar_val h
  refine ⟨?_, ?_, ?_, ?_⟩
  · rintro rfl
    have hslash : slash.val = 47 := rfl
    omega
  · rintro rfl
    have hdot : (ofChar '.').val = 46 := rfl
    omega
  · simp only [isSpace, Bool.or_eq_false_iff, Bool.and_eq_false_iff, decide_eq_false_iff_not,
      beq_eq_false_iff_ne]
    omega
  · simp only [isControl, Bool.or_eq_false_iff, Bool.and_eq_false_iff, decide_eq_false_iff_not]
    omega

/-- **The slug expression is the grammar**, for every string but a slug before one line feed. -/
theorem guards_iff (rt : Runtime) (s : Str) :
    Guards rt s ↔ ∀ body, InGrammar body → s ≠ body ++ [newline] := by
  constructor
  · rintro h body hbody rfl
    have hok : validate_slug rt (body ++ [newline]) = .ok (body ++ [newline]) :=
      validate_slug_ok.2 ⟨rfl, matches_SLUG_RE.2 ⟨body, isSlug_iff.2 hbody, Or.inr rfl⟩⟩
    have hspace := (h.safe _ hok newline (by simp)).2.2.1
    exact absurd hspace (by decide)
  · intro h
    have hmatches : SLUG_RE.matches s = true ↔ InGrammar s := by
      rw [matches_SLUG_RE]
      constructor
      · rintro ⟨body, hbody, rfl | hs⟩
        · exact isSlug_iff.1 hbody
        · exact absurd hs (h body (isSlug_iff.1 hbody))
      · exact fun hg => ⟨s, isSlug_iff.2 hg, Or.inl rfl⟩
    refine ⟨validate_slug_ok.trans ((and_iff_right rfl).trans hmatches), fun hg => ?_, fun t ht => ?_⟩
    · exact ⟨_, if_neg (hmatches.not.2 hg)⟩
    · obtain ⟨rfl, hm⟩ := validate_slug_ok.1 ht
      exact fun c hc => slugChar_safe ((hmatches.1 hm).chars c hc)

/-- A line feed after the last letter. -/
theorem guards_line_feed : ¬ Guards plainRuntime (lit "a\n") := by
  intro h
  have hok : validate_slug plainRuntime (lit "a\n") = .ok (lit "a\n") := by decide
  exact absurd (h.safe _ hok newline (by decide)).2.2.1 (by decide)

end PaperBoxing.Common.Slugs
