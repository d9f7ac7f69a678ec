import PaperBoxing.Lib.Percent

/-! # Path templates

A path template is a list of parts between slashes: literals, parameters, and at its end perhaps a
parameter that takes the rest of the path. `Fills` says what it is to fill a template; a path is
matched against a template word by word.

* `matchParts_iff`: a path matches with exactly the values that fill the template to it;
* `matchParts_clash`: templates that clash have no path in common;
* `reads_join`: quoted words, joined by slashes, are decoded to the words. -/

namespace PaperBoxing.Lib.Templates

open PaperBoxing.Lib.Text PaperBoxing.Lib.Percent

/-- A part of a template between slashes; `rest` marks the parameter that takes the rest of the
path. -/
inductive Part : Type where
  | literal (text : Str)
  | param (key : Str) (rest : Bool)
  deriving DecidableEq

/-- `{key}` and `{key:path}` are parameters. -/
def partOf (word : Str) : Part :=
  match word with
  | c :: more =>
    if c = ofChar '{' ∧ more.getLast? = some (ofChar '}') then
      let key := more.dropLast.takeWhile (· != ofChar ':')
      .param key (decide (more.dropLast.drop key.length = lit ":path"))
    else .literal word
  | [] => .literal []

/-- The parts of a template. -/
def parts (template : Str) : List Part := (split template).map partOf

/-- The parameters of a template, in their order. -/
def keys : List Part → List Str
  | [] => []
  | .literal _ :: ps => keys ps
  | .param key _ :: ps => key :: keys ps

/-- The parameter that takes the rest is the last part, and no literal has a slash. -/
def wellFormed : List Part → Bool
  | [] => true
  | .literal t :: ps => decide (slash ∉ t) && wellFormed ps
  | .param _ false :: ps => wellFormed ps
  | .param _ true :: ps => ps.isEmpty

/-- **Filling a template**: a parameter is filled by one or more characters other than a slash, the
one that takes the rest by any characters other than a newline. -/
inductive Fills : List Part → List (Str × Str) → List Str → Prop
  | nil : Fills [] [] []
  | literal {ps vs ws} (t : Str) : Fills ps vs ws → Fills (.literal t :: ps) vs (t :: ws)
  | param {ps vs ws} (key : Str) {v : Str} : v ≠ [] → slash ∉ v → Fills ps vs ws →
      Fills (.param key false :: ps) ((key, v) :: vs) (v :: ws)
  | rest (key : Str) {v : Str} : newline ∉ v → Fills [.param key true] [(key, v)] [v]

/-- **Matching** the words of a path. -/
def matchParts : List Part → List Str → Option (List (Str × Str))
  | [], [] => some []
  | .literal t :: ps, w :: ws => if w = t then matchParts ps ws else none
  | .param key false :: ps, w :: ws =>
    if w = [] then none else (matchParts ps ws).map ((key, w) :: ·)
  | [.param key true], w :: ws =>
    if newline ∈ join (w :: ws) then none else some [(key, join (w :: ws))]
  | _, _ => none

/-- Templates that no path fits both. -/
def clash : List Part → List Part → Bool
  | [], [] => false
  | [], _ :: _ => true
  | _ :: _, [] => true
  | .literal t :: ps, .literal u :: qs => decide (t ≠ u) || clash ps qs
  | .literal _ :: ps, .param _ false :: qs => clash ps qs
  | .param _ false :: ps, .literal _ :: qs => clash ps qs
  | .param _ false :: ps, .param _ false :: qs => clash ps qs
  | _, _ => false

/-! ### Words -/

theorem split_of_not_mem {s : Str} (h : slash ∉ s) : split s = [s] := by
  have hwords : ∀ w ∈ [s], slash ∉ w := by simpa using h
  have := split_join hwords (List.cons_ne_nil _ _)
  rwa [join_singleton] at this

theorem flatMap_split_ne_nil {ws : List Str} (h : ws ≠ []) : ws.flatMap split ≠ [] := by
  obtain ⟨w, ws, rfl⟩ := List.exists_cons_of_ne_nil h
  rw [List.flatMap_cons]
  exact List.append_ne_nil_of_left_ne_nil (split_ne_nil w) _

theorem join_flatMap_split (ws : List Str) : join (ws.flatMap split) = join ws := by
  induction ws with
  | nil => rfl
  | cons w ws ih =>
    rcases eq_or_ne ws [] with rfl | hne
    · simp [join_split]
    · rw [List.flatMap_cons, join_append (split_ne_nil w) (flatMap_split_ne_nil hne), join_split, ih,
        join_cons hne]

/-- The words of joined texts are the words of each. -/
theorem split_join_flatMap {ws : List Str} (h : ws ≠ []) : split (join ws) = ws.flatMap split := by
  rw [← join_flatMap_split]
  refine split_join (fun w hw => ?_) (flatMap_split_ne_nil h)
  obtain ⟨t, -, ht⟩ := List.mem_flatMap.1 hw
  exact not_mem_split ht

/-! ### Matching is filling -/

section
variable {ps qs : List Part} {vs : List (Str × Str)} {ws : List Str}

theorem Fills.ne_nil (h : Fills ps vs ws) (hne : ps ≠ []) : ws ≠ [] := by
  cases h with
  | nil => exact absurd rfl hne
  | literal | param | rest => exact List.cons_ne_nil _ _

theorem matchParts_of_fills (h : Fills ps vs ws) (hlit : ∀ t, .literal t ∈ ps → slash ∉ t) :
    matchParts ps (ws.flatMap split) = some vs := by
  induction h with
  | nil => rfl
  | @literal ps vs ws t h ih =>
    rw [List.flatMap_cons, split_of_not_mem (hlit t List.mem_cons_self), List.singleton_append,
      matchParts, if_pos rfl]
    exact ih fun u hu => hlit u (List.mem_cons_of_mem _ hu)
  | @param ps vs ws key v hv hs h ih =>
    rw [List.flatMap_cons, split_of_not_mem hs, List.singleton_append, matchParts, if_neg hv,
      ih fun u hu => hlit u (List.mem_cons_of_mem _ hu)]
    rfl
  | @rest key v hv =>
    rw [List.flatMap_singleton]
    obtain ⟨w, ws, hw⟩ := List.exists_cons_of_ne_nil (split_ne_nil v)
    rw [hw, matchParts, ← hw, join_split, if_neg hv]

theorem fills_of_matchParts (hws : ∀ w ∈ ws, slash ∉ w) (h : matchParts ps ws = some vs) :
    ∃ us, Fills ps vs us ∧ us.flatMap split = ws := by
  induction ps, ws using matchParts.induct generalizing vs with
  | case1 =>
    obtain rfl := Option.some.inj h
    exact ⟨[], .nil, rfl⟩
  | case2 ps t ws ih =>
    rw [matchParts, if_pos rfl] at h
    obtain ⟨us, hf, hus⟩ := ih (fun w hw => hws w (List.mem_cons_of_mem _ hw)) h
    refine ⟨t :: us, .literal t hf, ?_⟩
    rw [List.flatMap_cons, split_of_not_mem (hws t List.mem_cons_self), hus, List.singleton_append]
  | case3 t ps w ws hne =>
    rw [matchParts, if_neg hne] at h
    cases h
  | case4 key ps ws =>
    rw [matchParts, if_pos rfl] at h
    cases h
  | case5 key ps w ws hne ih =>
    rw [matchParts, if_neg hne] at h
    obtain ⟨vs, hvs, rfl⟩ := Option.map_eq_some_iff.1 h
    obtain ⟨us, hf, hus⟩ := ih (fun w hw => hws w (List.mem_cons_of_mem _ hw)) hvs
    have hw := hws w List.mem_cons_self
    refine ⟨w :: us, .param key hne hw hf, ?_⟩
    rw [List.flatMap_cons, split_of_not_mem hw, hus, List.singleton_append]
  | case6 key w ws hmem =>
    rw [matchParts, if_pos hmem] at h
    cases h
  | case7 key w ws hmem =>
    rw [matchParts, if_neg hmem] at h
    obtain rfl := Option.some.inj h
    exact ⟨_, .rest key hmem, by rw [List.flatMap_singleton, split_join hws (List.cons_ne_nil _ _)]⟩
  | case8 ps ws h1 h2 h3 h4 =>
    rw [matchParts] at h
    · cases h
    all_goals assumption

/-- **A path matches with the values that fill the template to it**, and with no others. -/
theorem matchParts_iff (hne : ps ≠ []) (hlit : ∀ t, .literal t ∈ ps → slash ∉ t) {s : Str} :
    matchParts ps (split s) = some vs ↔ ∃ ws, Fills ps vs ws ∧ s = join ws := by
  constructor
  · intro h
    obtain ⟨us, hf, hus⟩ := fills_of_matchParts (fun w hw => not_mem_split hw) h
    exact ⟨us, hf, by rw [← join_flatMap_split, hus, join_split]⟩
  · rintro ⟨ws, hf, rfl⟩
    rw [split_join_flatMap (hf.ne_nil hne)]
    exact matchParts_of_fills hf hlit

/-- **Templates that clash have no path in common.** -/
theorem matchParts_clash (hc : clash ps qs = true) (h : Fills qs vs ws)
    (hlit : ∀ t, .literal t ∈ qs → slash ∉ t) : matchParts ps (ws.flatMap split) = none := by
  induction h generalizing ps with
  | nil =>
    rcases ps with _ | ⟨p, ps⟩
    · cases hc
    · rcases p with t | ⟨key, _ | _⟩ <;> rcases ps with _ | ⟨p, ps⟩ <;> rfl
  | @literal qs vs ws u h ih =>
    have hlit' : ∀ t, .literal t ∈ qs → slash ∉ t := fun t ht => hlit t (List.mem_cons_of_mem _ ht)
    rw [List.flatMap_cons, split_of_not_mem (hlit u List.mem_cons_self), List.singleton_append]
    rcases ps with _ | ⟨t | ⟨key, _ | _⟩, ps⟩
    · rfl
    · rw [matchParts]
      by_cases htu : u = t
      · rw [if_pos htu]
        exact ih (by simpa [clash, htu] using hc) hlit'
      · rw [if_neg htu]
    · rw [matchParts, ih (by simpa [clash] using hc) hlit']
      exact ite_self _
    · simp [clash] at hc
  | @param qs vs ws key v hv hs h ih =>
    have hlit' : ∀ t, .literal t ∈ qs → slash ∉ t := fun t ht => hlit t (List.mem_cons_of_mem _ ht)
    rw [List.flatMap_cons, split_of_not_mem hs, List.singleton_append]
    rcases ps with _ | ⟨t | ⟨key, _ | _⟩, ps⟩
    · rfl
    · rw [matchParts, ih (by simpa [clash] using hc) hlit']
      exact ite_self _
    · rw [matchParts, ih (by simpa [clash] using hc) hlit']
      exact ite_self _
    · simp [clash] at hc
  | @rest key v hv =>
    rw [List.flatMap_singleton]
    obtain ⟨w, ws, hw⟩ := List.exists_cons_of_ne_nil (split_ne_nil v)
    rw [hw]
    rcases ps with _ | ⟨t | ⟨key, _ | _⟩, ps⟩
    · rfl
    all_goals simp [clash] at hc

/-- Values that suit the parameters fill a template. -/
theorem exists_fills (hwf : wellFormed ps = true) (hkeys : vs.map Prod.fst = keys ps)
    (hrest : ∀ key, .param key true ∈ ps → ∀ v, (key, v) ∈ vs → newline ∉ v)
    (hparam : ∀ key, .param key false ∈ ps → ∀ v, (key, v) ∈ vs → v ≠ [] ∧ slash ∉ v) :
    ∃ ws, Fills ps vs ws := by
  induction ps generalizing vs with
  | nil =>
    obtain rfl := List.map_eq_nil_iff.1 hkeys
    exact ⟨[], .nil⟩
  | cons p ps ih =>
    rcases p with t | ⟨key, _ | _⟩
    · rw [wellFormed, Bool.and_eq_true] at hwf
      obtain ⟨ws, hws⟩ := ih hwf.2 hkeys (fun key hk => hrest key (List.mem_cons_of_mem _ hk))
        fun key hk => hparam key (List.mem_cons_of_mem _ hk)
      exact ⟨t :: ws, .literal t hws⟩
    · obtain ⟨⟨k, v⟩, vs, rfl, rfl, hvs⟩ := List.map_eq_cons_iff.1 hkeys
      obtain ⟨ws, hws⟩ := ih hwf hvs
        (fun key hk v hv => hrest key (List.mem_cons_of_mem _ hk) v (List.mem_cons_of_mem _ hv))
        fun key hk v hv => hparam key (List.mem_cons_of_mem _ hk) v (List.mem_cons_of_mem _ hv)
      obtain ⟨hv, hs⟩ := hparam k List.mem_cons_self v List.mem_cons_self
      exact ⟨v :: ws, .param k hv hs hws⟩
    · obtain rfl := List.isEmpty_iff.1 hwf
      obtain ⟨⟨k, v⟩, vs, rfl, rfl, hvs⟩ := List.map_eq_cons_iff.1 hkeys
      obtain rfl := List.map_eq_nil_iff.1 hvs
      exact ⟨[v], .rest k (hrest k List.mem_cons_self v List.mem_cons_self)⟩

theorem literals_of_wellFormed (h : wellFormed ps = true) (t : Str) (ht : .literal t ∈ ps) :
    slash ∉ t := by
  induction ps with
  | nil => cases ht
  | cons p ps ih =>
    rcases p with u | ⟨key, _ | _⟩
    · rw [wellFormed, Bool.and_eq_true, decide_eq_true_eq] at h
      rcases List.mem_cons.1 ht with ht | ht
      · cases ht
        exact h.1
      · exact ih h.2 ht
    · exact ih h ((List.mem_cons.1 ht).resolve_left nofun)
    · rw [List.isEmpty_iff.1 h] at ht
      simp at ht

end

/-! ### Reading what was quoted -/

/-- A text that is read as a given one, wherever it stands. -/
def Reads (url plain : Str) : Prop :=
  ∃ b, utf8 plain = some b ∧ ∀ rest, percentBytes (url ++ rest) = (percentBytes rest).map (b ++ ·)

theorem reads_quoteBut {keep : CodePoint → Bool} (hk : Keeps keep) {s q : Str}
    (h : quoteBut keep s = some q) : Reads q s := by
  obtain ⟨b, hb, -⟩ := percentBytes_quoteBut hk h []
  refine ⟨b, hb, fun rest => ?_⟩
  obtain ⟨b', hb', hread⟩ := percentBytes_quoteBut hk h rest
  rwa [Option.some.inj (hb.symm.trans hb')]

theorem Reads.append {url url' plain plain' : Str} (h : Reads url plain) (h' : Reads url' plain') :
    Reads (url ++ url') (plain ++ plain') := by
  obtain ⟨b, hb, hread⟩ := h
  obtain ⟨b', hb', hread'⟩ := h'
  refine ⟨b ++ b', by rw [utf8_append, hb, hb']; rfl, fun rest => ?_⟩
  rw [List.append_assoc, hread, hread', Option.map_map]
  simp [Function.comp_def]

/-- **Words quoted one by one are decoded to the words.** -/
theorem reads_join {urls plains : List Str} (h : List.Forall₂ Reads urls plains) :
    Reads (join urls) (join plains) := by
  induction h with
  | nil => exact ⟨[], rfl, fun rest => by simp⟩
  | @cons u p us qs hu h ih =>
    have hslash : Reads [slash] [slash] := reads_quoteBut keeps_isSafe (by decide)
    rcases eq_or_ne us [] with rfl | hne
    · cases h
      simpa using hu
    · have hne' : qs ≠ [] := by
        rintro rfl
        cases h
        exact hne rfl
      rw [join_cons hne, join_cons hne']
      exact hu.append (hslash.append ih)

theorem Reads.unquote {url plain : Str} (h : Reads url plain) : unquote url = some plain := by
  obtain ⟨b, hb, hread⟩ := h
  have := hread []
  rw [List.append_nil] at this
  rw [Percent.unquote, this]
  simpa [percentBytes] using decodeUtf8_utf8 hb

end PaperBoxing.Lib.Templates
