import PaperBoxing.Common.Naming
import PaperBoxing.Lib.Trees

/-! # The grammar of site paths

What `validate_site_path` accepts, exactly, and what holds of everything it returns: the result is
accepted again as it is, its parents are accepted, its name is one segment, and joined to a site's
folder it stays below that folder.

* `validate_site_path_eq_ok`: the grammar, in both directions;
* `accepted_iff`: the paths that are accepted as they are are joins of plain segments;
* `path_grammar`: all of it. -/

namespace PaperBoxing.Common.SitePaths

open PaperBoxing.Lib.Text PaperBoxing.Lib.Trees PaperBoxing.Common.Schema PaperBoxing.Common.Naming

variable {rt : Runtime}

/-- **The grammar**: no backslash and no control character, and without the slashes around it 1 to
1024 characters in segments that are not empty, neither `.` nor `..`, and of at most 255 bytes. -/
structure InGrammar (s : Str) : Prop where
  plain : ∀ c ∈ s, c ≠ ofChar '\\' ∧ 0x20 ≤ c.val ∧ c.val ≠ 0x7F
  pos : 1 ≤ (strip (· == slash) s).length
  length : (strip (· == slash) s).length ≤ 1024
  segments : ∀ segment ∈ split (strip (· == slash) s), segment ≠ [] ∧ segment ≠ lit "." ∧
    segment ≠ lit ".." ∧ ∃ bytes, utf8 segment = some bytes ∧ bytes.length ≤ 255

/-! ### Exactly the grammar -/

theorem not_forbidden {c : CodePoint} :
    isForbidden c = false ↔ c ≠ ofChar '\\' ∧ 0x20 ≤ c.val ∧ c.val ≠ 0x7F := by
  simp only [isForbidden, Bool.or_eq_false_iff, beq_eq_false_iff_ne, decide_eq_false_iff_not, ne_eq,
    not_le, and_assoc]
  exact Iff.rfl

theorem checkSegment_eq_ok {segment : Str} : checkSegment rt segment = .ok () ↔ segment ≠ [] ∧
    segment ≠ lit "." ∧ segment ≠ lit ".." ∧ ∃ bytes, utf8 segment = some bytes ∧
      bytes.length ≤ 255 := by
  unfold checkSegment
  split_ifs with h1 h2
  · simp [h1]
  · rcases h2 with rfl | rfl <;> simp
  · rw [not_or] at h2
    rcases hb : utf8 segment with _ | bytes
    · simp
    · simp only [Option.some.injEq, exists_eq_left']
      by_cases h3 : SEGMENT_MAX_BYTES < bytes.length
      · rw [if_pos h3]
        exact iff_of_false (fun h => nomatch h) fun h => absurd h.2.2.2 (not_le.2 h3)
      · rw [if_neg h3]
        exact iff_of_true rfl ⟨h1, h2.1, h2.2, not_lt.1 h3⟩

theorem checkSegments_eq_ok {segments : List Str} :
    checkSegments rt segments = .ok () ↔ ∀ s ∈ segments, checkSegment rt s = .ok () := by
  induction segments with
  | nil => simp [checkSegments]
  | cons s segments ih =>
    rw [checkSegments, List.forall_mem_cons, ← ih]
    rcases checkSegment rt s with e | u
    · exact iff_of_false (by rintro ⟨⟩) (by rintro ⟨⟨⟩, -⟩)
    · exact (and_iff_right rfl).symm

/-- **What is accepted is the grammar**, and where the root is allowed also what is slashes only. -/
theorem validate_site_path_eq_ok {s p : Str} {allow_root : Bool} :
    validate_site_path rt s allow_root = .ok p ↔ p = strip (· == slash) s ∧
      (InGrammar s ∨ (allow_root = true ∧ ∀ c ∈ s, c = slash)) := by
  have hplain : s.any isForbidden = false ↔
      ∀ c ∈ s, c ≠ ofChar '\\' ∧ 0x20 ≤ c.val ∧ c.val ≠ 0x7F := by
    rw [List.any_eq_false]
    exact forall₂_congr fun c _ => by rw [Bool.not_eq_true, not_forbidden]
  have hslashes : strip (· == slash) s = [] ↔ ∀ c ∈ s, c = slash := strip_eq_nil.trans (by simp)
  unfold validate_site_path
  simp only
  by_cases h1 : s.any isForbidden = true
  · rw [if_pos h1]
    refine iff_of_false (fun h => nomatch h) ?_
    rintro ⟨-, hg | ⟨-, hall⟩⟩
    · exact Bool.false_ne_true ((hplain.2 hg.plain).symm.trans h1)
    · obtain ⟨c, hc, hf⟩ := List.any_eq_true.1 h1
      rw [hall c hc] at hf
      exact absurd hf (by decide)
  rw [if_neg h1, ← hslashes]
  replace h1 := hplain.1 (Bool.not_eq_true _ ▸ h1)
  by_cases h2 : strip (· == slash) s = []
  · rw [if_pos h2, h2]
    have hnot : ¬ InGrammar s := fun hg => absurd hg.pos (by rw [h2]; decide)
    cases allow_root
    · exact iff_of_false (fun h => nomatch h) fun h => h.2.elim hnot fun h => nomatch h.1
    · rw [if_pos rfl, Except.ok.injEq, eq_comm]
      simp
  rw [if_neg h2]
  by_cases h3 : PATH_MAX_LENGTH < (strip (· == slash) s).length
  · rw [if_pos h3]
    refine iff_of_false (fun h => nomatch h) ?_
    rintro ⟨-, hg | ⟨-, hall⟩⟩
    · exact absurd hg.length (not_le.2 h3)
    · exact h2 hall
  rw [if_neg h3]
  have hgram : InGrammar s ↔ checkSegments rt (split (strip (· == slash) s)) = .ok () := by
    rw [checkSegments_eq_ok]
    constructor
    · exact fun hg segment hs => checkSegment_eq_ok.2 (hg.segments segment hs)
    · exact fun h => ⟨h1, List.length_pos_iff.2 h2, not_lt.1 h3,
        fun segment hs => checkSegment_eq_ok.1 (h segment hs)⟩
  rw [hgram, or_iff_left fun h => h2 h.2]
  rcases checkSegments rt (split (strip (· == slash) s)) with e | u
  · exact iff_of_false (fun h => nomatch h) fun h => nomatch h.2
  · rw [join_split]
    exact (Except.ok.injEq ..).to_iff.trans (eq_comm.trans (and_iff_left rfl).symm)

/-! ### Paths that are accepted as they are -/

/-- A segment that can stand in an accepted path. -/
structure PlainSegment (s : Str) : Prop extends Segment s where
  plain : ∀ c ∈ s, isForbidden c = false

theorem strip_join {segs : List Str} (h : ∀ s ∈ segs, Segment s) :
    strip (· == slash) (join segs) = join segs := by
  refine strip_of_ends (fun c u hj => beq_false_of_ne ?_) fun c u hj => beq_false_of_ne ?_
  · rintro rfl
    rcases segs with _ | ⟨s, segs⟩
    · cases hj
    obtain ⟨d, v, hs⟩ := List.exists_cons_of_ne_nil (h s List.mem_cons_self).ne
    have hd : d = slash := by
      rcases eq_or_ne segs [] with rfl | hne
      · rw [join_singleton, hs] at hj
        exact (List.cons.inj hj).1
      · rw [join_cons hne, hs] at hj
        exact (List.cons.inj hj).1
    exact (h s List.mem_cons_self).slash (by rw [hs, hd]; exact List.mem_cons_self)
  · rintro rfl
    rcases List.eq_nil_or_concat segs with rfl | ⟨up, s, rfl⟩
    · simp at hj
    rw [List.concat_eq_append] at h hj
    have hs := h s (by simp)
    obtain ⟨v, d, hv⟩ := (List.eq_nil_or_concat s).resolve_left hs.ne
    rw [List.concat_eq_append] at hv
    have hlast : (join (up ++ [s])).getLast? = some d := by
      rcases eq_or_ne up [] with rfl | hne
      · simp [hv]
      · rw [join_append_singleton hne, hv, ← List.cons_append, ← List.append_assoc,
          List.getLast?_concat]
    rw [hj, List.getLast?_concat] at hlast
    exact hs.slash (by rw [hv, Option.some.inj hlast]; simp)

theorem mem_join {segs : List Str} {c : CodePoint} (hc : c ∈ join segs) :
    c = slash ∨ ∃ s ∈ segs, c ∈ s := by
  induction segs with
  | nil => cases hc
  | cons s segs ih =>
    rcases eq_or_ne segs [] with rfl | hne
    · exact Or.inr ⟨s, List.mem_cons_self, by simpa using hc⟩
    · rw [join_cons hne, List.mem_append, List.mem_cons] at hc
      rcases hc with hc | hc | hc
      · exact Or.inr ⟨s, List.mem_cons_self, hc⟩
      · exact Or.inl hc
      · exact (ih hc).imp id fun ⟨t, ht, hct⟩ => ⟨t, List.mem_cons_of_mem _ ht, hct⟩

theorem mem_of_mem_segment {segs : List Str} {s : Str} {c : CodePoint} (hs : s ∈ segs) (hc : c ∈ s) :
    c ∈ join segs := by
  induction segs with
  | nil => cases hs
  | cons t segs ih =>
    rcases eq_or_ne segs [] with rfl | hne
    · rw [List.mem_singleton.1 hs] at hc
      simpa using hc
    · rw [join_cons hne, List.mem_append, List.mem_cons]
      rcases List.mem_cons.1 hs with rfl | hs
      · exact Or.inl hc
      · exact Or.inr (Or.inr (ih hs))

/-- **The paths that are accepted as they are**: joins of plain segments, not too long. -/
theorem accepted_iff {p : Str} : validate_site_path rt p false = .ok p ↔
    ∃ segs, segs ≠ [] ∧ (∀ s ∈ segs, PlainSegment s) ∧ p = join segs ∧ p.length ≤ 1024 := by
  constructor
  · intro h
    obtain ⟨hp, hg | ⟨hfalse, -⟩⟩ := validate_site_path_eq_ok.1 h
    swap
    · cases hfalse
    refine ⟨split p, split_ne_nil p, fun s hs => ?_, (join_split p).symm, by
      rw [hp]; exact hg.length⟩
    rw [hp] at hs
    obtain ⟨h1, h2, h3, h4⟩ := hg.segments s hs
    refine ⟨⟨h1, not_mem_split hs, h2, h3, h4⟩, fun c hc => not_forbidden.2 (hg.plain c ?_)⟩
    rw [← join_split p, hp]
    exact mem_of_mem_segment hs hc
  · rintro ⟨segs, hne, hsegs, rfl, hlen⟩
    have hseg : ∀ s ∈ segs, Segment s := fun s hs => (hsegs s hs).toSegment
    have hstrip := strip_join hseg
    refine validate_site_path_eq_ok.2 ⟨hstrip.symm, Or.inl ⟨fun c hc => ?_, ?_, ?_, ?_⟩⟩
    · rcases mem_join hc with rfl | ⟨s, hs, hcs⟩
      · exact not_forbidden.1 (by decide)
      · exact not_forbidden.1 ((hsegs s hs).plain c hcs)
    · rw [hstrip]
      exact List.length_pos_iff.2 (join_ne_nil hseg hne)
    · rwa [hstrip]
    · rw [hstrip, split_join (fun s hs => (hseg s hs).slash) hne]
      exact fun s hs => ⟨(hseg s hs).ne, (hseg s hs).dot, (hseg s hs).dots, (hseg s hs).bytes⟩

/-- `root / path` on the components of an absolute path, as `pathlib` joins them: an absolute `path`
replaces the root, and empty components and dots are dropped. -/
def joinpath (root : Path Str) (path : Str) : Path Str :=
  (if path.head? = some slash then [] else root) ++
    (split path).filter fun s => decide (s ≠ [] ∧ s ≠ lit ".")

/-- **Strictly below a folder, lexically**: its components go on from the folder's, and never up. -/
def LexicallyBelow (root path : Path Str) : Prop := ∃ r, r ≠ [] ∧ lit ".." ∉ r ∧ path = root ++ r

section Accepted
variable {segs : List Str} {s : Str}

/-- The parents of a path of segments, step by step. -/
theorem iterate_parent (k : ℕ) : ∀ {segs : List Str}, (∀ s ∈ segs, Segment s) →
    path_parent^[k] (join segs) = join (segs.take (segs.length - k)) := by
  induction k with
  | zero => intro segs _; simp
  | succ k ih =>
    intro segs h
    rw [Function.iterate_succ_apply]
    rcases List.eq_nil_or_concat segs with rfl | ⟨up, s, rfl⟩
    · rw [show path_parent (join []) = join [] from rfl, ih (by simp)]
      simp
    · rw [List.concat_eq_append] at h ⊢
      rw [path_parent_join (h s (by simp)), ih fun t ht => h t (List.mem_append_left _ ht),
        List.length_append, List.length_singleton, Nat.add_sub_add_right,
        List.take_append_of_le_length (Nat.sub_le ..)]

/-- A path of plain segments stays below the folder it is joined to. -/
theorem joinpath_below (h : ∀ s ∈ segs, Segment s) (hne : segs ≠ []) (root : Path Str) :
    joinpath root (join segs) = root ++ segs ∧ LexicallyBelow root (joinpath root (join segs)) := by
  have hhead : (join segs).head? ≠ some slash := by
    intro hh
    have hstrip := strip_join h
    rcases hj : join segs with _ | ⟨c, u⟩
    · rw [hj] at hh
      cases hh
    · rw [hj] at hh hstrip
      have := strip_head hstrip
      rw [Option.some.inj hh] at this
      exact absurd this (by decide)
  have heq : joinpath root (join segs) = root ++ segs := by
    rw [joinpath, if_neg hhead, split_join (fun s hs => (h s hs).slash) hne,
      List.filter_eq_self.2 fun s hs => decide_eq_true ⟨(h s hs).ne, (h s hs).dot⟩]
  exact ⟨heq, segs, hne, fun hdots => (h _ hdots).dots rfl, heq⟩

/-- A shorter join of plain segments is accepted. -/
theorem accepted_of {p : Str} (h : ∀ s ∈ segs, PlainSegment s) (hne : segs ≠ [])
    (hlen : p.length ≤ 1024) (hle : (join segs).length ≤ p.length) :
    validate_site_path rt (join segs) false = .ok (join segs) :=
  accepted_iff.2 ⟨segs, hne, h, rfl, hle.trans hlen⟩

/-- **What holds of an accepted path and its parents.** -/
theorem accepted_parts (rt : Runtime) {up : List Str} (h : ∀ t ∈ up ++ [s], PlainSegment t)
    (hlen : (join (up ++ [s])).length ≤ 1024) :
    (join up = [] ∨ validate_site_path rt (join up) false = .ok (join up)) ∧
      (join up).length < (join (up ++ [s])).length ∧
      validate_site_path rt s false = .ok s ∧ slash ∉ s ∧
      join (up ++ [s]) = if join up = [] then s else join up ++ slash :: s := by
  have hs := h s (by simp)
  have hup : ∀ t ∈ up, PlainSegment t := fun t ht => h t (List.mem_append_left _ ht)
  have hpos : 0 < s.length := List.length_pos_iff.2 hs.ne
  have hone : ∀ t ∈ [s], PlainSegment t := by simpa using hs
  rcases eq_or_ne up [] with rfl | hne
  · rw [List.nil_append, join_singleton] at hlen ⊢
    refine ⟨Or.inl rfl, hpos, ?_, hs.slash, by rw [if_pos join_nil]⟩
    simpa using accepted_of (p := s) hone (by simp) hlen (by simp)
  · have hjne := join_ne_nil (fun t ht => (hup t ht).toSegment) hne
    rw [join_append_singleton hne] at hlen ⊢
    refine ⟨Or.inr (accepted_of hup hne hlen (by simp)), by simp, ?_, hs.slash,
      by rw [if_neg hjne]⟩
    simpa using accepted_of hone (by simp) hlen (by simp; omega)

end Accepted

/-- **The grammar of site paths**: `validate_site_path` accepts exactly the grammar, and its result
is the input without the slashes around it, accepted again as it is; of a path that is not the root
the parent is the root or accepted as it is and shorter, the name is an accepted segment, the two
join to the path, as many steps up as there are segments reach the root, and the path joined to a
folder is below it. -/
theorem path_grammar (rt : Runtime) (s p : Str) :
    (validate_site_path rt s false = .ok p ↔ InGrammar s ∧ p = strip (· == slash) s) ∧
    (validate_site_path rt s true = .ok p ↔
      (InGrammar s ∧ p = strip (· == slash) s) ∨ ((∀ c ∈ s, c = slash) ∧ p = [])) ∧
    ∀ allow_root, validate_site_path rt s allow_root = .ok p →
      validate_site_path rt p allow_root = .ok p ∧ (p ≠ [] →
        (path_parent p = [] ∨ validate_site_path rt (path_parent p) false = .ok (path_parent p)) ∧
        (path_parent p).length < p.length ∧
        validate_site_path rt (path_name p) false = .ok (path_name p) ∧ slash ∉ path_name p ∧
        p = (if path_parent p = [] then path_name p
          else path_parent p ++ slash :: path_name p) ∧
        (∀ k, path_parent^[k] p = [] ↔ (split p).length ≤ k) ∧
        ∀ root : Path Str, LexicallyBelow root (joinpath root p)) := by
  refine ⟨?_, ?_, fun allow_root h => ?_⟩
  · rw [validate_site_path_eq_ok]
    simp [and_comm]
  · rw [validate_site_path_eq_ok, and_or_left]
    refine or_congr and_comm ⟨fun h => ?_, fun h => ⟨?_, rfl, h.1⟩⟩
    · exact ⟨h.2.2, h.1.trans (strip_eq_nil.2 (by simpa using h.2.2))⟩
    · exact h.2.trans (strip_eq_nil.2 (by simpa using h.1)).symm
  obtain ⟨hp, hroot⟩ := validate_site_path_ok h
  rcases eq_or_ne p [] with rfl | hne
  · rw [hroot rfl]
    exact ⟨rfl, fun h => absurd rfl h⟩
  -- the result is accepted as it is
  have hself : validate_site_path rt p false = .ok p := by
    obtain ⟨rfl, hg | ⟨-, hall⟩⟩ := validate_site_path_eq_ok.1 h
    · refine validate_site_path_eq_ok.2 ⟨(strip_strip ..).symm, Or.inl ⟨fun c hc =>
        hg.plain c (mem_of_mem_strip hc), ?_, ?_, ?_⟩⟩
      · rw [strip_strip]
        exact hg.pos
      · rw [strip_strip]
        exact hg.length
      · rw [strip_strip]
        exact hg.segments
    · exact absurd (strip_eq_nil.2 (by simpa using hall)) hne
  refine ⟨?_, fun _ => ?_⟩
  · obtain ⟨hs, hg | ⟨hfalse, -⟩⟩ := validate_site_path_eq_ok.1 hself
    · exact validate_site_path_eq_ok.2 ⟨hs, Or.inl hg⟩
    · cases hfalse
  obtain ⟨segs, hsne, hsegs, rfl, hlen⟩ := accepted_iff.1 hself
  have hseg : ∀ s ∈ segs, Segment s := fun s hs => (hsegs s hs).toSegment
  have hsteps : ∀ k, path_parent^[k] (join segs) = [] ↔ (split (join segs)).length ≤ k := by
    intro k
    rw [iterate_parent k hseg, split_join (fun s hs => (hseg s hs).slash) hsne]
    constructor
    · intro hk
      by_contra hlt
      refine join_ne_nil (fun s hs => hseg s (List.mem_of_mem_take hs)) ?_ hk
      rw [ne_eq, List.take_eq_nil_iff, not_or]
      exact ⟨by omega, hsne⟩
    · intro hk
      rw [Nat.sub_eq_zero_of_le hk, List.take_zero, join_nil]
  have hbelow := fun root => (joinpath_below hseg hsne root).2
  obtain ⟨up, name, rfl⟩ := (List.eq_nil_or_concat segs).resolve_left hsne
  rw [List.concat_eq_append] at hsegs hlen hseg hsteps hbelow ⊢
  obtain ⟨h1, h2, h3, h4, h5⟩ := accepted_parts rt hsegs hlen
  rw [path_parent_join (hseg name (by simp)), path_name_join (hseg name (by simp))]
  exact ⟨h1, h2, h3, h4, h5, hsteps, hbelow⟩

theorem path_grammar_docs : validate_site_path plainRuntime (lit "docs/a") false =
      .ok (lit "docs/a") ∧ LexicallyBelow [lit "data", lit "sites", lit "blog"]
        (joinpath [lit "data", lit "sites", lit "blog"] (lit "docs/a")) := by
  have hslashes : validate_site_path plainRuntime (lit "/docs/a/") false = .ok (lit "docs/a") := by
    decide +kernel
  have h := (path_grammar plainRuntime (lit "/docs/a/") (lit "docs/a")).2.2 false hslashes
  exact ⟨h.1, (h.2 (by decide)).2.2.2.2.2.2 _⟩

end PaperBoxing.Common.SitePaths
