import PaperBoxing.Lib.Patterns
import PaperBoxing.Common.Schema

/-! # Site slugs and paths

`common/naming.py`: the slug of a display name, and the rules for slugs and for paths inside a site.
A `ValueError` is given by its text.

* `matches_SLUG_RE`: what the slug expression matches, a last line feed included;
* `slug_from_name_valid`: a slug made from a name is valid;
* `validate_site_path_ok`: an accepted path is empty or the join of segments that name one thing
  each (`Segment`); `segments_join` recovers them. -/

namespace PaperBoxing.Common.Naming

open PaperBoxing.Lib.Text PaperBoxing.Lib.Patterns PaperBoxing.Common.Schema

def SLUG_MAX_LENGTH : ℕ := 63

def PATH_MAX_LENGTH : ℕ := 1024

def SEGMENT_MAX_BYTES : ℕ := 255

/-- `[a-z0-9-]`. -/
def isSlugChar (c : CodePoint) : Bool := isAlnum c || c == hyphen

/-- `^[a-z0-9](?:[a-z0-9-]{0,61}[a-z0-9])?$`. -/
def SLUG_RE : Regex :=
  .seq (.chars isAlnum) (.seq (.opt (.seq (.upTo 61 (.chars isSlugChar)) (.chars isAlnum))) .eol)

/-- `[\\\x00-\x1f\x7f]`. -/
def isForbidden (c : CodePoint) : Bool := c == ofChar '\\' || c.val ≤ 0x1F || c.val == 0x7F

/-- `slug_from_name`: the slug of a display name. -/
def slug_from_name (rt : Runtime) (name : Str) : Except Str Str :=
  let ascii_name := (rt.nfkd name).filter isAscii
  let slug := strip (· == hyphen) (subRuns isAlnum hyphen false (ascii_name.map asciiLower))
  let slug := strip (· == hyphen) (slug.take SLUG_MAX_LENGTH)
  if slug = [] then .error (lit "no slug can be derived from the name " ++ rt.repr name)
  else .ok slug

/-- `validate_slug`. -/
def validate_slug (rt : Runtime) (slug : Str) : Except Str Str :=
  if SLUG_RE.matches slug then .ok slug
  else .error (lit "invalid site slug " ++ rt.repr slug ++
    lit ": lowercase letters, digits and hyphens, 1..63 characters")

/-- The checks of one segment. -/
def checkSegment (rt : Runtime) (segment : Str) : Except Str Unit :=
  if segment = [] then .error (lit "path contains an empty segment (doubled slash)")
  else if segment = lit "." ∨ segment = lit ".." then
    .error (lit "path contains a '.' or '..' segment")
  else match utf8 segment with
    | none => .error (rt.encodeError segment)
    | some bytes =>
      if SEGMENT_MAX_BYTES < bytes.length then .error (lit "path segment longer than 255 bytes")
      else .ok ()

/-- The loop over the segments. -/
def checkSegments (rt : Runtime) : List Str → Except Str Unit
  | [] => .ok ()
  | segment :: segments => checkSegment rt segment >>= fun _ => checkSegments rt segments

/-- `validate_site_path`: the canonical form of a path, or the text of the `ValueError`. -/
def validate_site_path (rt : Runtime) (path : Str) (allow_root : Bool) : Except Str Str :=
  if path.any isForbidden then .error (lit "path contains a control character or a backslash")
  else
    let stripped := strip (· == slash) path
    if stripped = [] then
      if allow_root then .ok []
      else .error (lit "path must name a file or folder inside the site, not the site root")
    else if PATH_MAX_LENGTH < stripped.length then
      .error (lit "path longer than 1024 characters")
    else
      checkSegments rt (split stripped) >>= fun _ => .ok (join (split stripped))

/-- The canonical parent of a canonical path. -/
def path_parent (path : Str) : Str := beforeLast path

/-- The last segment of a canonical path. -/
def path_name (path : Str) : Str := afterLast path

/-- `path.split("/") if path else ()`. -/
def segments (path : Str) : List Str := if path = [] then [] else split path

/-! ### Valid slugs -/

/-- **The slug grammar**: 1 to 63 lower-case letters, digits and hyphens, neither first nor last a
hyphen. -/
structure IsSlug (s : Str) : Prop where
  first : ∃ c u, s = c :: u ∧ isAlnum c = true
  last : ∃ c u, s = u ++ [c] ∧ isAlnum c = true
  chars : ∀ c ∈ s, isSlugChar c = true
  length : s.length ≤ SLUG_MAX_LENGTH

theorem isSlugChar_of_isAlnum {c : CodePoint} (h : isAlnum c = true) : isSlugChar c = true := by
  rw [isSlugChar, h]
  rfl

/-- **What the slug expression matches**: a slug, and a slug before one line feed. -/
theorem matches_SLUG_RE {s : Str} :
    SLUG_RE.matches s = true ↔ ∃ body, IsSlug body ∧ (s = body ∨ s = body ++ [newline]) := by
  rw [matches_iff]
  constructor
  · rintro ⟨u, hu⟩
    obtain ⟨s1, h1, hu1⟩ := List.mem_flatMap.1 hu
    obtain ⟨s2, h2, hu2⟩ := List.mem_flatMap.1 hu1
    obtain ⟨c, hc, rfl⟩ := mem_chars.1 h1
    obtain ⟨rfl, he⟩ := mem_eol.1 hu2
    rcases List.mem_append.1 h2 with h2 | h2
    · obtain ⟨s3, h3, h4⟩ := List.mem_flatMap.1 h2
      obtain ⟨v, rfl, hv, hvs⟩ := mem_iterate_chars.1 h3
      obtain ⟨d, hd, rfl⟩ := mem_chars.1 h4
      refine ⟨c :: (v ++ [d]), ⟨⟨c, _, rfl, hc⟩, ⟨d, c :: v, rfl, hd⟩, ?_, ?_⟩, ?_⟩
      · intro e he
        simp only [List.mem_cons, List.mem_append, List.not_mem_nil, or_false] at he
        rcases he with rfl | he | rfl
        · exact isSlugChar_of_isAlnum hc
        · exact hvs e he
        · exact isSlugChar_of_isAlnum hd
      · simp only [List.length_cons, List.length_append, List.length_nil, SLUG_MAX_LENGTH]
        omega
      · rcases he with rfl | rfl
        · exact Or.inl rfl
        · right; simp
    · obtain rfl := List.mem_singleton.1 h2
      refine ⟨[c], ⟨⟨c, [], rfl, hc⟩, ⟨c, [], rfl, hc⟩, ?_, by simp [SLUG_MAX_LENGTH]⟩, ?_⟩
      · intro e he
        rw [List.mem_singleton.1 he]
        exact isSlugChar_of_isAlnum hc
      · rcases he with rfl | rfl
        · exact Or.inl rfl
        · exact Or.inr rfl
  · rintro ⟨body, ⟨⟨c, u, rfl, hc⟩, ⟨d, v, hv, hd⟩, hchars, hlen⟩, hs⟩
    have hrest : ∃ rest, s = c :: (u ++ rest) ∧ (rest = [] ∨ rest = [newline]) := by
      rcases hs with rfl | rfl
      · exact ⟨[], by simp, Or.inl rfl⟩
      · exact ⟨[newline], rfl, Or.inr rfl⟩
    obtain ⟨rest, rfl, hr⟩ := hrest
    refine ⟨rest, List.mem_flatMap.2 ⟨u ++ rest, mem_chars.2 ⟨c, hc, rfl⟩,
      List.mem_flatMap.2 ⟨rest, List.mem_append.2 ?_, mem_eol.2 ⟨rfl, hr⟩⟩⟩⟩
    rcases v with _ | ⟨e, v⟩
    · obtain ⟨-, rfl⟩ := List.cons.inj hv
      exact Or.inr (by simp)
    · obtain ⟨rfl, rfl⟩ := List.cons.inj hv
      refine Or.inl (List.mem_flatMap.2 ⟨d :: rest, mem_iterate_chars.2 ⟨v, by simp, ?_, ?_⟩,
        mem_chars.2 ⟨d, hd, rfl⟩⟩)
      · simp [SLUG_MAX_LENGTH] at hlen
        omega
      · exact fun e he => hchars e (by simp [he])

theorem IsSlug.validate {s : Str} (h : IsSlug s) (rt : Runtime) : validate_slug rt s = .ok s := by
  rw [validate_slug, if_pos (matches_SLUG_RE.2 ⟨s, h, Or.inl rfl⟩)]

/-- **A slug made from a name is valid.** -/
theorem slug_from_name_valid {rt : Runtime} {name slug : Str}
    (h : slug_from_name rt name = .ok slug) : IsSlug slug := by
  unfold slug_from_name at h
  simp only at h
  generalize hs : subRuns isAlnum hyphen false (((rt.nfkd name).filter isAscii).map asciiLower) = s
    at h
  split_ifs at h with hne
  obtain rfl := Except.ok.inj h
  set t := (strip (· == hyphen) s).take SLUG_MAX_LENGTH with ht
  have hchars : ∀ c ∈ strip (· == hyphen) t, isSlugChar c = true := by
    intro c hc
    have hc' := mem_of_mem_strip (List.mem_of_mem_take (mem_of_mem_strip hc))
    rw [← hs] at hc'
    rcases mem_subRuns hc' with hc' | rfl
    · exact isSlugChar_of_isAlnum hc'
    · rfl
  have hends : ∀ c ∈ strip (· == hyphen) t, (c == hyphen) = false → isAlnum c = true := by
    intro c hc hh
    have := hchars c hc
    rw [isSlugChar, hh, Bool.or_false] at this
    exact this
  refine ⟨?_, ?_, hchars, ?_⟩
  · obtain ⟨c, u, hu⟩ := List.exists_cons_of_ne_nil hne
    exact ⟨c, u, hu, hends c (by rw [hu]; exact List.mem_cons_self) (strip_head (p := (· == hyphen)) hu)⟩
  · rcases List.eq_nil_or_concat (strip (· == hyphen) t) with hnil | ⟨u, c, hu⟩
    · exact absurd hnil hne
    · rw [List.concat_eq_append] at hu
      exact ⟨c, u, hu, hends c (by rw [hu]; simp) (strip_last (p := (· == hyphen)) hu)⟩
  · exact (length_strip_le _ _).trans (List.length_take_le _ _)

/-! ### Valid paths -/

/-- **A segment that names one thing**: not empty, without a slash, neither `.` nor `..`, with an
encoding of at most 255 bytes. -/
structure Segment (s : Str) : Prop where
  ne : s ≠ []
  slash : slash ∉ s
  dot : s ≠ lit "."
  dots : s ≠ lit ".."
  bytes : ∃ b, utf8 s = some b ∧ b.length ≤ SEGMENT_MAX_BYTES

/-- **A canonical path**: the join of segments; the root is the empty one. -/
def Canonical (p : Str) : Prop := ∃ segs, (∀ s ∈ segs, Segment s) ∧ p = join segs

/-- **Names of one component each**: not empty, and without a slash. -/
def Plain (segs : List Str) : Prop := ∀ s ∈ segs, s ≠ [] ∧ slash ∉ s

theorem Plain.join_ne_nil {segs : List Str} (h : Plain segs) (hne : segs ≠ []) : join segs ≠ [] := by
  obtain ⟨s, rest, rfl⟩ := List.exists_cons_of_ne_nil hne
  rcases rest with _ | ⟨s', rest⟩
  · simpa using (h s List.mem_cons_self).1
  · simp [join]

/-- The names a path was joined from are found again. -/
theorem Plain.segments_join {segs : List Str} (h : Plain segs) : segments (join segs) = segs := by
  rcases eq_or_ne segs [] with rfl | hne
  · rfl
  · rw [segments, if_neg (h.join_ne_nil hne), split_join (fun s hs => (h s hs).2) hne]

theorem Plain.join_injective {segs segs' : List Str} (h : Plain segs) (h' : Plain segs')
    (he : join segs = join segs') : segs = segs' := by
  rw [← h.segments_join, he, h'.segments_join]

theorem plain_of_segments {segs : List Str} (h : ∀ s ∈ segs, Segment s) : Plain segs :=
  fun s hs => ⟨(h s hs).ne, (h s hs).slash⟩

theorem join_ne_nil {segs : List Str} (h : ∀ s ∈ segs, Segment s) (hne : segs ≠ []) :
    join segs ≠ [] := (plain_of_segments h).join_ne_nil hne

/-- **The segments of a canonical path** are those it was joined from. -/
theorem segments_join {segs : List Str} (h : ∀ s ∈ segs, Segment s) : segments (join segs) = segs :=
  (plain_of_segments h).segments_join

theorem join_injective {segs segs' : List Str} (h : ∀ s ∈ segs, Segment s)
    (h' : ∀ s ∈ segs', Segment s) (he : join segs = join segs') : segs = segs' :=
  (plain_of_segments h).join_injective (plain_of_segments h') he

theorem Canonical.join_segments {p : Str} (h : Canonical p) : join (segments p) = p := by
  obtain ⟨segs, hs, rfl⟩ := h
  rw [segments_join hs]

theorem Canonical.segment {p s : Str} (h : Canonical p) (hs : s ∈ segments p) : Segment s := by
  obtain ⟨segs, hv, rfl⟩ := h
  rw [segments_join hv] at hs
  exact hv s hs

theorem checkSegments_ok {rt : Runtime} {segs : List Str} (h : checkSegments rt segs = .ok ())
    (hs : ∀ s ∈ segs, slash ∉ s) : ∀ s ∈ segs, Segment s := by
  induction segs with
  | nil => simp
  | cons s segs ih =>
    rw [checkSegments] at h
    rcases hc : checkSegment rt s with e | u
    · rw [hc] at h
      cases h
    · rw [hc] at h
      intro s' hs'
      rcases List.mem_cons.1 hs' with rfl | hs'
      · unfold checkSegment at hc
        split_ifs at hc with h1 h2
        rw [not_or] at h2
        split at hc
        · cases hc
        · next b hb =>
          split_ifs at hc with h3
          exact ⟨h1, hs s' List.mem_cons_self, h2.1, h2.2, b, hb, not_lt.1 h3⟩
      · exact ih h (fun s hm => hs s (List.mem_cons_of_mem _ hm)) s' hs'

/-- **An accepted path is canonical**, and the root only where it is allowed. -/
theorem validate_site_path_ok {rt : Runtime} {raw p : Str} {allow_root : Bool}
    (h : validate_site_path rt raw allow_root = .ok p) :
    Canonical p ∧ (p = [] → allow_root = true) := by
  unfold validate_site_path at h
  simp only at h
  split_ifs at h with h1 h2 h3 h4
  · obtain rfl := Except.ok.inj h
    exact ⟨⟨[], by simp, rfl⟩, fun _ => h3⟩
  · rcases hc : checkSegments rt (split (strip (· == slash) raw)) with e | u
    · rw [hc] at h
      cases h
    · rw [hc] at h
      obtain rfl := Except.ok.inj h
      refine ⟨⟨_, checkSegments_ok hc fun s hs => not_mem_split hs, rfl⟩, fun hp => ?_⟩
      rw [join_split] at hp
      exact absurd hp h2

/-! ### Paths and the paths below them -/

/-- **A path starts with another and a slash** when its segments go on from the other's. -/
theorem join_slash_prefix {segs q : List Str} (h : ∀ s ∈ segs, Segment s) (hq : ∀ s ∈ q, Segment s)
    (hne : segs ≠ []) : join segs ++ [slash] <+: join q ↔ ∃ r, r ≠ [] ∧ q = segs ++ r := by
  constructor
  · rintro ⟨rest, hr⟩
    have hqne : q ≠ [] := by
      rintro rfl
      simp at hr
    refine ⟨split rest, split_ne_nil rest, ?_⟩
    have he : join q = join (segs ++ split rest) := by
      rw [join_append hne (split_ne_nil rest), join_split, ← hr]
      simp
    have hs : ∀ w ∈ segs ++ split rest, slash ∉ w := by
      intro w hw
      rcases List.mem_append.1 hw with hw | hw
      · exact (h w hw).slash
      · exact not_mem_split hw
    rw [← split_join (fun w hw => (hq w hw).slash) hqne, he, split_join hs (by simp [hne])]
  · rintro ⟨r, hr, rfl⟩
    rw [join_append hne hr]
    exact ⟨join r, by simp⟩

/-- The only segments without a slash between them are one. -/
theorem slash_mem_join {r : List Str} (h : ∀ s ∈ r, Segment s) (hne : r ≠ []) :
    slash ∈ join r ↔ ∀ s, r ≠ [s] := by
  rcases r with _ | ⟨s, _ | ⟨s', r⟩⟩
  · exact absurd rfl hne
  · simpa using (h s List.mem_cons_self).slash
  · refine iff_of_true ?_ (by simp)
    rw [← List.singleton_append, join_append (List.cons_ne_nil _ _) (List.cons_ne_nil _ _)]
    simp

theorem length_le_join {segs : List Str} (h : ∀ s ∈ segs, Segment s) :
    segs.length ≤ (join segs).length := by
  induction segs using List.reverseRecOn with
  | nil => simp
  | append_singleton segs s ih =>
    have hs : 0 < s.length := List.length_pos_iff.2 (h s (by simp)).ne
    have := ih fun w hw => h w (by simp [hw])
    rcases eq_or_ne segs [] with rfl | hne
    · rw [List.nil_append, join_singleton, List.length_singleton]
      exact hs
    · rw [join_append_singleton hne]
      simp only [List.length_append, List.length_cons, List.length_nil]
      omega

/-- The parent and the name of a path of segments. -/
theorem path_parent_join {segs : List Str} {s : Str} (h : Segment s) :
    path_parent (join (segs ++ [s])) = join segs := beforeLast_join h.slash

theorem path_name_join {segs : List Str} {s : Str} (h : Segment s) :
    path_name (join (segs ++ [s])) = s := afterLast_join h.slash

end PaperBoxing.Common.Naming
