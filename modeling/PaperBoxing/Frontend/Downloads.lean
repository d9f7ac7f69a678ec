import PaperBoxing.Backend.Routes
import PaperBoxing.Common.Client

/-! # The download route of the frontend

`download` of `frontend/app.py`, beside the route of the backend that it streams from. Both name the
file in a header of their own making, the one from the path as it comes, the other from its canonical
form.

* `namesFile_attachment`: the header of a name holds it;
* `same_header_iff`: when the two headers name the same file. -/

namespace PaperBoxing.Frontend.Downloads

open PaperBoxing.Lib PaperBoxing.Lib.Program PaperBoxing.Lib.Text PaperBoxing.Lib.Percent
open PaperBoxing.Lib.Templates PaperBoxing.Common PaperBoxing.Common.Schema PaperBoxing.Common.Naming
open PaperBoxing.Common.Client (BackendError ClientExn StreamedFile)
open PaperBoxing.Backend PaperBoxing.Backend.Calls

/-! ### The route -/

/-- `_error_code`. -/
def _error_code (error : BackendError) : ErrorCode := (errorCode error.code).getD .internal_error

/-- What the route answers: an error of the contract, or the file with the headers of the answer. -/
inductive Reply : Type where
  | refused (status : ℕ) (code : ErrorCode) (message : Str)
  | stream (file : StreamedFile) (headers : List (Str × Str))

/-- A header of an answer. -/
def Reply.get (name : Str) : Reply → Option Str
  | .refused .. => none
  | .stream _ headers => headers.lookup name

/-- `download`; `entered` is what entering `stream_file` with the token comes to. -/
def download (token : Option Str) (entered : Str → Except ClientExn StreamedFile) (path : Str) :
    Except ClientExn Reply :=
  match token with
  | none => .ok (.refused 401 .unauthorized (lit "sign in to download files"))
  | some token =>
    match entered token with
    | .error (.unreachable _) => .ok (.refused 503 .backend_unreachable
        (lit "The backend cannot be reached; try again in a moment."))
    | .error (.backend e) => .ok (.refused e.status (_error_code e) e.message)
    | .error e => .error e
    | .ok file =>
      let name := path_name path
      match quote name with
      | none => .error .unicode
      | some quoted => .ok (.stream file
          ([(lit "Content-Disposition", lit "attachment; filename=\"" ++ ascii_name name ++
              lit "\"; filename*=UTF-8''" ++ quoted),
            (lit "Cache-Control", lit "no-store")] ++
          (file.content_length.map fun length => (lit "Content-Length", dec length)).toList))

/-! ### The header of a name -/

/-- Printable ASCII. -/
def isPrintable (c : CodePoint) : Bool := 0x20 ≤ c.val && c.val ≤ 0x7E

/-- **The header names a file**: it is printable ASCII, its quoted file name is closed by the quote that
is meant to close it, and what follows is decoded to the name. -/
structure NamesFile (value name : Str) : Prop where
  printable : ∀ c ∈ value, isPrintable c = true
  parts : ∃ filename star, value = lit "attachment; filename=\"" ++ filename ++
    lit "\"; filename*=UTF-8''" ++ star ∧
    (∀ c ∈ filename, c ≠ ofChar '"' ∧ c ≠ ofChar '\\') ∧ unquote star = some name

/-- A quoted string ends with the first quote. -/
theorem quoted_unique {a b a' b' : Str} (h : a ++ ofChar '"' :: b = a' ++ ofChar '"' :: b')
    (ha : ∀ c ∈ a, c ≠ ofChar '"') (ha' : ∀ c ∈ a', c ≠ ofChar '"') : a = a' ∧ b = b' := by
  induction a generalizing a' with
  | nil =>
    rcases a' with _ | ⟨c, a'⟩
    · exact ⟨rfl, (List.cons.inj h).2⟩
    · exact absurd (List.cons.inj h).1.symm (ha' c List.mem_cons_self)
  | cons c a ih =>
    rcases a' with _ | ⟨c', a'⟩
    · exact absurd (List.cons.inj h).1 (ha c List.mem_cons_self)
    · obtain ⟨rfl, hrest⟩ := List.cons.inj h
      obtain ⟨rfl, hb⟩ := ih hrest (fun d hd => ha d (List.mem_cons_of_mem _ hd))
        fun d hd => ha' d (List.mem_cons_of_mem _ hd)
      exact ⟨rfl, hb⟩

/-- **A header names one file.** -/
theorem NamesFile.unique {value name name' : Str} (h : NamesFile value name)
    (h' : NamesFile value name') : name = name' := by
  obtain ⟨filename, star, hvalue, hplain, hname⟩ := h.parts
  obtain ⟨filename', star', hvalue', hplain', hname'⟩ := h'.parts
  rw [hvalue, List.append_assoc, List.append_assoc, List.append_assoc, List.append_assoc] at hvalue'
  have hrest := List.append_cancel_left hvalue'
  have hquoted : ∀ x y : Str, x ++ (lit "\"; filename*=UTF-8''" ++ y) =
    x ++ ofChar '"' :: (lit "; filename*=UTF-8''" ++ y) := fun _ _ => rfl
  rw [hquoted, hquoted] at hrest
  obtain ⟨-, hstar⟩ := quoted_unique hrest (fun c hc => (hplain c hc).1) fun c hc => (hplain' c hc).1
  rw [List.append_cancel_left hstar, hname'] at hname
  exact (Option.some.inj hname).symm

/-- An escape is printable. -/
theorem printable_hexDigit {n : ℕ} (h : n < 16) : isPrintable (hexDigit n) = true := by
  have hall : ∀ n : Fin 16, isPrintable (hexDigit n) = true := by decide
  exact hall ⟨n, h⟩

theorem printable_safe {c : CodePoint} (h : isSafe c = true) : isPrintable c = true := by
  have hlit : ∀ d ∈ lit "_.-~", isPrintable d = true := List.all_eq_true.1 (by decide)
  have hbetween : ∀ lo hi : Char, between lo hi c = true → 0x20 ≤ lo.toNat → hi.toNat ≤ 0x7E →
      isPrintable c = true := by
    intro lo hi hc hlo hhi
    rw [between, Bool.and_eq_true, decide_eq_true_eq, decide_eq_true_eq] at hc
    rw [isPrintable, Bool.and_eq_true, decide_eq_true_eq, decide_eq_true_eq]
    omega
  simp only [isSafe, Bool.or_eq_true] at h
  rcases h with (((h | h) | h) | h) | h
  · exact hbetween _ _ h (by decide) (by decide)
  · exact hbetween _ _ h (by decide) (by decide)
  · exact hbetween _ _ h (by decide) (by decide)
  · rw [beq_iff_eq.1 h]
    decide
  · exact hlit c (List.contains_iff_mem.1 h)

/-- **What is quoted is printable.** -/
theorem printable_quote {s q : Str} (h : quote s = some q) : ∀ c ∈ q, isPrintable c = true := by
  induction s generalizing q with
  | nil =>
    obtain rfl := Option.some.inj h
    exact fun c hc => absurd hc List.not_mem_nil
  | cons d s ih =>
    rw [quote] at h
    obtain ⟨bytes, -, h⟩ := Option.bind_eq_some_iff.1 h
    obtain ⟨rest, hrest, h⟩ := Option.bind_eq_some_iff.1 h
    intro c hc
    split_ifs at h with hsafe
    · obtain rfl := Option.some.inj h
      rcases List.mem_cons.1 hc with rfl | hc
      · exact printable_safe hsafe
      · exact ih hrest c hc
    · obtain rfl := Option.some.inj h
      rcases List.mem_append.1 hc with hc | hc
      · obtain ⟨b, -, hb⟩ := List.mem_flatMap.1 hc
        have hlt := b.toNat_lt
        simp only [List.mem_cons, List.not_mem_nil, or_false] at hb
        rcases hb with rfl | rfl | rfl
        · decide
        · exact printable_hexDigit (by omega)
        · exact printable_hexDigit (by omega)
      · exact ih hrest c hc

/-- **The file name in ASCII** is printable, with neither quotes nor backslashes. -/
theorem mem_ascii_name {name : Str} (h : ∀ c ∈ name, isForbidden c = false) :
    ∀ c ∈ ascii_name name, isPrintable c = true ∧ c ≠ ofChar '"' ∧ c ≠ ofChar '\\' := by
  intro c hc
  obtain ⟨d, hd, rfl⟩ := List.mem_map.1 hc
  split_ifs with h1 h2
  · decide
  · decide
  · have hforbidden := h d hd
    rw [isForbidden, Bool.or_eq_false_iff, Bool.or_eq_false_iff, decide_eq_false_iff_not,
      beq_eq_false_iff_ne, beq_eq_false_iff_ne] at hforbidden
    obtain ⟨⟨hbackslash, hcontrol⟩, hdel⟩ := hforbidden
    rw [Bool.not_eq_true, Bool.not_eq_false', isAscii, decide_eq_true_eq] at h1
    refine ⟨?_, fun hquote => h2 (beq_iff_eq.2 hquote), hbackslash⟩
    rw [isPrintable, Bool.and_eq_true, decide_eq_true_eq, decide_eq_true_eq]
    omega

/-- **The header made of a name** names it. -/
theorem namesFile_attachment (name : Str) {quoted : Str} (h : ∀ c ∈ name, isForbidden c = false)
    (hquote : quote name = some quoted) :
    NamesFile (lit "attachment; filename=\"" ++ ascii_name name ++ lit "\"; filename*=UTF-8''" ++ quoted)
      name where
  printable := by
    have hlead : ∀ c ∈ lit "attachment; filename=\"", isPrintable c = true :=
      List.all_eq_true.1 (by decide)
    have hbetween : ∀ c ∈ lit "\"; filename*=UTF-8''", isPrintable c = true :=
      List.all_eq_true.1 (by decide)
    intro c hc
    rw [List.mem_append, List.mem_append, List.mem_append] at hc
    rcases hc with ((hc | hc) | hc) | hc
    · exact hlead c hc
    · exact (mem_ascii_name h c hc).1
    · exact hbetween c hc
    · exact printable_quote hquote c hc
  parts := by
    rw [← quoteBut_isSafe] at hquote
    exact ⟨_, _, rfl, fun c hc => (mem_ascii_name h c hc).2,
      (reads_quoteBut keeps_isSafe hquote).unquote⟩

/-! ### The two headers -/

section
variable (cfg : Config) (rt : Runtime)

/-- The header of the backend's route; none where it answers no file. -/
def served (i : ℕ) (slug raw : Str) (w : World) : Option Str :=
  match (run (Calls.exec i) (Routes.download_file cfg rt slug raw) w).1 with
  | .ok ⟨_, .content _ _ disposition⟩ => some disposition
  | _ => none

/-- The header of the frontend's route, once it has the file from the backend. -/
def forwarded (token raw : Str) (file : StreamedFile) : Option Str :=
  match download (some token) (fun _ => .ok file) raw with
  | .ok reply => reply.get (lit "Content-Disposition")
  | .error _ => none

/-- **Both headers name the file** of the canonical path `p`, and are the same. -/
structure SameHeader (raw p : Str) : Prop where
  same : ∀ i slug w token file value, served cfg rt i slug raw w = some value →
    forwarded token raw file = some value
  backend : ∀ i slug w value, served cfg rt i slug raw w = some value → NamesFile value (path_name p)
  frontend : ∀ token file, ∃ value, forwarded token raw file = some value ∧
    NamesFile value (path_name p)

end

variable {cfg : Config} {rt : Runtime} {raw p : Str}

/-- **The backend names the canonical path.** -/
theorem served_eq {i : ℕ} {slug value : Str} {w : World}
    (hraw : validate_site_path rt raw false = .ok p) (h : served cfg rt i slug raw w = some value) :
    value = _attachment (path_name p) := by
  rw [served] at h
  rcases hrun : run (Calls.exec i) (Routes.download_file cfg rt slug raw) w with ⟨e | response, w'⟩
  · rw [hrun] at h
    cases h
  rw [hrun] at h
  rw [Routes.download_file] at hrun
  obtain ⟨site, w1, -, hrun1⟩ := run_bind_inv _ hrun
  obtain ⟨target, w2, hvalid, hrun2⟩ := run_bind_inv _ hrun1
  obtain ⟨file, w3, -, hrun3⟩ := run_bind_inv _ hrun2
  obtain ⟨content, w4, -, hrun4⟩ := run_bind_inv _ hrun3
  rw [Routes._valid_path, hraw] at hvalid
  obtain rfl := Except.ok.inj (Prod.mk.inj hvalid).1
  obtain rfl := Except.ok.inj (Prod.mk.inj hrun4).1
  exact (Option.some.inj h).symm

/-- The frontend names the path that it was given. -/
theorem forwarded_eq (raw : Str) {quoted : Str} (hquote : quote (path_name raw) = some quoted) (token : Str)
    (file : StreamedFile) : forwarded token raw file = some (lit "attachment; filename=\"" ++
      ascii_name (path_name raw) ++ lit "\"; filename*=UTF-8''" ++ quoted) := by
  rw [forwarded, download]
  dsimp only
  rw [hquote]
  rfl

/-- **The name of a path that is accepted.** -/
theorem accepted_name (hraw : validate_site_path rt raw false = .ok p) :
    ∃ up name, p = join (up ++ [name]) ∧ Segment name ∧ ∀ c ∈ name, isForbidden c = false := by
  obtain ⟨⟨segs, hsegs, hp⟩, hroot⟩ := validate_site_path_ok hraw
  obtain ⟨hstrip, hgrammar | ⟨hfalse, -⟩⟩ := SitePaths.validate_site_path_eq_ok.1 hraw
  swap
  · cases hfalse
  have hne : segs ≠ [] := by
    rintro rfl
    exact Bool.false_ne_true (hroot hp)
  obtain ⟨up, name, rfl⟩ := (List.eq_nil_or_concat segs).resolve_left hne
  rw [List.concat_eq_append] at hsegs hp
  refine ⟨up, name, hp, hsegs name (by simp), fun c hc => ?_⟩
  refine SitePaths.not_forbidden.2 (hgrammar.plain c (mem_of_mem_strip (p := (· == slash)) ?_))
  rw [← hstrip, hp]
  exact SitePaths.mem_of_mem_segment (by simp) hc

/-- Slashes before a path leave its name. -/
theorem path_name_slashes {pre name : Str} (hpre : ∀ c ∈ pre, c = slash) (up : List Str)
    (hname : slash ∉ name) : path_name (pre ++ join (up ++ [name])) = name := by
  rw [path_name]
  rcases eq_or_ne up [] with rfl | hne
  · rw [List.nil_append, join_singleton]
    rcases List.eq_nil_or_concat pre with rfl | ⟨pre', c, rfl⟩
    · exact afterLast_of_not_mem hname
    · rw [List.concat_eq_append] at hpre ⊢
      rw [hpre c (by simp), List.append_assoc]
      exact afterLast_append hname
  · rw [join_append_singleton hne, ← List.append_assoc]
    exact afterLast_append hname

/-- **What stands before the canonical path** is slashes, where none stands after it. -/
theorem raw_eq (hraw : validate_site_path rt raw false = .ok p) (hlast : raw.getLast? ≠ some slash) :
    ∃ pre, raw = pre ++ p ∧ ∀ c ∈ pre, c = slash := by
  obtain ⟨hstrip, -⟩ := SitePaths.validate_site_path_eq_ok.1 hraw
  have hslashes : ∀ c ∈ raw.takeWhile (· == slash), c = slash := fun c hc =>
    beq_iff_eq.1 (List.mem_takeWhile_imp (p := (· == slash)) hc)
  refine ⟨raw.takeWhile (· == slash), ?_, hslashes⟩
  have hdrop : p = raw.dropWhile (· == slash) := by
    rw [hstrip, strip_eq]
    rcases List.eq_nil_or_concat (raw.dropWhile (· == slash)) with hnil | ⟨u, c, hu⟩
    · rw [hnil]
      rfl
    · rw [List.concat_eq_append] at hu
      rw [hu]
      refine List.rdropWhile_concat_neg _ _ _ fun hc => hlast ?_
      rw [← List.takeWhile_append_dropWhile (p := (· == slash)) (l := raw), hu, ← List.append_assoc,
        List.getLast?_concat, beq_iff_eq.1 hc]
  rw [hdrop, List.takeWhile_append_dropWhile]

/-- **The two headers are the same**, and name the file, for exactly the paths without a slash at the
end. -/
theorem same_header_iff (cfg : Config) (rt : Runtime) (raw p : Str)
    (hraw : validate_site_path rt raw false = .ok p) :
    SameHeader cfg rt raw p ↔ raw.getLast? ≠ some slash := by
  obtain ⟨up, name, hp, hseg, hplain⟩ := accepted_name hraw
  have hname : path_name p = name := by rw [hp, path_name_join hseg]
  constructor
  · intro h hlast
    obtain ⟨u, rfl⟩ := List.getLast?_eq_some_iff.1 hlast
    have hnil : path_name (u ++ [slash]) = [] := afterLast_append (p := u) List.not_mem_nil
    obtain ⟨value, hvalue, hnames⟩ := h.frontend [] ⟨[], [], none, ⟨0, ⟨200, [], []⟩⟩⟩
    have hquote : quote (path_name (u ++ [slash])) = some [] := by rw [hnil]; rfl
    rw [forwarded_eq _ hquote, hnil] at hvalue
    obtain rfl := Option.some.inj hvalue
    have hempty := (namesFile_attachment [] (by simp) rfl).unique hnames
    exact hseg.ne (hname.symm.trans hempty.symm)
  · intro hlast
    obtain ⟨pre, rfl, hpre⟩ := raw_eq hraw hlast
    have hrawname : path_name (pre ++ p) = name := by
      rw [hp]
      exact path_name_slashes hpre up hseg.slash
    obtain ⟨b, hb, -⟩ := hseg.bytes
    obtain ⟨quoted, hquote⟩ := exists_quoteBut isSafe hb
    rw [quoteBut_isSafe] at hquote
    have hforwarded := forwarded_eq (pre ++ p) (by rw [hrawname]; exact hquote)
    rw [hrawname] at hforwarded
    have hserved : _attachment name = lit "attachment; filename=\"" ++ ascii_name name ++
        lit "\"; filename*=UTF-8''" ++ quoted := by rw [_attachment, hquote]; rfl
    have hnames := namesFile_attachment name hplain hquote
    refine ⟨fun i slug w token file value h => ?_, fun i slug w value h => ?_, fun token file => ?_⟩
    · rw [served_eq hraw h, hname, hserved]
      exact hforwarded token file
    · rw [served_eq hraw h, hname, hserved]
      exact hnames
    · rw [hname]
      exact ⟨_, hforwarded token file, hnames⟩

theorem same_header_docs : SameHeader smallConfig plainRuntime (lit "/docs/a") (lit "docs/a") :=
  (same_header_iff smallConfig plainRuntime (lit "/docs/a") (lit "docs/a") (by decide +kernel)).2
    (by decide)

/-- A slash at the end: the frontend names nothing. -/
theorem same_header_trailing : validate_site_path plainRuntime (lit "a/") false = .ok (lit "a") ∧
    ¬ SameHeader smallConfig plainRuntime (lit "a/") (lit "a") := by
  refine ⟨by decide +kernel, fun h => ?_⟩
  obtain ⟨value, hvalue, hnames⟩ := h.frontend [] ⟨[], [], none, ⟨0, ⟨200, [], []⟩⟩⟩
  have hnil : path_name (lit "a/") = [] := by decide
  have hquote : quote (path_name (lit "a/")) = some [] := by rw [hnil]; rfl
  rw [forwarded_eq _ hquote, hnil] at hvalue
  obtain rfl := Option.some.inj hvalue
  exact absurd ((namesFile_attachment [] (by simp) rfl).unique hnames) (by decide)

end PaperBoxing.Frontend.Downloads
