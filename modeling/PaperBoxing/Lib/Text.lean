import Mathlib

/-! # Text: strings of code points

A string is a list of code points, lone surrogates included, as in Python; bytes are lists of
`UInt8`. The operations are those of the language's `str` that the sources use.

* `split`, `join`: the words of a string between slashes; each is the other's inverse on words
  without slashes (core's `List.splitOn_intercalate`, `List.intercalate_splitOn`);
* `beforeLast`, `afterLast`: the two ends of `rpartition`; `beforeLast_join`, `afterLast_join`;
* `utf8`: the encoding, undefined on surrogates; `quote`: percent-encoding. -/

namespace PaperBoxing.Lib.Text

/-- A Unicode code point, surrogates included. -/
abbrev CodePoint : Type := Fin 0x110000

/-- **A string.** -/
abbrev Str : Type := List CodePoint

/-- A byte string. -/
abbrev Bytes : Type := List UInt8

instance neZero_codePoints : NeZero 0x110000 := ⟨by decide⟩

instance transOrd_str : Std.TransOrd Str := inferInstanceAs (Std.TransOrd (List CodePoint))

instance lawfulEqOrd_str : Std.LawfulEqOrd Str := inferInstanceAs (Std.LawfulEqOrd (List CodePoint))

/-- The code point of a character. -/
def ofChar (c : Char) : CodePoint := Fin.ofNat 0x110000 c.toNat

/-- The string of a literal. -/
def lit (s : String) : Str := s.toList.map ofChar

/-- The decimal numeral of a number. -/
def dec (n : Nat) : Str := (Nat.toDigits 10 n).map ofChar

def slash : CodePoint := ofChar '/'

def hyphen : CodePoint := ofChar '-'

def newline : CodePoint := ofChar '\n'

def space : CodePoint := ofChar ' '

/-- Membership in a range of characters. -/
def between (lo hi : Char) (c : CodePoint) : Bool := lo.toNat ≤ c.val && c.val ≤ hi.toNat

def isDigit (c : CodePoint) : Bool := between '0' '9' c

def isLower (c : CodePoint) : Bool := between 'a' 'z' c

def isUpper (c : CodePoint) : Bool := between 'A' 'Z' c

/-- `[a-z0-9]`. -/
def isAlnum (c : CodePoint) : Bool := isLower c || isDigit c

def isAscii (c : CodePoint) : Bool := c.val < 0x80

/-- `lower` on ASCII. -/
def asciiLower (c : CodePoint) : CodePoint :=
  if isUpper c then Fin.ofNat 0x110000 (c.val + 32) else c

/-- `strip`: without the leading and trailing code points that satisfy `p`. -/
def strip (p : CodePoint → Bool) (s : Str) : Str :=
  ((s.dropWhile p).reverse.dropWhile p).reverse

/-- `s.partition(sep)`: the parts before and after the first separator; all of it and nothing when
there is none. -/
def partitionAt (sep : CodePoint) (s : Str) : Str × Str :=
  (s.takeWhile (· != sep), (s.dropWhile (· != sep)).drop 1)

/-- `isspace`. -/
def isSpace (c : CodePoint) : Bool :=
  (0x09 ≤ c.val && c.val ≤ 0x0D) || (0x1C ≤ c.val && c.val ≤ 0x20) || c.val == 0x85 ||
    c.val == 0xA0 || c.val == 0x1680 || (0x2000 ≤ c.val && c.val ≤ 0x200A) || c.val == 0x2028 ||
    c.val == 0x2029 || c.val == 0x202F || c.val == 0x205F || c.val == 0x3000

/-- `re.sub("[^…]+", by, s)`: every run of code points outside `keep` becomes one `by`; `inRun` says
that the run has begun. -/
def subRuns (keep : CodePoint → Bool) (by' : CodePoint) : Bool → Str → Str
  | _, [] => []
  | inRun, c :: s =>
    if keep c then c :: subRuns keep by' false s
    else if inRun then subRuns keep by' true s
    else by' :: subRuns keep by' true s

theorem strip_eq (p : CodePoint → Bool) (s : Str) : strip p s = (s.dropWhile p).rdropWhile p := rfl

theorem mem_of_mem_strip {p : CodePoint → Bool} {s : Str} {c : CodePoint} (h : c ∈ strip p s) :
    c ∈ s :=
  (List.dropWhile_suffix p).mem ((List.rdropWhile_prefix p _).mem h)

theorem dropWhile_head {p : CodePoint → Bool} {c : CodePoint} : ∀ {s u : Str},
    s.dropWhile p = c :: u → p c = false
  | d :: s, u, h => by
    by_cases hd : p d = true
    · rw [List.dropWhile_cons_of_pos hd] at h
      exact dropWhile_head h
    · rw [List.dropWhile_cons_of_neg hd] at h
      rw [← (List.cons.inj h).1]
      exact Bool.not_eq_true _ ▸ hd

theorem strip_eq_nil {p : CodePoint → Bool} {s : Str} :
    strip p s = [] ↔ ∀ c ∈ s, p c = true := by
  rw [strip_eq, List.rdropWhile_eq_nil_iff]
  constructor
  · intro h c hc
    rw [← List.takeWhile_append_dropWhile (p := p) (l := s), List.mem_append] at hc
    rcases hc with hc | hc
    · exact List.mem_takeWhile_imp hc
    · exact h c hc
  · exact fun h c hc => h c ((List.dropWhile_suffix p).mem hc)

/-- What neither starts nor ends with what is stripped is left as it is. -/
theorem strip_of_ends {p : CodePoint → Bool} {s : Str} (hhead : ∀ c u, s = c :: u → p c = false)
    (hlast : ∀ c u, s = u ++ [c] → p c = false) : strip p s = s := by
  have h : s.dropWhile p = s := by
    rcases s with _ | ⟨c, u⟩
    · rfl
    · exact List.dropWhile_cons_of_neg (by rw [hhead c u rfl]; exact Bool.false_ne_true)
  rw [strip_eq, h]
  rcases List.eq_nil_or_concat s with rfl | ⟨u, c, rfl⟩
  · rfl
  · rw [List.concat_eq_append] at hlast ⊢
    exact List.rdropWhile_concat_neg _ _ _ (by rw [hlast c u rfl]; exact Bool.false_ne_true)

/-- **A stripped string neither starts nor ends with what was stripped.** -/
theorem strip_head {p : CodePoint → Bool} {s u : Str} {c : CodePoint} (h : strip p s = c :: u) :
    p c = false := by
  obtain ⟨v, hv⟩ := List.rdropWhile_prefix p (s.dropWhile p)
  rw [← strip_eq, h, List.cons_append] at hv
  exact dropWhile_head hv.symm

theorem strip_last {p : CodePoint → Bool} {s u : Str} {c : CodePoint} (h : strip p s = u ++ [c]) :
    p c = false := by
  rw [strip, List.reverse_eq_iff, List.reverse_append] at h
  exact dropWhile_head h

/-- **Stripping again changes nothing.** -/
theorem strip_strip (p : CodePoint → Bool) (s : Str) : strip p (strip p s) = strip p s :=
  strip_of_ends (fun _ _ h => strip_head h) fun _ _ h => strip_last h

/-- What is stripped goes from the end. -/
theorem strip_concat {p : CodePoint → Bool} {c : CodePoint} (hc : p c = true) (s : Str) :
    strip p (s ++ [c]) = strip p s := by
  rw [strip_eq, strip_eq, List.dropWhile_append]
  split_ifs with h
  · rw [List.isEmpty_iff.1 h, List.dropWhile_cons_of_pos hc]
    rfl
  · exact List.rdropWhile_concat_pos _ _ _ hc

theorem length_strip_le (p : CodePoint → Bool) (s : Str) : (strip p s).length ≤ s.length :=
  (List.rdropWhile_prefix p _).length_le.trans (List.dropWhile_suffix p).length_le

theorem mem_subRuns {keep : CodePoint → Bool} {r c : CodePoint} : ∀ {b : Bool} {s : Str},
    c ∈ subRuns keep r b s → keep c = true ∨ c = r
  | _, [], h => absurd h List.not_mem_nil
  | b, d :: s, h => by
    rw [subRuns] at h
    split_ifs at h with hd hb
    · rcases List.mem_cons.1 h with rfl | h
      · exact Or.inl hd
      · exact mem_subRuns h
    · exact mem_subRuns h
    · rcases List.mem_cons.1 h with rfl | h
      · exact Or.inr rfl
      · exact mem_subRuns h

/-! ### Words between slashes -/

/-- `s.split("/")`. -/
def split (s : Str) : List Str := s.splitOn slash

/-- `"/".join(words)`. -/
def join (words : List Str) : Str := [slash].intercalate words

/-- `s.rpartition("/")[0]`: the part before the last slash, empty when there is none. -/
def beforeLast (s : Str) : Str := ((s.reverse.dropWhile (· != slash)).drop 1).reverse

/-- `s.rpartition("/")[2]`: the part after the last slash, all of it when there is none. -/
def afterLast (s : Str) : Str := (s.reverse.takeWhile (· != slash)).reverse

theorem join_split (s : Str) : join (split s) = s := List.intercalate_splitOn slash

theorem split_join {words : List Str} (h : ∀ w ∈ words, slash ∉ w) (hne : words ≠ []) :
    split (join words) = words := List.splitOn_intercalate slash h hne

theorem split_ne_nil (s : Str) : split s ≠ [] := List.splitOn_ne_nil slash s

/-- No word between slashes has a slash. -/
theorem not_mem_split {s w : Str} (h : w ∈ split s) : slash ∉ w := by
  induction s generalizing w with
  | nil =>
    rw [split, List.splitOn_nil, List.mem_singleton] at h
    rw [h]
    exact List.not_mem_nil
  | cons c s ih =>
    rw [split, List.splitOn_cons_eq_if_modifyHead] at h
    split_ifs at h with hc
    · rcases List.mem_cons.1 h with rfl | h
      · exact List.not_mem_nil
      · exact ih h
    · obtain ⟨v, vs, hv⟩ := List.exists_cons_of_ne_nil (split_ne_nil s)
      rw [← split, hv, List.modifyHead_cons] at h
      rcases List.mem_cons.1 h with rfl | h
      · intro hm
        rcases List.mem_cons.1 hm with rfl | hm
        · exact hc (beq_self_eq_true _)
        · exact ih (hv ▸ List.mem_cons_self) hm
      · exact ih (hv ▸ List.mem_cons_of_mem _ h)

@[simp] theorem join_nil : join [] = [] := rfl

@[simp] theorem join_singleton (w : Str) : join [w] = w := List.intercalate_singleton

theorem join_append {words more : List Str} (hne : words ≠ []) (hmore : more ≠ []) :
    join (words ++ more) = join words ++ slash :: join more := by
  induction words with
  | nil => exact absurd rfl hne
  | cons v vs ih =>
    rcases vs with _ | ⟨v', vs⟩
    · obtain ⟨w, more, rfl⟩ := List.exists_cons_of_ne_nil hmore
      simp [join, List.intercalate_cons_cons]
    · have := ih (List.cons_ne_nil _ _)
      simp only [join, List.cons_append, List.intercalate_cons_cons] at this ⊢
      rw [this]
      simp

theorem join_append_singleton {words : List Str} (hne : words ≠ []) (w : Str) :
    join (words ++ [w]) = join words ++ slash :: w := by
  rw [join_append hne (List.cons_ne_nil w []), join_singleton]

theorem join_cons {words : List Str} (hne : words ≠ []) (w : Str) :
    join (w :: words) = w ++ slash :: join words := by
  rw [← List.singleton_append, join_append (List.cons_ne_nil w []) hne, join_singleton]

/-- No word is cut off the end of a string without slashes. -/
theorem beforeLast_of_not_mem {s : Str} (h : slash ∉ s) : beforeLast s = [] := by
  have : s.reverse.dropWhile (· != slash) = [] := by
    rw [List.dropWhile_eq_nil_iff]
    intro c hc
    simpa using fun he => h (by simpa [he] using hc)
  rw [beforeLast, this]
  rfl

theorem afterLast_of_not_mem {s : Str} (h : slash ∉ s) : afterLast s = s := by
  have : s.reverse.takeWhile (· != slash) = s.reverse := by
    rw [List.takeWhile_eq_self_iff]
    intro c hc
    simpa using fun he => h (by simpa [he] using hc)
  rw [afterLast, this, List.reverse_reverse]

theorem beforeLast_append {p w : Str} (h : slash ∉ w) : beforeLast (p ++ slash :: w) = p := by
  have hw : ∀ c ∈ w.reverse, (c != slash) = true := fun c hc => by
    simpa using fun he => h (by simpa [he] using hc)
  rw [beforeLast, List.reverse_append, List.reverse_cons, List.append_assoc,
    List.dropWhile_append_of_pos hw]
  simp

theorem afterLast_append {p w : Str} (h : slash ∉ w) : afterLast (p ++ slash :: w) = w := by
  have hw : ∀ c ∈ w.reverse, (c != slash) = true := fun c hc => by
    simpa using fun he => h (by simpa [he] using hc)
  rw [afterLast, List.reverse_append, List.reverse_cons, List.append_assoc,
    List.takeWhile_append_of_pos hw]
  simp

/-- **The last slash of joined words cuts the last word off.** -/
theorem beforeLast_join {words : List Str} {w : Str} (h : slash ∉ w) :
    beforeLast (join (words ++ [w])) = join words := by
  rcases eq_or_ne words [] with rfl | hne
  · simpa using beforeLast_of_not_mem h
  · rw [join_append_singleton hne, beforeLast_append h]

theorem afterLast_join {words : List Str} {w : Str} (h : slash ∉ w) :
    afterLast (join (words ++ [w])) = w := by
  rcases eq_or_ne words [] with rfl | hne
  · simpa using afterLast_of_not_mem h
  · rw [join_append_singleton hne, afterLast_append h]

/-! ### Encoding -/

/-- The UTF-8 encoding of a code point; none for a surrogate. -/
def utf8Char (c : CodePoint) : Option Bytes :=
  if c.val < 0x80 then some [UInt8.ofNat c.val]
  else if c.val < 0x800 then
    some [UInt8.ofNat (0xC0 + c.val / 64), UInt8.ofNat (0x80 + c.val % 64)]
  else if 0xD800 ≤ c.val && c.val < 0xE000 then none
  else if c.val < 0x10000 then
    some [UInt8.ofNat (0xE0 + c.val / 4096), UInt8.ofNat (0x80 + c.val / 64 % 64),
      UInt8.ofNat (0x80 + c.val % 64)]
  else
    some [UInt8.ofNat (0xF0 + c.val / 262144), UInt8.ofNat (0x80 + c.val / 4096 % 64),
      UInt8.ofNat (0x80 + c.val / 64 % 64), UInt8.ofNat (0x80 + c.val % 64)]

/-- `s.encode("utf-8")`; none where it raises `UnicodeEncodeError`. -/
def utf8 : Str → Option Bytes
  | [] => some []
  | c :: s => (utf8Char c).bind fun b => (utf8 s).map (b ++ ·)

theorem utf8_append (s t : Str) :
    utf8 (s ++ t) = (utf8 s).bind fun b => (utf8 t).map (b ++ ·) := by
  induction s with
  | nil => rw [List.nil_append, utf8, Option.bind_some]; exact (Option.map_id' ..).symm
  | cons c s ih =>
    rw [List.cons_append, utf8, utf8, ih]
    rcases utf8Char c with _ | b
    · rfl
    rcases utf8 s with _ | b'
    · rfl
    rcases utf8 t with _ | b''
    · rfl
    · simp

/-- **ASCII text** encodes to its code points. -/
theorem utf8_ascii {s : Str} (h : ∀ c ∈ s, isAscii c = true) :
    utf8 s = some (s.map fun c => UInt8.ofNat c.val) := by
  induction s with
  | nil => rfl
  | cons c s ih =>
    have hc : c.val < 0x80 := by simpa [isAscii] using h c List.mem_cons_self
    rw [utf8, utf8Char, if_pos hc, ih fun d hd => h d (List.mem_cons_of_mem _ hd)]
    rfl

/-- The code points `quote` leaves as they are. -/
def isSafe (c : CodePoint) : Bool :=
  isDigit c || isLower c || isUpper c || c == slash || (lit "_.-~").contains c

/-- The upper-case hexadecimal digit of a number below sixteen. -/
def hexDigit (n : ℕ) : CodePoint :=
  Fin.ofNat 0x110000 (if n < 10 then 48 + n else 55 + n)

/-- `urllib.parse.quote(s)`; none where the encoding raises. -/
def quote : Str → Option Str
  | [] => some []
  | c :: s => do
    let bytes ← utf8Char c
    let rest ← quote s
    if isSafe c then pure (c :: rest)
    else
      pure (bytes.flatMap (fun b => [ofChar '%', hexDigit (b.toNat / 16), hexDigit (b.toNat % 16)]) ++
        rest)

end PaperBoxing.Lib.Text
