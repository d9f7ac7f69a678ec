import PaperBoxing.Lib.Text

/-! # Splitting a URL

The scheme and the host that the language's `urlsplit` reads in a URL, after it removed what the URL
standard removes. What a host is refused for, brackets apart, is a parameter.

* `urlsplit_of_slash`: a text that begins with a slash has a host only after a second one. -/

namespace PaperBoxing.Lib.Urls

open PaperBoxing.Lib.Text

/-- Tab, line feed, carriage return: removed from a URL wherever they stand. -/
def isDropped (c : CodePoint) : Bool := c == ofChar '\t' || c == ofChar '\n' || c == ofChar '\r'

/-- Control characters and the space: removed from the front of a URL. -/
def isLeading (c : CodePoint) : Bool := c.val ≤ 0x20

/-- A URL without the characters that are removed wherever they stand. -/
def cleaned (url : Str) : Str := url.filter fun c => !isDropped c

/-- `[A-Za-z0-9+.-]`. -/
def isSchemeChar (c : CodePoint) : Bool :=
  isLower c || isUpper c || isDigit c || (lit "+.-").contains c

/-- The scheme of a cleaned URL, and what follows it. -/
def splitScheme (url : Str) : Str × Str :=
  let scheme := url.takeWhile (· != ofChar ':')
  match scheme, url.drop scheme.length with
  | c :: _, _ :: rest =>
    if (isLower c || isUpper c) && scheme.all isSchemeChar then (scheme.map asciiLower, rest)
    else ([], url)
  | _, _ => ([], url)

/-- `_splitnetloc`: the host ends before a slash, a question mark or a number sign. -/
def hostOf (rest : Str) : Str := rest.takeWhile fun c => !(lit "/?#").contains c

/-- A host with only one kind of bracket. -/
def unbalanced (host : Str) : Bool := host.contains (ofChar '[') != host.contains (ofChar ']')

/-- `urlsplit`: the scheme and the host; none is a `ValueError`. -/
def urlsplit (refuses : Str → Bool) (url : Str) : Option (Str × Str) :=
  let (scheme, rest) := splitScheme (cleaned (url.dropWhile isLeading))
  match rest with
  | a :: b :: rest =>
    if a = slash ∧ b = slash then
      if unbalanced (hostOf rest) || refuses (hostOf rest) then none else some (scheme, hostOf rest)
    else some (scheme, [])
  | _ => some (scheme, [])

variable {refuses : Str → Bool}

theorem splitScheme_slash (url : Str) : splitScheme (slash :: url) = ([], slash :: url) := by
  rw [splitScheme, List.takeWhile_cons_of_pos (by decide)]
  split
  · next c t d u hc hd =>
    obtain ⟨rfl, -⟩ := List.cons.inj hc
    exact if_neg (by simp [slash, isLower, isUpper, between, ofChar])
  · rfl

theorem cleaned_slash (url : Str) : cleaned (slash :: url) = slash :: cleaned url :=
  List.filter_cons_of_pos (by decide)

/-- **A text that begins with a slash** has no scheme, and a host only after a second slash. -/
theorem urlsplit_of_slash (url : Str) : urlsplit refuses (slash :: url) =
    match cleaned url with
    | b :: rest =>
      if b = slash then
        if unbalanced (hostOf rest) || refuses (hostOf rest) then none else some ([], hostOf rest)
      else some ([], [])
    | [] => some ([], []) := by
  have h : (slash :: url).dropWhile isLeading = slash :: url :=
    List.dropWhile_cons_of_neg (by decide)
  rw [urlsplit, h, cleaned_slash, splitScheme_slash]
  dsimp only
  rcases cleaned url with _ | ⟨b, rest⟩
  · rfl
  · simp only [true_and]

end PaperBoxing.Lib.Urls
