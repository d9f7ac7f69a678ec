import PaperBoxing.Lib.Text

/-! # Base64

Padded standard base64: `encode`, the strict decoder `decode`, and `encodebytes`, which writes the
encoding in lines of 76 columns, each ended by a line feed.

* `decode_encode`: the decoder undoes the encoder;
* `length_encode`, `length_escaped_encodebytes`: how long the encodings are, the second with every
  line feed escaped, as in a JSON string. -/

namespace PaperBoxing.Lib.Base64

open PaperBoxing.Lib.Text

def alphabet : Str := lit "ABCDEFGHIJKLMNOPQRSTUVWXYZabcdefghijklmnopqrstuvwxyz0123456789+/"

def pad : CodePoint := ofChar '='

/-- The character of six bits. -/
def sextet (n : ℕ) : CodePoint := alphabet.getD n pad

/-- The six bits of a character. -/
def value (c : CodePoint) : Option ℕ := alphabet.idxOf? c

/-- `base64.b64encode`. -/
def encode : Bytes → Str
  | [] => []
  | [a] => [sextet (a.toNat / 4), sextet (a.toNat % 4 * 16), pad, pad]
  | [a, b] =>
    [sextet (a.toNat / 4), sextet (a.toNat % 4 * 16 + b.toNat / 16), sextet (b.toNat % 16 * 4), pad]
  | a :: b :: c :: rest =>
    sextet (a.toNat / 4) :: sextet (a.toNat % 4 * 16 + b.toNat / 16) ::
      sextet (b.toNat % 16 * 4 + c.toNat / 64) :: sextet (c.toNat % 64) :: encode rest

/-- `base64.b64decode(s, validate=True)`; none where it raises: characters in fours, padding at the
end only. -/
def decode : Str → Option Bytes
  | [] => some []
  | c1 :: c2 :: c3 :: c4 :: rest => do
    let v1 ← value c1
    let v2 ← value c2
    let a := UInt8.ofNat (v1 * 4 + v2 / 16)
    if c3 = pad then
      if c4 = pad ∧ rest = [] then some [a] else none
    else do
      let v3 ← value c3
      let b := UInt8.ofNat (v2 % 16 * 16 + v3 / 4)
      if c4 = pad then
        if rest = [] then some [a, b] else none
      else do
        let v4 ← value c4
        let more ← decode rest
        some (a :: b :: UInt8.ofNat (v3 % 4 * 64 + v4) :: more)
  | _ => none

/-! ### The decoder undoes the encoder -/

theorem sextet_spec : ∀ n < 64, value (sextet n) = some n ∧ sextet n ≠ pad ∧
    isSpace (sextet n) = false ∧ isAscii (sextet n) = true ∧ sextet n ≠ ofChar '"' ∧
      sextet n ≠ ofChar '\\' := by
  decide +kernel

theorem decode_encode : ∀ b : Bytes, decode (encode b) = some b
  | [] => rfl
  | [a] => by
    have ha := a.toNat_lt
    have h1 := sextet_spec (a.toNat / 4) (by omega)
    have h2 := sextet_spec (a.toNat % 4 * 16) (by omega)
    rw [encode, decode, h1.1, h2.1]
    simp only [Option.bind_eq_bind, Option.bind_some, and_self, if_true, Option.some.injEq,
      List.cons.injEq, and_true]
    rw [show a.toNat / 4 * 4 + a.toNat % 4 * 16 / 16 = a.toNat by omega, UInt8.ofNat_toNat]
  | [a, b] => by
    have ha := a.toNat_lt
    have hb := b.toNat_lt
    have h1 := sextet_spec (a.toNat / 4) (by omega)
    have h2 := sextet_spec (a.toNat % 4 * 16 + b.toNat / 16) (by omega)
    have h3 := sextet_spec (b.toNat % 16 * 4) (by omega)
    rw [encode, decode, h1.1, h2.1, h3.1]
    simp only [Option.bind_eq_bind, Option.bind_some, if_neg h3.2.1, if_true, Option.some.injEq,
      List.cons.injEq, and_true]
    rw [show a.toNat / 4 * 4 + (a.toNat % 4 * 16 + b.toNat / 16) / 16 = a.toNat by omega,
      show (a.toNat % 4 * 16 + b.toNat / 16) % 16 * 16 + b.toNat % 16 * 4 / 4 = b.toNat by omega,
      UInt8.ofNat_toNat, UInt8.ofNat_toNat]
    exact ⟨rfl, rfl⟩
  | a :: b :: c :: rest => by
    have ha := a.toNat_lt
    have hb := b.toNat_lt
    have hc := c.toNat_lt
    have h1 := sextet_spec (a.toNat / 4) (by omega)
    have h2 := sextet_spec (a.toNat % 4 * 16 + b.toNat / 16) (by omega)
    have h3 := sextet_spec (b.toNat % 16 * 4 + c.toNat / 64) (by omega)
    have h4 := sextet_spec (c.toNat % 64) (by omega)
    rw [encode, decode, h1.1, h2.1, h3.1, h4.1, decode_encode rest]
    simp only [Option.bind_eq_bind, Option.bind_some, if_neg h3.2.1, if_neg h4.2.1,
      Option.some.injEq, List.cons.injEq, and_true]
    rw [show a.toNat / 4 * 4 + (a.toNat % 4 * 16 + b.toNat / 16) / 16 = a.toNat by omega,
      show (a.toNat % 4 * 16 + b.toNat / 16) % 16 * 16 + (b.toNat % 16 * 4 + c.toNat / 64) / 4 =
        b.toNat by omega,
      show (b.toNat % 16 * 4 + c.toNat / 64) % 4 * 64 + c.toNat % 64 = c.toNat by omega,
      UInt8.ofNat_toNat, UInt8.ofNat_toNat, UInt8.ofNat_toNat]
    exact ⟨rfl, rfl, rfl⟩

/-! ### Lengths -/

theorem length_encode : ∀ b : Bytes, (encode b).length = 4 * ((b.length + 2) / 3)
  | [] => rfl
  | [a] => by simp [encode]
  | [a, b] => by simp [encode]
  | a :: b :: c :: rest => by
    simp only [encode, List.length_cons, length_encode rest]
    omega

/-- **The characters of an encoding**: none is a space, a quote or a backslash, and all are ASCII. -/
theorem mem_encode : ∀ {b : Bytes} {c : CodePoint}, c ∈ encode b → isSpace c = false ∧
    isAscii c = true ∧ c ≠ ofChar '"' ∧ c ≠ ofChar '\\' := by
  have hpad : isSpace pad = false ∧ isAscii pad = true ∧ pad ≠ ofChar '"' ∧ pad ≠ ofChar '\\' := by
    decide
  have hsextet : ∀ n < 64, isSpace (sextet n) = false ∧ isAscii (sextet n) = true ∧
      sextet n ≠ ofChar '"' ∧ sextet n ≠ ofChar '\\' := fun n hn => (sextet_spec n hn).2.2
  intro b
  induction b using encode.induct with
  | case1 => exact fun h => absurd h List.not_mem_nil
  | case2 a =>
    have ha := a.toNat_lt
    intro c hc
    simp only [encode, List.mem_cons, List.not_mem_nil, or_false] at hc
    rcases hc with rfl | rfl | rfl | rfl
    · exact hsextet _ (by omega)
    · exact hsextet _ (by omega)
    · exact hpad
    · exact hpad
  | case3 a b =>
    have ha := a.toNat_lt
    have hb := b.toNat_lt
    intro c hc
    simp only [encode, List.mem_cons, List.not_mem_nil, or_false] at hc
    rcases hc with rfl | rfl | rfl | rfl
    · exact hsextet _ (by omega)
    · exact hsextet _ (by omega)
    · exact hsextet _ (by omega)
    · exact hpad
  | case4 a b c rest ih =>
    have ha := a.toNat_lt
    have hb := b.toNat_lt
    have hc := c.toNat_lt
    intro d hd
    simp only [encode, List.mem_cons] at hd
    rcases hd with rfl | rfl | rfl | rfl | hd
    · exact hsextet _ (by omega)
    · exact hsextet _ (by omega)
    · exact hsextet _ (by omega)
    · exact hsextet _ (by omega)
    · exact ih hd

/-! ### Lines -/

/-- `base64.encodebytes`: 57 bytes to a line, and a line feed after each. -/
def encodebytes (b : Bytes) : Str :=
  if b = [] then [] else encode (b.take 57) ++ newline :: encodebytes (b.drop 57)
termination_by b.length
decreasing_by
  have := List.length_pos_iff.2 ‹b ≠ []›
  rw [List.length_drop]
  omega

/-- A text in a JSON string: a line feed, a quote and a backslash take two characters. -/
def escaped (s : Str) : Str := s.flatMap fun c =>
  if c = newline then lit "\\n"
  else if c = ofChar '"' ∨ c = ofChar '\\' then [ofChar '\\', c]
  else [c]

theorem escaped_append (s t : Str) : escaped (s ++ t) = escaped s ++ escaped t := List.flatMap_append

/-- An encoding stands in a JSON string as it is. -/
theorem escaped_encode (b : Bytes) : escaped (encode b) = encode b := by
  have h : ∀ s : Str, (∀ c ∈ s, isSpace c = false ∧ isAscii c = true ∧ c ≠ ofChar '"' ∧
      c ≠ ofChar '\\') → escaped s = s := by
    intro s
    induction s with
    | nil => exact fun _ => rfl
    | cons c s ih =>
      intro hs
      obtain ⟨h1, -, h2, h3⟩ := hs c List.mem_cons_self
      have hn : c ≠ newline := by
        rintro rfl
        exact absurd h1 (by decide)
      rw [escaped, List.flatMap_cons, if_neg hn, if_neg (not_or.2 ⟨h2, h3⟩), ← escaped,
        ih fun c hc => hs c (List.mem_cons_of_mem _ hc)]
      rfl
  exact h _ fun c hc => mem_encode hc

/-- **The length of the lines**, each line feed counted as two characters. -/
theorem length_escaped_encodebytes (b : Bytes) : (escaped (encodebytes b)).length =
    4 * ((b.length + 2) / 3) + 2 * ((4 * ((b.length + 2) / 3) + 75) / 76) := by
  induction b using encodebytes.induct with
  | case1 => simp [encodebytes, escaped]
  | case2 b hne ih =>
    have hpos := List.length_pos_iff.2 hne
    have hnl : (escaped [newline]).length = 2 := by decide
    rw [encodebytes, if_neg hne, escaped_append, ← List.singleton_append, escaped_append,
      escaped_encode, List.length_append, List.length_append, hnl, ih, length_encode,
      List.length_take, List.length_drop]
    omega

theorem mem_escaped {s : Str} (h : ∀ c ∈ s, isAscii c = true) : ∀ c ∈ escaped s, isAscii c = true := by
  intro c hc
  obtain ⟨d, hd, hc⟩ := List.mem_flatMap.1 hc
  split_ifs at hc
  · have hline : (lit "\\n").all isAscii = true := by decide
    exact List.all_eq_true.1 hline c hc
  · rcases List.mem_cons.1 hc with rfl | hc
    · decide
    · rw [List.mem_singleton.1 hc]
      exact h d hd
  · rw [List.mem_singleton.1 hc]
    exact h d hd

theorem mem_encodebytes (b : Bytes) : ∀ c ∈ encodebytes b, isAscii c = true := by
  induction b using encodebytes.induct with
  | case1 => simp [encodebytes]
  | case2 b hne ih =>
    rw [encodebytes, if_neg hne]
    intro c hc
    rcases List.mem_append.1 hc with hc | hc
    · exact (mem_encode hc).2.1
    · rcases List.mem_cons.1 hc with rfl | hc
      · decide
      · exact ih c hc

end PaperBoxing.Lib.Base64
