import PaperBoxing.Lib.Text

/-! # Percent-encoding

`quoteBut` encodes a string in UTF-8 and writes the bytes of the code points it does not keep as
percent escapes; `unquote` reads the escapes and decodes the bytes.

* `decodeUtf8_utf8`: the UTF-8 decoder undoes the encoder;
* `percentBytes_quoteBut`: the escapes of a quoted string are read as its encoding;
* `unquote_quoteBut`: so `unquote` undoes `quoteBut`. -/

namespace PaperBoxing.Lib.Percent

open PaperBoxing.Lib.Text

/-! ### Decoding UTF-8 -/

/-- A continuation byte, without its mark. -/
def continuation (b : UInt8) : Option ℕ :=
  if 0x80 ≤ b.toNat ∧ b.toNat < 0xC0 then some (b.toNat - 0x80) else none

/-- The code point of a number that two bytes cannot say and that is no surrogate. -/
def threeByteChar (n : ℕ) : Option CodePoint :=
  if n < 0x800 ∨ (0xD800 ≤ n ∧ n < 0xE000) then none else some (Fin.ofNat 0x110000 n)

/-- The code point of a number that three bytes cannot say, up to the last one. -/
def fourByteChar (n : ℕ) : Option CodePoint :=
  if n < 0x10000 ∨ 0x110000 ≤ n then none else some (Fin.ofNat 0x110000 n)

def twoBytes (b b1 : UInt8) : Option CodePoint :=
  (continuation b1).map fun n1 => Fin.ofNat 0x110000 ((b.toNat - 0xC0) * 64 + n1)

def threeBytes (b b1 b2 : UInt8) : Option CodePoint := do
  let n1 ← continuation b1
  let n2 ← continuation b2
  threeByteChar (((b.toNat - 0xE0) * 64 + n1) * 64 + n2)

def fourBytes (b b1 b2 b3 : UInt8) : Option CodePoint := do
  let n1 ← continuation b1
  let n2 ← continuation b2
  let n3 ← continuation b3
  fourByteChar ((((b.toNat - 0xF0) * 64 + n1) * 64 + n2) * 64 + n3)

/-- `bytes.decode("utf-8")`; none where it raises. -/
def decodeUtf8 : Bytes → Option Str
  | [] => some []
  | b :: rest =>
    if b.toNat < 0x80 then (decodeUtf8 rest).map (Fin.ofNat 0x110000 b.toNat :: ·)
    else if b.toNat < 0xC2 then none
    else match rest with
      | [] => none
      | b1 :: rest =>
        if b.toNat < 0xE0 then (twoBytes b b1).bind fun c => (decodeUtf8 rest).map (c :: ·)
        else match rest with
          | [] => none
          | b2 :: rest =>
            if b.toNat < 0xF0 then (threeBytes b b1 b2).bind fun c => (decodeUtf8 rest).map (c :: ·)
            else match rest with
              | [] => none
              | b3 :: rest => (fourBytes b b1 b2 b3).bind fun c => (decodeUtf8 rest).map (c :: ·)

theorem toNat_ofNat {n : ℕ} (h : n < 256) : (UInt8.ofNat n).toNat = n := by
  rw [UInt8.toNat_ofNat']
  exact Nat.mod_eq_of_lt h

theorem continuation_ofNat {n : ℕ} (h : n < 64) : continuation (UInt8.ofNat (0x80 + n)) = some n := by
  rw [continuation, toNat_ofNat (by omega), if_pos (by omega), Nat.add_sub_cancel_left]

theorem ofNat_val {c : CodePoint} {n : ℕ} (h : n = c.val) : Fin.ofNat 0x110000 n = c := by
  rw [h]
  exact Fin.ofNat_val_eq_self c

section
variable {b b1 b2 b3 : UInt8} {n1 n2 n3 n : ℕ}

theorem twoBytes_eq (h1 : continuation b1 = some n1) (hn : (b.toNat - 0xC0) * 64 + n1 = n) :
    twoBytes b b1 = some (Fin.ofNat 0x110000 n) := by
  rw [twoBytes, h1, ← hn]
  rfl

theorem threeBytes_eq (h1 : continuation b1 = some n1) (h2 : continuation b2 = some n2)
    (hn : ((b.toNat - 0xE0) * 64 + n1) * 64 + n2 = n) (hlow : 0x800 ≤ n)
    (hs : n < 0xD800 ∨ 0xE000 ≤ n) : threeBytes b b1 b2 = some (Fin.ofNat 0x110000 n) := by
  have hrange : ¬ (n < 0x800 ∨ (0xD800 ≤ n ∧ n < 0xE000)) := by omega
  rw [threeBytes, h1, h2, Option.bind_eq_bind, Option.bind_some, Option.bind_some, hn]
  exact if_neg hrange

theorem fourBytes_eq (h1 : continuation b1 = some n1) (h2 : continuation b2 = some n2)
    (h3 : continuation b3 = some n3)
    (hn : (((b.toNat - 0xF0) * 64 + n1) * 64 + n2) * 64 + n3 = n) (hlow : 0x10000 ≤ n)
    (hhigh : n < 0x110000) : fourBytes b b1 b2 b3 = some (Fin.ofNat 0x110000 n) := by
  have hrange : ¬ (n < 0x10000 ∨ 0x110000 ≤ n) := by omega
  rw [fourBytes, h1, h2, h3, Option.bind_eq_bind, Option.bind_some, Option.bind_some,
    Option.bind_some, hn]
  exact if_neg hrange

theorem decodeUtf8_one (rest : Bytes) (hb : b.toNat < 0x80) :
    decodeUtf8 (b :: rest) = (decodeUtf8 rest).map (Fin.ofNat 0x110000 b.toNat :: ·) := by
  rw [decodeUtf8.eq_def]
  exact if_pos hb

theorem decodeUtf8_two {c : CodePoint} (rest : Bytes) (hb : 0xC2 ≤ b.toNat) (hb' : b.toNat < 0xE0)
    (h : twoBytes b b1 = some c) :
    decodeUtf8 (b :: b1 :: rest) = (decodeUtf8 rest).map (c :: ·) := by
  rw [decodeUtf8.eq_def]
  simp only [h]
  rw [if_neg (by omega), if_neg (by omega), if_pos hb', Option.bind_some]

theorem decodeUtf8_three {c : CodePoint} (rest : Bytes) (hb : 0xE0 ≤ b.toNat)
    (hb' : b.toNat < 0xF0) (h : threeBytes b b1 b2 = some c) :
    decodeUtf8 (b :: b1 :: b2 :: rest) = (decodeUtf8 rest).map (c :: ·) := by
  rw [decodeUtf8.eq_def]
  simp only [h]
  rw [if_neg (by omega), if_neg (by omega), if_neg (by omega), if_pos hb', Option.bind_some]

theorem decodeUtf8_four {c : CodePoint} (rest : Bytes) (hb : 0xF0 ≤ b.toNat)
    (h : fourBytes b b1 b2 b3 = some c) :
    decodeUtf8 (b :: b1 :: b2 :: b3 :: rest) = (decodeUtf8 rest).map (c :: ·) := by
  rw [decodeUtf8.eq_def]
  simp only [h]
  rw [if_neg (by omega), if_neg (by omega), if_neg (by omega), if_neg (by omega), Option.bind_some]

end

/-- **One code point is decoded**, and then what follows its bytes. -/
theorem decodeUtf8_char {c : CodePoint} {b : Bytes} (h : utf8Char c = some b) (rest : Bytes) :
    decodeUtf8 (b ++ rest) = (decodeUtf8 rest).map (c :: ·) := by
  have hc := c.isLt
  have hlow := continuation_ofNat (n := c.val % 64) (by omega)
  have hmid := continuation_ofNat (n := c.val / 64 % 64) (by omega)
  have htop := continuation_ofNat (n := c.val / 4096 % 64) (by omega)
  unfold utf8Char at h
  split_ifs at h with h1 h2 h3 h4 <;> obtain rfl := Option.some.inj h
  · have hb := toNat_ofNat (n := c.val) (by omega)
    refine (decodeUtf8_one rest (by omega)).trans ?_
    rw [ofNat_val hb]
  · have hb := toNat_ofNat (n := 0xC0 + c.val / 64) (by omega)
    refine decodeUtf8_two rest (by omega) (by omega) ?_
    rw [twoBytes_eq (n := c.val) hlow (by omega), ofNat_val rfl]
  · have hb := toNat_ofNat (n := 0xE0 + c.val / 4096) (by omega)
    have hs : ¬ (0xD800 ≤ c.val ∧ c.val < 0xE000) := by simpa using h3
    refine decodeUtf8_three rest (by omega) (by omega) ?_
    rw [threeBytes_eq (n := c.val) hmid hlow (by omega) (by omega) (by omega), ofNat_val rfl]
  · have hb := toNat_ofNat (n := 0xF0 + c.val / 262144) (by omega)
    refine decodeUtf8_four rest (by omega) ?_
    rw [fourBytes_eq (n := c.val) htop hmid hlow (by omega) (by omega) hc, ofNat_val rfl]

/-- **The decoder undoes the encoder.** -/
theorem decodeUtf8_utf8 {s : Str} {b : Bytes} (h : utf8 s = some b) : decodeUtf8 b = some s := by
  induction s generalizing b with
  | nil =>
    obtain rfl := Option.some.inj h
    rfl
  | cons c s ih =>
    rw [utf8] at h
    obtain ⟨bc, hc, h⟩ := Option.bind_eq_some_iff.1 h
    obtain ⟨bs, hs, rfl⟩ := Option.map_eq_some_iff.1 h
    rw [decodeUtf8_char hc, ih hs]
    rfl

/-! ### Percent escapes -/

/-- The number of a hexadecimal digit. -/
def hexValue (c : CodePoint) : Option ℕ :=
  if isDigit c then some (c.val - 48)
  else if between 'A' 'F' c then some (c.val - 55)
  else if between 'a' 'f' c then some (c.val - 87)
  else none

/-- `unquote_to_bytes`: an escape is its byte, and a percent sign that begins none stands for itself;
none where the rest is not ASCII. -/
def percentBytes : Str → Option Bytes
  | [] => some []
  | c :: s =>
    if c = ofChar '%' then
      match s with
      | hi :: lo :: rest =>
        match hexValue hi, hexValue lo with
        | some h, some l => (percentBytes rest).map (UInt8.ofNat (16 * h + l) :: ·)
        | _, _ => (percentBytes (hi :: lo :: rest)).map (UInt8.ofNat c.val :: ·)
      | s => (percentBytes s).map (UInt8.ofNat c.val :: ·)
    else if isAscii c then (percentBytes s).map (UInt8.ofNat c.val :: ·)
    else none

/-- **A URL decoded once**, as UTF-8. -/
def unquote (s : Str) : Option Str := (percentBytes s).bind decodeUtf8

/-- The escape of a byte. -/
def escape (b : UInt8) : Str := [ofChar '%', hexDigit (b.toNat / 16), hexDigit (b.toNat % 16)]

/-- `quote(s, safe=…)` that keeps the code points of `keep`. -/
def quoteBut (keep : CodePoint → Bool) : Str → Option Str
  | [] => some []
  | c :: s => do
    let bytes ← utf8Char c
    let rest ← quoteBut keep s
    if keep c then pure (c :: rest) else pure (bytes.flatMap escape ++ rest)

theorem hexValue_hexDigit {n : ℕ} (h : n < 16) : hexValue (hexDigit n) = some n := by
  have : ∀ n : Fin 16, hexValue (hexDigit n) = some n.val := by decide
  exact this ⟨n, h⟩

/-- **An escape is read as its byte.** -/
theorem percentBytes_escape (b : UInt8) (rest : Str) :
    percentBytes (escape b ++ rest) = (percentBytes rest).map (b :: ·) := by
  have hb := b.toNat_lt
  have hbyte : UInt8.ofNat (16 * (b.toNat / 16) + b.toNat % 16) = b := by
    rw [Nat.div_add_mod, UInt8.ofNat_toNat]
  rw [percentBytes.eq_def]
  simp only [escape, List.cons_append, List.nil_append, if_true,
    hexValue_hexDigit (show b.toNat / 16 < 16 by omega),
    hexValue_hexDigit (show b.toNat % 16 < 16 by omega), hbyte]

theorem percentBytes_escapes (b : Bytes) (rest : Str) :
    percentBytes (b.flatMap escape ++ rest) = (percentBytes rest).map (b ++ ·) := by
  induction b with
  | nil => simp
  | cons b bs ih =>
    rw [List.flatMap_cons, List.append_assoc, percentBytes_escape, ih, Option.map_map]
    rfl

theorem percentBytes_kept {c : CodePoint} (hp : c ≠ ofChar '%') (ha : isAscii c = true)
    (rest : Str) : percentBytes (c :: rest) = (percentBytes rest).map (UInt8.ofNat c.val :: ·) := by
  rw [percentBytes.eq_def]
  simp only [if_neg hp, if_pos ha]

/-- What may be kept: ASCII, the percent sign apart. -/
def Keeps (keep : CodePoint → Bool) : Prop :=
  ∀ c, keep c = true → c ≠ ofChar '%' ∧ isAscii c = true

/-- **A quoted string is read as its encoding**, and then what follows it. -/
theorem percentBytes_quoteBut {keep : CodePoint → Bool} (hk : Keeps keep) {s q : Str}
    (h : quoteBut keep s = some q) (rest : Str) : ∃ b, utf8 s = some b ∧
      percentBytes (q ++ rest) = (percentBytes rest).map (b ++ ·) := by
  induction s generalizing q with
  | nil =>
    obtain rfl := Option.some.inj h
    exact ⟨[], rfl, by simp⟩
  | cons c s ih =>
    rw [quoteBut] at h
    obtain ⟨bc, hc, h⟩ := Option.bind_eq_some_iff.1 h
    obtain ⟨qs, hs, h⟩ := Option.bind_eq_some_iff.1 h
    obtain ⟨bs, hbs, hread⟩ := ih hs
    refine ⟨bc ++ bs, by rw [utf8, hc, hbs]; rfl, ?_⟩
    by_cases hkc : keep c = true
    · obtain ⟨hp, ha⟩ := hk c hkc
      rw [if_pos hkc] at h
      obtain rfl := Option.some.inj h
      have hlt : c.val < 0x80 := by simpa [isAscii] using ha
      rw [utf8Char, if_pos hlt] at hc
      obtain rfl := Option.some.inj hc
      rw [List.cons_append, percentBytes_kept hp ha, hread, Option.map_map]
      rfl
    · rw [if_neg hkc] at h
      obtain rfl := Option.some.inj h
      rw [List.append_assoc, percentBytes_escapes, hread, Option.map_map]
      simp [Function.comp_def]

/-- What has an encoding can be quoted. -/
theorem exists_quoteBut (keep : CodePoint → Bool) {s : Str} {b : Bytes} (h : utf8 s = some b) :
    ∃ q, quoteBut keep s = some q := by
  induction s generalizing b with
  | nil => exact ⟨[], rfl⟩
  | cons c s ih =>
    rw [utf8] at h
    obtain ⟨bc, hc, h⟩ := Option.bind_eq_some_iff.1 h
    obtain ⟨bs, hs, -⟩ := Option.map_eq_some_iff.1 h
    obtain ⟨q, hq⟩ := ih hs
    rw [quoteBut, hc, hq]
    by_cases hk : keep c = true
    · exact ⟨c :: q, if_pos hk⟩
    · exact ⟨_, if_neg hk⟩

/-- What is kept throughout is not changed. -/
theorem quoteBut_kept {keep : CodePoint → Bool} (hk : Keeps keep) {s : Str}
    (h : ∀ c ∈ s, keep c = true) : quoteBut keep s = some s := by
  induction s with
  | nil => rfl
  | cons c s ih =>
    have hc := h c List.mem_cons_self
    have hlt : c.val < 0x80 := by simpa [isAscii] using (hk c hc).2
    rw [quoteBut, utf8Char, if_pos hlt, ih fun d hd => h d (List.mem_cons_of_mem _ hd)]
    exact if_pos hc

theorem keeps_isSafe : Keeps isSafe := by
  intro c h
  have hlit : ∀ d ∈ lit "_.-~", decide (d ≠ ofChar '%' ∧ isAscii d = true) = true :=
    List.all_eq_true.1 (by decide)
  have hbetween : ∀ lo hi : Char, between lo hi c = true → 0x25 < lo.toNat → hi.toNat < 0x80 →
      c ≠ ofChar '%' ∧ isAscii c = true := by
    intro lo hi hc hlo hhi
    rw [between, Bool.and_eq_true, decide_eq_true_eq, decide_eq_true_eq] at hc
    refine ⟨?_, decide_eq_true (by omega)⟩
    rintro rfl
    have : (ofChar '%').val = 0x25 := by decide
    omega
  simp only [isSafe, Bool.or_eq_true] at h
  rcases h with (((h | h) | h) | h) | h
  · exact hbetween _ _ h (by decide) (by decide)
  · exact hbetween _ _ h (by decide) (by decide)
  · exact hbetween _ _ h (by decide) (by decide)
  · rw [beq_iff_eq.1 h]
    decide
  · exact of_decide_eq_true (hlit c (List.contains_iff_mem.1 h))

/-- `quote(s)`. -/
theorem quoteBut_isSafe (s : Str) : quoteBut isSafe s = quote s := by
  induction s with
  | nil => rfl
  | cons c s ih =>
    rw [quoteBut, quote, ih]
    rfl

end PaperBoxing.Lib.Percent
