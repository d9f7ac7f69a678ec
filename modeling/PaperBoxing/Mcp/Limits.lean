import PaperBoxing.Mcp.Auth
import PaperBoxing.Lib.Base64

/-! # The limit of a request's body

`request_body_limit` of `mcp/server.py`: the largest body `/mcp` accepts is that of a file at the cap,
base64-encoded in lines of 76 columns inside its JSON-RPC envelope. So neither the gate nor the
transport, which has the same limit, refuses a file that is within the tool's own cap. -/

namespace PaperBoxing.Mcp.Limits

open PaperBoxing.Lib PaperBoxing.Lib.Program PaperBoxing.Lib.Text PaperBoxing.Lib.Base64
open PaperBoxing.Common.Schema PaperBoxing.Mcp.Auth

/-- `request_body_limit`. -/
def request_body_limit (max_file_bytes : ℕ) : ℕ :=
  let encoded := 4 * ((max_file_bytes + 2) / 3)
  let lines := (encoded + 75) / 76
  encoded + 2 * lines + 64 * 1024

/-! ### Decimal numerals -/

theorem ofChar_val (c : Char) : (ofChar c).val = c.toNat := by
  have h : c.toNat < 0x110000 := by
    rcases c.valid with h | ⟨-, h⟩
    · exact h.trans (by decide)
    · exact h
  exact Nat.mod_eq_of_lt h

theorem isDigit_dec {n : ℕ} {c : CodePoint} (h : c ∈ dec n) : isDigit c = true := by
  obtain ⟨d, hd, rfl⟩ := List.mem_map.1 h
  have hdigit := Nat.isDigit_of_mem_toDigits (by decide) (by decide) hd
  rw [Char.isDigit_iff_toNat] at hdigit
  simp only [isDigit, between, ofChar_val, Bool.and_eq_true, decide_eq_true_eq]
  exact hdigit

/-- **A numeral denotes its number**, unless it is too long to be converted. -/
theorem int_dec (n : ℕ) : int (dec n) = if (dec n).length ≤ 4300 then some n else none := by
  have hne : dec n ≠ [] := by simp [dec, Nat.toDigits_ne_nil]
  have hall : (dec n).all isDigit = true := List.all_eq_true.2 fun _ => isDigit_dec
  have hvalue : (dec n).foldl (fun n c => 10 * n + (c.val - 48)) 0 = n := by
    rw [dec, List.foldl_map]
    simp only [ofChar_val]
    exact (Nat.ofDigitChars_eq_foldl ..).symm.trans Nat.ofDigitChars_ten_toDigits
  rw [int, hvalue]
  simp [hne, hall]

theorem isdigit_dec (n : ℕ) : isdigit (dec n) = true := by
  have hne : dec n ≠ [] := by simp [dec, Nat.toDigits_ne_nil]
  have hall : ∀ c ∈ dec n, (isDigit c || c.val == 0xB2 || c.val == 0xB3 || c.val == 0xB9) = true :=
    fun c hc => by simp [isDigit_dec hc]
  rw [isdigit, decide_eq_true hne, Bool.true_and]
  exact List.all_eq_true.2 hall

/-! ### The limit -/

/-- A body within the limit is not refused for its declared length; a length whose numeral is too long
to be converted raises. -/
theorem run_declared {limit n : ℕ} {request : HttpRequest} (hn : n ≤ limit)
    (hlen : request.get (lit "content-length") = some (dec n)) :
    _check_declared_length limit request = .ret () ∨
      4300 < (dec n).length ∧ _check_declared_length limit request = .raise .other := by
  rw [_check_declared_length, hlen]
  dsimp only
  rw [if_pos (isdigit_dec n), int_dec]
  split_ifs with h
  · exact Or.inl (if_neg (not_lt.2 hn))
  · exact Or.inr ⟨not_le.1 h, rfl⟩

/-- **The limit fits what it budgets for**: it is the length of a file at the cap, encoded in lines
with each line feed escaped, and 64 KiB; it is monotone in the cap; and so a file within the cap, in
lines or not, inside an envelope of at most 64 KiB is within the limit, and the gate does not refuse
it for its declared length. -/
theorem body_limit_fits (M : ℕ) :
    (∀ file : Bytes, file.length = M →
      request_body_limit M - 65536 = (escaped (encodebytes file)).length) ∧
    (∀ M', M ≤ M' → request_body_limit M ≤ request_body_limit M') ∧
    ∀ (file before after : Bytes) (text : Str), file.length ≤ M →
      text = encode file ∨ text = encodebytes file → before.length + after.length ≤ 65536 →
      ∃ argument, utf8 (escaped text) = some argument ∧
        (before ++ argument ++ after).length ≤ request_body_limit M ∧
        ∀ request : HttpRequest, request.get (lit "content-length") =
            some (dec (before ++ argument ++ after).length) →
          (∀ r, _check_declared_length (request_body_limit M) request ≠ .raise (.refused r)) ∧
          ((before ++ argument ++ after).length < 10 ^ 4300 →
            _check_declared_length (request_body_limit M) request = .ret ()) := by
  have hmono : ∀ {m n : ℕ}, m ≤ n → request_body_limit m ≤ request_body_limit n := by
    intro m n h
    unfold request_body_limit
    dsimp only
    omega
  have hlines : ∀ file : Bytes, request_body_limit file.length =
      (escaped (encodebytes file)).length + 65536 := by
    intro file
    rw [length_escaped_encodebytes]
    rfl
  refine ⟨fun file h => ?_, fun _ => hmono, fun file before after text hfile htext hsize => ?_⟩
  · rw [← h, hlines, Nat.add_sub_cancel]
  have hascii : ∀ c ∈ text, isAscii c = true := by
    rcases htext with rfl | rfl
    · exact fun c hc => (mem_encode hc).2.1
    · exact mem_encodebytes file
  have hshort : (escaped text).length ≤ (escaped (encodebytes file)).length := by
    rcases htext with rfl | rfl
    · rw [escaped_encode, length_encode, length_escaped_encodebytes]
      omega
    · exact le_rfl
  have hfits : (before ++ (escaped text).map (fun c => UInt8.ofNat c.val) ++ after).length ≤
      request_body_limit M := by
    have := hlines file
    have := hmono hfile
    simp only [List.length_append, List.length_map]
    omega
  refine ⟨_, utf8_ascii (mem_escaped hascii), hfits, fun request hlen => ⟨fun r hr => ?_,
    fun hshort => ?_⟩⟩
  · rcases run_declared hfits hlen with h | ⟨-, h⟩ <;> rw [h] at hr <;> cases hr
  · refine (run_declared hfits hlen).resolve_right fun h => ?_
    have hdigits := (Nat.length_toDigits_le_iff (by decide) (by decide)).2 hshort
    rw [dec, List.length_map] at h
    omega

/-- A file at the cap, in two lines, inside an envelope of 64 KiB: the body is as long as the limit. -/
theorem body_limit_fits_wrapped : ∃ argument,
    utf8 (escaped (encodebytes (List.replicate 100 7))) = some argument ∧
    (List.replicate 65000 32 ++ argument ++ List.replicate 536 32).length ≤ request_body_limit 100 ∧
    _check_declared_length (request_body_limit 100) ⟨lit "http", lit "POST", [(lit "content-length",
      dec (List.replicate 65000 32 ++ argument ++ List.replicate 536 32).length)]⟩ = .ret () := by
  obtain ⟨argument, h, hle, hgate⟩ := (body_limit_fits 100).2.2 (List.replicate 100 7)
    (List.replicate 65000 32) (List.replicate 536 32) (encodebytes (List.replicate 100 7))
    (List.length_replicate ..).le (Or.inr rfl) (by simp only [List.length_replicate]; decide)
  have hlimit : request_body_limit 100 < 10 ^ 6 := by decide
  refine ⟨argument, h, hle, (hgate ⟨_, _, [(lit "content-length", _)]⟩ ?_).2 ?_⟩
  · simp only [HttpRequest.get, List.find?_cons, beq_self_eq_true, Option.map_some]
  · exact lt_of_lt_of_le (hle.trans_lt hlimit) (pow_le_pow_right₀ (by decide) (by omega))

end PaperBoxing.Mcp.Limits
