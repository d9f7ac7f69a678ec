import PaperBoxing.Lib.Text

/-! # Instants and their ISO 8601 texts

An instant is a number of microseconds from the first day of year 1 on, before year 10000, in UTC.
`isoformat` writes it as the language's `datetime.isoformat` does, without the fraction when the
microsecond is zero, and `fromisoformat` reads such a text back.

* `fromisoformat_isoformat`: reading back what was written;
* `compare_isoformat`: texts compare, character by character, as the instants do;
* `Aware`: a time in another zone, and the instant it is;
* `IsoText`: a text that is the text of an instant. -/

namespace PaperBoxing.Lib.IsoTime

open PaperBoxing.Lib.Text

/-! ### Numerals of a fixed width -/

/-- The digit of a number below ten. -/
def digit (n : ℕ) : CodePoint := Fin.ofNat 0x110000 (48 + n)

/-- The last `w` decimal digits of a number. -/
def pad : ℕ → ℕ → Str
  | 0, _ => []
  | w + 1, n => pad w (n / 10) ++ [digit (n % 10)]

/-- Read `w` decimal digits onto a number, and what follows them. -/
def takeDigits : ℕ → ℕ → Str → Option (ℕ × Str)
  | 0, acc, s => some (acc, s)
  | _ + 1, _, [] => none
  | w + 1, acc, c :: s => if isDigit c then takeDigits w (acc * 10 + (c.val - 48)) s else none

theorem digit_val {n : ℕ} (h : n < 10) : (digit n).val = 48 + n := by
  rw [digit, Fin.val_ofNat]
  exact Nat.mod_eq_of_lt (by omega)

theorem isDigit_digit {n : ℕ} (h : n < 10) : isDigit (digit n) = true := by
  have h0 : '0'.toNat = 48 := rfl
  have h9 : '9'.toNat = 57 := rfl
  rw [isDigit, between, digit_val h, h0, h9]
  simp
  omega

@[simp] theorem length_pad (w n : ℕ) : (pad w n).length = w := by
  induction w generalizing n with
  | zero => rfl
  | succ w ih => rw [pad, List.length_append, ih, List.length_singleton]

theorem takeDigits_pad {w n : ℕ} (h : n < 10 ^ w) (acc v : ℕ) (s : Str) :
    takeDigits (w + v) acc (pad w n ++ s) = takeDigits v (acc * 10 ^ w + n) s := by
  induction w generalizing n acc v s with
  | zero =>
    obtain rfl : n = 0 := by simpa using h
    simp [pad]
  | succ w ih =>
    have hq : n / 10 < 10 ^ w := Nat.div_lt_of_lt_mul (by rwa [Nat.pow_succ, Nat.mul_comm] at h)
    have hd : n % 10 < 10 := Nat.mod_lt _ (by decide)
    rw [pad, List.append_assoc, Nat.add_right_comm, Nat.add_assoc, ih hq acc (v + 1)]
    simp only [List.singleton_append, takeDigits, isDigit_digit hd, if_true, digit_val hd]
    rw [Nat.pow_succ, ← Nat.mul_assoc]
    generalize acc * 10 ^ w = k
    congr 1
    omega

theorem compare_append {α : Type} [Ord α] {xs ys us vs : List α} (h : xs.length = ys.length) :
    compare (xs ++ us) (ys ++ vs) = (compare xs ys).then (compare us vs) := by
  induction xs generalizing ys with
  | nil =>
    obtain rfl : ys = [] := List.length_eq_zero_iff.1 h.symm
    rfl
  | cons x xs ih =>
    rcases ys with _ | ⟨y, ys⟩
    · exact absurd h (by simp)
    · rw [List.cons_append, List.cons_append, List.compare_cons_cons, List.compare_cons_cons,
        ih (by simpa using h)]
      cases compare x y <;> rfl

/-- Numbers compare by their quotients first. -/
theorem compare_div_mod {m : ℕ} (hm : 0 < m) (a b : ℕ) :
    compare a b = (compare (a / m) (b / m)).then (compare (a % m) (b % m)) := by
  have ha := Nat.div_add_mod a m
  have hb := Nat.div_add_mod b m
  have hma := Nat.mod_lt a hm
  have hmb := Nat.mod_lt b hm
  rcases lt_trichotomy (a / m) (b / m) with h | h | h
  · have : a < b := Nat.lt_of_div_lt_div h
    rw [Nat.compare_eq_lt.2 h, Nat.compare_eq_lt.2 this]
    rfl
  · rw [Nat.compare_eq_eq.2 h]
    rw [← h] at hb
    rcases lt_trichotomy (a % m) (b % m) with h' | h' | h'
    · rw [Nat.compare_eq_lt.2 h', Nat.compare_eq_lt.2 (by omega)]
      rfl
    · rw [Nat.compare_eq_eq.2 h', Nat.compare_eq_eq.2 (by omega)]
      rfl
    · rw [Nat.compare_eq_gt.2 h', Nat.compare_eq_gt.2 (by omega)]
      rfl
  · have : b < a := Nat.lt_of_div_lt_div h
    rw [Nat.compare_eq_gt.2 h, Nat.compare_eq_gt.2 this]
    rfl

theorem compare_digit {a b : ℕ} (ha : a < 10) (hb : b < 10) :
    compare (digit a) (digit b) = compare a b := by
  have : compare (digit a) (digit b) = compare (digit a).val (digit b).val := rfl
  rw [this, digit_val ha, digit_val hb]
  rcases lt_trichotomy a b with h | h | h
  · rw [Nat.compare_eq_lt.2 h, Nat.compare_eq_lt.2 (by omega)]
  · rw [Nat.compare_eq_eq.2 h, Nat.compare_eq_eq.2 (by omega)]
  · rw [Nat.compare_eq_gt.2 h, Nat.compare_eq_gt.2 (by omega)]

/-- **Numerals of one width compare as their numbers.** -/
theorem compare_pad {w a b : ℕ} (ha : a < 10 ^ w) (hb : b < 10 ^ w) :
    compare (pad w a) (pad w b) = compare a b := by
  induction w generalizing a b with
  | zero =>
    obtain rfl : a = 0 := by simpa using ha
    obtain rfl : b = 0 := by simpa using hb
    rfl
  | succ w ih =>
    rw [Nat.pow_succ, Nat.mul_comm] at ha hb
    rw [pad, pad, compare_append (by simp), ih (Nat.div_lt_of_lt_mul ha) (Nat.div_lt_of_lt_mul hb),
      compare_div_mod (by decide : 0 < 10) a b, List.compare_cons_cons,
      compare_digit (Nat.mod_lt _ (by decide)) (Nat.mod_lt _ (by decide)), List.compare_nil_nil]
    cases compare (a / 10) (b / 10) <;> cases compare (a % 10) (b % 10) <;> rfl

/-! ### Days, months and years -/

/-- Find the block an offset falls in, among blocks of the sizes `size k`, `size (k + 1)`, …, and the
offset in it. -/
def locate (size : ℕ → ℕ) : ℕ → ℕ → ℕ → ℕ × ℕ
  | 0, k, n => (k, n)
  | fuel + 1, k, n => if n < size k then (k, n) else locate size fuel (k + 1) (n - size k)

/-- The size of `j` blocks from the block `k` on. -/
def before (size : ℕ → ℕ) (k : ℕ) : ℕ → ℕ
  | 0 => 0
  | j + 1 => before size k j + size (k + j)

theorem before_succ' (size : ℕ → ℕ) (k j : ℕ) :
    before size k (j + 1) = size k + before size (k + 1) j := by
  induction j with
  | zero => simp [before]
  | succ j ih =>
    rw [before, ih, before, Nat.add_assoc, Nat.add_right_comm k 1 j]
    rfl

theorem before_mono (size : ℕ → ℕ) (k : ℕ) {i j : ℕ} (h : i ≤ j) :
    before size k i ≤ before size k j := by
  induction h with
  | refl => exact le_rfl
  | step _ ih => exact ih.trans (Nat.le_add_right _ _)

/-- **An offset is its block's start and the offset in it.** -/
theorem locate_spec (size : ℕ → ℕ) : ∀ (fuel k n : ℕ), n < before size k fuel →
    ∃ i r, i < fuel ∧ r < size (k + i) ∧ n = before size k i + r ∧
      locate size fuel k n = (k + i, r)
  | 0, k, n, h => absurd h (Nat.not_lt_zero _)
  | fuel + 1, k, n, h => by
    rw [locate]
    split_ifs with hn
    · exact ⟨0, n, Nat.succ_pos _, hn, (Nat.zero_add n).symm, rfl⟩
    · rw [before_succ'] at h
      obtain ⟨i, r, hi, hr, hk, hl⟩ := locate_spec size fuel (k + 1) (n - size k) (by omega)
      refine ⟨i + 1, r, by omega, by rwa [← Nat.add_right_comm, Nat.add_assoc] at hr, ?_, ?_⟩
      · rw [before_succ']
        omega
      · rw [hl, Nat.add_right_comm, Nat.add_assoc]

theorem locate_before (size : ℕ → ℕ) : ∀ {fuel k i r : ℕ}, i < fuel → r < size (k + i) →
    locate size fuel k (before size k i + r) = (k + i, r)
  | 0, _, _, _, hi, _ => absurd hi (Nat.not_lt_zero _)
  | fuel + 1, k, 0, r, _, hr => by
    rw [before, Nat.zero_add, locate]
    exact if_pos hr
  | fuel + 1, k, i + 1, r, hi, hr => by
    rw [before_succ', locate, if_neg (by omega),
      show size k + before size (k + 1) i + r - size k = before size (k + 1) i + r by omega,
      locate_before size (by omega) (by rwa [Nat.add_right_comm, Nat.add_assoc]),
      Nat.add_right_comm, Nat.add_assoc]

/-- **Offsets compare by their blocks first.** -/
theorem compare_locate {size : ℕ → ℕ} {fuel k n m : ℕ} (hn : n < before size k fuel)
    (hm : m < before size k fuel) :
    compare n m = (compare (locate size fuel k n).1 (locate size fuel k m).1).then
      (compare (locate size fuel k n).2 (locate size fuel k m).2) := by
  obtain ⟨i, r, hi, hr, rfl, hl⟩ := locate_spec size fuel k n hn
  obtain ⟨j, q, hj, hq, rfl, hl'⟩ := locate_spec size fuel k m hm
  rw [hl, hl']
  have hstart : ∀ {i j r : ℕ}, i < j → r < size (k + i) → before size k i + r < before size k j := by
    intro i j r hij hr
    have := before_mono size k hij
    rw [Nat.succ_eq_add_one, before] at this
    omega
  rcases lt_trichotomy i j with h | rfl | h
  · rw [Nat.compare_eq_lt.2 (show k + i < k + j by omega),
      Nat.compare_eq_lt.2 ((hstart h hr).trans_le (Nat.le_add_right _ _))]
    rfl
  · rw [Nat.compare_eq_eq.2 rfl]
    rcases lt_trichotomy r q with h | rfl | h
    · rw [Nat.compare_eq_lt.2 (show before size k i + r < before size k i + q by omega),
        Nat.compare_eq_lt.2 h]
      rfl
    · rw [Nat.compare_eq_eq.2 rfl, Nat.compare_eq_eq.2 rfl]
      rfl
    · rw [Nat.compare_eq_gt.2 (show before size k i + q < before size k i + r by omega),
        Nat.compare_eq_gt.2 h]
      rfl
  · rw [Nat.compare_eq_gt.2 (show k + j < k + i by omega),
      Nat.compare_eq_gt.2 ((hstart h hq).trans_le (Nat.le_add_right _ _))]
    rfl

def isLeap (y : ℕ) : Bool := y % 4 == 0 && (y % 100 != 0 || y % 400 == 0)

def yearDays (y : ℕ) : ℕ := if isLeap y then 366 else 365

def monthDays (y m : ℕ) : ℕ :=
  if m = 2 then (if isLeap y then 29 else 28)
  else if m = 4 ∨ m = 6 ∨ m = 9 ∨ m = 11 then 30 else 31

theorem before_yearDays (n : ℕ) :
    before yearDays 1 n + n / 100 = 365 * n + n / 4 + n / 400 := by
  induction n with
  | zero => rfl
  | succ n ih =>
    rw [before, yearDays]
    have hleap : isLeap (1 + n) = true ↔
        (1 + n) % 4 = 0 ∧ ((1 + n) % 100 ≠ 0 ∨ (1 + n) % 400 = 0) := by
      simp [isLeap]
    split_ifs with h
    · rw [hleap] at h
      omega
    · rw [hleap] at h
      omega

/-- The number of days of the years 1 to 9999. -/
theorem before_9999 : before yearDays 1 9999 = 3652059 := by
  have := before_yearDays 9999
  omega

theorem before_monthDays (y : ℕ) : before (monthDays y) 1 12 = yearDays y := by
  simp only [before, monthDays, yearDays]
  cases isLeap y <;> rfl

/-! ### The fields of a text -/

/-- A date and a time of day. -/
structure Fields : Type where
  year : ℕ
  month : ℕ
  day : ℕ
  hour : ℕ
  minute : ℕ
  second : ℕ
  micro : ℕ
  deriving DecidableEq

/-- The fields that are those of a moment of the years 1 to 9999. -/
def Fields.Valid (f : Fields) : Prop :=
  (1 ≤ f.year ∧ f.year ≤ 9999) ∧ (1 ≤ f.month ∧ f.month ≤ 12) ∧
    (1 ≤ f.day ∧ f.day ≤ monthDays f.year f.month) ∧ f.hour < 24 ∧ f.minute < 60 ∧ f.second < 60 ∧
    f.micro < 1000000

instance (f : Fields) : Decidable f.Valid :=
  inferInstanceAs (Decidable (_ ∧ _ ∧ _ ∧ _ ∧ _ ∧ _ ∧ _))

def utc : Str := lit "+00:00"

def colon : CodePoint := ofChar ':'

/-- The text of the fields, without a fraction when the microsecond is zero. -/
def Fields.text (f : Fields) : Str :=
  pad 4 f.year ++ hyphen :: (pad 2 f.month ++ hyphen :: (pad 2 f.day ++ ofChar 'T' ::
    (pad 2 f.hour ++ colon :: (pad 2 f.minute ++ colon :: (pad 2 f.second ++
      if f.micro = 0 then utc else ofChar '.' :: (pad 6 f.micro ++ utc))))))

/-- Read `w` digits and the code point after them. -/
def takeField (w : ℕ) (c : CodePoint) (s : Str) : Option (ℕ × Str) :=
  match takeDigits w 0 s with
  | some (n, d :: s) => if d = c then some (n, s) else none
  | _ => none

/-- The fraction and the offset. -/
def takeFraction (s : Str) : Option ℕ :=
  if s = utc then some 0
  else match s with
    | c :: s =>
      if c = ofChar '.' then
        match takeDigits 6 0 s with
        | some (n, s) => if s = utc then some n else none
        | none => none
      else none
    | [] => none

/-- The fields of a text. -/
def parse (s : Str) : Option Fields := do
  let (year, s) ← takeField 4 hyphen s
  let (month, s) ← takeField 2 hyphen s
  let (day, s) ← takeField 2 (ofChar 'T') s
  let (hour, s) ← takeField 2 colon s
  let (minute, s) ← takeField 2 colon s
  let (second, s) ← takeDigits 2 0 s
  let micro ← takeFraction s
  pure ⟨year, month, day, hour, minute, second, micro⟩

theorem takeDigits_pad_zero {w n : ℕ} (h : n < 10 ^ w) (s : Str) :
    takeDigits w 0 (pad w n ++ s) = some (n, s) := by
  have := takeDigits_pad h 0 0 s
  rw [Nat.add_zero, Nat.zero_mul, Nat.zero_add] at this
  exact this

theorem takeField_pad {w n : ℕ} (h : n < 10 ^ w) (c : CodePoint) (s : Str) :
    takeField w c (pad w n ++ c :: s) = some (n, s) := by
  rw [takeField, takeDigits_pad_zero h]
  exact if_pos rfl

theorem takeFraction_text {n : ℕ} (h : n < 1000000) :
    takeFraction (if n = 0 then utc else ofChar '.' :: (pad 6 n ++ utc)) = some n := by
  split_ifs with hn
  · rw [takeFraction.eq_def, if_pos rfl, hn]
  · have hne : ofChar '.' :: (pad 6 n ++ utc) ≠ utc := fun he =>
      absurd (List.cons.inj he).1 (by decide)
    rw [takeFraction.eq_def, if_neg hne]
    simp [takeDigits_pad_zero (w := 6) h]

theorem monthDays_le (y m : ℕ) : monthDays y m ≤ 31 := by
  unfold monthDays
  split_ifs <;> omega

/-- **The fields of a text are those it was written from.** -/
theorem parse_text {f : Fields} (h : f.Valid) : parse f.text = some f := by
  obtain ⟨⟨-, hy⟩, ⟨-, hm⟩, ⟨-, hd⟩, hh, hmi, hs, hus⟩ := h
  have hd' := hd.trans (monthDays_le f.year f.month)
  rw [parse, Fields.text, takeField_pad (show f.year < 10 ^ 4 by omega)]
  simp only [Option.bind_eq_bind, Option.bind_some]
  rw [takeField_pad (show f.month < 10 ^ 2 by omega)]
  simp only [Option.bind_some]
  rw [takeField_pad (show f.day < 10 ^ 2 by omega)]
  simp only [Option.bind_some]
  rw [takeField_pad (show f.hour < 10 ^ 2 by omega)]
  simp only [Option.bind_some]
  rw [takeField_pad (show f.minute < 10 ^ 2 by omega)]
  simp only [Option.bind_some]
  rw [takeDigits_pad_zero (show f.second < 10 ^ 2 by omega)]
  simp only [Option.bind_some]
  rw [takeFraction_text hus]
  rfl

/-- The fields from the most significant on. -/
def Fields.key (f : Fields) : List ℕ :=
  [f.year, f.month, f.day, f.hour, f.minute, f.second, f.micro]

theorem compare_field {w a b : ℕ} (ha : a < 10 ^ w) (hb : b < 10 ^ w) (c : CodePoint) (s u : Str) :
    compare (pad w a ++ c :: s) (pad w b ++ c :: u) = (compare a b).then (compare s u) := by
  rw [compare_append (by simp), compare_pad ha hb, List.compare_cons_cons,
    (Std.ReflCmp.compare_self : compare c c = .eq)]
  rfl

theorem compare_fraction {a b : ℕ} (ha : a < 1000000) (hb : b < 1000000) :
    compare (if a = 0 then utc else ofChar '.' :: (pad 6 a ++ utc))
      (if b = 0 then utc else ofChar '.' :: (pad 6 b ++ utc)) = compare a b := by
  split_ifs with h0 h1 h1
  · rw [h0, h1]
    decide
  · rw [Nat.compare_eq_lt.2 (by omega : a < b)]
    rfl
  · rw [Nat.compare_eq_gt.2 (by omega : b < a)]
    rfl
  · rw [List.compare_cons_cons, compare_append (by simp), compare_pad (w := 6) ha hb,
      (Std.ReflCmp.compare_self : compare (ofChar '.') (ofChar '.') = .eq),
      (Std.ReflCmp.compare_self : compare utc utc = .eq)]
    cases compare a b <;> rfl

/-- **Texts compare field by field.** -/
theorem compare_text {f g : Fields} (hf : f.Valid) (hg : g.Valid) :
    compare f.text g.text = compare f.key g.key := by
  obtain ⟨⟨-, hy⟩, ⟨-, hm⟩, ⟨-, hd⟩, hh, hmi, hs, hus⟩ := hf
  obtain ⟨⟨-, hy'⟩, ⟨-, hm'⟩, ⟨-, hd'⟩, hh', hmi', hs', hus'⟩ := hg
  have h1 := hd.trans (monthDays_le f.year f.month)
  have h2 := hd'.trans (monthDays_le g.year g.month)
  rw [Fields.text, Fields.text,
    compare_field (show f.year < 10 ^ 4 by omega) (show g.year < 10 ^ 4 by omega),
    compare_field (show f.month < 10 ^ 2 by omega) (show g.month < 10 ^ 2 by omega),
    compare_field (show f.day < 10 ^ 2 by omega) (show g.day < 10 ^ 2 by omega),
    compare_field (show f.hour < 10 ^ 2 by omega) (show g.hour < 10 ^ 2 by omega),
    compare_field (show f.minute < 10 ^ 2 by omega) (show g.minute < 10 ^ 2 by omega),
    compare_append (by simp), compare_pad (show f.second < 10 ^ 2 by omega)
      (show g.second < 10 ^ 2 by omega), compare_fraction hus hus']
  simp only [Fields.key, List.compare_cons_cons, List.compare_nil_nil, Ordering.then_eq]

/-! ### Instants -/

def secondMicros : ℕ := 1000000

def minuteMicros : ℕ := 60 * secondMicros

def hourMicros : ℕ := 60 * minuteMicros

def dayMicros : ℕ := 24 * hourMicros

/-- `timedelta(days=n)`, in microseconds. -/
def days (n : ℕ) : ℕ := dayMicros * n

/-- **An instant**: microseconds since the start of year 1, before the end of year 9999. -/
structure Instant : Type where
  micros : ℕ
  lt : micros < 3652059 * dayMicros
  deriving DecidableEq

theorem zero_lt : 0 < 3652059 * dayMicros := by decide

/-- The start of 1970 is an instant. -/
theorem unixStart_lt : 62135596800000000 < 3652059 * dayMicros := by decide

theorem afterUnixStart_lt : 62135596800000001 < 3652059 * dayMicros := by decide

/-- The instant after `n` microseconds, if it is before the end of year 9999. -/
def ofMicros (n : ℕ) : Option Instant :=
  if h : n < 3652059 * dayMicros then some ⟨n, h⟩ else none

/-- `i + timedelta(microseconds=n)`; none where it raises `OverflowError`. -/
def Instant.add (i : Instant) (n : ℕ) : Option Instant := ofMicros (i.micros + n)

/-- The date and time of day of an instant. -/
def Instant.fields (i : Instant) : Fields :=
  let year := locate yearDays 9999 1 (i.micros / dayMicros)
  let month := locate (monthDays year.1) 12 1 year.2
  let time := i.micros % dayMicros
  ⟨year.1, month.1, month.2 + 1, time / hourMicros, time % hourMicros / minuteMicros,
    time % minuteMicros / secondMicros, time % secondMicros⟩

/-- The microseconds before a moment. -/
def Fields.micros (f : Fields) : ℕ :=
  (before yearDays 1 (f.year - 1) + (before (monthDays f.year) 1 (f.month - 1) + (f.day - 1))) *
    dayMicros + f.hour * hourMicros + f.minute * minuteMicros + f.second * secondMicros + f.micro

/-- `i.isoformat()`. -/
def isoformat (i : Instant) : Str := i.fields.text

/-- `datetime.fromisoformat(s)` on the texts of instants in UTC; none where it raises `ValueError`. -/
def fromisoformat (s : Str) : Option Instant := do
  let f ← parse s
  if f.Valid then ofMicros f.micros else none

theorem day_lt (i : Instant) : i.micros / dayMicros < before yearDays 1 9999 := by
  rw [before_9999]
  exact Nat.div_lt_of_lt_mul (by rw [Nat.mul_comm]; exact i.lt)

/-- **The fields of an instant are those of a moment**, and the moment is the instant. -/
theorem fields_spec (i : Instant) : i.fields.Valid ∧ i.fields.micros = i.micros := by
  obtain ⟨y, doy, hy, hdoy, hday, hl⟩ := locate_spec yearDays 9999 1 _ (day_lt i)
  rw [← before_monthDays] at hdoy
  obtain ⟨m, d, hm, hd, hdoy', hl'⟩ := locate_spec (monthDays (1 + y)) 12 1 doy hdoy
  have hf : i.fields = ⟨1 + y, 1 + m, d + 1, i.micros % dayMicros / hourMicros,
      i.micros % dayMicros % hourMicros / minuteMicros,
      i.micros % dayMicros % minuteMicros / secondMicros,
      i.micros % dayMicros % secondMicros⟩ := by
    rw [Instant.fields, hl]
    simp only [hl']
  rw [hf]
  constructor
  · refine ⟨⟨?_, ?_⟩, ⟨?_, ?_⟩, ⟨?_, ?_⟩, ?_, ?_, ?_, ?_⟩ <;>
      simp only [dayMicros, hourMicros, minuteMicros, secondMicros] <;> omega
  · simp only [Fields.micros, Nat.add_sub_cancel, Nat.add_sub_cancel_left]
    rw [← hdoy', ← hday]
    simp only [dayMicros, hourMicros, minuteMicros, secondMicros]
    omega

/-- **Reading back what was written.** -/
theorem fromisoformat_isoformat (i : Instant) : fromisoformat (isoformat i) = some i := by
  obtain ⟨hv, hm⟩ := fields_spec i
  rw [fromisoformat, isoformat, parse_text hv]
  simp only [Option.bind_eq_bind, Option.bind_some]
  rw [if_pos hv, hm, ofMicros, dif_pos i.lt]

theorem compare_time (a b : ℕ) :
    compare a b = compare
      [a / hourMicros, a % hourMicros / minuteMicros, a % minuteMicros / secondMicros,
        a % secondMicros]
      [b / hourMicros, b % hourMicros / minuteMicros, b % minuteMicros / secondMicros,
        b % secondMicros] := by
  have hmin : minuteMicros ∣ hourMicros := ⟨60, by decide⟩
  have hsec : secondMicros ∣ minuteMicros := ⟨60, by decide⟩
  rw [compare_div_mod (show 0 < hourMicros by decide) a b,
    compare_div_mod (show 0 < minuteMicros by decide) (a % hourMicros),
    Nat.mod_mod_of_dvd _ hmin, Nat.mod_mod_of_dvd _ hmin,
    compare_div_mod (show 0 < secondMicros by decide) (a % minuteMicros),
    Nat.mod_mod_of_dvd _ hsec, Nat.mod_mod_of_dvd _ hsec]
  simp only [List.compare_cons_cons, List.compare_nil_nil, Ordering.then_eq]

theorem compare_day {y doy doy' : ℕ} (h : doy < yearDays y) (h' : doy' < yearDays y) :
    compare doy doy' = (compare (locate (monthDays y) 12 1 doy).1
      (locate (monthDays y) 12 1 doy').1).then (compare ((locate (monthDays y) 12 1 doy).2 + 1)
        ((locate (monthDays y) 12 1 doy').2 + 1)) := by
  rw [← before_monthDays] at h h'
  rw [compare_locate h h']
  congr 1
  rcases lt_trichotomy (locate (monthDays y) 12 1 doy).2 (locate (monthDays y) 12 1 doy').2
    with hd | hd | hd
  · rw [Nat.compare_eq_lt.2 hd, Nat.compare_eq_lt.2 (Nat.succ_lt_succ hd)]
  · rw [hd, Nat.compare_eq_eq.2 rfl, Nat.compare_eq_eq.2 rfl]
  · rw [Nat.compare_eq_gt.2 hd, Nat.compare_eq_gt.2 (Nat.succ_lt_succ hd)]

theorem compare_fields (i j : Instant) :
    compare i.fields.key j.fields.key = compare i.micros j.micros := by
  obtain ⟨y, doy, -, hdoy, -, hl⟩ := locate_spec yearDays 9999 1 _ (day_lt i)
  obtain ⟨y', doy', -, hdoy', -, hl'⟩ := locate_spec yearDays 9999 1 _ (day_lt j)
  rw [compare_div_mod (show 0 < dayMicros by decide) i.micros,
    compare_locate (day_lt i) (day_lt j), compare_time (i.micros % dayMicros)]
  simp only [Fields.key, Instant.fields, hl, hl']
  generalize i.micros % dayMicros = a
  generalize j.micros % dayMicros = b
  rw [List.compare_cons_cons]
  rcases lt_trichotomy (1 + y) (1 + y') with h | h | h
  · rw [Nat.compare_eq_lt.2 h]
    rfl
  · rw [← h] at hdoy' ⊢
    rw [Nat.compare_eq_eq.2 rfl, compare_day hdoy hdoy']
    simp only [List.compare_cons_cons, List.compare_nil_nil, Ordering.then_eq,
      Ordering.then_assoc]
  · rw [Nat.compare_eq_gt.2 h]
    rfl

/-- **Texts compare as the instants do.** -/
theorem compare_isoformat (i j : Instant) :
    compare (isoformat i) (isoformat j) = compare i.micros j.micros := by
  rw [isoformat, isoformat, compare_text (fields_spec i).1 (fields_spec j).1, compare_fields]

/-! ### Other time zones -/

/-- **An aware `datetime`**: what its clock shows, and by how many microseconds that clock is ahead of
UTC, less than a day. In UTC it is within the years 1 to 9999, or `astimezone` raises `OverflowError`. -/
structure Aware : Type where
  wall : Instant
  utcoffset : ℤ
  offset_lt : |utcoffset| < dayMicros
  nonneg : 0 ≤ wall.micros - utcoffset
  lt : wall.micros - utcoffset < 3652059 * dayMicros

/-- The microseconds, in UTC, since the start of year 1. -/
def Aware.micros (a : Aware) : ℤ := a.wall.micros - a.utcoffset

/-- `a.astimezone(UTC)`. -/
def Aware.astimezone (a : Aware) : Instant :=
  ⟨a.micros.toNat, (Int.toNat_lt a.nonneg).2 a.lt⟩

/-- A `datetime` in UTC. -/
def Aware.utc (i : Instant) : Aware where
  wall := i
  utcoffset := 0
  offset_lt := by decide
  nonneg := by omega
  lt := by
    have := i.lt
    omega

theorem micros_astimezone (a : Aware) : (a.astimezone.micros : ℤ) = a.micros :=
  Int.toNat_of_nonneg a.nonneg

@[simp] theorem astimezone_utc (i : Instant) : (Aware.utc i).astimezone = i := by
  have h : (Aware.utc i).micros = i.micros := sub_zero _
  obtain ⟨n, hn⟩ := i
  simp only [Aware.astimezone, h, Int.toNat_natCast]

theorem compare_natCast (a b : ℕ) : compare (a : ℤ) (b : ℤ) = compare a b := by
  rcases lt_trichotomy a b with h | h | h
  · rw [compare_lt_iff_lt.2 h, compare_lt_iff_lt.2 (Int.ofNat_lt.2 h)]
  · rw [compare_eq_iff_eq.2 h, compare_eq_iff_eq.2 (congrArg Nat.cast h)]
  · rw [compare_gt_iff_gt.2 h, compare_gt_iff_gt.2 (Int.ofNat_lt.2 h)]

/-! ### Stored texts -/

/-- **A stored timestamp**: a text that is the text of an instant. -/
structure IsoText : Type where
  text : Str
  wf : (fromisoformat text).map isoformat = some text

/-- The text of an instant. -/
def IsoText.ofInstant (i : Instant) : IsoText :=
  ⟨isoformat i, by rw [fromisoformat_isoformat]; rfl⟩

theorem IsoText.isSome (x : IsoText) : (fromisoformat x.text).isSome = true := by
  rw [← Option.isSome_map (f := isoformat), x.wf]
  rfl

/-- The instant of a text. -/
def IsoText.instant (x : IsoText) : Instant := (fromisoformat x.text).get x.isSome

@[simp] theorem instant_ofInstant (i : Instant) : (IsoText.ofInstant i).instant = i := by
  simp only [IsoText.instant, IsoText.ofInstant, fromisoformat_isoformat, Option.get_some]

theorem isoformat_instant (x : IsoText) : isoformat x.instant = x.text := by
  have h := x.wf
  rw [← Option.some_get x.isSome] at h
  exact Option.some.inj h

/-- **Stored timestamps compare as text as their instants do.** -/
theorem compare_isoText (x y : IsoText) :
    compare x.text y.text = compare x.instant.micros y.instant.micros := by
  rw [← isoformat_instant x, ← isoformat_instant y, compare_isoformat]

@[ext] theorem IsoText.ext_text {x y : IsoText} (h : x.text = y.text) : x = y := by
  obtain ⟨s, _⟩ := x
  obtain ⟨s', _⟩ := y
  simpa using h

@[simp] theorem ofInstant_instant (x : IsoText) : IsoText.ofInstant x.instant = x :=
  IsoText.ext_text (isoformat_instant x)

instance : DecidableEq IsoText := fun x y =>
  decidable_of_iff (x.text = y.text) ⟨IsoText.ext_text, fun h => h ▸ rfl⟩

end PaperBoxing.Lib.IsoTime
