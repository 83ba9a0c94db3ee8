/-!
# UTF-8

A byte sequence is read one unit at a time. A unit is either a well-formed character or the
longest prefix of one that the next byte does not continue; a byte that begins no character is
a unit of its own. Reading strictly accepts a sequence whose units are all characters, and
reading leniently puts one replacement character for each of the others.
-/

namespace CaseReport.Text.Utf8

/-- The bytes of one character. -/
def encodeChar (c : Char) : List UInt8 :=
  let n := c.toNat
  if n < 0x80 then [UInt8.ofNat n]
  else if n < 0x800 then [UInt8.ofNat (0xC0 + n / 64), UInt8.ofNat (0x80 + n % 64)]
  else if n < 0x10000 then
    [UInt8.ofNat (0xE0 + n / 4096), UInt8.ofNat (0x80 + n / 64 % 64), UInt8.ofNat (0x80 + n % 64)]
  else
    [UInt8.ofNat (0xF0 + n / 262144), UInt8.ofNat (0x80 + n / 4096 % 64),
      UInt8.ofNat (0x80 + n / 64 % 64), UInt8.ofNat (0x80 + n % 64)]

/-- The bytes of a text. -/
def encode (s : List Char) : List UInt8 :=
  s.flatMap encodeChar

/-- What a first byte announces: how many bytes follow it, and the bounds of the first of these.
The bounds exclude overlong forms, surrogates and everything above the last code point. -/
inductive Lead where
  | alone
  | followed (count : Nat) (low high : Nat)
  | invalid
  deriving Repr, DecidableEq

/-- The announcement of a first byte. -/
def Lead.of (b : Nat) : Lead :=
  if b < 0x80 then .alone
  else if b < 0xC2 then .invalid
  else if b < 0xE0 then .followed 1 0x80 0xBF
  else if b = 0xE0 then .followed 2 0xA0 0xBF
  else if b = 0xED then .followed 2 0x80 0x9F
  else if b < 0xF0 then .followed 2 0x80 0xBF
  else if b = 0xF0 then .followed 3 0x90 0xBF
  else if b < 0xF4 then .followed 3 0x80 0xBF
  else if b = 0xF4 then .followed 3 0x80 0x8F
  else .invalid

/-- Reads the bytes that continue a character: `count` more are wanted, the first of them between
`low` and `high`, and `value` is what the bytes before them stand for. -/
def continued (value : Nat) : (count low high : Nat) → List UInt8 → Option Char × List UInt8
  | 0, _, _, bytes => (some (Char.ofNat value), bytes)
  | _ + 1, _, _, [] => (none, [])
  | count + 1, low, high, b :: bytes =>
    if low ≤ b.toNat ∧ b.toNat ≤ high then
      continued (value * 64 + (b.toNat - 0x80)) count 0x80 0xBF bytes
    else (none, b :: bytes)

/-- The part of a character's number that its first byte holds, when `count` bytes follow. -/
def leadValue (b count : Nat) : Nat :=
  match count with
  | 1 => b - 0xC0
  | 2 => b - 0xE0
  | _ => b - 0xF0

/-- Reads the unit that a byte begins: its character, if it is one, and the bytes after it. -/
def nextUnit (b : UInt8) (bytes : List UInt8) : Option Char × List UInt8 :=
  match Lead.of b.toNat with
  | .alone => (some (Char.ofNat b.toNat), bytes)
  | .invalid => (none, bytes)
  | .followed count low high => continued (leadValue b.toNat count) count low high bytes

theorem continued_length (value count low high : Nat) (bytes : List UInt8) :
    (continued value count low high bytes).2.length ≤ bytes.length := by
  induction count generalizing value low high bytes with
  | zero => simp [continued]
  | succ count ih =>
    cases bytes with
    | nil => simp [continued]
    | cons b bytes =>
      rw [continued]
      split
      · exact Nat.le_succ_of_le (ih ..)
      · exact Nat.le_refl _

theorem nextUnit_length (b : UInt8) (bytes : List UInt8) :
    (nextUnit b bytes).2.length ≤ bytes.length := by
  rw [nextUnit]
  split
  · exact Nat.le_refl _
  · exact Nat.le_refl _
  · exact continued_length ..

/-- The units of a byte sequence; an ill-formed one is `none`. -/
def units : List UInt8 → List (Option Char)
  | [] => []
  | b :: bytes => (nextUnit b bytes).1 :: units (nextUnit b bytes).2
termination_by bytes => bytes.length
decreasing_by exact Nat.lt_succ_of_le (nextUnit_length b bytes)

/-- The text of a well-formed byte sequence. -/
def decode? (bytes : List UInt8) : Option (List Char) :=
  (units bytes).mapM id

/-- The text of any byte sequence, each ill-formed unit replaced. -/
def decodeLossy (bytes : List UInt8) : List Char :=
  (units bytes).map (·.getD '\uFFFD')

@[simp] theorem encode_nil : encode [] = [] := rfl

@[simp] theorem encode_cons (c : Char) (s : List Char) :
    encode (c :: s) = encodeChar c ++ encode s := rfl

@[simp] theorem encode_append (s t : List Char) : encode (s ++ t) = encode s ++ encode t := by
  simp [encode]

@[simp] theorem units_nil : units [] = [] := by rw [units]

theorem units_cons (b : UInt8) (bytes : List UInt8) :
    units (b :: bytes) = (nextUnit b bytes).1 :: units (nextUnit b bytes).2 := by
  rw [units]

/-! ## Reading what was written -/

private theorem toNat_valid (c : Char) :
    c.toNat < 0xD800 ∨ 0xDFFF < c.toNat ∧ c.toNat < 0x110000 :=
  c.valid

private theorem ofNat_eq (c : Char) {n : Nat} (h : n = c.toNat) : Char.ofNat n = c := by
  rw [h, Char.ofNat_toNat]

private theorem lead_two {b : Nat} (h : 0xC2 ≤ b) (h' : b < 0xE0) :
    Lead.of b = .followed 1 0x80 0xBF := by
  unfold Lead.of
  rw [if_neg (by omega), if_neg (by omega), if_pos (by omega)]

private theorem toNat_ofNat {n : Nat} (h : n < 256) : (UInt8.ofNat n).toNat = n := by
  rw [UInt8.toNat_ofNat', Nat.mod_eq_of_lt h]

private theorem continued_cons {value low high b : Nat} (bytes : List UInt8) (count : Nat)
    (h : low ≤ b) (h' : b ≤ high) (h'' : b < 256) :
    continued value (count + 1) low high (UInt8.ofNat b :: bytes) =
      continued (value * 64 + (b - 0x80)) count 0x80 0xBF bytes := by
  rw [continued, toNat_ofNat h'', if_pos ⟨h, h'⟩]

theorem leadValue_one (b : Nat) : leadValue b 1 = b - 0xC0 := rfl

theorem leadValue_two (b : Nat) : leadValue b 2 = b - 0xE0 := rfl

theorem leadValue_three (b : Nat) : leadValue b 3 = b - 0xF0 := rfl

/-- The bytes of a character are one unit, whatever follows them. -/
theorem nextUnit_encodeChar (c : Char) (rest : List UInt8) :
    ∃ b bytes, encodeChar c = b :: bytes ∧ nextUnit b (bytes ++ rest) = (some c, rest) := by
  have hc := toNat_valid c
  unfold encodeChar
  generalize hn : c.toNat = n at hc
  simp only
  split
  · next h =>
    refine ⟨_, _, rfl, ?_⟩
    rw [nextUnit, toNat_ofNat (by omega), Lead.of, if_pos h]
    simp [ofNat_eq c hn.symm]
  · split
    · next h =>
      refine ⟨UInt8.ofNat (0xC0 + n / 64), [UInt8.ofNat (0x80 + n % 64)], rfl, ?_⟩
      rw [nextUnit, toNat_ofNat (by omega), lead_two (by omega) (by omega)]
      simp only [List.cons_append, List.nil_append, leadValue_one]
      rw [continued_cons _ _ (by omega) (by omega) (by omega), continued]
      rw [ofNat_eq c (by omega)]
    · split
      · next h =>
        refine ⟨UInt8.ofNat (0xE0 + n / 4096),
          [UInt8.ofNat (0x80 + n / 64 % 64), UInt8.ofNat (0x80 + n % 64)], rfl, ?_⟩
        have hl : ∃ low high, Lead.of (0xE0 + n / 4096) = .followed 2 low high ∧
            low ≤ 0x80 + n / 64 % 64 ∧ 0x80 + n / 64 % 64 ≤ high := by
          by_cases h1 : n / 4096 = 0
          · exact ⟨0xA0, 0xBF, by rw [h1]; decide, by omega, by omega⟩
          · by_cases h2 : n / 4096 = 13
            · exact ⟨0x80, 0x9F, by rw [h2]; decide, by omega, by omega⟩
            · refine ⟨0x80, 0xBF, ?_, by omega, by omega⟩
              unfold Lead.of
              rw [if_neg (by omega), if_neg (by omega), if_neg (by omega), if_neg (by omega),
                if_neg (by omega), if_pos (by omega)]
        obtain ⟨low, high, hl, h1, h2⟩ := hl
        rw [nextUnit, toNat_ofNat (by omega), hl]
        simp only [List.cons_append, List.nil_append, leadValue_two]
        rw [continued_cons _ _ h1 h2 (by omega),
          continued_cons _ _ (by omega) (by omega) (by omega), continued]
        rw [ofNat_eq c (by omega)]
      · next h =>
        refine ⟨UInt8.ofNat (0xF0 + n / 262144), [UInt8.ofNat (0x80 + n / 4096 % 64),
          UInt8.ofNat (0x80 + n / 64 % 64), UInt8.ofNat (0x80 + n % 64)], rfl, ?_⟩
        have hl : ∃ low high, Lead.of (0xF0 + n / 262144) = .followed 3 low high ∧
            low ≤ 0x80 + n / 4096 % 64 ∧ 0x80 + n / 4096 % 64 ≤ high := by
          by_cases h1 : n / 262144 = 0
          · exact ⟨0x90, 0xBF, by rw [h1]; decide, by omega, by omega⟩
          · by_cases h2 : n / 262144 = 4
            · exact ⟨0x80, 0x8F, by rw [h2]; decide, by omega, by omega⟩
            · refine ⟨0x80, 0xBF, ?_, by omega, by omega⟩
              unfold Lead.of
              rw [if_neg (by omega), if_neg (by omega), if_neg (by omega), if_neg (by omega),
                if_neg (by omega), if_neg (by omega), if_neg (by omega), if_pos (by omega)]
        obtain ⟨low, high, hl, h1, h2⟩ := hl
        rw [nextUnit, toNat_ofNat (by omega), hl]
        simp only [List.cons_append, List.nil_append, leadValue_three]
        rw [continued_cons _ _ h1 h2 (by omega),
          continued_cons _ _ (by omega) (by omega) (by omega),
          continued_cons _ _ (by omega) (by omega) (by omega), continued]
        rw [ofNat_eq c (by omega)]

theorem units_encode (s : List Char) : units (encode s) = s.map some := by
  induction s with
  | nil => exact units_nil
  | cons c s ih =>
    obtain ⟨b, bytes, hb, hn⟩ := nextUnit_encodeChar c (encode s)
    rw [encode_cons, hb, List.cons_append, units_cons, hn, ih]
    rfl

@[simp] theorem decode?_encode (s : List Char) : decode? (encode s) = some s := by
  rw [decode?, units_encode]
  induction s with
  | nil => rfl
  | cons c s ih => simp [ih]

@[simp] theorem decodeLossy_encode (s : List Char) : decodeLossy (encode s) = s := by
  rw [decodeLossy, units_encode, List.map_map]
  simp [Function.comp_def]

end CaseReport.Text.Utf8
