import Mathlib.Data.List.TakeWhile
import CaseReport.Proofs.Toml.ValueGrammar
import CaseReport.Proofs.Toml.Values

/-!
# Reading plain values

A text that is written as a number or a moment is read as a plain value.
-/

namespace CaseReport.Toml

open Text

variable {s rest sign whole fraction exponent : List Char} {c : Char}
  {base count low high n : Nat} {digits digits' : List Nat} {negative : Bool} {e : Int}

/-! ## Digits -/

theorem isPlain_of_isDigit (h : isDigit c = true) : isPlain c = true := by
  have hdigit : c.isDigit = true := by
    simpa [isDigit, Char.isDigit, Char.le_def] using h
  simp [isPlain, Char.isAlphanum, hdigit]

theorem isPlain_of_isAlpha (h : c.isAlpha = true) : isPlain c = true := by
  simp [isPlain, Char.isAlphanum, h]

theorem isPlain_of_digitIn? (h : digitIn? base c = some n) : isPlain c = true := by
  have hvalue := (Option.filter_eq_some_iff.1 h).1
  unfold hexValue? at hvalue
  split at hvalue
  · next hrange =>
    have hdigit : isDigit c = true := by simpa [isDigit] using hrange
    exact isPlain_of_isDigit hdigit
  · split at hvalue
    · next hrange =>
      have hlower : c.isLower = true := Bool.and_eq_true_iff.2
        ⟨decide_eq_true hrange.1, decide_eq_true (UInt32.le_trans hrange.2 (by decide))⟩
      exact isPlain_of_isAlpha (Bool.or_eq_true_iff.2 (.inr hlower))
    · split at hvalue
      · next hrange =>
        have hupper : c.isUpper = true :=
          decide_eq_true ⟨hrange.1, UInt32.le_trans hrange.2 (by decide)⟩
        exact isPlain_of_isAlpha (Bool.or_eq_true_iff.2 (.inl hupper))
      · cases hvalue

theorem isDigit_of_digitIn? (h : digitIn? 10 c = some n) : isDigit c = true := by
  obtain ⟨hvalue, hlt⟩ := Option.filter_eq_some_iff.1 h
  have hlt : n < 10 := by simpa using hlt
  unfold hexValue? at hvalue
  split at hvalue
  · next hdigit => simpa [isDigit] using hdigit
  · split at hvalue
    · have heq : c.toNat - 'a'.toNat + 10 = n := Option.some.inj hvalue
      omega
    · split at hvalue
      · have heq : c.toNat - 'A'.toNat + 10 = n := Option.some.inj hvalue
        omega
      · cases hvalue

/-- What holds of all digits and of an underscore holds of all characters. -/
theorem AreDigits.forall_mem (h : AreDigits base s digits) {p : Char → Prop}
    (hdigit : ∀ c n, digitIn? base c = some n → p c) (hunderscore : p '_') : ∀ c ∈ s, p c := by
  induction h with
  | last h => exact List.forall_mem_cons.2 ⟨hdigit _ _ h, nofun⟩
  | next h _ ih => exact List.forall_mem_cons.2 ⟨hdigit _ _ h, ih⟩
  | underscore h _ ih =>
    exact List.forall_mem_cons.2 ⟨hdigit _ _ h, List.forall_mem_cons.2 ⟨hunderscore, ih⟩⟩

theorem AreDigits.isPlain (h : AreDigits base s digits) : ∀ c ∈ s, isPlain c = true :=
  h.forall_mem (fun _ _ => isPlain_of_digitIn?) rfl

theorem AreDigits.isDigitOrUnderscore (h : AreDigits 10 s digits) :
    ∀ c ∈ s, isDigitOrUnderscore c = true :=
  h.forall_mem (fun _ _ hc => by rw [Toml.isDigitOrUnderscore, isDigit_of_digitIn? hc]; rfl) rfl

theorem AreDigits.exists_cons (h : AreDigits base s digits) :
    ∃ c n t, s = c :: t ∧ digitIn? base c = some n := by
  cases h with
  | last h => exact ⟨_, _, _, rfl, h⟩
  | next h => exact ⟨_, _, _, rfl, h⟩
  | underscore h => exact ⟨_, _, _, rfl, h⟩

theorem AreDigits.ungroup (h : AreDigits base s digits) : ungroup base s = some digits := by
  induction h with
  | last h => rw [Toml.ungroup, h, Option.map_some]
  | next h hs ih =>
    obtain ⟨d, n, t, rfl, hd⟩ := hs.exists_cons
    rw [Toml.ungroup, h, ih]
    · rfl
    · exact List.cons_ne_nil d t
    · rintro _ ht
      have hnone : digitIn? base '_' = none := rfl
      rw [(List.cons.inj ht).1, hnone] at hd
      cases hd
  | underscore h hs ih =>
    rw [Toml.ungroup, h, ih]
    rfl

/-! ## Numbers -/

/-- Behind a sign stands a digit or a letter, and no other sign. -/
theorem cutSign_append (hsign : IsSign sign negative) (hs : ∀ c ∈ s.head?, c ≠ '-' ∧ c ≠ '+') :
    cutSign (sign ++ s) = (negative, s) := by
  cases hsign with
  | missing =>
    rw [List.nil_append, cutSign]
    · rintro t rfl
      exact (hs _ rfl).1 rfl
    · rintro t rfl
      exact (hs _ rfl).2 rfl
  | plus => rfl
  | minus => rfl

theorem IsSign.isPlain (h : IsSign sign negative) : ∀ c ∈ sign, isPlain c = true := by
  cases h <;> exact List.all_eq_true.1 rfl

theorem AreDigits.head (h : AreDigits 10 s digits) : ∀ c ∈ s.head?, c ≠ '-' ∧ c ≠ '+' := by
  obtain ⟨d, n, t, rfl, hd⟩ := h.exists_cons
  rintro c hc
  cases hc
  constructor
  · rintro rfl
    cases hd
  · rintro rfl
    cases hd

theorem IsWhole.wholeDigits? (h : IsWhole s digits) : wholeDigits? s = some digits := by
  rw [Toml.wholeDigits?, h.1.ungroup, Option.bind_eq_bind, Option.bind_some, if_neg]
  · rfl
  · rintro ⟨hzero, hlength⟩
    exact hlength (h.2 hzero)

theorem isInteger_of_decimal (hsign : IsSign sign negative) (h : IsWhole s digits)
    (hle : ofDigits 10 digits ≤ maxInteger + if negative then 1 else 0) :
    isInteger (sign ++ s) = true := by
  have hcut := cutSign_append hsign h.1.head
  -- No digit is one of the letters that mark a base.
  have hletter : ∀ letter t, digitIn? 10 letter = none → letter ≠ '_' →
      sign ++ s ≠ '0' :: letter :: t := by
    intro letter t hnone hne ht
    have hs : letter ∈ s := by
      cases hsign with
      | missing =>
        rw [List.nil_append] at ht
        simp [ht]
      | plus => cases ht
      | minus => cases ht
    refine h.1.forall_mem (p := (· ≠ letter)) ?_ hne.symm letter hs rfl
    rintro c n hc rfl
    cases hnone.symm.trans hc
  rw [isInteger]
  · rw [hcut]
    simp [h.wholeDigits?, hle]
  · exact fun t => hletter 'x' t rfl (by decide)
  · exact fun t => hletter 'o' t rfl (by decide)
  · exact fun t => hletter 'b' t rfl (by decide)

theorem isInteger_of_based {letter : Char} (hletter : (letter, base) ∈ baseLetters)
    (h : AreDigits base s digits) (hle : ofDigits base digits ≤ maxInteger) :
    isInteger ('0' :: letter :: s) = true := by
  simp only [baseLetters, List.mem_cons, Prod.mk.injEq, List.not_mem_nil, or_false] at hletter
  rcases hletter with ⟨rfl, rfl⟩ | ⟨rfl, rfl⟩ | ⟨rfl, rfl⟩ <;>
    rw [isInteger, h.ungroup, Option.any_some, decide_eq_true hle]

theorem IsExponent.exponent? (h : IsExponent s e) : exponent? s = some e := by
  cases h with
  | missing => rfl
  | given hletter hsign h =>
    rw [Toml.exponent?, if_pos hletter, cutSign_append hsign h.head]
    dsimp only
    rw [h.ungroup, Option.map_some]

theorem IsExponent.head (h : IsExponent s e) : ∀ c ∈ s.head?, isDigitOrUnderscore c = false := by
  cases h with
  | missing => nofun
  | given hletter =>
    rintro c hc
    cases hc
    rcases hletter with rfl | rfl <;> rfl

theorem fractional?_append (hwhole : IsWhole whole digits) (hfraction : IsFraction fraction digits')
    (hexponent : IsExponent exponent e) (hne : fraction ++ exponent ≠ []) :
    fractional? (whole ++ (fraction ++ exponent)) =
      some (digits ++ digits', e - digits'.length) := by
  have hhead : ∀ c ∈ (fraction ++ exponent).head?, isDigitOrUnderscore c = false := by
    rcases hfraction with ⟨rfl, -⟩ | ⟨rest, -, rfl⟩
    · exact hexponent.head
    · rintro c hc
      cases hc
      rfl
  rw [fractional?, takeWhile_append_of_forall hwhole.1.isDigitOrUnderscore hhead,
    dropWhile_append_of_forall hwhole.1.isDigitOrUnderscore hhead, hwhole.wholeDigits?,
    Option.bind_eq_bind, Option.bind_some]
  rcases hfraction with ⟨rfl, rfl⟩ | ⟨rest, hrest, rfl⟩
  · have hvalue := hexponent.exponent?
    cases hexponent with
    | missing => exact absurd rfl hne
    | given hletter => rcases hletter with rfl | rfl <;> simp [hvalue]
  · have htake := takeWhile_append_of_forall hrest.isDigitOrUnderscore hexponent.head
    have hdrop := dropWhile_append_of_forall hrest.isDigitOrUnderscore hexponent.head
    simp [htake, hdrop, hrest.ungroup, hexponent.exponent?]

theorem isFloating_of_fractional? {exponent : Int} (hsign : IsSign sign negative)
    (hs : ∀ c ∈ s.head?, c ≠ '-' ∧ c ≠ '+') (h : fractional? s = some (digits, exponent))
    (hfits : overflows digits exponent = false) : isFloating (sign ++ s) = true := by
  simp [isFloating, cutSign_append hsign hs, h, hfits]

theorem isFloating_of_special (hsign : IsSign sign negative)
    (h : s = ['i', 'n', 'f'] ∨ s = ['n', 'a', 'n']) : isFloating (sign ++ s) = true := by
  have hs : ∀ c ∈ s.head?, c ≠ '-' ∧ c ≠ '+' := by
    rintro c hc
    rcases h with rfl | rfl <;> cases hc <;> decide
  rw [isFloating, cutSign_append hsign hs]
  rcases h with rfl | rfl <;> rfl

/-- A number is an integer or a floating-point number. -/
theorem IsNumber.isInteger_or_isFloating (h : IsNumber s) :
    isInteger s = true ∨ isFloating s = true := by
  cases h with
  | decimal hsign h hle => exact .inl (isInteger_of_decimal hsign h hle)
  | based hletter h hle => exact .inl (isInteger_of_based hletter h hle)
  | floating hsign hwhole hfraction hexponent hne hfits =>
    refine .inr (isFloating_of_fractional? hsign ?_
      (fractional?_append hwhole hfraction hexponent hne) hfits)
    obtain ⟨d, n, t, rfl, -⟩ := hwhole.1.exists_cons
    exact hwhole.1.head
  | special hsign h => exact .inr (isFloating_of_special hsign h)

theorem IsExponent.isPlain (h : IsExponent s e) : ∀ c ∈ s, isPlain c = true := by
  cases h with
  | missing => nofun
  | given hletter hsign h =>
    rw [List.forall_mem_cons, List.forall_mem_append]
    refine ⟨?_, hsign.isPlain, h.isPlain⟩
    rcases hletter with rfl | rfl <;> rfl

theorem IsFraction.isPlain (h : IsFraction s digits) : ∀ c ∈ s, isPlain c = true := by
  rcases h with ⟨rfl, -⟩ | ⟨rest, hrest, rfl⟩
  · nofun
  · exact List.forall_mem_cons.2 ⟨rfl, hrest.isPlain⟩

theorem IsNumber.isPlain (h : IsNumber s) : ∀ c ∈ s, isPlain c = true := by
  cases h with
  | decimal hsign h => exact List.forall_mem_append.2 ⟨hsign.isPlain, h.1.isPlain⟩
  | based hletter h =>
    simp only [baseLetters, List.mem_cons, Prod.mk.injEq, List.not_mem_nil, or_false] at hletter
    rcases hletter with ⟨rfl, rfl⟩ | ⟨rfl, rfl⟩ | ⟨rfl, rfl⟩ <;>
      exact List.forall_mem_cons.2 ⟨rfl, List.forall_mem_cons.2 ⟨rfl, h.isPlain⟩⟩
  | floating hsign hwhole hfraction hexponent =>
    simp only [List.forall_mem_append]
    exact ⟨hsign.isPlain, hwhole.1.isPlain, hfraction.isPlain, hexponent.isPlain⟩
  | special hsign h =>
    refine List.forall_mem_append.2 ⟨hsign.isPlain, ?_⟩
    rcases h with rfl | rfl <;> exact List.all_eq_true.1 rfl

/-! ## Moments -/

theorem IsField.isDigit (h : IsField count low high s n) : ∀ c ∈ s, isDigit c = true :=
  h.2.1

theorem IsField.isPlain (h : IsField count low high s n) : ∀ c ∈ s, isPlain c = true :=
  fun c hc => isPlain_of_isDigit (h.isDigit c hc)

theorem fixedNumber?_append (h : IsField count low high s n) (rest : List Char) :
    fixedNumber? count (s ++ rest) = some (n, rest) := by
  obtain ⟨hlength, hdigits, hvalue, -⟩ := h
  have htake : (s ++ rest).take count = s := List.take_left' hlength
  have hdrop : (s ++ rest).drop count = rest := List.drop_left' hlength
  rw [fixedNumber?, htake, hdrop, if_pos ⟨hlength, List.all_eq_true.2 hdigits⟩, hvalue]

theorem twoDigits?_append (h : IsField 2 low high s n) (rest : List Char) :
    twoDigits? low high (s ++ rest) = some (n, rest) := by
  rw [twoDigits?, fixedNumber?_append h, Option.filter_some, if_pos]
  simpa using h.2.2.2

theorem after?_cons : after? c (c :: s) = some s :=
  if_pos rfl

theorem afterDate?_append (h : IsDate s) (rest : List Char) :
    afterDate? (s ++ rest) = some rest := by
  obtain ⟨year, month, day, y, m, d, hyear, hmonth, hday, rfl⟩ := h
  simp only [afterDate?, List.append_assoc, List.cons_append, fixedNumber?_append hyear,
    Option.bind_eq_bind, Option.bind_some, after?_cons, twoDigits?_append hmonth,
    twoDigits?_append hday, Option.pure_def]

/-- The hour of a time is too short to be a year. -/
theorem afterDate?_of_isTime (h : IsTime s) : afterDate? s = none := by
  obtain ⟨hour, minute, second, fraction, h, m, t, ⟨hlength, -⟩, -, -, -, rfl⟩ := h
  have hcolon : ':' ∈ (hour ++ ':' :: (minute ++ ':' :: (second ++ fraction))).take 4 := by
    simp [List.take_append, hlength]
  rw [afterDate?, fixedNumber?, if_neg]
  · rfl
  · rintro ⟨-, hdigits⟩
    cases List.all_eq_true.1 hdigits ':' hcolon

theorem afterFraction?_append (h : IsSecondFraction s)
    (hrest : ∀ c ∈ rest.head?, c ≠ '.' ∧ Text.isDigit c = false) :
    afterFraction? (s ++ rest) = some rest := by
  rcases h with rfl | ⟨digits, hne, hdigits, rfl⟩
  · rw [List.nil_append, afterFraction?]
    · rintro c t rfl
      exact (hrest _ rfl).1 rfl
    · rintro rfl
      exact (hrest _ rfl).1 rfl
  · obtain ⟨c, t, rfl⟩ := List.exists_cons_of_ne_nil hne
    rw [List.cons_append, List.cons_append, afterFraction?, if_pos (hdigits c List.mem_cons_self),
      dropWhile_append_of_forall (List.forall_mem_cons.1 hdigits).2 fun d hd => (hrest d hd).2]

theorem afterTime?_append (h : IsTime s)
    (hrest : ∀ c ∈ rest.head?, c ≠ '.' ∧ Text.isDigit c = false) :
    afterTime? (s ++ rest) = some rest := by
  obtain ⟨hour, minute, second, fraction, h, m, t, hhour, hminute, hsecond, hfraction, rfl⟩ := h
  simp only [afterTime?, List.append_assoc, List.cons_append, twoDigits?_append hhour,
    Option.bind_eq_bind, Option.bind_some, after?_cons, twoDigits?_append hminute,
    twoDigits?_append hsecond, afterFraction?_append hfraction hrest]

theorem afterTime?_of_isTime (h : IsTime s) : afterTime? s = some [] := by
  have hnil : afterTime? (s ++ []) = some [] := afterTime?_append h nofun
  rwa [List.append_nil] at hnil

theorem afterDate?_of_isDate (h : IsDate s) : afterDate? s = some [] := by
  have hnil := afterDate?_append h []
  rwa [List.append_nil] at hnil

theorem IsDate.isDate (h : IsDate s) : isDate s = true := by
  rw [Toml.isDate, afterDate?_of_isDate h]
  rfl

theorem IsOffset.isOffset (h : IsOffset s) : isOffset s = true := by
  rcases h with rfl | rfl | rfl | ⟨sign, hour, minute, h, m, hsign, hhour, hminute, rfl⟩
  · rfl
  · rfl
  · rfl
  · have hzone : twoDigits? 0 59 minute = some (m, []) := by
      have hnil := twoDigits?_append hminute []
      rwa [List.append_nil] at hnil
    rcases hsign with rfl | rfl <;>
      simp [Toml.isOffset, twoDigits?_append hhour, after?_cons, hzone]

theorem IsOffset.head (h : IsOffset s) : ∀ c ∈ s.head?, c ≠ '.' ∧ Text.isDigit c = false := by
  rintro c hc
  rcases h with rfl | rfl | rfl | ⟨sign, hour, minute, h, m, hsign, -, -, rfl⟩ <;> cases hc
  · decide
  · decide
  · rcases hsign with rfl | rfl <;> decide

theorem isZonedTime_append {time offset : List Char} (htime : IsTime time)
    (hoffset : IsOffset offset) : isZonedTime (time ++ offset) = true := by
  rw [isZonedTime, afterTime?_append htime hoffset.head, Option.any_some,
    hoffset.isOffset]

theorem IsDate.isPlain (h : IsDate s) : ∀ c ∈ s, isPlain c = true := by
  obtain ⟨year, month, day, y, m, d, hyear, hmonth, hday, rfl⟩ := h
  simp only [List.forall_mem_append, List.forall_mem_cons]
  exact ⟨hyear.isPlain, rfl, hmonth.isPlain, rfl, hday.isPlain⟩

theorem IsSecondFraction.isPlain (h : IsSecondFraction s) : ∀ c ∈ s, isPlain c = true := by
  rcases h with rfl | ⟨digits, -, hdigits, rfl⟩
  · nofun
  · exact List.forall_mem_cons.2 ⟨rfl, fun c hc => isPlain_of_isDigit (hdigits c hc)⟩

theorem IsTime.isPlain (h : IsTime s) : ∀ c ∈ s, isPlain c = true := by
  obtain ⟨hour, minute, second, fraction, h, m, t, hhour, hminute, hsecond, hfraction, rfl⟩ := h
  simp only [List.forall_mem_append, List.forall_mem_cons]
  exact ⟨hhour.isPlain, rfl, hminute.isPlain, rfl, hsecond.isPlain, hfraction.isPlain⟩

theorem IsOffset.isPlain (h : IsOffset s) : ∀ c ∈ s, isPlain c = true := by
  rcases h with rfl | rfl | rfl | ⟨sign, hour, minute, h, m, hsign, hhour, hminute, rfl⟩
  · nofun
  · exact List.forall_mem_cons.2 ⟨rfl, nofun⟩
  · exact List.forall_mem_cons.2 ⟨rfl, nofun⟩
  · simp only [List.forall_mem_append, List.forall_mem_cons]
    refine ⟨?_, hhour.isPlain, rfl, hminute.isPlain⟩
    rcases hsign with rfl | rfl <;> rfl

theorem IsDate.exists_cons (h : IsDate s) : ∃ c t, s = c :: t ∧ Toml.isPlain c = true := by
  obtain ⟨year, month, day, y, m, d, hyear, -, -, rfl⟩ := id h
  cases year with
  | nil => cases hyear.1
  | cons c year => exact ⟨c, _, rfl, hyear.isPlain c List.mem_cons_self⟩

/-- A date with a blank behind it goes on with a time. -/
theorem afterSpacedTime?_of_isPlain {date time : List Char} (hdate : isDate date = true)
    (htime : isZonedTime time = true) (hplain : ∀ c ∈ time, isPlain c = true) :
    afterSpacedTime? date (' ' :: time) = some [] := by
  have htoken : time.takeWhile isPlain = time := List.takeWhile_eq_self_iff.2 hplain
  have hrest : time.dropWhile isPlain = [] := List.dropWhile_eq_nil_iff.2 hplain
  rw [afterSpacedTime?, htoken, hrest, hdate, htime]
  rfl

theorem IsDate.isMoment (h : IsDate s) : isMoment s = true := by
  rw [Toml.isMoment, afterDate?_of_isDate h]

theorem IsTime.isMoment (h : IsTime s) : isMoment s = true := by
  rw [Toml.isMoment, afterDate?_of_isTime h, afterTime?_of_isTime h]
  rfl

theorem isMoment_append {date zoned : List Char} (hdate : IsDate date) (hc : c = 'T' ∨ c = 't')
    (hzoned : isZonedTime zoned = true) : isMoment (date ++ c :: zoned) = true := by
  rw [isMoment, afterDate?_append hdate]
  simpa [hzoned] using hc

/-! ## Plain values -/

theorem ofText?_of_isMoment (h : isMoment s = true) : ∃ plain, Plain.ofText? s = some plain := by
  rw [Plain.ofText?, if_pos h]
  split <;> exact ⟨_, rfl⟩

theorem ofText?_of_isNumber (h : IsNumber s) : ∃ plain, Plain.ofText? s = some plain := by
  have hnumber : (isInteger s || isFloating s) = true := by
    simpa using h.isInteger_or_isFloating
  rw [Plain.ofText?, if_pos hnumber]
  split
  · exact ⟨_, rfl⟩
  · split <;> exact ⟨_, rfl⟩

theorem isValueText_of_readPlain {plain : Plain} (hc : isPlain c = true)
    (h : readPlain (c :: s) = some (plain, [])) (depth : Nat) : IsValueText depth (c :: s) := by
  refine ⟨.plain plain, ?_⟩
  rw [readValue_plain hc, readPlainValue, h]
  rfl

theorem readPlain_of_isPlain {plain : Plain} (hs : ∀ c ∈ s, isPlain c = true)
    (h : Plain.ofText? s = some plain) : readPlain s = some (plain, []) := by
  have htoken : s.takeWhile isPlain = s := List.takeWhile_eq_self_iff.2 hs
  have hrest : s.dropWhile isPlain = [] := List.dropWhile_eq_nil_iff.2 hs
  rw [readPlain, htoken, hrest, afterSpacedTime?, h]
  · rfl
  · rintro t ht
    cases ht

theorem readPlain_append {date zoned : List Char} (hdate : IsDate date)
    (htime : isZonedTime zoned = true) (hplain : ∀ c ∈ zoned, isPlain c = true) :
    readPlain (date ++ ' ' :: zoned) = some (.moment, []) := by
  have hhead : ∀ c ∈ (' ' :: zoned).head?, isPlain c = false := by
    rintro c hc
    cases hc
    rfl
  rw [readPlain, takeWhile_append_of_forall hdate.isPlain hhead,
    dropWhile_append_of_forall hdate.isPlain hhead,
    afterSpacedTime?_of_isPlain hdate.isDate htime hplain]

theorem isValueText_of_isPlain {plain : Plain} (hs : ∀ c ∈ s, isPlain c = true)
    (h : Plain.ofText? s = some plain) (depth : Nat) : IsValueText depth s := by
  cases s with
  | nil => cases h
  | cons c s =>
    exact isValueText_of_readPlain (hs c List.mem_cons_self) (readPlain_of_isPlain hs h) depth

theorem isValueText_of_isBoolean (h : s = ['t', 'r', 'u', 'e'] ∨ s = ['f', 'a', 'l', 's', 'e'])
    (depth : Nat) : IsValueText depth s := by
  rcases h with rfl | rfl
  · exact isValueText_of_isPlain (List.all_eq_true.1 rfl) rfl depth
  · exact isValueText_of_isPlain (List.all_eq_true.1 rfl) rfl depth

theorem isValueText_of_isNumber (h : IsNumber s) (depth : Nat) : IsValueText depth s := by
  obtain ⟨plain, hplain⟩ := ofText?_of_isNumber h
  exact isValueText_of_isPlain h.isPlain hplain depth

theorem isValueText_of_isMoment (h : IsMoment s) (depth : Nat) : IsValueText depth s := by
  cases h with
  | date h =>
    obtain ⟨plain, hplain⟩ := ofText?_of_isMoment h.isMoment
    exact isValueText_of_isPlain h.isPlain hplain depth
  | time h =>
    obtain ⟨plain, hplain⟩ := ofText?_of_isMoment h.isMoment
    exact isValueText_of_isPlain h.isPlain hplain depth
  | @both date separator time offset hdate hseparator htime hoffset =>
    have hzoned := isZonedTime_append htime hoffset
    have hplain : ∀ c ∈ time ++ offset, isPlain c = true :=
      List.forall_mem_append.2 ⟨htime.isPlain, hoffset.isPlain⟩
    have hletter : separator = 'T' ∨ separator = 't' →
        IsValueText depth (date ++ separator :: (time ++ offset)) := by
      intro hc
      obtain ⟨plain, hread⟩ := ofText?_of_isMoment (isMoment_append hdate hc hzoned)
      refine isValueText_of_isPlain ?_ hread depth
      refine List.forall_mem_append.2 ⟨hdate.isPlain, List.forall_mem_cons.2 ⟨?_, hplain⟩⟩
      rcases hc with rfl | rfl <;> rfl
    simp only [List.mem_cons, List.not_mem_nil, or_false] at hseparator
    rcases hseparator with rfl | rfl | rfl
    · exact hletter (.inl rfl)
    · exact hletter (.inr rfl)
    · have hread := readPlain_append hdate hzoned hplain
      obtain ⟨c, t, rfl, hc⟩ := hdate.exists_cons
      exact isValueText_of_readPlain hc hread depth

end CaseReport.Toml
