import CaseReport.Proofs.Json.Grammar

/-!
# Reading lexemes

A reader of blanks, strings or numbers succeeds exactly if the text begins with what the grammar
asks for, and leaves what stands behind it. Where a number ends is only settled by what follows it,
so reading one needs to know that something follows that may.
-/

namespace CaseReport.Json

open Text

variable {s rest w raw text digits : List Char} {c : Char} {n : Nat}

theorem bind_eq_ok_iff {α β : Type} {x : Except Failure α} {next : α → Except Failure β} {b : β} :
    (x >>= next) = .ok b ↔ ∃ a, x = .ok a ∧ next a = .ok b := by
  cases x with
  | error failure =>
    constructor
    · rintro ⟨⟩
    · rintro ⟨_, ⟨⟩, -⟩
  | ok a =>
    constructor
    · exact fun h => ⟨a, rfl, h⟩
    · rintro ⟨_, ⟨⟩, h⟩
      exact h

/-! ## Blanks -/

theorem isSpace_iff : isSpace c = true ↔ c = ' ' ∨ c = '\n' ∨ c = '\t' ∨ c = '\r' := by
  simp [isSpace, or_assoc]

theorem isBlank_nil : IsBlank [] := by
  simp [IsBlank]

theorem IsBlank.append (h : IsBlank w) (h' : IsBlank s) : IsBlank (w ++ s) :=
  List.forall_mem_append.2 ⟨h, h'⟩

theorem skipSpace_append (h : IsBlank w) (s : List Char) : skipSpace (w ++ s) = skipSpace s :=
  List.dropWhile_append_of_pos fun c hc => isSpace_iff.2 (h c hc)

theorem skipSpace_cons (h : isSpace c = false) (s : List Char) : skipSpace (c :: s) = c :: s := by
  rw [skipSpace, List.dropWhile_cons_of_neg (by simp [h])]

theorem skipSpace_eq_cons (hw : IsBlank w) (hspace : isSpace c = false) :
    skipSpace (w ++ c :: s) = c :: s := by
  rw [skipSpace_append hw, skipSpace_cons hspace]

theorem skipSpace_of_isBlank (h : IsBlank w) : skipSpace w = [] := by
  rw [← List.append_nil w, skipSpace_append h]
  rfl

theorem exists_isBlank_append_skipSpace (s : List Char) : ∃ w, IsBlank w ∧ s = w ++ skipSpace s :=
  ⟨s.takeWhile isSpace, fun _ hc => isSpace_iff.1 (List.all_eq_true.1 List.all_takeWhile _ hc),
    List.takeWhile_append_dropWhile.symm⟩

theorem exists_of_skipSpace (h : skipSpace s = rest) : ∃ w, IsBlank w ∧ s = w ++ rest :=
  h ▸ exists_isBlank_append_skipSpace s

theorem IsGap.append {first : Bool} (hgap : IsGap first s) (hw : IsBlank w) :
    IsGap first (s ++ w) := by
  cases hgap with
  | first h => exact .first (h.append hw)
  | next hbefore hafter =>
    rw [List.append_assoc, List.cons_append]
    exact .next hbefore (hafter.append hw)

/-! ## Literals -/

theorem literal_append (expected rest : List Char) :
    literal expected (expected ++ rest) = .ok rest := by
  induction expected with
  | nil => rfl
  | cons e expected ih => rw [List.cons_append, literal, if_pos rfl, ih]

theorem eq_append_of_literal {expected : List Char} (h : literal expected s = .ok rest) :
    s = expected ++ rest := by
  induction expected generalizing s with
  | nil => exact Except.ok.inj h
  | cons e expected ih =>
    cases s with
    | nil => cases h
    | cons c s =>
      rw [literal] at h
      split at h
      · next hc => rw [hc, ih h, List.cons_append]
      · cases h

/-! ## Escapes -/

theorem toNat_sub_le {low high : Char} (h : low ≤ c ∧ c ≤ high) :
    c.toNat - low.toNat ≤ high.toNat - low.toNat :=
  Nat.sub_le_sub_right (UInt32.le_iff_toNat_le.1 h.2) _

theorem hexValue?_lt (h : hexValue? c = some n) : n < 16 := by
  unfold hexValue? at h
  split at h
  · next hc =>
    cases h
    exact Nat.lt_of_le_of_lt (toNat_sub_le hc) (by decide)
  · split at h
    · next hc =>
      cases h
      exact Nat.add_lt_add_right (Nat.lt_of_le_of_lt (toNat_sub_le hc) (by decide)) 10
    · split at h
      · next hc =>
        cases h
        exact Nat.add_lt_add_right (Nat.lt_of_le_of_lt (toNat_sub_le hc) (by decide)) 10
      · cases h

theorem digitIn?_sixteen (c : Char) : digitIn? 16 c = hexValue? c := by
  rw [digitIn?]
  cases h : hexValue? c with
  | none => rfl
  | some value => exact Option.filter_some_pos (by simpa using hexValue?_lt h)

theorem fourDigits?_cons (a b c d : Char) (s : List Char) :
    fourDigits? (a :: b :: c :: d :: s) = (number? 16 [a, b, c, d]).map (·, s) := by
  simp only [fourDigits?, number?, List.isEmpty_cons, List.mapM_cons, List.mapM_nil,
    digitIn?_sixteen]
  cases hexValue? a <;> cases hexValue? b <;> cases hexValue? c <;> cases hexValue? d <;>
    simp [ofDigits]

theorem fourDigits?_eq_some_iff :
    fourDigits? s = some (n, rest) ↔ ∃ digits, IsUnit digits n ∧ s = digits ++ rest := by
  constructor
  · intro h
    have hlength : fourDigits? s ≠ none := by simp [h]
    match s, h with
    | a :: b :: c :: d :: s, h =>
      rw [fourDigits?_cons, Option.map_eq_some_iff] at h
      obtain ⟨_, hdigits, h⟩ := h
      cases h
      exact ⟨[a, b, c, d], ⟨rfl, hdigits⟩, rfl⟩
  · rintro ⟨digits, ⟨hlength, hdigits⟩, rfl⟩
    match digits, hlength with
    | [a, b, c, d], _ =>
      refine (fourDigits?_cons a b c d rest).trans ?_
      rw [hdigits, Option.map_some]

theorem hexEscape_eq_ok_iff :
    hexEscape s = .ok (n, rest) ↔ ∃ digits, IsUnit digits n ∧ s = digits ++ rest := by
  rw [← fourDigits?_eq_some_iff, hexEscape]
  cases fourDigits? s with
  | some reading => simp
  | none =>
    dsimp only
    split <;> simp [failAfter]

theorem lt_of_isUnit (h : IsUnit digits n) : n < 0x10000 := by
  have hread := fourDigits?_eq_some_iff.2 ⟨digits, h, (List.append_nil _).symm⟩
  unfold fourDigits? at hread
  split at hread
  · simp only [Option.bind_eq_bind, Option.bind_eq_some_iff, Option.pure_def, Option.some.injEq,
      Prod.mk.injEq] at hread
    obtain ⟨a, ha, b, hb, c, hc, d, hd, rfl, -⟩ := hread
    have := hexValue?_lt ha
    have := hexValue?_lt hb
    have := hexValue?_lt hc
    have := hexValue?_lt hd
    omega
  · cases hread

theorem simpleEscape?_eq_some_iff {letter : Char} :
    simpleEscape? letter = some c ↔ (letter, c) ∈ letterEscapes := by
  constructor
  · intro h
    rw [simpleEscape?] at h
    split at h
    · next hself =>
      cases h
      rcases hself with rfl | rfl | rfl <;> decide
    · repeat' split at h
      all_goals cases h
      all_goals subst letter; decide
  · have hall : ∀ entry ∈ letterEscapes, simpleEscape? entry.1 = some entry.2 := by decide
    exact hall (letter, c)

theorem ne_of_mem_letterEscapes {letter : Char} (h : (letter, c) ∈ letterEscapes) :
    letter ≠ 'u' := by
  rintro rfl
  simp [letterEscapes] at h

theorem isEscape_of_skipEscape (h : skipEscape s = .ok rest) :
    ∃ e, IsEscape e ∧ s = e ++ rest := by
  unfold skipEscape at h
  split at h
  · cases h
  · split at h
    · cases h
    · next hunit =>
      cases h
      obtain ⟨digits, hdigits, rfl⟩ := hexEscape_eq_ok_iff.1 hunit
      exact ⟨'u' :: digits, .unit hdigits, rfl⟩
  · split at h
    · next hletter =>
      cases h
      exact ⟨_, .letter (simpleEscape?_eq_some_iff.1 hletter), rfl⟩
    · cases h

theorem skipEscape_append {e : List Char} (h : IsEscape e) (rest : List Char) :
    skipEscape (e ++ rest) = .ok rest := by
  cases h with
  | letter h =>
    rw [List.singleton_append, skipEscape]
    · rw [simpleEscape?_eq_some_iff.2 h]
    · exact ne_of_mem_letterEscapes h
  | unit h => rw [List.cons_append, skipEscape, hexEscape_eq_ok_iff.2 ⟨_, h, rfl⟩]

/-- No character is half of a surrogate pair. -/
theorem isSurrogate_toNat (c : Char) :
    isLowSurrogate c.toNat = false ∧ isHighSurrogate c.toNat = false := by
  have hvalid : c.toNat < 0xD800 ∨ 0xDFFF < c.toNat ∧ c.toNat < 0x110000 := c.valid
  simp only [isLowSurrogate, isHighSurrogate, Bool.and_eq_false_iff, decide_eq_false_iff_not]
  omega

theorem toNat_ofNat_of_isValidChar (h : n.isValidChar) : (Char.ofNat n).toNat = n := by
  rw [Char.ofNat, dif_pos h]
  rfl

theorem escapes_of_trailingSurrogate {high : Nat} (hdigits : IsUnit digits high)
    (hhigh : isHighSurrogate high = true) (h : trailingSurrogate high s = .ok (c, rest)) :
    ∃ e, Escapes ('u' :: (digits ++ e)) c ∧ s = e ++ rest := by
  unfold trailingSurrogate at h
  split at h
  · cases h
  · split at h
    · cases h
    · next low s' hunit =>
      obtain ⟨digits', hdigits', rfl⟩ := hexEscape_eq_ok_iff.1 hunit
      split at h
      · next hlow =>
        obtain ⟨rfl, rfl⟩ := Prod.mk.inj (Except.ok.inj h)
        simp only [isHighSurrogate, isLowSurrogate, Bool.and_eq_true, decide_eq_true_eq]
          at hhigh hlow
        refine ⟨'\\' :: 'u' :: digits', .pair hdigits hdigits' hhigh hlow ?_, rfl⟩
        rw [joinSurrogates, toNat_ofNat_of_isValidChar]
        simp only [Nat.isValidChar]
        omega
      · cases h
  · cases h
  · cases h
  · cases h

theorem escapes_of_escape (h : escape s = .ok (c, rest)) : ∃ e, Escapes e c ∧ s = e ++ rest := by
  unfold escape at h
  split at h
  · cases h
  · split at h
    · cases h
    · next n s' hunit =>
      obtain ⟨digits, hdigits, rfl⟩ := hexEscape_eq_ok_iff.1 hunit
      split at h
      · cases h
      · next hlow =>
        split at h
        · next hhigh =>
          obtain ⟨e, he, rfl⟩ := escapes_of_trailingSurrogate hdigits hhigh h
          exact ⟨_, he, by rw [List.cons_append, List.append_assoc]⟩
        · next hhigh =>
          cases h
          have hlt := lt_of_isUnit hdigits
          simp only [isHighSurrogate, isLowSurrogate, Bool.and_eq_true, decide_eq_true_eq]
            at hhigh hlow
          have hvalid : n.isValidChar := by
            simp only [Nat.isValidChar]
            omega
          refine ⟨'u' :: digits, .unit ?_, rfl⟩
          rw [toNat_ofNat_of_isValidChar hvalid]
          exact hdigits
  · split at h
    · next hletter =>
      cases h
      exact ⟨_, .letter (simpleEscape?_eq_some_iff.1 hletter), rfl⟩
    · cases h

theorem escape_append {e : List Char} (h : Escapes e c) (rest : List Char) :
    escape (e ++ rest) = .ok (c, rest) := by
  cases h with
  | letter h =>
    rw [List.singleton_append, escape]
    · rw [simpleEscape?_eq_some_iff.2 h]
    · exact ne_of_mem_letterEscapes h
  | unit h =>
    obtain ⟨hlow, hhigh⟩ := isSurrogate_toNat c
    rw [List.cons_append, escape, hexEscape_eq_ok_iff.2 ⟨_, h, rfl⟩]
    simp only [hlow, hhigh, Char.ofNat_toNat]
    rfl
  | @pair digits digits' high low _ h h' hhigh hlow hc =>
    have hread : hexEscape (digits ++ '\\' :: 'u' :: (digits' ++ rest)) =
        .ok (high, '\\' :: 'u' :: (digits' ++ rest)) := hexEscape_eq_ok_iff.2 ⟨_, h, rfl⟩
    have hread' : hexEscape (digits' ++ rest) = .ok (low, rest) :=
      hexEscape_eq_ok_iff.2 ⟨_, h', rfl⟩
    have hhigh' : isLowSurrogate high = false ∧ isHighSurrogate high = true := by
      simp only [isLowSurrogate, isHighSurrogate, Bool.and_eq_true, Bool.and_eq_false_iff,
        decide_eq_true_eq, decide_eq_false_iff_not]
      omega
    have hlow' : isLowSurrogate low = true := by
      simpa only [isLowSurrogate, Bool.and_eq_true, decide_eq_true_eq] using hlow
    rw [List.cons_append, List.append_assoc, escape]
    simp only [List.cons_append, hread, hhigh', trailingSurrogate, hread', hlow', joinSurrogates,
      ← hc, Char.ofNat_toNat]
    rfl

/-! ## Strings -/

theorem stringBody_eq_ok_iff :
    stringBody s = .ok (text, rest) ↔ ∃ raw, Spells raw text ∧ s = raw ++ '"' :: rest := by
  constructor
  · intro h
    fun_induction stringBody s generalizing text with
    | case1 => cases h
    | case2 s =>
      cases h
      exact ⟨[], .nil, rfl⟩
    | case3 => cases h
    | case4 => cases h
    | case5 s c s' hescape _ text' rest' _ ih =>
      cases h
      obtain ⟨e, he, rfl⟩ := escapes_of_escape hescape
      obtain ⟨raw, hraw, rfl⟩ := ih (by assumption)
      exact ⟨_, .escape he hraw, by rw [List.cons_append, List.append_assoc]⟩
    | case6 => cases h
    | case7 => cases h
    | case8 c s hquote hbackslash hcontrol text' rest' _ ih =>
      cases h
      obtain ⟨raw, hraw, rfl⟩ := ih (by assumption)
      exact ⟨c :: raw, .plain ⟨Nat.le_of_not_lt hcontrol, hquote, hbackslash⟩ hraw, rfl⟩
  · rintro ⟨raw, hraw, rfl⟩
    induction hraw with
    | nil => rw [List.nil_append, stringBody]
    | @plain c raw text h _ ih =>
      rw [List.cons_append, stringBody]
      · rw [if_neg (Nat.not_lt.2 h.1), ih]
      · exact h.2.1
      · exact h.2.2
    | @escape e c raw text h _ ih =>
      rw [List.cons_append, List.append_assoc, stringBody]
      split
      · next hescape => cases (escape_append h _).symm.trans hescape
      · next hescape =>
        cases (escape_append h _).symm.trans hescape
        rw [ih]

theorem skipString_eq_ok_iff :
    skipString s = .ok rest ↔ ∃ raw, IsContent raw ∧ s = raw ++ '"' :: rest := by
  constructor
  · intro h
    fun_induction skipString s with
    | case1 => cases h
    | case2 s =>
      cases h
      exact ⟨[], .nil, rfl⟩
    | case3 => cases h
    | case4 s s' hescape _ ih =>
      obtain ⟨e, he, rfl⟩ := isEscape_of_skipEscape hescape
      obtain ⟨raw, hraw, rfl⟩ := ih h
      exact ⟨_, .escape he hraw, by rw [List.cons_append, List.append_assoc]⟩
    | case5 => cases h
    | case6 c s hquote hbackslash hcontrol ih =>
      obtain ⟨raw, hraw, rfl⟩ := ih h
      exact ⟨c :: raw, .plain ⟨Nat.le_of_not_lt hcontrol, hquote, hbackslash⟩ hraw, rfl⟩
  · rintro ⟨raw, hraw, rfl⟩
    induction hraw with
    | nil => rw [List.nil_append, skipString]
    | @plain c raw h _ ih =>
      rw [List.cons_append, skipString]
      · rw [if_neg (Nat.not_lt.2 h.1), ih]
      · exact h.2.1
      · exact h.2.2
    | @escape e raw h _ ih =>
      rw [List.cons_append, List.append_assoc, skipString]
      split
      · next hescape => cases (skipEscape_append h _).symm.trans hescape
      · next hescape =>
        cases (skipEscape_append h _).symm.trans hescape
        exact ih

/-! ## Numbers -/

/-- A text that does not go on with a digit. -/
def NoDigit (s : List Char) : Prop :=
  ∀ c ∈ s.head?, isDigit c = false

/-- A text that may follow a value: it is empty or begins with a blank, a comma or a closing
bracket. -/
def IsDelimited (s : List Char) : Prop :=
  ∀ c ∈ s.head?, isSpace c = true ∨ c = ',' ∨ c = ']' ∨ c = '}'

theorem noDigit_cons (h : isDigit c = false) : NoDigit (c :: s) := by
  rintro _ ⟨⟩
  exact h

theorem isDelimited_cons (h : isSpace c = true ∨ c = ',' ∨ c = ']' ∨ c = '}') :
    IsDelimited (c :: s) := by
  rintro _ ⟨⟩
  exact h

theorem IsDelimited.append_of_isBlank (hw : IsBlank w) (h : IsDelimited s) :
    IsDelimited (w ++ s) := by
  cases w with
  | nil => exact h
  | cons c w => exact isDelimited_cons (.inl (isSpace_iff.2 (hw c (List.mem_cons_self ..))))

/-- What ends a value does not carry on a number. -/
theorem IsDelimited.ne (h : IsDelimited (c :: s)) :
    isDigit c = false ∧ c ≠ '.' ∧ c ≠ 'e' ∧ c ≠ 'E' := by
  have hc := h c rfl
  rw [isSpace_iff] at hc
  rcases hc with (rfl | rfl | rfl | rfl) | rfl | rfl | rfl <;> decide

theorem IsDelimited.noDigit (h : IsDelimited s) : NoDigit s := by
  cases s with
  | nil => rintro _ ⟨⟩
  | cons c s => exact noDigit_cons h.ne.1

theorem exists_isDigits (h : (takeDigits s).isEmpty = false) :
    ∃ digits, IsDigits digits ∧ s = digits ++ dropDigits s :=
  ⟨takeDigits s, ⟨by simpa using h, fun _ hc => List.all_eq_true.1 List.all_takeWhile _ hc⟩,
    List.takeWhile_append_dropWhile.symm⟩

theorem NoDigit.isEmpty_takeDigits (h : NoDigit s) : (takeDigits s).isEmpty = true := by
  cases s with
  | nil => rfl
  | cons c s => rw [takeDigits, List.takeWhile_cons_of_neg (by simp [h c rfl])]; rfl

theorem NoDigit.dropDigits_eq (h : NoDigit s) : dropDigits s = s := by
  cases s with
  | nil => rfl
  | cons c s => rw [dropDigits, List.dropWhile_cons_of_neg (by simp [h c rfl])]

theorem IsDigits.isEmpty_takeDigits (h : IsDigits digits) (s : List Char) :
    (takeDigits (digits ++ s)).isEmpty = false := by
  rw [takeDigits, List.takeWhile_append_of_pos h.2, List.isEmpty_eq_false_iff]
  exact List.append_ne_nil_of_left_ne_nil h.1 _

theorem IsDigits.dropDigits_append (h : IsDigits digits) (hs : NoDigit s) :
    dropDigits (digits ++ s) = s := by
  rw [dropDigits, List.dropWhile_append_of_pos h.2]
  exact hs.dropDigits_eq

theorem IsDigits.exists_cons (h : IsDigits digits) :
    ∃ c s, digits = c :: s ∧ isDigit c = true := by
  cases digits with
  | nil => exact absurd rfl h.1
  | cons c s => exact ⟨c, s, rfl, h.2 c (List.mem_cons_self ..)⟩

theorem exists_isSign_append_splitSign (s : List Char) :
    ∃ sign, IsSign sign ∧ s = sign ++ (splitSign s).2 := by
  unfold splitSign
  split
  · exact ⟨['+'], .inr (.inl rfl), rfl⟩
  · exact ⟨['-'], .inr (.inr rfl), rfl⟩
  · exact ⟨[], .inl rfl, rfl⟩

theorem splitSign_append {sign : List Char} (hsign : IsSign sign) (h : IsDigits digits) :
    (splitSign (sign ++ (digits ++ s))).2 = digits ++ s := by
  rcases hsign with rfl | rfl | rfl
  · obtain ⟨c, s', rfl, hc⟩ := h.exists_cons
    rw [List.nil_append, List.cons_append, splitSign]
    · rintro _ ⟨⟩
      cases hc
    · rintro _ ⟨⟩
      cases hc
  · rfl
  · rfl

/-- Passes over an exponent, if there is one. -/
def skipPower : List Char → Except Failure (List Char)
  | 'e' :: s => skipExponent s
  | 'E' :: s => skipExponent s
  | s => .ok s

theorem skipFraction_point (s : List Char) : skipFraction ('.' :: s) =
    if (takeDigits s).isEmpty then failAt .invalidNumber s else skipPower (dropDigits s) := rfl

theorem skipFraction_eq_skipPower (h : s.head? ≠ some '.') : skipFraction s = skipPower s := by
  rw [skipFraction.eq_def]
  split
  · exact absurd rfl h
  · rfl
  · rfl
  · rw [skipPower] <;> assumption

theorem exists_of_skipExponent (h : skipExponent s = .ok rest) :
    ∃ sign digits, IsSign sign ∧ IsDigits digits ∧ s = sign ++ (digits ++ rest) := by
  obtain ⟨sign, hsign, hs⟩ := exists_isSign_append_splitSign s
  simp only [skipExponent] at h
  split at h
  · cases h
  · next hdigits =>
    cases h
    obtain ⟨digits, hdigits, hrest⟩ := exists_isDigits (Bool.eq_false_iff.2 hdigits)
    exact ⟨sign, digits, hsign, hdigits, by rw [← hrest, ← hs]⟩

theorem skipExponent_append {sign : List Char} (hsign : IsSign sign) (hdigits : IsDigits digits)
    (hs : NoDigit s) : skipExponent (sign ++ (digits ++ s)) = .ok s := by
  simp only [skipExponent, splitSign_append hsign hdigits, hdigits.isEmpty_takeDigits,
    hdigits.dropDigits_append hs]
  rfl

theorem isExponent_of_skipPower (h : skipPower s = .ok rest) :
    ∃ exponent, IsExponent exponent ∧ s = exponent ++ rest := by
  unfold skipPower at h
  split at h
  · obtain ⟨sign, digits, hsign, hdigits, rfl⟩ := exists_of_skipExponent h
    exact ⟨_, .inr ⟨'e', sign, digits, .inl rfl, hsign, hdigits, rfl⟩, by simp⟩
  · obtain ⟨sign, digits, hsign, hdigits, rfl⟩ := exists_of_skipExponent h
    exact ⟨_, .inr ⟨'E', sign, digits, .inr rfl, hsign, hdigits, rfl⟩, by simp⟩
  · cases h
    exact ⟨[], .inl rfl, rfl⟩

theorem skipPower_append {exponent : List Char} (h : IsExponent exponent) (hs : IsDelimited s) :
    skipPower (exponent ++ s) = .ok s := by
  rcases h with rfl | ⟨letter, sign, digits, hletter, hsign, hdigits, rfl⟩
  · cases s with
    | nil => rfl
    | cons c s =>
      obtain ⟨-, -, he, hE⟩ := hs.ne
      rw [List.nil_append, skipPower]
      · rintro _ ⟨⟩
        exact he rfl
      · rintro _ ⟨⟩
        exact hE rfl
  · have hread := skipExponent_append hsign hdigits hs.noDigit
    rw [List.cons_append, List.append_assoc]
    rcases hletter with rfl | rfl
    · exact hread
    · exact hread

theorem isFraction_of_skipFraction (h : skipFraction s = .ok rest) :
    ∃ fraction exponent, IsFraction fraction ∧ IsExponent exponent ∧
      s = fraction ++ (exponent ++ rest) := by
  by_cases hpoint : s.head? = some '.'
  · obtain ⟨s, rfl⟩ := List.head?_eq_some_iff.1 hpoint
    rw [skipFraction_point] at h
    split at h
    · cases h
    · next hdigits =>
      obtain ⟨exponent, hexponent, hrest⟩ := isExponent_of_skipPower h
      obtain ⟨digits, hdigits, hs⟩ := exists_isDigits (Bool.eq_false_iff.2 hdigits)
      refine ⟨'.' :: digits, exponent, .inr ⟨digits, hdigits, rfl⟩, hexponent, ?_⟩
      rw [← hrest, List.cons_append, ← hs]
  · rw [skipFraction_eq_skipPower hpoint] at h
    obtain ⟨exponent, hexponent, rfl⟩ := isExponent_of_skipPower h
    exact ⟨[], exponent, .inl rfl, hexponent, rfl⟩

/-- Neither an exponent nor what ends a value goes on with a digit or a point. -/
theorem IsExponent.head?_append {exponent : List Char} (h : IsExponent exponent)
    (hs : IsDelimited s) : ∀ c ∈ (exponent ++ s).head?, isDigit c = false ∧ c ≠ '.' := by
  intro c hc
  rcases h with rfl | ⟨letter, sign, digits, hletter, -, -, rfl⟩
  · cases s with
    | nil => cases hc
    | cons _ s =>
      cases hc
      exact ⟨hs.ne.1, hs.ne.2.1⟩
  · cases hc
    rcases hletter with rfl | rfl <;> decide

theorem skipFraction_append {fraction exponent : List Char} (hfraction : IsFraction fraction)
    (hexponent : IsExponent exponent) (hs : IsDelimited s) :
    skipFraction (fraction ++ (exponent ++ s)) = .ok s := by
  have hhead := hexponent.head?_append hs
  rcases hfraction with rfl | ⟨digits, hdigits, rfl⟩
  · have hpoint : (exponent ++ s).head? ≠ some '.' := fun hpoint => (hhead _ hpoint).2 rfl
    rw [List.nil_append, skipFraction_eq_skipPower hpoint]
    exact skipPower_append hexponent hs
  · have hdigit : NoDigit (exponent ++ s) := fun c hc => (hhead c hc).1
    rw [List.cons_append, skipFraction_point, hdigits.isEmpty_takeDigits,
      hdigits.dropDigits_append hdigit]
    exact skipPower_append hexponent hs

theorem IsFraction.noDigit {fraction exponent : List Char} (hfraction : IsFraction fraction)
    (hexponent : IsExponent exponent) (hs : IsDelimited s) :
    NoDigit (fraction ++ (exponent ++ s)) := by
  rcases hfraction with rfl | ⟨digits, -, rfl⟩
  · exact fun c hc => (hexponent.head?_append hs c hc).1
  · exact noDigit_cons rfl

theorem isMagnitude_of_isWhole {whole : List Char} (hwhole : IsWhole whole)
    (h : skipFraction s = .ok rest) :
    ∃ magnitude, IsMagnitude magnitude ∧ whole ++ s = magnitude ++ rest := by
  obtain ⟨fraction, exponent, hfraction, hexponent, rfl⟩ := isFraction_of_skipFraction h
  exact ⟨_, ⟨whole, fraction, exponent, hwhole, hfraction, hexponent, rfl⟩, by simp⟩

theorem isMagnitude_of_skipNumber (h : skipNumber s = .ok rest) :
    ∃ magnitude, IsMagnitude magnitude ∧ s = magnitude ++ rest := by
  unfold skipNumber at h
  split at h
  · split at h
    · exact isMagnitude_of_isWhole (.inl rfl) h
    · cases h
  · next hzero =>
    split at h
    · cases h
    · next hdigits =>
      obtain ⟨digits, hdigits, hs⟩ := exists_isDigits (Bool.eq_false_iff.2 hdigits)
      rw [hs]
      refine isMagnitude_of_isWhole (.inr ⟨hdigits, ?_⟩) h
      intro hhead
      obtain ⟨digits, rfl⟩ := List.head?_eq_some_iff.1 hhead
      exact hzero _ hs

theorem skipNumber_append {magnitude : List Char} (h : IsMagnitude magnitude)
    (hs : IsDelimited s) : skipNumber (magnitude ++ s) = .ok s := by
  obtain ⟨whole, fraction, exponent, hwhole, hfraction, hexponent, rfl⟩ := h
  have hdigit := hfraction.noDigit hexponent hs
  rw [List.append_assoc, List.append_assoc]
  rcases hwhole with rfl | ⟨hdigits, hhead⟩
  · rw [List.singleton_append, skipNumber, hdigit.isEmpty_takeDigits]
    exact skipFraction_append hfraction hexponent hs
  · obtain ⟨c, digits, rfl, -⟩ := hdigits.exists_cons
    rw [skipNumber, hdigits.isEmpty_takeDigits, hdigits.dropDigits_append hdigit]
    · exact skipFraction_append hfraction hexponent hs
    · rintro _ ⟨⟩
      exact hhead rfl

end CaseReport.Json
