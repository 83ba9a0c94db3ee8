import CaseReport.Text.Utf8

/-!
# Texts in bytes that are no text

A unit never reaches into a character that follows it, because a character does not begin with a
byte that continues one. And a unit that is a character consists of the bytes of that character. So
whatever stands around it, a text without replacement characters occurs in what is read leniently
exactly if its bytes occur in what is read.
-/

namespace CaseReport.Text.Utf8

variable {b : UInt8} {bytes rest : List UInt8} {c : Char} {value count low high : Nat}

/-! ## A unit that is a character -/

private theorem toNat_ofNat_of_valid {n : Nat} (h : n.isValidChar) : (Char.ofNat n).toNat = n := by
  rw [Char.ofNat, dif_pos h]
  rfl

private theorem encodeChar_alone {n : Nat} (h : n < 0x80) :
    encodeChar (Char.ofNat n) = [UInt8.ofNat n] := by
  simp only [encodeChar]
  rw [toNat_ofNat_of_valid (by omega), if_pos h]

private theorem encodeChar_two {k d₁ : Nat} (h₁ : d₁ < 64) (hlow : 0x80 ≤ k * 64 + d₁)
    (hhigh : k * 64 + d₁ < 0x800) :
    encodeChar (Char.ofNat (k * 64 + d₁)) = [UInt8.ofNat (0xC0 + k), UInt8.ofNat (0x80 + d₁)] := by
  simp only [encodeChar]
  rw [toNat_ofNat_of_valid (by omega), if_neg (by omega), if_pos hhigh]
  rw [show (k * 64 + d₁) / 64 = k by omega, show (k * 64 + d₁) % 64 = d₁ by omega]

private theorem encodeChar_three {k d₁ d₂ n : Nat} (hn : n = (k * 64 + d₁) * 64 + d₂)
    (h₁ : d₁ < 64) (h₂ : d₂ < 64) (hvalid : n.isValidChar) (hlow : 0x800 ≤ n)
    (hhigh : n < 0x10000) :
    encodeChar (Char.ofNat n) =
      [UInt8.ofNat (0xE0 + k), UInt8.ofNat (0x80 + d₁), UInt8.ofNat (0x80 + d₂)] := by
  simp only [encodeChar]
  rw [toNat_ofNat_of_valid hvalid, if_neg (by omega), if_neg (by omega), if_pos hhigh]
  clear hvalid
  rw [show n / 4096 = k by omega, show n / 64 % 64 = d₁ by omega, show n % 64 = d₂ by omega]

private theorem encodeChar_four {k d₁ d₂ d₃ n : Nat}
    (hn : n = ((k * 64 + d₁) * 64 + d₂) * 64 + d₃) (h₁ : d₁ < 64) (h₂ : d₂ < 64) (h₃ : d₃ < 64)
    (hlow : 0x10000 ≤ n) (hhigh : n < 0x110000) :
    encodeChar (Char.ofNat n) = [UInt8.ofNat (0xF0 + k), UInt8.ofNat (0x80 + d₁),
      UInt8.ofNat (0x80 + d₂), UInt8.ofNat (0x80 + d₃)] := by
  simp only [encodeChar]
  rw [toNat_ofNat_of_valid (by omega), if_neg (by omega), if_neg (by omega), if_neg (by omega)]
  rw [show n / 262144 = k by omega, show n / 4096 % 64 = d₁ by omega,
    show n / 64 % 64 = d₂ by omega, show n % 64 = d₃ by omega]

private theorem continued_zero_eq_some (h : continued value 0 low high bytes = (some c, rest)) :
    c = Char.ofNat value ∧ rest = bytes := by
  rw [continued] at h
  cases h
  exact ⟨rfl, rfl⟩

private theorem exists_eq_ofNat_of_le {n : Nat} (h : n ≤ b.toNat) :
    ∃ k, b = UInt8.ofNat (n + k) ∧ b.toNat = n + k := by
  obtain ⟨k, hk⟩ := Nat.exists_eq_add_of_le h
  exact ⟨k, by rw [← hk, UInt8.ofNat_toNat], hk⟩

/-- A character that is read to its end has its next byte in the bounds. -/
private theorem exists_of_continued_eq_some (hlow : 0x80 ≤ low)
    (h : continued value (count + 1) low high bytes = (some c, rest)) :
    ∃ d bytes', bytes = UInt8.ofNat (0x80 + d) :: bytes' ∧ low ≤ 0x80 + d ∧ 0x80 + d ≤ high ∧
      continued (value * 64 + d) count 0x80 0xBF bytes' = (some c, rest) := by
  cases bytes with
  | nil =>
    rw [continued] at h
    cases h
  | cons b bytes' =>
    rw [continued] at h
    split at h
    · next hbounds =>
      obtain ⟨d, hb, hd⟩ := exists_eq_ofNat_of_le (Nat.le_trans hlow hbounds.1)
      rw [hd, Nat.add_sub_cancel_left] at h
      rw [hd] at hbounds
      exact ⟨d, bytes', by rw [hb], hbounds.1, hbounds.2, h⟩
    · cases h

private theorem lead_cases (n : Nat) :
    (Lead.of n = .alone ∧ n < 0x80) ∨ Lead.of n = .invalid ∨
    (Lead.of n = .followed 1 0x80 0xBF ∧ 0xC2 ≤ n ∧ n < 0xE0) ∨
    (∃ low high, Lead.of n = .followed 2 low high ∧ 0xE0 ≤ n ∧ n < 0xF0 ∧ 0x80 ≤ low ∧
      high ≤ 0xBF ∧ (n = 0xE0 → 0xA0 ≤ low) ∧ (n = 0xED → high ≤ 0x9F)) ∨
    ∃ low high, Lead.of n = .followed 3 low high ∧ 0xF0 ≤ n ∧ n < 0xF5 ∧ 0x80 ≤ low ∧
      high ≤ 0xBF ∧ (n = 0xF0 → 0x90 ≤ low) ∧ (n = 0xF4 → high ≤ 0x8F) := by
  generalize hlead : Lead.of n = lead
  rw [Lead.of] at hlead
  split at hlead
  · exact .inl ⟨hlead.symm, by assumption⟩
  split at hlead
  · exact .inr (.inl hlead.symm)
  split at hlead
  · exact .inr (.inr (.inl ⟨hlead.symm, by omega⟩))
  split at hlead
  · exact .inr (.inr (.inr (.inl ⟨_, _, hlead.symm, by omega⟩)))
  split at hlead
  · exact .inr (.inr (.inr (.inl ⟨_, _, hlead.symm, by omega⟩)))
  split at hlead
  · exact .inr (.inr (.inr (.inl ⟨_, _, hlead.symm, by omega⟩)))
  split at hlead
  · exact .inr (.inr (.inr (.inr ⟨_, _, hlead.symm, by omega⟩)))
  split at hlead
  · exact .inr (.inr (.inr (.inr ⟨_, _, hlead.symm, by omega⟩)))
  split at hlead
  · exact .inr (.inr (.inr (.inr ⟨_, _, hlead.symm, by omega⟩)))
  · exact .inr (.inl hlead.symm)

/-- The bounds of the second byte leave out the characters that fewer bytes can hold, and the
surrogates. -/
private theorem isValidChar_three (k d₁ d₂ : Nat) (hk : k < 16) (h₁ : d₁ < 64) (h₂ : d₂ < 64)
    (hoverlong : k = 0 → 0x20 ≤ d₁) (hsurrogate : k = 13 → d₁ < 0x20) :
    ((k * 64 + d₁) * 64 + d₂).isValidChar ∧ 0x800 ≤ (k * 64 + d₁) * 64 + d₂ ∧
      (k * 64 + d₁) * 64 + d₂ < 0x10000 := by
  simp only [Nat.isValidChar]
  omega

private theorem bounds_four (k d₁ d₂ d₃ : Nat) (hk : k < 5) (h₁ : d₁ < 64) (h₂ : d₂ < 64)
    (h₃ : d₃ < 64) (hoverlong : k = 0 → 0x10 ≤ d₁) (hlast : k = 4 → d₁ < 0x10) :
    0x10000 ≤ ((k * 64 + d₁) * 64 + d₂) * 64 + d₃ ∧
      ((k * 64 + d₁) * 64 + d₂) * 64 + d₃ < 0x110000 := by
  omega

/-- A unit that is a character consists of the bytes of that character. -/
theorem eq_encodeChar_of_nextUnit (h : nextUnit b bytes = (some c, rest)) :
    b :: bytes = encodeChar c ++ rest := by
  rw [nextUnit] at h
  rcases lead_cases b.toNat with ⟨hlead, hb⟩ | hlead | ⟨hlead, hb, hb'⟩ |
    ⟨low, high, hlead, hb, hb', hlow, hhigh, hoverlong, hlast⟩ |
    ⟨low, high, hlead, hb, hb', hlow, hhigh, hoverlong, hlast⟩
  · simp only [hlead] at h
    cases h
    rw [encodeChar_alone hb, UInt8.ofNat_toNat]
    rfl
  · simp [hlead] at h
  · obtain ⟨k, hk, hn⟩ := exists_eq_ofNat_of_le (n := 0xC0) (b := b) (by omega)
    simp only [hlead] at h
    rw [leadValue_one, hn, Nat.add_sub_cancel_left] at h
    obtain ⟨d₁, _, rfl, -, h₁, h⟩ := exists_of_continued_eq_some (Nat.le_refl _) h
    obtain ⟨rfl, rfl⟩ := continued_zero_eq_some h
    rw [hn] at hb hb'
    rw [encodeChar_two (by omega) (by omega) (by omega), hk]
    rfl
  · obtain ⟨k, hk, hn⟩ := exists_eq_ofNat_of_le hb
    simp only [hlead] at h
    rw [leadValue_two, hn, Nat.add_sub_cancel_left] at h
    obtain ⟨d₁, _, rfl, h₁, h₁', h⟩ := exists_of_continued_eq_some hlow h
    obtain ⟨d₂, _, rfl, -, h₂, h⟩ := exists_of_continued_eq_some (Nat.le_refl _) h
    obtain ⟨rfl, rfl⟩ := continued_zero_eq_some h
    rw [hn] at hb' hoverlong hlast
    obtain ⟨hvalid, hbounds⟩ := isValidChar_three k d₁ d₂ (by omega) (by omega) (by omega)
      (by omega) (by omega)
    rw [encodeChar_three rfl (by omega) (by omega) hvalid hbounds.1 hbounds.2, hk]
    rfl
  · obtain ⟨k, hk, hn⟩ := exists_eq_ofNat_of_le hb
    simp only [hlead] at h
    rw [leadValue_three, hn, Nat.add_sub_cancel_left] at h
    obtain ⟨d₁, _, rfl, h₁, h₁', h⟩ := exists_of_continued_eq_some hlow h
    obtain ⟨d₂, _, rfl, -, h₂, h⟩ := exists_of_continued_eq_some (Nat.le_refl _) h
    obtain ⟨d₃, _, rfl, -, h₃, h⟩ := exists_of_continued_eq_some (Nat.le_refl _) h
    obtain ⟨rfl, rfl⟩ := continued_zero_eq_some h
    rw [hn] at hb' hoverlong hlast
    obtain ⟨hlower, hupper⟩ := bounds_four k d₁ d₂ d₃ (by omega) (by omega) (by omega)
      (by omega) (by omega) (by omega)
    rw [encodeChar_four rfl (by omega) (by omega) (by omega) hlower hupper, hk]
    rfl

/-- Bytes are read strictly exactly if they are those of a text. -/
theorem decode?_eq_some_iff {s : List Char} : decode? bytes = some s ↔ encode s = bytes := by
  constructor
  · intro h
    induction bytes using units.induct generalizing s with
    | case1 =>
      rw [decode?, units_nil] at h
      cases h
      rfl
    | case2 b bytes ih =>
      rw [decode?, units_cons, List.mapM_cons] at h
      obtain ⟨c, hc, h⟩ := Option.bind_eq_some_iff.1 h
      obtain ⟨s, hs, h⟩ := Option.bind_eq_some_iff.1 h
      cases h
      rw [encode_cons, ih hs]
      exact (eq_encodeChar_of_nextUnit (Prod.ext hc rfl)).symm
  · rintro rfl
    exact decode?_encode s

/-! ## Units next to each other -/

/-- Whether a byte continues a character. -/
def continues (b : UInt8) : Bool :=
  0x80 ≤ b.toNat && b.toNat ≤ 0xBF

theorem nextUnit_of_continues (h : continues b = true) : nextUnit b bytes = (none, bytes) := by
  have hinvalid : Lead.of b.toNat = .invalid := by
    simp only [continues, Bool.and_eq_true, decide_eq_true_eq] at h
    rw [Lead.of, if_neg (by omega), if_pos (by omega)]
  rw [nextUnit, hinvalid]

theorem not_continues_of_encodeChar (h : encodeChar c = b :: bytes) : continues b = false := by
  obtain ⟨b', bytes', hchar, hunit⟩ := nextUnit_encodeChar c []
  obtain ⟨rfl, rfl⟩ := List.cons.inj (h.symm.trans hchar)
  cases hcontinues : continues b with
  | false => rfl
  | true =>
    rw [nextUnit_of_continues hcontinues] at hunit
    cases hunit

private theorem continued_append {after : UInt8} (h : continues after = false) (hlow : 0x80 ≤ low)
    (hhigh : high ≤ 0xBF) : continued value count low high (bytes ++ after :: rest) =
      ((continued value count low high bytes).1,
        (continued value count low high bytes).2 ++ after :: rest) := by
  fun_induction continued value count low high bytes with
  | case1 value low high bytes => rw [continued]
  | case2 value low high count =>
    -- The bounds for the next byte are within those of the bytes that continue a character.
    have hout : ¬(low ≤ after.toNat ∧ after.toNat ≤ high) := by
      simp only [continues, Bool.and_eq_false_iff, decide_eq_false_iff_not] at h
      omega
    rw [List.nil_append, continued, if_neg hout]
  | case3 value count low high b bytes hbounds ih =>
    rw [List.cons_append, continued, if_pos hbounds]
    exact ih (Nat.le_refl _) (Nat.le_refl _)
  | case4 value count low high b bytes hbounds =>
    rw [List.cons_append, continued, if_neg hbounds]

private theorem continued_suffix (value count low high : Nat) (bytes : List UInt8) :
    (continued value count low high bytes).2 <:+ bytes := by
  fun_induction continued value count low high bytes with
  | case1 => exact List.suffix_rfl
  | case2 => exact List.suffix_rfl
  | case3 _ _ _ _ b bytes _ ih => exact ih.trans (List.suffix_cons b bytes)
  | case4 => exact List.suffix_rfl

theorem nextUnit_suffix (b : UInt8) (bytes : List UInt8) : (nextUnit b bytes).2 <:+ b :: bytes := by
  refine List.IsSuffix.trans ?_ (List.suffix_cons b bytes)
  rw [nextUnit]
  split
  · exact List.suffix_rfl
  · exact List.suffix_rfl
  · exact continued_suffix ..

/-- A unit ends before a byte that continues no character, whatever it is. -/
theorem nextUnit_append {after : UInt8} (h : continues after = false) :
    nextUnit b (bytes ++ after :: rest) =
      ((nextUnit b bytes).1, (nextUnit b bytes).2 ++ after :: rest) := by
  rw [nextUnit, nextUnit]
  rcases lead_cases b.toNat with ⟨hlead, -⟩ | hlead | ⟨hlead, -⟩ | ⟨low, high, hlead, hb⟩ |
    ⟨low, high, hlead, hb⟩
  · rw [hlead]
  · rw [hlead]
  · rw [hlead]
    exact continued_append h (Nat.le_refl _) (Nat.le_refl _)
  · rw [hlead]
    exact continued_append h hb.2.2.1 hb.2.2.2.1
  · rw [hlead]
    exact continued_append h hb.2.2.1 hb.2.2.2.1

theorem units_append {after : UInt8} (h : continues after = false) (bytes rest : List UInt8) :
    units (bytes ++ after :: rest) = units bytes ++ units (after :: rest) := by
  induction bytes using units.induct with
  | case1 => rw [units_nil, List.nil_append, List.nil_append]
  | case2 b bytes ih =>
    rw [List.cons_append, units_cons, nextUnit_append h, ih, units_cons b, List.cons_append]

/-- Reading gets in step at a character, whatever stands before it. -/
theorem units_append_encodeChar (bytes rest : List UInt8) :
    units (bytes ++ (encodeChar c ++ rest)) = units bytes ++ some c :: units rest := by
  obtain ⟨b, bytes', hchar, hunit⟩ := nextUnit_encodeChar c rest
  rw [hchar, List.cons_append, units_append (not_continues_of_encodeChar hchar), units_cons, hunit]

theorem units_encode_append (s : List Char) (rest : List UInt8) :
    units (encode s ++ rest) = s.map some ++ units rest := by
  induction s with
  | nil => rfl
  | cons c s ih =>
    rw [encode_cons, List.append_assoc, ← List.nil_append (encodeChar c ++ _),
      units_append_encodeChar, ih, units_nil, List.nil_append, List.map_cons, List.cons_append]

/-! ## Texts in bytes -/

variable {s t : List Char}

/-- A text is read wherever its bytes are. -/
theorem infix_decodeLossy (h : encode s <:+: bytes) : s <:+: decodeLossy bytes := by
  cases s with
  | nil => exact List.nil_infix
  | cons c s =>
    obtain ⟨before, after, rfl⟩ := h
    refine ⟨(units before).map (·.getD '\uFFFD'), (units after).map (·.getD '\uFFFD'), ?_⟩
    have hbytes : before ++ encode (c :: s) ++ after =
        before ++ (encodeChar c ++ (encode s ++ after)) := by
      simp only [encode_cons, List.append_assoc]
    rw [decodeLossy, hbytes, units_append_encodeChar, units_encode_append]
    simp [Function.comp_def]

/-- A text that is read first, and holds no replacement character, has its bytes first. -/
private theorem encode_prefix_of_decodeLossy (h : s <+: decodeLossy bytes)
    (hs : '\uFFFD' ∉ s) : encode s <+: bytes := by
  induction s generalizing bytes with
  | nil => exact List.nil_prefix
  | cons c s ih =>
    rw [List.mem_cons, not_or] at hs
    cases bytes with
    | nil => simp [decodeLossy] at h
    | cons b bytes =>
      rw [decodeLossy, units_cons, List.map_cons, List.cons_prefix_cons] at h
      obtain ⟨hc, hrest⟩ := h
      cases hunit : nextUnit b bytes with
      | mk read rest =>
        rw [hunit] at hc hrest
        cases read with
        | none => exact absurd hc.symm hs.1
        | some c' =>
          obtain rfl : c = c' := hc
          rw [eq_encodeChar_of_nextUnit hunit, encode_cons, List.prefix_append_right_inj]
          exact ih hrest hs.2

/-- A text without replacement characters occurs in what is read leniently exactly if its bytes
occur in what is read. -/
theorem infix_decodeLossy_iff (hs : '\uFFFD' ∉ s) :
    s <:+: decodeLossy bytes ↔ encode s <:+: bytes := by
  constructor
  · intro h
    induction bytes using units.induct with
    | case1 =>
      obtain rfl : s = [] := by simpa [decodeLossy] using h
      exact List.nil_infix
    | case2 b bytes ih =>
      rw [decodeLossy, units_cons, List.map_cons, List.infix_cons_iff] at h
      rcases h with hprefix | hinfix
      · refine (encode_prefix_of_decodeLossy ?_ hs).isInfix
        rw [decodeLossy, units_cons, List.map_cons]
        exact hprefix
      · exact (ih hinfix).trans (nextUnit_suffix b bytes).isInfix
  · exact infix_decodeLossy

end CaseReport.Text.Utf8
