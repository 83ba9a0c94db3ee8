import CaseReport.Proofs.Toml.Lines
import CaseReport.Proofs.Toml.ValueGrammar

/-!
# Reading texts over several lines

Every text that is written as one is read as a value, also where it spans several lines: the three
quotes at its end are the first that stand together.
-/

namespace CaseReport.Toml

variable {s rest newline : List Char} {c quote : Char} {n : Nat}
  {reader : List Char → Option (List Char × List Char)}

/-- A reader reads a text up to its end. -/
def ReadsAll (reader : List Char → Option (List Char × List Char)) (s : List Char) : Prop :=
  ∃ text, reader s = some (text, [])

theorem ReadsAll.prepend (h : ReadsAll reader rest)
    (hs : reader s = (reader rest).map (Toml.prepend c)) : ReadsAll reader s := by
  obtain ⟨text, h⟩ := h
  exact ⟨c :: text, by rw [hs, h]; rfl⟩

/-! ## The end of a text -/

theorem closing?_replicate (h : n ≤ 2) :
    closing? quote (List.replicate (n + 3) quote) = some (List.replicate n quote, []) := by
  have hrun : (List.replicate (n + 3) quote).takeWhile (· == quote) =
      List.replicate (n + 3) quote := by
    rw [List.takeWhile_replicate, if_pos (beq_self_eq_true quote)]
  rw [closing?, hrun, List.length_replicate, if_neg (by omega), List.drop_replicate]
  simp [h]

theorem closing?_of_ne (h : ∀ d ∈ s.head?, d ≠ quote) : closing? quote s = none := by
  have hrun : s.takeWhile (· == quote) = [] :=
    takeWhile_append_of_head (s := []) fun d hd => beq_false_of_ne (h d hd)
  rw [closing?, hrun]
  exact if_pos (by decide)

theorem closing?_of_quote (h : ∀ t, s ≠ quote :: quote :: t) :
    closing? quote (quote :: s) = none := by
  have hrun : (s.takeWhile (· == quote)).length ≤ 1 := by
    match s with
    | [] => simp
    | [c] => exact (List.takeWhile_prefix _).length_le
    | c :: d :: s =>
      by_cases hc : c = quote
      · subst hc
        have hd : d ≠ c := by
          rintro rfl
          exact h s rfl
        simp [hd]
      · simp [hc]
  have hrun' : ((quote :: s).takeWhile (· == quote)).length < 3 := by
    rw [List.takeWhile_cons, if_pos (beq_self_eq_true quote), List.length_cons]
    omega
  rw [closing?]
  exact if_pos hrun'

/-! ## Characters and ends of lines -/

theorem lineCharacter_of_isPrintable (h : isPrintable c = true) :
    lineCharacter (c :: s) = some (c, s) := by
  rw [lineCharacter, if_pos h]

theorem afterNewline?_of_isNewline (h : IsNewline newline) (s : List Char) :
    afterNewline? (newline ++ s) = some s := by
  rcases h with rfl | rfl <;> rfl

theorem lineCharacter_of_isNewline (h : IsNewline newline) (s : List Char) :
    lineCharacter (newline ++ s) = some ('\n', s) := by
  rcases h with rfl | rfl <;> rfl

theorem IsNewline.head_ne (h : IsNewline newline) (hquote : isPrintable quote = true) :
    ∀ d ∈ (newline ++ s).head?, d ≠ quote := by
  rintro d hd rfl
  rcases h with rfl | rfl <;> cases hd <;> cases hquote

theorem skipLines_of_isNewline (h : IsNewline newline) (s : List Char) :
    skipLines (newline ++ s) = skipLines s := by
  rcases h with rfl | rfl
  · rw [List.singleton_append, skipLines]
  · rw [List.cons_append, List.singleton_append, skipLines]

theorem skipLines_of_isPrintable (h : isPrintable c = true) :
    skipLines (c :: s) = if isSpace c then skipLines s else c :: s := by
  rw [skipLines]
  · rintro rfl
    cases h
  · rintro _ rfl
    cases h

theorem afterContinuation?_of_isBlank {blank : List Char} (hblank : IsBlank blank)
    (h : IsNewline newline) (s : List Char) :
    afterContinuation? (blank ++ (newline ++ s)) = some (skipLines s) := by
  have hskip : skipSpace (newline ++ s) = newline ++ s := by
    rcases h with rfl | rfl <;> exact skipSpace_cons rfl
  rw [afterContinuation?, skipSpace_blank hblank, hskip, afterNewline?_of_isNewline h,
    Option.map_some]

/-! ## Texts over several lines -/

/-- Behind the end of a continued line blanks and further ends of lines are left out, so what is
behind these has to be read as well. -/
theorem IsLongRest.readsAll_quotedLines (h : IsLongRest '"' s) :
    ReadsAll quotedLines s ∧ ReadsAll quotedLines (skipLines s) := by
  have hself : ∀ {c s}, isPrintable c = true → isSpace c = false → ReadsAll quotedLines (c :: s) →
      ReadsAll quotedLines (c :: s) ∧ ReadsAll quotedLines (skipLines (c :: s)) := by
    intro c s hc hspace h
    rw [skipLines_of_isPrintable hc, hspace]
    exact ⟨h, h⟩
  have hbackslash : ∀ {s}, closing? '"' ('\\' :: s) = none :=
    closing?_of_ne fun d hd => by cases hd; decide
  induction h with
  | @closing n h => exact hself rfl rfl ⟨_, quotedLines_of_closing (closing?_replicate h)⟩
  | quote h _ ih =>
    exact hself rfl rfl (ih.1.prepend (quotedLines_of_lineCharacter (closing?_of_quote h)
      (fun t ht => by cases ht) (lineCharacter_of_isPrintable rfl)))
  | @plain c s hc hquote hescape _ ih =>
    have hread : ReadsAll quotedLines (c :: s) := by
      refine ih.1.prepend (quotedLines_of_lineCharacter (closing?_of_ne ?_) ?_
        (lineCharacter_of_isPrintable hc))
      · rintro d hd rfl
        cases hd
        exact hquote rfl
      · exact fun t ht => hescape rfl (List.cons.inj ht).1
    cases hspace : isSpace c with
    | true =>
      rw [skipLines_of_isPrintable hc, hspace]
      exact ⟨hread, ih.2⟩
    | false => exact hself hc hspace hread
  | @newline newline s h _ ih =>
    rw [skipLines_of_isNewline h]
    refine ⟨ih.1.prepend (quotedLines_of_lineCharacter (closing?_of_ne (h.head_ne rfl)) ?_
      (lineCharacter_of_isNewline h s)), ih.2⟩
    rintro t ht
    rcases h with rfl | rfl <;> cases ht
  | escape _ h _ ih =>
    exact hself rfl rfl (ih.1.prepend (quotedLines_of_escape hbackslash (escape_of_escapes h)))
  | @continued blank newline s _ hblank hnewline _ ih =>
    refine hself rfl rfl ?_
    obtain ⟨text, htext⟩ := ih.2
    exact ⟨text, (quotedLines_of_continuation hbackslash
      (afterContinuation?_of_isBlank hblank hnewline s)).trans htext⟩

theorem IsLongRest.readsAll_literalLines (h : IsLongRest '\'' s) : ReadsAll literalLines s := by
  induction h with
  | closing h => exact ⟨_, literalLines_of_closing (closing?_replicate h)⟩
  | quote h _ ih =>
    exact ih.prepend (literalLines_of_lineCharacter (closing?_of_quote h)
      (lineCharacter_of_isPrintable rfl))
  | plain hc hquote _ _ ih =>
    refine ih.prepend (literalLines_of_lineCharacter (closing?_of_ne ?_)
      (lineCharacter_of_isPrintable hc))
    rintro d hd rfl
    cases hd
    exact hquote rfl
  | @newline newline s h _ ih =>
    exact ih.prepend (literalLines_of_lineCharacter (closing?_of_ne (h.head_ne rfl))
      (lineCharacter_of_isNewline h s))
  | escape hquote => cases hquote
  | continued hquote => cases hquote

/-- What follows an end of a line in such a text is the rest of one, too. -/
theorem IsLongRest.skipFirstNewline (h : IsLongRest quote s) (hquote : isPrintable quote = true) :
    IsLongRest quote (skipFirstNewline s) := by
  have hself : ∀ {c s}, isPrintable c = true → IsLongRest quote (c :: s) →
      IsLongRest quote (Toml.skipFirstNewline (c :: s)) := by
    intro c s hc h
    have hnone : afterNewline? (c :: s) = none := by
      rw [afterNewline?]
      · rintro t ht
        cases ht
        cases hc
      · rintro t ht
        cases ht
        cases hc
    rw [Toml.skipFirstNewline, hnone]
    exact h
  cases h with
  | closing h => exact hself hquote (.closing h)
  | quote h hs => exact hself hquote (.quote h hs)
  | plain hc hne hescape hs => exact hself hc (.plain hc hne hescape hs)
  | newline h hs =>
    rw [Toml.skipFirstNewline, afterNewline?_of_isNewline h]
    exact hs
  | escape hescape h hs => exact hself rfl (.escape hescape h hs)
  | continued hescape hblank hnewline hs =>
    exact hself rfl (.continued hescape hblank hnewline hs)

theorem IsLongRest.skipFirstNewline_append (h : IsLongRest quote s)
    (hquote : isPrintable quote = true) (hnewline : newline = [] ∨ IsNewline newline) :
    IsLongRest quote (Toml.skipFirstNewline (newline ++ s)) := by
  rcases hnewline with rfl | hnewline
  · exact h.skipFirstNewline hquote
  · rw [Toml.skipFirstNewline, afterNewline?_of_isNewline hnewline]
    exact h

/-! ## Texts of any form -/

theorem ReadsAll.isValueText (h : ReadsAll readText s)
    (hs : ∃ t, s = '"' :: t ∨ s = '\'' :: t) (depth : Nat) : IsValueText depth s := by
  obtain ⟨text, htext⟩ := h
  have hvalue : readTextValue s = some (.text (String.ofList text), []) := by
    rw [readTextValue, htext]
    rfl
  obtain ⟨t, rfl | rfl⟩ := hs
  · exact ⟨_, by rw [readValue, hvalue]⟩
  · exact ⟨_, by rw [readValue, hvalue]⟩

/-- Every text is read as a value. -/
theorem isValueText_of_isText (h : IsText s) (depth : Nat) : IsValueText depth s := by
  cases h with
  | quoted h => exact ⟨_, readValue_of_isQuoted h⟩
  | @literal s h =>
    refine ReadsAll.isValueText ⟨s, ?_⟩ ⟨_, .inr rfl⟩ depth
    have hthree : ∀ t, s ++ ['\''] ≠ '\'' :: '\'' :: t := by
      intro t ht
      cases s with
      | nil => cases ht
      | cons c s => exact (h c List.mem_cons_self).2 (List.cons.inj ht).1
    rw [readText]
    · exact literalText_of_forall h
    · exact hthree
  | long hquote hnewline h =>
    rcases hquote with rfl | rfl
    · refine ReadsAll.isValueText ?_ ⟨_, .inl rfl⟩ depth
      exact (h.skipFirstNewline_append rfl hnewline).readsAll_quotedLines.1
    · refine ReadsAll.isValueText ?_ ⟨_, .inr rfl⟩ depth
      exact (h.skipFirstNewline_append rfl hnewline).readsAll_literalLines

end CaseReport.Toml
