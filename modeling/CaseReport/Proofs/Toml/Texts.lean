import CaseReport.Toml.Text
import CaseReport.Toml.Plain

/-!
# Values that something follows

A reader that has read a value from a text reads the same value from a longer one, and leaves what
it left before in front of what is new. Only where the value reaches up to the end of the text does
it matter what is new: it has to be something that no value goes on with.
-/

namespace CaseReport.Toml

open Text

variable {α : Type} {s rest more token : List Char} {c : Char} {text raw : List Char}

/-- What may follow a value: blanks, and behind them nothing, a comment, the end of a line, or what
ends an item. -/
def EndsValue (s : List Char) : Prop :=
  ∀ c ∈ (skipSpace s).head?, c ∈ ['#', '\n', '\r', ',', ']', '}']

/-- A reader that reads the same from a text whatever is put behind it, if no value goes on with
that. -/
def IsLocal (reader : List Char → Option (α × List Char)) : Prop :=
  ∀ {s v rest more}, reader s = some (v, rest) → EndsValue more →
    reader (s ++ more) = some (v, rest ++ more)

/-! ## What a value does not go on with -/

theorem EndsValue.head (h : EndsValue more) (hc : c ∈ more.head?) :
    isSpace c = true ∨ c ∈ ['#', '\n', '\r', ',', ']', '}'] := by
  obtain ⟨more, rfl⟩ : ∃ t, more = c :: t := by
    cases more with
    | nil => cases hc
    | cons d t =>
      cases hc
      exact ⟨t, rfl⟩
  cases hspace : isSpace c with
  | true => exact .inl rfl
  | false =>
    refine .inr (h c ?_)
    rw [skipSpace, List.dropWhile_cons_of_neg (by simp [hspace])]
    rfl

theorem EndsValue.of_cons (h : EndsValue (c :: more)) (hspace : isSpace c = true) :
    EndsValue more := by
  rw [EndsValue, skipSpace, List.dropWhile_cons_of_pos hspace] at h
  exact h

theorem isSpace_iff : isSpace c = true ↔ c = ' ' ∨ c = '\t' := by
  simp [isSpace]

/-- No character that ends a value belongs to a plain value or begins a text. -/
theorem EndsValue.not_of_head (h : EndsValue more) (hc : c ∈ more.head?) :
    isPlain c = false ∧ c ≠ '"' ∧ c ≠ '\'' := by
  rcases h.head hc with hspace | hend
  · rcases isSpace_iff.1 hspace with rfl | rfl <;> decide
  · simp only [List.mem_cons, List.not_mem_nil, or_false] at hend
    rcases hend with rfl | rfl | rfl | rfl | rfl | rfl <;> decide

/-! ## The part in front -/

section

variable {p : Char → Bool}

theorem takeWhile_append_of_head (h : ∀ c ∈ more.head?, p c = false) :
    (s ++ more).takeWhile p = s.takeWhile p := by
  induction s with
  | nil =>
    cases more with
    | nil => rfl
    | cons c more => exact List.takeWhile_cons_of_neg (by simp [h c rfl])
  | cons d s ih => rw [List.cons_append, List.takeWhile_cons, List.takeWhile_cons, ih]

theorem dropWhile_append_of_head (h : ∀ c ∈ more.head?, p c = false) :
    (s ++ more).dropWhile p = s.dropWhile p ++ more := by
  induction s with
  | nil =>
    cases more with
    | nil => rfl
    | cons c more => exact List.dropWhile_cons_of_neg (by simp [h c rfl])
  | cons d s ih =>
    rw [List.cons_append, List.dropWhile_cons, List.dropWhile_cons, ih]
    split <;> rfl

theorem takeWhile_append_of_forall (hs : ∀ c ∈ s, p c = true)
    (h : ∀ c ∈ more.head?, p c = false) : (s ++ more).takeWhile p = s := by
  have hnil : more.takeWhile p = [] := takeWhile_append_of_head (s := []) h
  rw [List.takeWhile_append_of_pos hs, hnil, List.append_nil]

theorem dropWhile_append_of_forall (hs : ∀ c ∈ s, p c = true)
    (h : ∀ c ∈ more.head?, p c = false) : (s ++ more).dropWhile p = more := by
  have hself : more.dropWhile p = more := dropWhile_append_of_head (s := []) h
  rw [List.dropWhile_append_of_pos hs, hself]

theorem dropWhile_append_of_ne_nil (h : s.dropWhile p ≠ []) :
    (s ++ more).dropWhile p = s.dropWhile p ++ more := by
  rw [List.dropWhile_append, if_neg (by simpa using h)]

theorem takeWhile_append_of_ne_nil (h : s.dropWhile p ≠ []) :
    (s ++ more).takeWhile p = s.takeWhile p := by
  induction s with
  | nil => exact absurd rfl h
  | cons c s ih =>
    rw [List.cons_append, List.takeWhile_cons, List.takeWhile_cons]
    split
    · next hc => rw [ih (by rwa [List.dropWhile_cons_of_pos hc] at h)]
    · rfl

end

/-! ## Texts on one line -/

theorem codePoint_append {count : Nat} (h : codePoint count s = some (c, rest))
    (more : List Char) : codePoint count (s ++ more) = some (c, rest ++ more) := by
  unfold codePoint at h ⊢
  split at h
  · next hlength =>
    rw [if_pos (by rw [List.length_append]; omega), List.take_append_of_le_length hlength,
      List.drop_append_of_le_length hlength]
    simp only [Option.bind_eq_bind, Option.bind_eq_some_iff, Option.pure_def,
      Option.some.injEq, Prod.mk.injEq] at h ⊢
    obtain ⟨n, hn, d, hd, rfl, rfl⟩ := h
    exact ⟨n, hn, d, hd, rfl, rfl⟩
  · cases h

theorem escape_append (h : escape s = some (c, rest)) (more : List Char) :
    escape (s ++ more) = some (c, rest ++ more) := by
  unfold escape at h
  split at h
  · cases h
  · exact codePoint_append h more
  · exact codePoint_append h more
  · next hshort hlong =>
    obtain ⟨d, hd, h⟩ := Option.map_eq_some_iff.1 h
    cases h
    rw [List.cons_append, escape]
    · rw [hd]
      rfl
    · exact hshort
    · exact hlong

theorem quotedText_append (h : quotedText s = some (text, rest)) (more : List Char) :
    quotedText (s ++ more) = some (text, rest ++ more) := by
  fun_induction quotedText s generalizing text with
  | case1 => cases h
  | case2 s =>
    cases h
    rw [List.cons_append, quotedText]
  | case3 => cases h
  | case4 s c t hescape _ ih =>
    obtain ⟨⟨text', rest'⟩, ht, h⟩ := Option.map_eq_some_iff.1 h
    cases h
    rw [List.cons_append, quotedText]
    split
    · next hnone => cases (escape_append hescape more).symm.trans hnone
    · next hsome =>
      cases (escape_append hescape more).symm.trans hsome
      rw [ih ht]
      rfl
  | case5 c s hquote hbackslash hprintable ih =>
    obtain ⟨⟨text', rest'⟩, ht, h⟩ := Option.map_eq_some_iff.1 h
    cases h
    rw [List.cons_append, quotedText, if_pos hprintable, ih ht]
    · rfl
    · exact hquote
    · exact hbackslash
  | case6 => cases h

theorem literalText_append (h : literalText s = some (text, rest)) (more : List Char) :
    literalText (s ++ more) = some (text, rest ++ more) := by
  fun_induction literalText s generalizing text with
  | case1 => cases h
  | case2 s =>
    cases h
    rw [List.cons_append, literalText]
  | case3 c s hquote hprintable ih =>
    obtain ⟨⟨text', rest'⟩, ht, h⟩ := Option.map_eq_some_iff.1 h
    cases h
    rw [List.cons_append, literalText, if_pos hprintable, ih ht]
    · rfl
    · exact hquote
  | case4 => cases h

/-! ## Texts over several lines -/

theorem afterNewline?_append (h : afterNewline? s = some rest) (more : List Char) :
    afterNewline? (s ++ more) = some (rest ++ more) := by
  unfold afterNewline? at h
  split at h
  · cases h
    rfl
  · cases h
    rfl
  · cases h

theorem closing?_append {quote : Char} (h : ∀ c ∈ more.head?, c ≠ quote) :
    closing? quote (s ++ more) =
      (closing? quote s).map fun reading => (reading.1, reading.2 ++ more) := by
  have hrun : (s ++ more).takeWhile (· == quote) = s.takeWhile (· == quote) :=
    takeWhile_append_of_head fun c hc => by simpa using h c hc
  unfold closing?
  rw [hrun]
  dsimp only
  split
  · rfl
  · have hle : (s.takeWhile (· == quote)).length ≤ s.length :=
      (List.takeWhile_sublist _).length_le
    rw [Option.map_some, List.drop_append_of_le_length (by omega)]

theorem lineCharacter_append (h : lineCharacter s = some (c, rest)) (more : List Char) :
    lineCharacter (s ++ more) = some (c, rest ++ more) := by
  unfold lineCharacter at h
  split at h
  · cases h
  · next d s =>
    rw [List.cons_append, lineCharacter]
    split at h
    · next hprintable =>
      cases h
      rw [if_pos hprintable]
    · next hprintable =>
      obtain ⟨t, ht, h⟩ := Option.map_eq_some_iff.1 h
      cases h
      rw [if_neg hprintable, ← List.cons_append, afterNewline?_append ht]
      rfl

/-- A single carriage return at the end might become the end of a line. -/
theorem skipLines_append (hne : skipLines s ≠ []) (hreturn : skipLines s ≠ ['\r']) :
    skipLines (s ++ more) = skipLines s ++ more := by
  fun_induction skipLines s with
  | case1 s ih => rw [List.cons_append, skipLines, ih hne hreturn]
  | case2 s ih => rw [List.cons_append, List.cons_append, skipLines, ih hne hreturn]
  | case3 c s hnewline hpair hspace ih =>
    rw [List.cons_append, skipLines, if_pos hspace, ih hne hreturn]
    · exact hnewline
    · rintro _ rfl
      cases hspace
  | case4 c s hnewline hpair hspace =>
    rw [List.cons_append, skipLines, if_neg hspace]
    · exact hnewline
    · rintro t rfl ht
      cases s with
      | nil => exact hreturn rfl
      | cons d s =>
        cases ht
        exact hpair s rfl rfl
  | case5 => exact absurd rfl hne

theorem afterContinuation?_append (h : afterContinuation? s = some rest) (hne : rest ≠ [])
    (hreturn : rest ≠ ['\r']) : afterContinuation? (s ++ more) = some (rest ++ more) := by
  obtain ⟨t, ht, rfl⟩ := Option.map_eq_some_iff.1 h
  have hspace : skipSpace s ≠ [] := by
    intro hnil
    rw [hnil] at ht
    cases ht
  rw [afterContinuation?, skipSpace, dropWhile_append_of_ne_nil hspace]
  rw [← skipSpace, afterNewline?_append ht, Option.map_some, skipLines_append hne hreturn]

/-- A backslash in front of an escape does not end its line. -/
theorem afterContinuation?_of_escape (h : escape s = some (c, rest)) :
    afterContinuation? s = none := by
  have hhead : ∀ e t, s = e :: t → isSpace e = false ∧ e ≠ '\n' ∧ e ≠ '\r' := by
    rintro e t rfl
    refine ⟨?_, ?_, ?_⟩
    · rw [Bool.eq_false_iff]
      intro hspace
      rcases isSpace_iff.1 hspace with rfl | rfl <;> cases h
    · rintro rfl
      cases h
    · rintro rfl
      cases h
  cases s with
  | nil => cases h
  | cons e t =>
    obtain ⟨hspace, hnewline, hreturn⟩ := hhead e t rfl
    rw [afterContinuation?, skipSpace, List.dropWhile_cons_of_neg (by simp [hspace]),
      Option.map_eq_none_iff, afterNewline?]
    · exact fun _ h => hnewline (List.cons.inj h).1
    · exact fun _ h => hreturn (List.cons.inj h).1

theorem quotedLines_of_closing {reading : List Char × List Char}
    (h : closing? '"' s = some reading) : quotedLines s = some reading := by
  unfold quotedLines
  rw [h]

theorem quotedLines_of_continuation (h : closing? '"' ('\\' :: s) = none)
    (hcontinued : afterContinuation? s = some rest) :
    quotedLines ('\\' :: s) = quotedLines rest := by
  rw [quotedLines, h]
  dsimp only
  split
  · next hsome =>
    cases hcontinued.symm.trans hsome
    rfl
  · next hnone => cases hcontinued.symm.trans hnone

theorem quotedLines_of_escape (h : closing? '"' ('\\' :: s) = none)
    (hescape : escape s = some (c, rest)) :
    quotedLines ('\\' :: s) = (quotedLines rest).map (prepend c) := by
  rw [quotedLines, h]
  dsimp only
  split
  · next hsome => cases (afterContinuation?_of_escape hescape).symm.trans hsome
  · split
    · next hnone => cases hescape.symm.trans hnone
    · next hsome =>
      cases hescape.symm.trans hsome
      rfl

theorem quotedLines_of_lineCharacter (h : closing? '"' s = none) (hs : ∀ t, s ≠ '\\' :: t)
    (hline : lineCharacter s = some (c, rest)) :
    quotedLines s = (quotedLines rest).map (prepend c) := by
  rw [quotedLines, h]
  · dsimp only
    split
    · next hnone => cases hline.symm.trans hnone
    · next hsome =>
      cases hline.symm.trans hsome
      rfl
  · exact hs

/-- A text over several lines does not end with nothing left, nor with half an end of a line. -/
theorem quotedLines_short (h : quotedLines s = some (text, rest)) : s ≠ [] ∧ s ≠ ['\r'] := by
  constructor
  · rintro rfl
    rw [quotedLines] at h
    · cases h
    · rintro _ ⟨⟩
  · rintro rfl
    rw [quotedLines] at h
    · cases h
    · rintro _ ⟨⟩

theorem closing?_append_eq_none {quote : Char} (hmore : ∀ c ∈ more.head?, c ≠ quote)
    (h : closing? quote s = none) : closing? quote (s ++ more) = none := by
  rw [closing?_append hmore, h, Option.map_none]

theorem quotedLines_append (hmore : ∀ c ∈ more.head?, c ≠ '"')
    (h : quotedLines s = some (text, rest)) :
    quotedLines (s ++ more) = some (text, rest ++ more) := by
  fun_induction quotedLines s generalizing text with
  | case1 s reading hclosing =>
    cases h
    exact quotedLines_of_closing (by rw [closing?_append hmore, hclosing]; rfl)
  | case2 s t hcontinued _ hopen ih =>
    obtain ⟨hne, hreturn⟩ := quotedLines_short h
    exact (quotedLines_of_continuation (closing?_append_eq_none hmore hopen)
      (afterContinuation?_append hcontinued hne hreturn)).trans (ih h)
  | case3 => cases h
  | case4 s hcontinued c t hescape _ hopen ih =>
    obtain ⟨⟨text', rest'⟩, ht, h⟩ := Option.map_eq_some_iff.1 h
    cases h
    refine (quotedLines_of_escape (closing?_append_eq_none hmore hopen)
      (escape_append hescape more)).trans ?_
    rw [ih ht]
    rfl
  | case5 => cases h
  | case6 s hbackslash c t hline _ hopen ih =>
    obtain ⟨⟨text', rest'⟩, ht, h⟩ := Option.map_eq_some_iff.1 h
    cases h
    have hbackslash' : ∀ t, s ++ more ≠ '\\' :: t := by
      cases s with
      | nil => cases hline
      | cons d s => exact fun t hs => hbackslash s (by rw [(List.cons.inj hs).1])
    rw [quotedLines_of_lineCharacter (closing?_append_eq_none hmore hopen) hbackslash'
      (lineCharacter_append hline more), ih ht]
    rfl

theorem literalLines_of_closing {reading : List Char × List Char}
    (h : closing? '\'' s = some reading) : literalLines s = some reading := by
  rw [literalLines, h]

theorem literalLines_of_lineCharacter (h : closing? '\'' s = none)
    (hline : lineCharacter s = some (c, rest)) :
    literalLines s = (literalLines rest).map (prepend c) := by
  rw [literalLines, h]
  dsimp only
  split
  · next hnone => cases hline.symm.trans hnone
  · next hsome =>
    cases hline.symm.trans hsome
    rfl

theorem literalLines_append (hmore : ∀ c ∈ more.head?, c ≠ '\'')
    (h : literalLines s = some (text, rest)) :
    literalLines (s ++ more) = some (text, rest ++ more) := by
  fun_induction literalLines s generalizing text with
  | case1 s reading hclosing =>
    cases h
    exact literalLines_of_closing (by rw [closing?_append hmore, hclosing]; rfl)
  | case2 => cases h
  | case3 s hopen c t hline _ ih =>
    obtain ⟨⟨text', rest'⟩, ht, h⟩ := Option.map_eq_some_iff.1 h
    cases h
    rw [literalLines_of_lineCharacter (closing?_append_eq_none hmore hopen)
      (lineCharacter_append hline more), ih ht]
    rfl

/-- A text over several lines in single quotes does not end so either. -/
theorem literalLines_short (h : literalLines s = some (text, rest)) : s ≠ [] ∧ s ≠ ['\r'] := by
  constructor
  · rintro rfl
    rw [literalLines] at h
    cases h
  · rintro rfl
    rw [literalLines] at h
    cases h

theorem afterNewline?_append_eq_none (h : afterNewline? s = none) (hne : s ≠ [])
    (hreturn : s ≠ ['\r']) : afterNewline? (s ++ more) = none := by
  match s with
  | [] => exact absurd rfl hne
  | [c] =>
    rw [List.singleton_append, afterNewline?]
    · rintro _ ht
      rw [(List.cons.inj ht).1] at h
      cases h
    · rintro _ ht
      exact hreturn (by rw [(List.cons.inj ht).1])
  | c :: d :: s =>
    rw [List.cons_append, List.cons_append, afterNewline?]
    · rintro _ ht
      rw [(List.cons.inj ht).1] at h
      cases h
    · rintro _ ht
      rw [(List.cons.inj ht).1, (List.cons.inj (List.cons.inj ht).2).1] at h
      cases h

theorem skipFirstNewline_append (hne : s ≠ []) (hreturn : s ≠ ['\r']) :
    skipFirstNewline (s ++ more) = skipFirstNewline s ++ more := by
  rw [skipFirstNewline, skipFirstNewline]
  cases h : afterNewline? s with
  | some rest =>
    rw [afterNewline?_append h]
    rfl
  | none =>
    rw [afterNewline?_append_eq_none h hne hreturn]
    rfl

/-! ## Texts of any form -/

/-- Two quotes are three only with one more behind them. -/
theorem ne_of_quotes {quote : Char} (hmore : ∀ c ∈ more.head?, c ≠ quote) (hne : s ≠ [])
    (h : ∀ t, s ≠ quote :: quote :: t) (t : List Char) : s ++ more ≠ quote :: quote :: t := by
  match s with
  | [] => exact absurd rfl hne
  | [c] =>
    intro ht
    have hhead : more = quote :: t := (List.cons.inj ht).2
    exact hmore quote (by rw [hhead]; rfl) rfl
  | c :: d :: s =>
    intro ht
    obtain ⟨rfl, ht⟩ := List.cons.inj ht
    obtain ⟨rfl, -⟩ := List.cons.inj ht
    exact h s rfl

theorem isLocal_readText : IsLocal readText := by
  intro s reading rest more h hmore
  have hdouble : ∀ c ∈ more.head?, c ≠ '"' := fun c hc => (hmore.not_of_head hc).2.1
  have hsingle : ∀ c ∈ more.head?, c ≠ '\'' := fun c hc => (hmore.not_of_head hc).2.2
  unfold readText at h
  split at h
  · next s =>
    have hshort : s ≠ [] ∧ s ≠ ['\r'] := by
      constructor
      · rintro rfl
        exact (quotedLines_short h).1 rfl
      · rintro rfl
        exact (quotedLines_short h).2 rfl
    exact (congrArg quotedLines (skipFirstNewline_append hshort.1 hshort.2)).trans
      (quotedLines_append hdouble h)
  · next s =>
    have hshort : s ≠ [] ∧ s ≠ ['\r'] := by
      constructor
      · rintro rfl
        exact (literalLines_short h).1 rfl
      · rintro rfl
        exact (literalLines_short h).2 rfl
    exact (congrArg literalLines (skipFirstNewline_append hshort.1 hshort.2)).trans
      (literalLines_append hsingle h)
  · next s hthree =>
    have hne : s ≠ [] := by
      rintro rfl
      rw [quotedText] at h
      cases h
    rw [List.cons_append, readText]
    · exact quotedText_append h more
    · exact ne_of_quotes hdouble hne hthree
  · next s hthree =>
    have hne : s ≠ [] := by
      rintro rfl
      rw [literalText] at h
      cases h
    rw [List.cons_append, readText]
    · exact literalText_append h more
    · exact ne_of_quotes hsingle hne hthree
  · cases h

end CaseReport.Toml
