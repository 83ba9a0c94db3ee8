import CaseReport.Proofs.Toml.Lines

/-!
# Reading a document

A text that is written as a valid document denotes the table that the document defines.
-/

namespace CaseReport.Toml

/-! ## Lines -/

/-- What a header says. -/
def Heading.statement : Heading → Statement
  | .table keys => .header keys
  | .arrayItem keys => .arrayHeader keys

/-- The statement of a line, if its value is a value and there are not too many keys. -/
def Line.statement? : Line → Option Statement
  | .pair binding => (binding.read? maxDepth).map fun (keys, v) => .pair keys v
  | .heading header =>
    if header.keys.length < pathLimit then some header.statement else none

/-- A line and its statement. -/
def Line.States (line : Line) (statement : Statement) : Prop :=
  line.statement? = some statement

section

variable {s t rest w margin newline path : List Char} {c : Char} {line : Line} {lines : List Line}
  {statement : Statement} {statements : List Statement}

theorem IsPath.ne_bracket {keys : List String} (h : IsPath path keys) (rest t : List Char) :
    path ++ rest ≠ '[' :: t := by
  obtain ⟨w, c, s, hw, rfl, hc, -⟩ := h.exists_blank
  intro ht
  cases w with
  | nil => exact (not_of_beginsKey hc).2.2.2.2 (List.cons.inj ht).1
  | cons d w =>
    have hd := hw d List.mem_cons_self
    rw [(List.cons.inj ht).1] at hd
    cases hd

theorem readHeader_table {keys : List String} (h : IsPath path keys)
    (hlength : keys.length < pathLimit) :
    readHeader (path ++ ']' :: rest) = some (.header keys, rest) := by
  rw [readHeader]
  · rw [readKey_of_isPath h hlength rfl (by decide) rfl]
    rfl
  · exact fun t => h.ne_bracket _ t

theorem readHeader_arrayItem {keys : List String} (h : IsPath path keys)
    (hlength : keys.length < pathLimit) :
    readHeader ('[' :: (path ++ ']' :: ']' :: rest)) = some (.arrayHeader keys, rest) := by
  rw [readHeader, readKey_of_isPath h hlength rfl (by decide) rfl]
  rfl

/-- What a line says is read behind the blanks in front of it. -/
theorem readStatement_of_isLineText (h : IsLineText s line) (hline : line.States statement)
    (hrest : EndsValue rest) : ∃ w c t, IsBlank w ∧ s = w ++ c :: t ∧
      (isSpace c = false ∧ c ≠ '\n' ∧ c ≠ '\r' ∧ c ≠ '#') ∧
      readStatement (c :: (t ++ rest)) = some (statement, rest) := by
  cases h with
  | pair h =>
    obtain ⟨w, c, t, hw, rfl, hc, h'⟩ := h.exists_blank
    obtain ⟨hspace, hnewline, hreturn, hcomment, hbracket⟩ := not_of_beginsKey hc
    rw [Line.States, Line.statement?, Option.map_eq_some_iff] at hline
    obtain ⟨⟨keys, v⟩, hpair, rfl⟩ := hline
    refine ⟨w, c, t, hw, rfl, ⟨hspace, hnewline, hreturn, hcomment⟩, ?_⟩
    rw [readStatement, ← List.cons_append, readPair_of_isPairText h' hpair hrest]
    · rfl
    · exact fun _ ht => hbracket (List.cons.inj ht).1
  | table h =>
    rw [Line.States, Line.statement?, Option.ite_none_right_eq_some] at hline
    obtain ⟨hlength, heq⟩ := hline
    cases heq
    refine ⟨[], _, _, isBlank_nil, rfl, by decide, ?_⟩
    rw [List.append_assoc, readStatement]
    exact readHeader_table h hlength
  | arrayItem h =>
    rw [Line.States, Line.statement?, Option.ite_none_right_eq_some] at hline
    obtain ⟨hlength, heq⟩ := hline
    cases heq
    refine ⟨[], _, _, isBlank_nil, rfl, by decide, ?_⟩
    rw [List.cons_append, List.append_assoc, readStatement]
    exact readHeader_arrayItem h hlength

theorem skipComment_margin (h : IsMargin margin) (hspace : skipSpace s = s)
    (hprintable : ∀ c ∈ s.head?, isPrintable c = false) :
    skipComment (skipSpace (margin ++ s)) = s := by
  obtain ⟨blank, _, hblank, rfl | ⟨words, hwords, rfl⟩, rfl⟩ := h
  · rw [List.append_nil, skipSpace_blank hblank, hspace, skipComment]
    rintro _ rfl
    cases hprintable '#' rfl
  · have hdrop : s.dropWhile isPrintable = s := dropWhile_append_of_head (s := []) hprintable
    rw [List.append_assoc, List.cons_append, skipSpace_blank_cons hblank rfl, skipComment,
      List.dropWhile_append_of_pos hwords, hdrop]

theorem endLine_of_isMargin (h : IsMargin margin) : endLine margin = some [] := by
  have hskip := skipComment_margin (s := []) h rfl (by simp)
  rw [List.append_nil] at hskip
  rw [endLine, hskip]

theorem endLine_of_isNewline (h : IsMargin margin) (hnewline : IsNewline newline) :
    endLine (margin ++ (newline ++ s)) = some s := by
  rcases hnewline with rfl | rfl
  · rw [endLine, skipComment_margin h rfl fun _ hc => by cases hc; rfl]
    rfl
  · rw [endLine, skipComment_margin h rfl fun _ hc => by cases hc; rfl]
    rfl

theorem exists_isLineText (h : line.keys ≠ []) : ∃ s, IsLineText s line := by
  obtain ⟨path, hpath⟩ := exists_isPath h
  cases line with
  | pair binding => exact ⟨_, .pair ⟨path, [], hpath, isBlank_nil, rfl⟩⟩
  | heading heading =>
    cases heading with
    | table keys => exact ⟨_, .table hpath⟩
    | arrayItem keys => exact ⟨_, .arrayItem hpath⟩

/-- Any document can be written, if there are keys in all its lines. -/
theorem Document.exists_isText {document : Document} (h : ∀ line ∈ document.lines, line.keys ≠ []) :
    ∃ s, document.IsText s := by
  suffices hlines : ∀ lines : List Line, (∀ line ∈ lines, line.keys ≠ []) → ∃ s, AreLines s lines
    from hlines document.lines h
  intro lines h
  induction lines with
  | nil => exact ⟨_, .last (.empty isMargin_nil)⟩
  | cons line lines ih =>
    rw [List.forall_mem_cons] at h
    obtain ⟨s, hs⟩ := exists_isLineText h.1
    obtain ⟨rest, hrest⟩ := ih h.2
    exact ⟨_, .cons (.filled isBlank_nil hs isMargin_nil) (.inl rfl) hrest⟩

/-! ## Statements -/

theorem readStatements_of_nil (h : skipFiller s = []) : readStatements s = some [] := by
  rw [readStatements, h]

theorem readStatements_of_cons (hs : skipFiller s = c :: t)
    (hstatement : readStatement (c :: t) = some (statement, w)) (hend : endLine w = some rest)
    (hlt : rest.length < s.length) :
    readStatements s = (readStatements rest).map fun l => statement :: l := by
  rw [readStatements, hs]
  dsimp only
  rw [hstatement]
  dsimp only
  rw [hend]
  exact if_pos hlt

/-- A line that says something is read up to its end. -/
theorem readStatements_of_line {indent : List Char} (hindent : IsBlank indent)
    (h : IsLineText s line) (hline : line.States statement) (ht : EndsValue t)
    (hend : endLine t = some rest) (hrest : rest.length ≤ t.length)
    (hw : skipFiller w = skipFiller (indent ++ (s ++ t))) (hle : (s ++ t).length ≤ w.length) :
    readStatements w = (readStatements rest).map fun l => statement :: l := by
  obtain ⟨blank, c, s', hblank, rfl, hc, hstatement⟩ := readStatement_of_isLineText h hline ht
  rw [skipFiller_blank hindent, List.append_assoc, List.cons_append, skipFiller_blank hblank,
    skipFiller_cons hc] at hw
  refine readStatements_of_cons hw hstatement hend ?_
  simp only [List.length_append, List.length_cons] at hle
  omega

theorem readStatements_of_areLines (h : AreLines s lines)
    (hlines : List.Forall₂ Line.States lines statements) : readStatements s = some statements := by
  -- Lines that say nothing are dropped together with what is in front of the next statement.
  suffices hw : ∀ w, skipFiller w = skipFiller s → s.length ≤ w.length →
      readStatements w = some statements from hw s rfl (Nat.le_refl _)
  induction h generalizing statements with
  | @last s line h =>
    intro w hw hle
    cases h with
    | empty hmargin =>
      cases hlines
      exact readStatements_of_nil (hw.trans (skipFiller_margin hmargin))
    | @filled indent s margin line hindent h hmargin =>
      obtain ⟨statement, _, hline, hnil, rfl⟩ := List.forall₂_cons_left_iff.1 hlines
      cases hnil
      have hend : EndsValue margin := by
        have hnil : EndsValue [] := by simp [EndsValue, skipSpace]
        simpa using hmargin.endsValue hnil
      rw [readStatements_of_line hindent h hline hend (endLine_of_isMargin hmargin) (by simp) hw
        (by simp at hle ⊢; omega), readStatements_of_nil (by rw [skipFiller])]
      rfl
  | @cons s newline rest line lines h hnewline _ ih =>
    intro w hw hle
    cases h with
    | empty hmargin =>
      refine ih hlines w (hw.trans (skipFiller_line hmargin hnewline rest)) ?_
      simp at hle
      omega
    | @filled indent s margin line hindent h hmargin =>
      obtain ⟨statement, statements, hline, hrest, rfl⟩ := List.forall₂_cons_left_iff.1 hlines
      have hend := endLine_of_isNewline (s := rest) hmargin hnewline
      have hvalue : EndsValue (margin ++ (newline ++ rest)) :=
        hmargin.endsValue (endsValue_newline hnewline rest)
      simp only [List.append_assoc] at hw
      rw [readStatements_of_line hindent h hline hvalue hend (by simp; omega) hw
        (by simp at hle ⊢; omega), ih hrest rest rfl (Nat.le_refl _)]
      rfl

/-- A document does not begin with the mark that would be dropped. -/
theorem withoutMark_of_readStatements (h : readStatements s = some statements) :
    withoutMark s = s := by
  cases s with
  | nil => rfl
  | cons c s =>
    rw [withoutMark, if_neg]
    rintro rfl
    have hskip : skipFiller (byteOrderMark :: s) = byteOrderMark :: s := skipFiller_cons (by decide)
    have hpath : readPath (byteOrderMark :: s) = none :=
      readPath_eq_none (by decide) (by decide) (by decide) (by decide)
    have hstatement : readStatement (byteOrderMark :: s) = none := by
      rw [readStatement, readPair, readKey, hpath]
      · rfl
      · exact fun _ ht => absurd (List.cons.inj ht).1 (by decide)
    rw [readStatements, hskip] at h
    dsimp only at h
    rw [hstatement] at h
    cases h

end

/-! ## Tables -/

section

variable {s : List Char} {lines : List Line} {statements : List Statement} {pairs : List Pair}
  {values : List (List String × Value)} {part : Section} {table t : Table} {document : Document}

/-- Pairs as statements. -/
def pairStatements (values : List (List String × Value)) : List Statement :=
  values.map fun (keys, v) => .pair keys v

theorem statement?_of_pairs (h : pairs.mapM (Pair.read? maxDepth) = some values) :
    List.Forall₂ Line.States (pairs.map .pair) (pairStatements values) := by
  rw [mapM_eq_some_iff] at h
  rw [pairStatements, List.forall₂_map_left_iff, List.forall₂_map_right_iff]
  refine h.imp fun pair value hpair => ?_
  rw [Line.States, Line.statement?, hpair]
  rfl

theorem addWritten_cons {depth : Nat} {pair : Pair} : Table.addWritten depth (pair :: pairs) t =
    (pair.addTo depth t).bind (Table.addWritten depth pairs) := rfl

theorem addWritten_append {depth : Nat} {pairs' : List Pair} :
    Table.addWritten depth (pairs ++ pairs') t =
      (Table.addWritten depth pairs t).bind (Table.addWritten depth pairs') :=
  List.foldlM_append

theorem addParts_cons {parts : List Section} :
    Table.addParts (part :: parts) t = (part.addTo t).bind (Table.addParts parts) := rfl

theorem addParts_append {parts parts' : List Section} : Table.addParts (parts ++ parts') t =
    (Table.addParts parts t).bind (Table.addParts parts') :=
  List.foldlM_append

theorem addPairs_cons {keys : List String} {v : Value} : Table.addPairs ((keys, v) :: values) t =
    (t.addPair keys v).bind (Table.addPairs values) := rfl

theorem Pair.addTo_eq_some_iff {depth : Nat} {pair : Pair} : pair.addTo depth t = some table ↔
    ∃ keys v, pair.read? depth = some (keys, v) ∧ t.addPair keys v = some table := by
  rw [Pair.addTo, Option.bind_eq_bind, Option.bind_eq_some_iff]
  exact ⟨fun ⟨(keys, v), h⟩ => ⟨keys, v, h⟩, fun ⟨keys, v, h⟩ => ⟨(keys, v), h⟩⟩

/-- Adding pairs as they are written is reading them all and adding them. -/
theorem addWritten_eq_some_iff {depth : Nat} : Table.addWritten depth pairs t = some table ↔
    ∃ values, pairs.mapM (Pair.read? depth) = some values ∧
      Table.addPairs values t = some table := by
  simp only [mapM_eq_some_iff]
  induction pairs generalizing t with
  | nil => simp [Table.addWritten, Table.addPairs]
  | cons pair pairs ih =>
    simp only [addWritten_cons, Option.bind_eq_some_iff, ih, List.forall₂_cons_left_iff]
    constructor
    · rintro ⟨u, hu, values, hvalues, htable⟩
      obtain ⟨keys, v, hpair, hadd⟩ := Pair.addTo_eq_some_iff.1 hu
      refine ⟨(keys, v) :: values, ⟨_, _, hpair, hvalues, rfl⟩, ?_⟩
      rw [addPairs_cons, hadd]
      exact htable
    · rintro ⟨_, ⟨⟨keys, v⟩, values, hpair, hvalues, rfl⟩, htable⟩
      rw [addPairs_cons, Option.bind_eq_some_iff] at htable
      obtain ⟨u, hadd, htable⟩ := htable
      exact ⟨u, Pair.addTo_eq_some_iff.2 ⟨keys, v, hpair, hadd⟩, values, hvalues, htable⟩

theorem leadingPairs_append (h : leadingPairs statements = ([], statements)) :
    leadingPairs (pairStatements values ++ statements) = (values, statements) := by
  induction values with
  | nil => exact h
  | cons value values ih =>
    rw [pairStatements, List.map_cons, List.cons_append, leadingPairs, ← pairStatements, ih]

/-- Statements that begin with a header, if there are any. -/
def BeginsSection (statements : List Statement) : Prop :=
  leadingPairs statements = ([], statements)

theorem addSections_of_addTo (h : part.addTo t = some table) (hrest : BeginsSection statements) :
    ∃ own, List.Forall₂ Line.States part.lines own ∧ BeginsSection (own ++ statements) ∧
      addSections t (own ++ statements) = addSections table statements := by
  obtain ⟨values, hvalues, h⟩ := Option.bind_eq_some_iff.1 h
  obtain ⟨hlength, h⟩ := Option.ite_none_right_eq_some.1 h
  have hlead : leadingPairs (pairStatements values ++ statements) = (values, statements) :=
    leadingPairs_append hrest
  obtain ⟨heading, pairs⟩ := part
  refine ⟨heading.statement :: pairStatements values,
    .cons (if_pos hlength) (statement?_of_pairs hvalues), ?_, ?_⟩
  · cases heading <;> rfl
  · cases heading with
    | table keys =>
      have h : t.addTable keys values = some table := h
      rw [List.cons_append, Heading.statement, addSections, hlead, h]
      rfl
    | arrayItem keys =>
      have h : t.addToTables keys values = some table := h
      rw [List.cons_append, Heading.statement, addSections, hlead, h]
      rfl

theorem addSections_of_addParts {sections : List Section}
    (h : t.addParts sections = some table) :
    ∃ statements, List.Forall₂ Line.States (sections.flatMap Section.lines) statements ∧
      BeginsSection statements ∧ addSections t statements = some table := by
  induction sections generalizing t with
  | nil =>
    cases h
    exact ⟨[], .nil, rfl, by rw [addSections]⟩
  | cons part sections ih =>
    rw [addParts_cons, Option.bind_eq_some_iff] at h
    obtain ⟨u, hu, h⟩ := h
    obtain ⟨statements, hlines, hbegins, hadd⟩ := ih h
    obtain ⟨own, hown, hbegins', hadd'⟩ := addSections_of_addTo hu hbegins
    exact ⟨own ++ statements, List.rel_append hown hlines, hbegins', hadd'.trans hadd⟩

/-- A text that is written as a valid document denotes the table that the document defines. -/
theorem parse?_of_isText (h : document.IsText s) (htable : document.table? = some table) :
    parse? s = some table := by
  rw [Document.table?, Option.bind_eq_bind, Option.bind_eq_some_iff] at htable
  obtain ⟨first, hfirst, hsections⟩ := htable
  obtain ⟨values, hvalues, hfirst⟩ := addWritten_eq_some_iff.1 hfirst
  obtain ⟨statements, hlines, hbegins, hadd⟩ := addSections_of_addParts hsections
  have hread := readStatements_of_areLines h (List.rel_append (statement?_of_pairs hvalues) hlines)
  rw [parse?, withoutMark_of_readStatements hread, hread, Option.bind_eq_bind, Option.bind_some,
    tableOf?, leadingPairs_append hbegins, hfirst]
  exact hadd

end

end CaseReport.Toml
