import CaseReport.Proofs.Toml.Texts
import CaseReport.Toml.Document

/-!
# Values that something follows

The readers of values read the same from a longer text as well. In a list and in a table in braces
everything is settled by what comes before the bracket, so what is new only matters for a plain
value.
-/

namespace CaseReport.Toml

variable {α : Type} {s rest more token : List Char} {c : Char}

/-! ## Plain values -/

theorem EndsValue.head_isPlain (h : EndsValue more) : ∀ c ∈ more.head?, isPlain c = false :=
  fun _ hc => (h.not_of_head hc).1

theorem afterSpacedTime?_of_endsValue (h : EndsValue more) :
    afterSpacedTime? token more = none := by
  unfold afterSpacedTime?
  split
  · next t =>
    have hnone : t.takeWhile isPlain = [] :=
      takeWhile_append_of_head (s := []) (h.of_cons rfl).head_isPlain
    rw [hnone, if_neg (by rw [Bool.and_eq_true]; exact fun hboth => nomatch hboth.2)]
  · rfl

theorem afterSpacedTime?_append (hmore : EndsValue more) :
    afterSpacedTime? token (rest ++ more) = (afterSpacedTime? token rest).map (· ++ more) := by
  cases rest with
  | nil => exact afterSpacedTime?_of_endsValue hmore
  | cons c t =>
    by_cases hc : c = ' '
    · subst hc
      rw [List.cons_append, afterSpacedTime?, afterSpacedTime?,
        takeWhile_append_of_head hmore.head_isPlain, dropWhile_append_of_head hmore.head_isPlain]
      split <;> rfl
    · rw [List.cons_append, afterSpacedTime?, afterSpacedTime?]
      · rfl
      · exact fun _ ht => hc (List.cons.inj ht).1
      · exact fun _ ht => hc (List.cons.inj ht).1

theorem isLocal_readPlain : IsLocal readPlain := by
  intro s plain rest more h hmore
  rw [readPlain] at h ⊢
  rw [takeWhile_append_of_head hmore.head_isPlain, dropWhile_append_of_head hmore.head_isPlain,
    afterSpacedTime?_append hmore]
  cases hspaced : afterSpacedTime? (s.takeWhile isPlain) (s.dropWhile isPlain) with
  | some t =>
    rw [hspaced] at h
    cases h
    rfl
  | none =>
    rw [hspaced] at h
    dsimp only [Option.map_none]
    obtain ⟨p, hp, h⟩ := Option.map_eq_some_iff.1 h
    cases h
    rw [hp]
    rfl

/-! ## Keys -/

theorem simpleKey_append {key : List Char} (h : simpleKey s = some (key, rest)) (hne : rest ≠ []) :
    simpleKey (s ++ more) = some (key, rest ++ more) := by
  cases s with
  | nil => cases h
  | cons c s =>
    unfold simpleKey at h
    split at h
    · next hs =>
      cases hs
      exact quotedText_append h more
    · next hs =>
      cases hs
      exact literalText_append h more
    · next hquote hsingle =>
      split at h
      · cases h
      · next hempty =>
        cases h
        rw [List.cons_append, simpleKey]
        · rw [← List.cons_append, takeWhile_append_of_ne_nil hne, if_neg hempty,
            dropWhile_append_of_ne_nil hne]
        · rintro _ ht
          exact hquote s (by rw [(List.cons.inj ht).1])
        · rintro _ ht
          exact hsingle s (by rw [(List.cons.inj ht).1])

theorem skipSpace_append (h : skipSpace s ≠ []) : skipSpace (s ++ more) = skipSpace s ++ more :=
  dropWhile_append_of_ne_nil h

theorem ne_nil_of_skipSpace (h : skipSpace s ≠ []) : s ≠ [] := by
  rintro rfl
  exact h rfl

theorem simpleKey_skipSpace_append {key : List Char}
    (h : simpleKey (skipSpace s) = some (key, rest)) (hne : rest ≠ []) (more : List Char) :
    simpleKey (skipSpace (s ++ more)) = some (key, rest ++ more) := by
  have hs : skipSpace s ≠ [] := by
    intro hnil
    rw [hnil] at h
    cases h
  rw [skipSpace_append hs]
  exact simpleKey_append h hne

theorem readPath_of_dot {key t : List Char} (hkey : simpleKey (skipSpace s) = some (key, t))
    (hdot : skipSpace t = '.' :: rest) (hlt : rest.length < s.length) :
    readPath s = (readPath rest).map fun (path, rest) => (String.ofList key :: path, rest) := by
  rw [readPath, hkey]
  dsimp only
  rw [hdot]
  exact if_pos hlt

theorem readPath_of_last {key t : List Char} (hkey : simpleKey (skipSpace s) = some (key, t))
    (hlast : ∀ rest, skipSpace t ≠ '.' :: rest) :
    readPath s = some ([String.ofList key], skipSpace t) := by
  rw [readPath, hkey]
  dsimp only
  split
  · next hdot => exact absurd hdot (hlast _)
  · rfl

theorem readPath_append {keys : List String} (h : readPath s = some (keys, rest))
    (hne : rest ≠ []) : readPath (s ++ more) = some (keys, rest ++ more) := by
  fun_induction readPath s generalizing keys with
  | case1 => cases h
  | case2 s key t hkey rest' hdot hlt ih =>
    obtain ⟨⟨keys', rest''⟩, hrest, h⟩ := Option.map_eq_some_iff.1 h
    cases h
    have ht : skipSpace t ≠ [] := by simp [hdot]
    have hkey' := simpleKey_skipSpace_append hkey (ne_nil_of_skipSpace ht) more
    have hdot' : skipSpace (t ++ more) = '.' :: (rest' ++ more) := by
      rw [skipSpace_append ht, hdot, List.cons_append]
    rw [readPath_of_dot hkey' hdot' (by simpa using hlt), ih hrest]
    rfl
  | case3 => cases h
  | case4 s key t hkey hlast =>
    cases h
    have hkey' := simpleKey_skipSpace_append hkey (ne_nil_of_skipSpace hne) more
    have hlast' : ∀ rest, skipSpace (t ++ more) ≠ '.' :: rest := by
      intro rest hdot
      rw [skipSpace_append hne] at hdot
      cases hskip : skipSpace t with
      | nil => exact hne hskip
      | cons c t' =>
        rw [hskip] at hdot
        exact hlast t' (by rw [hskip, (List.cons.inj hdot).1])
    rw [readPath_of_last hkey' hlast', skipSpace_append hne]

theorem readKey_append {keys : List String} (h : readKey s = some (keys, rest)) (hne : rest ≠ []) :
    readKey (s ++ more) = some (keys, rest ++ more) := by
  obtain ⟨hpath, hlength⟩ := Option.filter_eq_some_iff.1 h
  exact Option.filter_eq_some_iff.2 ⟨readPath_append hpath hne, hlength⟩

/-! ## Lists and tables in braces -/

/-- Whether a value may begin with a character. -/
def beginsValue (c : Char) : Bool :=
  isPlain c || c ∈ ['"', '\'', '[', '{']

/-- A reader of values: it reads something, whatever follows. -/
structure ReadsValues (reader : List Char → Option (α × List Char)) : Prop where
  begins : ∀ {s reading}, reader s = some reading → ∃ c t, s = c :: t ∧ beginsValue c = true
  isLocal : IsLocal reader

theorem not_of_beginsValue (h : beginsValue c = true) :
    isSpace c = false ∧ c ≠ '\n' ∧ c ≠ '\r' ∧ c ≠ '#' ∧ c ≠ ']' ∧ c ≠ '}' := by
  refine ⟨?_, ?_, ?_, ?_, ?_, ?_⟩
  · rw [Bool.eq_false_iff]
    intro hspace
    rcases isSpace_iff.1 hspace with rfl | rfl <;> cases h
  all_goals
    rintro rfl
    cases h

/-- A single carriage return at the end might become the end of a line. -/
theorem skipFiller_append (hne : skipFiller s ≠ []) (hreturn : skipFiller s ≠ ['\r']) :
    skipFiller (s ++ more) = skipFiller s ++ more := by
  fun_induction skipFiller s with
  | case1 s ih => rw [List.cons_append, skipFiller, ih hne hreturn]
  | case2 s ih => rw [List.cons_append, List.cons_append, skipFiller, ih hne hreturn]
  | case3 s _ ih =>
    have hs : s.dropWhile isPrintable ≠ [] := by
      intro hnil
      rw [hnil, skipFiller] at hne
      exact hne rfl
    rw [List.cons_append, skipFiller, dropWhile_append_of_ne_nil hs, ih hne hreturn]
  | case4 c s hnewline hpair hcomment hspace ih =>
    rw [List.cons_append, skipFiller, if_pos hspace, ih hne hreturn]
    · exact hnewline
    · rintro _ rfl
      cases hspace
    · exact hcomment
  | case5 c s hnewline hpair hcomment hspace =>
    rw [List.cons_append, skipFiller, if_neg hspace]
    · exact hnewline
    · rintro t rfl ht
      cases s with
      | nil => exact hreturn rfl
      | cons d s =>
        cases ht
        exact hpair s rfl rfl
    · exact hcomment
  | case6 => exact absurd rfl hne

theorem skipFiller_append_of_eq_cons {t : List Char} (h : skipFiller s = c :: t) (hc : c ≠ '\r') :
    skipFiller (s ++ more) = c :: (t ++ more) := by
  rw [skipFiller_append, h, List.cons_append]
  · simp [h]
  · rw [h]
    exact fun heq => hc (List.cons.inj heq).1

section

variable {reader : List Char → Option (Value × List Char)} {keys : List String} {v : Value}
  {values : List Value} {pair : List String × Value} {pairs : List (List String × Value)}
  {t : List Char}

theorem readPair_eq_some_iff : readPair reader s = some ((keys, v), rest) ↔
    ∃ t, readKey s = some (keys, '=' :: t) ∧ reader (skipSpace t) = some (v, rest) := by
  rw [readPair, Option.bind_eq_bind, Option.bind_eq_some_iff]
  constructor
  · rintro ⟨⟨keys', t⟩, hkey, h⟩
    dsimp only at h
    split at h
    · next t =>
      simp only [Option.bind_eq_bind, Option.bind_eq_some_iff, Option.pure_def, Option.some.injEq,
        Prod.mk.injEq] at h
      obtain ⟨⟨v', rest'⟩, hv, ⟨rfl, rfl⟩, rfl⟩ := h
      exact ⟨t, hkey, hv⟩
    · cases h
  · rintro ⟨t, hkey, hv⟩
    exact ⟨_, hkey, by simp [hv]⟩

theorem isLocal_readPair (hreader : ReadsValues reader) : IsLocal (readPair reader) := by
  rintro s ⟨keys, v⟩ rest more h hmore
  obtain ⟨t, hkey, hv⟩ := readPair_eq_some_iff.1 h
  obtain ⟨c, t', ht, -⟩ := hreader.begins hv
  refine readPair_eq_some_iff.2 ⟨t ++ more, readKey_append hkey (List.cons_ne_nil _ _), ?_⟩
  rw [skipSpace_append (by simp [ht])]
  exact hreader.isLocal hv hmore

theorem readPairs_of_brace (hpair : readPair reader s = some (pair, t))
    (h : skipSpace t = '}' :: rest) : readPairs reader s = some ([pair], rest) := by
  rw [readPairs, hpair]
  dsimp only
  rw [h]
  rfl

theorem readPairs_of_comma (hpair : readPair reader s = some (pair, t))
    (h : skipSpace t = ',' :: rest) (hlt : rest.length < s.length) : readPairs reader s =
      (readPairs reader rest).map fun (pairs, rest) => (pair :: pairs, rest) := by
  rw [readPairs, hpair]
  dsimp only
  rw [h]
  exact if_pos hlt

theorem isLocal_readPairs (hreader : ReadsValues reader) : IsLocal (readPairs reader) := by
  intro s pairs rest more h hmore
  have hskip : ∀ {t c t'}, skipSpace t = c :: t' → skipSpace (t ++ more) = c :: (t' ++ more) := by
    intro t c t' ht
    rw [skipSpace_append (by simp [ht]), ht, List.cons_append]
  fun_induction readPairs reader s generalizing pairs with
  | case1 => cases h
  | case2 s pair t hpair rest' hbrace =>
    cases h
    exact readPairs_of_brace (isLocal_readPair hreader hpair hmore) (hskip hbrace)
  | case3 s pair t hpair rest' hcomma hlt ih =>
    obtain ⟨⟨pairs', rest''⟩, hrest, h⟩ := Option.map_eq_some_iff.1 h
    cases h
    rw [readPairs_of_comma (isLocal_readPair hreader hpair hmore) (hskip hcomma)
      (by simpa using hlt), ih hrest]
    rfl
  | case4 => cases h
  | case5 => cases h

theorem readItems_of_bracket (h : skipFiller s = ']' :: rest) :
    readItems reader s = some ([], rest) := by
  rw [readItems, h]
  rfl

theorem ne_of_readsValues {reading : Value × List Char} (hreader : ReadsValues reader)
    (h : reader s = some reading) (t : List Char) : s ≠ ']' :: t := by
  rintro rfl
  obtain ⟨c, t, ht, hc⟩ := hreader.begins h
  cases ht
  cases hc

theorem readItems_of_last (hreader : ReadsValues reader)
    (hitem : reader (skipFiller s) = some (v, t)) (h : skipFiller t = ']' :: rest) :
    readItems reader s = some ([v], rest) := by
  rw [readItems]
  split
  · next hs => exact absurd hs (ne_of_readsValues hreader hitem _)
  · rw [hitem]
    dsimp only
    rw [h]
    rfl

theorem readItems_of_comma (hreader : ReadsValues reader)
    (hitem : reader (skipFiller s) = some (v, t)) (h : skipFiller t = ',' :: rest)
    (hlt : rest.length < s.length) : readItems reader s =
      (readItems reader rest).map fun (values, rest) => (v :: values, rest) := by
  rw [readItems]
  split
  · next hs => exact absurd hs (ne_of_readsValues hreader hitem _)
  · rw [hitem]
    dsimp only
    rw [h]
    exact if_pos hlt

theorem isLocal_readItems (hreader : ReadsValues reader) : IsLocal (readItems reader) := by
  intro s values rest more h hmore
  have hitem' : ∀ {s v t}, reader (skipFiller s) = some (v, t) →
      reader (skipFiller (s ++ more)) = some (v, t ++ more) := by
    intro s v t hitem
    obtain ⟨c, s', hs, hc⟩ := hreader.begins hitem
    rw [skipFiller_append_of_eq_cons hs (not_of_beginsValue hc).2.2.1, ← List.cons_append, ← hs]
    exact hreader.isLocal hitem hmore
  fun_induction readItems reader s generalizing values with
  | case1 s rest' hbracket =>
    cases h
    exact readItems_of_bracket (skipFiller_append_of_eq_cons hbracket (by decide))
  | case2 => cases h
  | case3 s v t rest' hbracket _ hitem =>
    cases h
    exact readItems_of_last hreader (hitem' hitem)
      (skipFiller_append_of_eq_cons hbracket (by decide))
  | case4 s v t rest' hcomma hlt _ hitem ih =>
    obtain ⟨⟨values', rest''⟩, hrest, h⟩ := Option.map_eq_some_iff.1 h
    cases h
    rw [readItems_of_comma hreader (hitem' hitem)
      (skipFiller_append_of_eq_cons hcomma (by decide)) (by simpa using hlt), ih hrest]
    rfl
  | case5 => cases h
  | case6 => cases h

theorem readPath_eq_none (hc : isBare c = false) (hspace : isSpace c = false) (hdouble : c ≠ '"')
    (hsingle : c ≠ '\'') : readPath (c :: s) = none := by
  have hskip : skipSpace (c :: s) = c :: s := List.dropWhile_cons_of_neg (by simp [hspace])
  have hkey : simpleKey (c :: s) = none := by
    rw [simpleKey]
    · rw [List.takeWhile_cons_of_neg (by simp [hc])]
      rfl
    · exact fun _ ht => hdouble (List.cons.inj ht).1
    · exact fun _ ht => hsingle (List.cons.inj ht).1
  rw [readPath, hskip, hkey]

theorem readPairs_brace : readPairs reader ('}' :: s) = none := by
  have hpath : readPath ('}' :: s) = none :=
    readPath_eq_none (by decide) (by decide) (by decide) (by decide)
  have hpair : readPair reader ('}' :: s) = none := by
    rw [readPair, readKey, hpath]
    rfl
  rw [readPairs, hpair]

theorem readPairs_nil : readPairs reader [] = none := by
  have hpath : readPath [] = none := by
    rw [readPath]
    rfl
  have hpair : readPair reader [] = none := by
    rw [readPair, readKey, hpath]
    rfl
  rw [readPairs, hpair]

theorem readBraces_of_brace (h : skipSpace s = '}' :: rest) :
    readBraces reader s = some (.closed [], rest) := by
  rw [readBraces, h]
  rfl

theorem readBraces_of_pairs {table : Table}
    (hpairs : readPairs reader (skipSpace s) = some (pairs, rest))
    (htable : Table.addPairs pairs (.empty .defined) = some table) :
    readBraces reader s = some (.closed table.entries, rest) := by
  rw [readBraces]
  split
  · next hs =>
    rw [hs, readPairs_brace] at hpairs
    cases hpairs
  · rw [hpairs]
    simp [htable]

theorem isLocal_readBraces (hreader : ReadsValues reader) : IsLocal (readBraces reader) := by
  intro s v rest more h hmore
  unfold readBraces at h
  split at h
  · next hs =>
    cases h
    exact readBraces_of_brace (by rw [skipSpace_append (by simp [hs]), hs, List.cons_append])
  · simp only [Option.bind_eq_bind, Option.bind_eq_some_iff, Option.pure_def, Option.some.injEq,
      Prod.mk.injEq] at h
    obtain ⟨⟨pairs, rest'⟩, hpairs, table, htable, rfl, rfl⟩ := h
    refine readBraces_of_pairs ?_ htable
    rw [skipSpace_append]
    · exact isLocal_readPairs hreader hpairs hmore
    · intro hnil
      rw [hnil, readPairs_nil] at hpairs
      cases hpairs

end

/-! ## Values of any form -/

theorem readPlain_eq_none (h : ∀ c ∈ s.head?, isPlain c = false) : readPlain s = none := by
  have htoken : s.takeWhile isPlain = [] := takeWhile_append_of_head (s := []) h
  have hspaced : afterSpacedTime? [] (s.dropWhile isPlain) = none := by
    unfold afterSpacedTime?
    split
    · have hdate : isDate [] = false := by decide
      rw [hdate, Bool.false_and, if_neg Bool.false_ne_true]
    · rfl
  rw [readPlain, htoken, hspaced]
  rfl

theorem readPlain_begins {reading : Plain × List Char} (h : readPlain s = some reading) :
    ∃ c t, s = c :: t ∧ isPlain c = true := by
  cases s with
  | nil => cases h.symm.trans (readPlain_eq_none nofun)
  | cons c t =>
    cases hc : isPlain c with
    | true => exact ⟨c, t, rfl, hc⟩
    | false =>
      have hnone : readPlain (c :: t) = none := readPlain_eq_none fun d hd => by cases hd; exact hc
      cases h.symm.trans hnone

theorem readValue_plain {depth : Nat} (h : isPlain c = true) :
    readValue depth (c :: s) = readPlainValue (c :: s) := by
  rw [readValue]
  all_goals
    intros
    rename_i heq
    rw [(List.cons.inj heq).1] at h
    cases h

theorem readTextValue_eq_some {v : Value} (h : readTextValue s = some (v, rest)) :
    ∃ text, readText s = some (text, rest) ∧ v = .text (String.ofList text) := by
  obtain ⟨⟨text, rest'⟩, htext, h⟩ := Option.map_eq_some_iff.1 h
  cases h
  exact ⟨text, htext, rfl⟩

theorem isLocal_readTextValue : IsLocal readTextValue := by
  intro s v rest more h hmore
  obtain ⟨text, htext, rfl⟩ := readTextValue_eq_some h
  rw [readTextValue, isLocal_readText htext hmore]
  rfl

theorem readsValues_readPlainValue : ReadsValues readPlainValue := by
  constructor
  · intro s reading h
    obtain ⟨plain, hplain, -⟩ := Option.map_eq_some_iff.1 h
    obtain ⟨c, t, rfl, hc⟩ := readPlain_begins hplain
    exact ⟨c, t, rfl, by rw [beginsValue, hc, Bool.true_or]⟩
  · intro s v rest more h hmore
    obtain ⟨⟨plain, rest'⟩, hplain, h⟩ := Option.map_eq_some_iff.1 h
    cases h
    rw [readPlainValue, isLocal_readPlain hplain hmore]
    rfl

theorem readValue_begins {depth : Nat} {reading : Value × List Char}
    (h : readValue depth s = some reading) : ∃ c t, s = c :: t ∧ beginsValue c = true := by
  unfold readValue at h
  split at h
  · exact ⟨_, _, rfl, rfl⟩
  · exact ⟨_, _, rfl, rfl⟩
  · exact ⟨_, _, rfl, rfl⟩
  · exact ⟨_, _, rfl, rfl⟩
  · exact readsValues_readPlainValue.begins h

theorem isLocal_readList {reader : List Char → Option (Value × List Char)}
    (hreader : ReadsValues reader) : IsLocal (readList reader) := by
  intro s v rest more h hmore
  obtain ⟨⟨values, rest'⟩, hitems, h⟩ := Option.map_eq_some_iff.1 h
  cases h
  rw [readList, isLocal_readItems hreader hitems hmore]
  rfl

/-- A value reader is local if the reader of what is in brackets or braces is. -/
theorem isLocal_readValue_of {depth : Nat}
    (hinner : ∀ inner, depth = inner + 1 → ReadsValues (readValue inner)) :
    IsLocal (readValue depth) := by
  intro s v rest more h hmore
  unfold readValue at h
  split at h
  · rw [List.cons_append, readValue]
    exact isLocal_readTextValue h hmore
  · rw [List.cons_append, readValue]
    exact isLocal_readTextValue h hmore
  · rw [List.cons_append, readValue]
    exact isLocal_readList (hinner _ rfl) h hmore
  · rw [List.cons_append, readValue]
    exact isLocal_readBraces (hinner _ rfl) h hmore
  · obtain ⟨_, hplain, -⟩ := Option.map_eq_some_iff.1 h
    obtain ⟨c, t, rfl, hc⟩ := readPlain_begins hplain
    rw [List.cons_append, readValue_plain hc]
    exact readsValues_readPlainValue.isLocal h hmore

theorem readsValues_readValue (depth : Nat) : ReadsValues (readValue depth) := by
  induction depth with
  | zero =>
    refine ⟨readValue_begins, isLocal_readValue_of ?_⟩
    rintro inner hinner
    cases hinner
  | succ depth ih =>
    refine ⟨readValue_begins, isLocal_readValue_of ?_⟩
    rintro inner hinner
    cases hinner
    exact ih

end CaseReport.Toml
