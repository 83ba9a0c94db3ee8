import Mathlib.Data.List.Forall2
import CaseReport.Proofs.Toml.Grammar
import CaseReport.Proofs.Toml.Values

/-!
# Reading what is written

A text in double quotes, a key, a pair, a table in braces, a list and at last a document are read as
what they are written for, provided that the values in them are values.
-/

namespace CaseReport.Toml

open Text

variable {s t rest raw text w margin newline path : List Char} {c : Char} {key : String}
  {keys : List String} {depth : Nat} {v : Value} {pair : Pair} {pairs : List Pair}

theorem isBlank_nil : IsBlank [] := by
  simp [IsBlank]

theorem isMargin_nil : IsMargin [] :=
  ⟨[], [], isBlank_nil, .inl rfl, rfl⟩

/-! ## Texts in double quotes -/

theorem scalar?_toNat (c : Char) : scalar? c.toNat = some c := by
  have hvalid : c.toNat.isValidChar := c.valid
  rw [scalar?, if_pos hvalid, Char.ofNat_toNat]

theorem codePoint_digits {count : Nat} {digits : List Char} (hlength : digits.length = count)
    (h : number? 16 digits = some c.toNat) : codePoint count (digits ++ rest) = some (c, rest) := by
  subst hlength
  rw [codePoint, if_pos (by simp), List.take_left, List.drop_left, h]
  simp [scalar?_toNat]

theorem simpleEscape?_of_mem {letter : Char} (h : (letter, c) ∈ letterEscapes) :
    simpleEscape? letter = some c ∧ letter ≠ 'u' ∧ letter ≠ 'U' := by
  have hall : ∀ entry ∈ letterEscapes,
      simpleEscape? entry.1 = some entry.2 ∧ entry.1 ≠ 'u' ∧ entry.1 ≠ 'U' := by decide
  exact hall (letter, c) h

theorem escape_of_escapes {e : List Char} (h : Escapes e c) :
    escape (e ++ rest) = some (c, rest) := by
  cases h with
  | letter h =>
    obtain ⟨hletter, hshort, hlong⟩ := simpleEscape?_of_mem h
    rw [List.singleton_append, escape]
    · rw [hletter]
      rfl
    · exact hshort
    · exact hlong
  | short hlength h =>
    rw [List.cons_append, escape]
    exact codePoint_digits hlength h
  | long hlength h =>
    rw [List.cons_append, escape]
    exact codePoint_digits hlength h

theorem quotedText_of_spells (h : Spells raw text) :
    quotedText (raw ++ '"' :: rest) = some (text, rest) := by
  induction h with
  | nil => rw [List.nil_append, quotedText]
  | @plain c raw text hc _ ih =>
    rw [List.cons_append, quotedText, if_pos hc.1, ih]
    · rfl
    · exact hc.2.1
    · exact hc.2.2
  | @escape e c raw text he _ ih =>
    rw [List.cons_append, List.append_assoc, quotedText]
    split
    · next hnone => cases (escape_of_escapes he).symm.trans hnone
    · next hsome =>
      cases (escape_of_escapes he).symm.trans hsome
      rw [ih]
      rfl

theorem Spells.head_ne (h : Spells raw text) (t : List Char) : raw ≠ '"' :: t := by
  rintro rfl
  cases h with
  | plain hc => exact hc.2.1 rfl

theorem readValue_of_isQuoted (h : IsQuoted s key) : readValue depth s = some (.text key, []) := by
  obtain ⟨raw, hraw, rfl⟩ := h
  have hthree : ∀ t, raw ++ ['"'] ≠ '"' :: '"' :: t := by
    intro t ht
    cases raw with
    | nil => cases ht
    | cons c raw => exact hraw.head_ne raw (by rw [(List.cons.inj ht).1])
  rw [readValue, readTextValue, readText]
  · rw [quotedText_of_spells hraw, Option.map_some]
    simp only [String.ofList_toList]
  · exact hthree

/-- The number of a character in four hexadecimal digits, if two are enough. -/
def lowDigits (n : Nat) : List Char :=
  ['0', '0', Nat.digitChar (n / 16), Nat.digitChar (n % 16)]

theorem number?_lowDigits : ∀ n < 128, number? 16 (lowDigits n) = some n := by
  decide

theorem exists_escapes (h : ¬IsUnescaped c) : ∃ e, Escapes e c := by
  by_cases hc : c = '"' ∨ c = '\\'
  · rcases hc with rfl | rfl
    · exact ⟨['"'], .letter (by decide)⟩
    · exact ⟨['\\'], .letter (by decide)⟩
  · have hlow : c.toNat < 128 := by
      refine Nat.lt_of_not_le fun hle => h ⟨?_, not_or.1 hc⟩
      rw [isPrintable, Bool.or_eq_true, Bool.and_eq_true, decide_eq_true_eq, decide_eq_true_eq]
      omega
    exact ⟨_, .short rfl (number?_lowDigits c.toNat hlow)⟩

/-- Every text can be written in double quotes. -/
theorem exists_isQuoted (text : String) : ∃ s, IsQuoted s text := by
  have hspells : ∀ text : List Char, ∃ raw, Spells raw text := by
    intro text
    induction text with
    | nil => exact ⟨[], .nil⟩
    | cons c text ih =>
      obtain ⟨raw, hraw⟩ := ih
      by_cases h : IsUnescaped c
      · exact ⟨c :: raw, .plain h hraw⟩
      · obtain ⟨e, he⟩ := exists_escapes h
        exact ⟨'\\' :: (e ++ raw), .escape he hraw⟩
  obtain ⟨raw, hraw⟩ := hspells text.toList
  exact ⟨_, raw, hraw, rfl⟩

/-! ## Keys -/

theorem skipSpace_blank (h : IsBlank w) (s : List Char) : skipSpace (w ++ s) = skipSpace s :=
  List.dropWhile_append_of_pos h

theorem skipSpace_cons (h : isSpace c = false) : skipSpace (c :: s) = c :: s :=
  List.dropWhile_cons_of_neg (by simp [h])

theorem skipSpace_blank_cons (hw : IsBlank w) (h : isSpace c = false) :
    skipSpace (w ++ c :: s) = c :: s := by
  rw [skipSpace_blank hw, skipSpace_cons h]

theorem isBare_of_isBlank (hw : IsBlank w) (hc : isBare c = false) :
    ∀ d ∈ (w ++ c :: s).head?, isBare d = false := by
  intro d hd
  cases w with
  | nil =>
    cases hd
    exact hc
  | cons e w =>
    cases hd
    rcases isSpace_iff.1 (hw d List.mem_cons_self) with rfl | rfl <;> rfl

theorem literalText_of_forall (h : ∀ c ∈ s, isPrintable c = true ∧ c ≠ '\'') :
    literalText (s ++ '\'' :: rest) = some (s, rest) := by
  induction s with
  | nil => rw [List.nil_append, literalText]
  | cons c s ih =>
    rw [List.forall_mem_cons] at h
    rw [List.cons_append, literalText, if_pos h.1.1, ih h.2]
    · rfl
    · exact h.1.2

theorem simpleKey_of_isKey (h : IsKey s key) (hrest : ∀ c ∈ rest.head?, isBare c = false) :
    simpleKey (s ++ rest) = some (key.toList, rest) := by
  cases h with
  | bare hne hbare =>
    have htake : (s ++ rest).takeWhile isBare = s := takeWhile_append_of_forall hbare hrest
    have hdrop : (s ++ rest).dropWhile isBare = rest := dropWhile_append_of_forall hbare hrest
    have hquote : ∀ quote t, isBare quote = false → s ++ rest ≠ quote :: t := by
      intro quote t hquote ht
      obtain ⟨c, s', rfl⟩ := List.exists_cons_of_ne_nil hne
      have hc := hbare c List.mem_cons_self
      rw [(List.cons.inj ht).1, hquote] at hc
      cases hc
    rw [simpleKey, htake, hdrop, if_neg (by simpa using hne), String.toList_ofList]
    · exact fun t => hquote '"' t rfl
    · exact fun t => hquote '\'' t rfl
  | quoted h =>
    obtain ⟨raw, hraw, rfl⟩ := h
    rw [List.cons_append, List.append_assoc, simpleKey]
    exact quotedText_of_spells hraw
  | literal h =>
    rw [List.cons_append, List.append_assoc, simpleKey, String.toList_ofList]
    exact literalText_of_forall h

/-- Any keys can be written, if there are any. -/
theorem exists_isPath (h : keys ≠ []) : ∃ path, IsPath path keys := by
  induction keys with
  | nil => exact absurd rfl h
  | cons key keys ih =>
    obtain ⟨s, hs⟩ := exists_isQuoted key
    cases keys with
    | nil => exact ⟨_, .last isBlank_nil (.quoted hs) isBlank_nil⟩
    | cons other keys =>
      obtain ⟨rest, hrest⟩ := ih (List.cons_ne_nil other keys)
      exact ⟨_, .cons isBlank_nil (.quoted hs) isBlank_nil hrest⟩

/-- What begins a key is no blank, no bracket and nothing else that may stand in front of it. -/
theorem IsKey.exists_cons (h : IsKey s key) :
    ∃ c t, s = c :: t ∧ (isBare c = true ∨ c = '"' ∨ c = '\'') := by
  cases h with
  | bare hne hbare =>
    obtain ⟨c, t, rfl⟩ := List.exists_cons_of_ne_nil hne
    exact ⟨c, t, rfl, .inl (hbare c List.mem_cons_self)⟩
  | quoted h =>
    obtain ⟨raw, -, rfl⟩ := h
    exact ⟨'"', _, rfl, .inr (.inl rfl)⟩
  | literal => exact ⟨'\'', _, rfl, .inr (.inr rfl)⟩

theorem simpleKey_of_blank (hw : IsBlank w) (h : IsKey s key)
    (hrest : ∀ c ∈ rest.head?, isBare c = false) :
    simpleKey (skipSpace (w ++ (s ++ rest))) = some (key.toList, rest) := by
  obtain ⟨c, t, rfl, hc⟩ := h.exists_cons
  have hspace : isSpace c = false := by
    rw [Bool.eq_false_iff]
    intro hspace
    rcases isSpace_iff.1 hspace with rfl | rfl <;> simp [isBare] at hc
  rw [List.cons_append, skipSpace_blank_cons hw hspace, ← List.cons_append]
  exact simpleKey_of_isKey h hrest

theorem readPath_of_isPath (h : IsPath path keys) (hspace : isSpace c = false) (hdot : c ≠ '.')
    (hbare : isBare c = false) : readPath (path ++ c :: rest) = some (keys, c :: rest) := by
  induction h with
  | @last before s after key hbefore hs hafter =>
    have hkey := simpleKey_of_blank hbefore hs (isBare_of_isBlank (s := rest) hafter hbare)
    have hskip : skipSpace (after ++ c :: rest) = c :: rest := skipSpace_blank_cons hafter hspace
    rw [List.append_assoc, List.append_assoc, readPath_of_last hkey, hskip, String.ofList_toList]
    rw [hskip]
    exact fun t ht => hdot (List.cons.inj ht).1
  | @cons before s after path key keys hbefore hs hafter _ ih =>
    have hkey := simpleKey_of_blank hbefore hs
      (isBare_of_isBlank (s := path ++ c :: rest) hafter (c := '.') rfl)
    have hskip : skipSpace (after ++ '.' :: (path ++ c :: rest)) = '.' :: (path ++ c :: rest) :=
      skipSpace_blank_cons hafter rfl
    simp only [List.append_assoc, List.cons_append]
    rw [readPath_of_dot hkey hskip (by simp; omega), ih, String.ofList_toList]
    rfl

theorem readKey_of_isPath (h : IsPath path keys) (hlength : keys.length < pathLimit)
    (hspace : isSpace c = false) (hdot : c ≠ '.') (hbare : isBare c = false) :
    readKey (path ++ c :: rest) = some (keys, c :: rest) :=
  Option.filter_eq_some_iff.2
    ⟨readPath_of_isPath h hspace hdot hbare, decide_eq_true hlength⟩

/-! ## What follows a value -/

theorem EndsValue.of_blank (hw : IsBlank w) (h : EndsValue s) : EndsValue (w ++ s) := by
  rw [EndsValue, skipSpace_blank hw]
  exact h

theorem endsValue_cons (h : c ∈ ['#', '\n', '\r', ',', ']', '}']) : EndsValue (c :: s) := by
  have hspace : isSpace c = false := by
    simp only [List.mem_cons, List.not_mem_nil, or_false] at h
    rcases h with rfl | rfl | rfl | rfl | rfl | rfl <;> rfl
  intro d hd
  rw [skipSpace_cons hspace] at hd
  cases hd
  exact h

theorem endsValue_newline (h : IsNewline newline) (s : List Char) : EndsValue (newline ++ s) := by
  rcases h with rfl | rfl
  · exact endsValue_cons (by decide)
  · exact endsValue_cons (by decide)

theorem IsMargin.endsValue (h : IsMargin margin) (hs : EndsValue s) : EndsValue (margin ++ s) := by
  obtain ⟨blank, _, hblank, rfl | ⟨words, -, rfl⟩, rfl⟩ := h
  · rw [List.append_nil]
    exact hs.of_blank hblank
  · rw [List.append_assoc]
    exact (endsValue_cons (by decide)).of_blank hblank

theorem IsFiller.endsValue (h : IsFiller w) (hs : EndsValue s) : EndsValue (w ++ s) := by
  cases h with
  | blank h => exact hs.of_blank h
  | line hmargin hnewline =>
    rw [List.append_assoc, List.append_assoc]
    exact hmargin.endsValue (endsValue_newline hnewline _)

theorem readValue_append (h : readValue depth s = some (v, [])) (hrest : EndsValue rest) :
    readValue depth (s ++ rest) = some (v, rest) :=
  (readsValues_readValue depth).isLocal h hrest

/-! ## Pairs and tables in braces -/

/-- Every one of some parts gives something, or all together give nothing. -/
theorem mapM_eq_some_iff {α β : Type} {f : α → Option β} {l : List α} {l' : List β} :
    l.mapM f = some l' ↔ List.Forall₂ (fun a b => f a = some b) l l' := by
  induction l generalizing l' with
  | nil => simp [eq_comm]
  | cons a l ih =>
    simp only [List.mapM_cons, Option.bind_eq_bind, Option.bind_eq_some_iff, Option.pure_def,
      Option.some.injEq, List.forall₂_cons_left_iff, ih]
    constructor
    · rintro ⟨b, hb, bs, hbs, rfl⟩
      exact ⟨b, bs, hb, hbs, rfl⟩
    · rintro ⟨b, bs, hb, hbs, rfl⟩
      exact ⟨b, hb, bs, hbs, rfl⟩

theorem Pair.read?_eq_some_iff : pair.read? depth = some (keys, v) ↔
    readValue depth pair.value = some (v, []) ∧ pair.keys.length < pathLimit ∧
      keys = pair.keys := by
  rw [Pair.read?]
  split
  · next hv =>
    simp only [hv, Option.ite_none_right_eq_some, Option.some.injEq, Prod.mk.injEq, and_true]
    constructor
    · rintro ⟨hlength, rfl, rfl⟩
      exact ⟨rfl, hlength, rfl⟩
    · rintro ⟨rfl, hlength, rfl⟩
      exact ⟨hlength, rfl, rfl⟩
  · next hnone =>
    constructor
    · nofun
    · rintro ⟨hv, -, -⟩
      exact absurd hv (hnone v)

theorem readPair_of_isPairText (h : IsPairText s pair) (hpair : pair.read? depth = some (keys, v))
    (hrest : EndsValue rest) :
    readPair (readValue depth) (s ++ rest) = some ((keys, v), rest) := by
  obtain ⟨path, blank, hpath, hblank, rfl⟩ := h
  obtain ⟨hv, hlength, rfl⟩ := Pair.read?_eq_some_iff.1 hpair
  obtain ⟨c, t, ht, hc⟩ := readValue_begins hv
  have hkey : readKey (path ++ '=' :: (blank ++ (pair.value ++ rest))) =
      some (pair.keys, '=' :: (blank ++ (pair.value ++ rest))) :=
    readKey_of_isPath hpath hlength rfl (by decide) rfl
  have hskip : skipSpace (blank ++ (pair.value ++ rest)) = pair.value ++ rest := by
    rw [ht]
    exact skipSpace_blank_cons hblank (not_of_beginsValue hc).1
  rw [List.append_assoc, List.cons_append, List.append_assoc]
  refine readPair_eq_some_iff.2 ⟨_, hkey, ?_⟩
  rw [hskip]
  exact readValue_append hv hrest

theorem readPairs_of_arePairs {values : List (List String × Value)} (h : ArePairs s pairs)
    (hpairs : pairs.mapM (Pair.read? depth) = some values) :
    readPairs (readValue depth) (s ++ '}' :: rest) = some (values, rest) := by
  rw [mapM_eq_some_iff] at hpairs
  induction h generalizing values with
  | @last s after pair h hafter =>
    obtain ⟨⟨keys, v⟩, _, hpair, hnil, rfl⟩ := List.forall₂_cons_left_iff.1 hpairs
    cases hnil
    rw [List.append_assoc]
    exact readPairs_of_brace
      (readPair_of_isPairText h hpair ((endsValue_cons (by decide)).of_blank hafter))
      (skipSpace_blank_cons hafter rfl)
  | @cons s after t pair pairs h hafter _ ih =>
    obtain ⟨⟨keys, v⟩, values, hpair, hvalues, rfl⟩ := List.forall₂_cons_left_iff.1 hpairs
    have hend : EndsValue (after ++ ',' :: (t ++ '}' :: rest)) :=
      (endsValue_cons (by decide)).of_blank hafter
    simp only [List.append_assoc, List.cons_append]
    rw [readPairs_of_comma (readPair_of_isPairText h hpair hend) (skipSpace_blank_cons hafter rfl)
      (by simp; omega), ih hvalues]
    rfl

/-- A path is a path without the blanks in front of it as well. -/
theorem IsPath.exists_blank (h : IsPath path keys) : ∃ w c t, IsBlank w ∧ path = w ++ c :: t ∧
    (isBare c = true ∨ c = '"' ∨ c = '\'') ∧ IsPath (c :: t) keys := by
  cases h with
  | @last before s after key hbefore hs hafter =>
    obtain ⟨c, t, rfl, hc⟩ := hs.exists_cons
    exact ⟨before, c, t ++ after, hbefore, rfl, hc, .last isBlank_nil hs hafter⟩
  | @cons before s after rest key keys hbefore hs hafter hrest =>
    obtain ⟨c, t, rfl, hc⟩ := hs.exists_cons
    exact ⟨before, c, t ++ (after ++ '.' :: rest), hbefore, rfl, hc,
      .cons isBlank_nil hs hafter hrest⟩

theorem IsPairText.exists_blank (h : IsPairText s pair) : ∃ w c t, IsBlank w ∧ s = w ++ c :: t ∧
    (isBare c = true ∨ c = '"' ∨ c = '\'') ∧ IsPairText (c :: t) pair := by
  obtain ⟨path, blank, hpath, hblank, rfl⟩ := h
  obtain ⟨w, c, t, hw, rfl, hc, hpath'⟩ := hpath.exists_blank
  exact ⟨w, c, t ++ '=' :: (blank ++ pair.value), hw, by simp, hc, _, blank, hpath', hblank, rfl⟩

theorem ArePairs.exists_blank (h : ArePairs s pairs) : ∃ w c t, IsBlank w ∧ s = w ++ c :: t ∧
    (isBare c = true ∨ c = '"' ∨ c = '\'') ∧ ArePairs (c :: t) pairs := by
  cases h with
  | @last s after pair h hafter =>
    obtain ⟨w, c, t, hw, rfl, hc, h'⟩ := h.exists_blank
    exact ⟨w, c, t ++ after, hw, by simp, hc, .last h' hafter⟩
  | @cons s after rest pair pairs h hafter hrest =>
    obtain ⟨w, c, t, hw, rfl, hc, h'⟩ := h.exists_blank
    exact ⟨w, c, t ++ (after ++ ',' :: rest), hw, by simp, hc, .cons h' hafter hrest⟩

/-- What begins a key does not stand in front of one, and is no bracket. -/
theorem not_of_beginsKey (h : isBare c = true ∨ c = '"' ∨ c = '\'') :
    isSpace c = false ∧ c ≠ '\n' ∧ c ≠ '\r' ∧ c ≠ '#' ∧ c ≠ '[' := by
  refine ⟨?_, ?_, ?_, ?_, ?_⟩
  · rw [Bool.eq_false_iff]
    intro hspace
    rcases isSpace_iff.1 hspace with rfl | rfl <;> simp [isBare] at h
  all_goals
    rintro rfl
    simp [isBare] at h

theorem readValue_of_isBraced {values : List (List String × Value)} {table : Table}
    (h : IsBraced s pairs) (hpairs : pairs.mapM (Pair.read? depth) = some values)
    (htable : Table.addPairs values (.empty .defined) = some table) :
    readValue (depth + 1) s = some (.closed table.entries, []) := by
  cases h with
  | empty hblank =>
    cases hpairs
    cases htable
    rw [readValue]
    exact readBraces_of_brace (skipSpace_blank_cons hblank rfl)
  | pairs h =>
    obtain ⟨w, c, t, hw, rfl, hc, h'⟩ := h.exists_blank
    rw [readValue]
    refine readBraces_of_pairs ?_ htable
    rw [List.append_assoc, List.cons_append, skipSpace_blank_cons hw (not_of_beginsKey hc).1]
    exact readPairs_of_arePairs h' hpairs

/-! ## Lists -/

theorem skipFiller_blank (hw : IsBlank w) (s : List Char) : skipFiller (w ++ s) = skipFiller s := by
  induction w with
  | nil => rfl
  | cons c w ih =>
    rw [IsBlank, List.forall_mem_cons] at hw
    have hne : c ≠ '\n' ∧ c ≠ '\r' ∧ c ≠ '#' := by
      rcases isSpace_iff.1 hw.1 with rfl | rfl <;> decide
    rw [List.cons_append, skipFiller, if_pos hw.1, ih hw.2]
    · exact hne.1
    · exact fun _ hreturn => absurd hreturn hne.2.1
    · exact hne.2.2

theorem skipFiller_newline (h : IsNewline newline) (s : List Char) :
    skipFiller (newline ++ s) = skipFiller s := by
  rcases h with rfl | rfl
  · rw [List.singleton_append, skipFiller]
  · rw [List.cons_append, List.singleton_append, skipFiller]

theorem skipFiller_comment {words : List Char} (h : ∀ c ∈ words, isPrintable c = true)
    (hs : ∀ c ∈ s.head?, isPrintable c = false) :
    skipFiller ('#' :: (words ++ s)) = skipFiller s := by
  have hdrop : s.dropWhile isPrintable = s := dropWhile_append_of_head (s := []) hs
  rw [skipFiller, List.dropWhile_append_of_pos h, hdrop]

theorem skipFiller_line (hmargin : IsMargin margin) (hnewline : IsNewline newline)
    (s : List Char) : skipFiller (margin ++ (newline ++ s)) = skipFiller s := by
  have hhead : ∀ c ∈ (newline ++ s).head?, isPrintable c = false := by
    rintro c hc
    rcases hnewline with rfl | rfl <;> cases hc <;> rfl
  obtain ⟨blank, _, hblank, rfl | ⟨words, hwords, rfl⟩, rfl⟩ := hmargin
  · rw [List.append_nil, skipFiller_blank hblank, skipFiller_newline hnewline]
  · rw [List.append_assoc, List.cons_append, skipFiller_blank hblank,
      skipFiller_comment hwords hhead, skipFiller_newline hnewline]

theorem skipFiller_margin (h : IsMargin margin) : skipFiller margin = [] := by
  obtain ⟨blank, _, hblank, rfl | ⟨words, hwords, rfl⟩, rfl⟩ := h
  · rw [skipFiller_blank hblank, skipFiller]
  · rw [skipFiller_blank hblank]
    have hcomment := skipFiller_comment (s := []) hwords (by simp)
    rw [List.append_nil] at hcomment
    rw [hcomment, skipFiller]

theorem skipFiller_filler (h : IsFiller w) (s : List Char) :
    skipFiller (w ++ s) = skipFiller s := by
  induction h with
  | blank h => exact skipFiller_blank h s
  | line hmargin hnewline _ ih =>
    rw [List.append_assoc, List.append_assoc, skipFiller_line hmargin hnewline, ih]

theorem skipFiller_cons (h : isSpace c = false ∧ c ≠ '\n' ∧ c ≠ '\r' ∧ c ≠ '#') :
    skipFiller (c :: s) = c :: s := by
  rw [skipFiller, if_neg (by simp [h.1])]
  · exact h.2.1
  · exact fun _ hreturn => absurd hreturn h.2.2.1
  · exact h.2.2.2

theorem readItems_of_areItems {items : List (List Char)} {values : List Value}
    (h : AreItems s items)
    (hitems : List.Forall₂ (fun item v => readValue depth item = some (v, [])) items values) :
    readItems (readValue depth) (s ++ ']' :: rest) = some (values, rest) := by
  have hreader := readsValues_readValue depth
  -- An item is read once what stands in front of it is dropped.
  have hread : ∀ {before item rest v}, IsFiller before → readValue depth item = some (v, []) →
      EndsValue rest →
        readValue depth (skipFiller (before ++ (item ++ rest))) = some (v, rest) := by
    intro before item rest v hbefore hv hrest
    obtain ⟨c, t, rfl, hc⟩ := readValue_begins hv
    obtain ⟨hspace, hnewline, hreturn, hcomment, -⟩ := not_of_beginsValue hc
    rw [skipFiller_filler hbefore, List.cons_append,
      skipFiller_cons ⟨hspace, hnewline, hreturn, hcomment⟩, ← List.cons_append]
    exact readValue_append hv hrest
  induction h generalizing values with
  | nil h =>
    cases hitems
    refine readItems_of_bracket ?_
    rw [skipFiller_filler h, skipFiller_cons (by decide)]
  | @last before item after hbefore hafter =>
    obtain ⟨v, _, hv, hnil, rfl⟩ := List.forall₂_cons_left_iff.1 hitems
    cases hnil
    have hend : EndsValue (after ++ ']' :: rest) := hafter.endsValue (endsValue_cons (by decide))
    rw [List.append_assoc, List.append_assoc]
    refine readItems_of_last hreader (hread hbefore hv hend) ?_
    rw [skipFiller_filler hafter, skipFiller_cons (by decide)]
  | @cons before item after t items hbefore hafter _ ih =>
    obtain ⟨v, values, hv, hvalues, rfl⟩ := List.forall₂_cons_left_iff.1 hitems
    have hend : EndsValue (after ++ ',' :: (t ++ ']' :: rest)) :=
      hafter.endsValue (endsValue_cons (by decide))
    have hcomma : skipFiller (after ++ ',' :: (t ++ ']' :: rest)) = ',' :: (t ++ ']' :: rest) := by
      rw [skipFiller_filler hafter, skipFiller_cons (by decide)]
    simp only [List.append_assoc, List.cons_append]
    rw [readItems_of_comma hreader (hread hbefore hv hend) hcomma (by simp; omega), ih hvalues]
    rfl

theorem exists_values {items : List (List Char)} (h : ∀ item ∈ items, IsValueText depth item) :
    ∃ values, List.Forall₂ (fun item v => readValue depth item = some (v, [])) items values := by
  induction items with
  | nil => exact ⟨[], .nil⟩
  | cons item items ih =>
    rw [List.forall_mem_cons] at h
    obtain ⟨⟨v, hv⟩, hrest⟩ := h
    obtain ⟨values, hvalues⟩ := ih hrest
    exact ⟨v :: values, .cons hv hvalues⟩

theorem readValue_of_isBracketed {items : List (List Char)} {values : List Value}
    (h : IsBracketed s items)
    (hitems : List.Forall₂ (fun item v => readValue depth item = some (v, [])) items values) :
    readValue (depth + 1) s = some (.list values, []) := by
  obtain ⟨body, hbody, rfl⟩ := h
  rw [readValue, readList, readItems_of_areItems hbody hitems]
  rfl

end CaseReport.Toml
