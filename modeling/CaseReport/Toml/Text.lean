import CaseReport.Text.Digit

/-!
# Blanks, texts and keys

The lexical classes of a settings document. A text stands between quotes: double quotes admit
escapes, single quotes take everything as it is, and three quotes of a kind let the text run over
several lines. A key is a bare word or a text on one line, and keys with dots between them make a
path.
-/

namespace CaseReport.Toml

open Text

/-- Whether a character may stand in texts and comments. -/
def isPrintable (c : Char) : Bool :=
  c == '\t' || (0x20 ≤ c.toNat && c.toNat ≠ 0x7F)

/-! ## Blanks -/

/-- Whether a character is blank within a line. -/
def isSpace (c : Char) : Bool := c == ' ' || c == '\t'

/-- Drops the blanks in front. -/
def skipSpace (s : List Char) : List Char := s.dropWhile isSpace

/-- What follows the end of a line. -/
def afterNewline? : List Char → Option (List Char)
  | '\n' :: s => some s
  | '\r' :: '\n' :: s => some s
  | _ => none

/-- Drops a comment. -/
def skipComment : List Char → List Char
  | '#' :: s => s.dropWhile isPrintable
  | s => s

/-- Reads up to the end of a line on which nothing but blanks and a comment may follow. -/
def endLine (s : List Char) : Option (List Char) :=
  match skipComment (skipSpace s) with
  | [] => some []
  | s => afterNewline? s

/-- Drops blanks, ends of lines and comments. -/
def skipFiller : List Char → List Char
  | '\n' :: s => skipFiller s
  | '\r' :: '\n' :: s => skipFiller s
  | '#' :: s =>
    have := (List.dropWhile_suffix isPrintable (l := s)).length_le
    skipFiller (s.dropWhile isPrintable)
  | c :: s => if isSpace c then skipFiller s else c :: s
  | [] => []
termination_by s => s.length

/-- Drops blanks and ends of lines. -/
def skipLines : List Char → List Char
  | '\n' :: s => skipLines s
  | '\r' :: '\n' :: s => skipLines s
  | c :: s => if isSpace c then skipLines s else c :: s
  | [] => []

/-! ## Texts -/

/-- The character that a letter stands for after a backslash. -/
def simpleEscape? (c : Char) : Option Char :=
  if c = '"' ∨ c = '\\' then some c
  else if c = 'b' then some '\x08'
  else if c = 'f' then some '\x0C'
  else if c = 'n' then some '\n'
  else if c = 'r' then some '\r'
  else if c = 't' then some '\t'
  else none

/-- Reads the part of an escape that stands behind its backslash. -/
def escape : List Char → Option (Char × List Char)
  | [] => none
  | 'u' :: s => codePoint 4 s
  | 'U' :: s => codePoint 8 s
  | c :: s => (simpleEscape? c).map fun d => (d, s)

theorem escape_length {s rest : List Char} {c : Char} (h : escape s = some (c, rest)) :
    rest.length < s.length := by
  unfold escape at h
  split at h
  · cases h
  · exact Nat.lt_succ_of_le (codePoint_length h)
  · exact Nat.lt_succ_of_le (codePoint_length h)
  · obtain ⟨_, _, h⟩ := Option.map_eq_some_iff.1 h
    rw [← (Prod.mk.inj h).2]
    exact Nat.lt_succ_self _

/-- Puts a character in front of a text that has been read. -/
def prepend (c : Char) (reading : List Char × List Char) : List Char × List Char :=
  (c :: reading.1, reading.2)

/-- Reads a text in double quotes, of which the first has been read. -/
def quotedText : List Char → Option (List Char × List Char)
  | [] => none
  | '"' :: s => some ([], s)
  | '\\' :: s =>
    match h : escape s with
    | none => none
    | some (c, rest) =>
      have := escape_length h
      (quotedText rest).map (prepend c)
  | c :: s => if isPrintable c then (quotedText s).map (prepend c) else none
termination_by s => s.length

/-- Reads a text in single quotes, of which the first has been read. -/
def literalText : List Char → Option (List Char × List Char)
  | [] => none
  | '\'' :: s => some ([], s)
  | c :: s => if isPrintable c then (literalText s).map (prepend c) else none

/-- The end of a text over several lines: three quotes. Up to two more quotes belong to the text and
come first. -/
def closing? (quote : Char) (s : List Char) : Option (List Char × List Char) :=
  let run := (s.takeWhile (· == quote)).length
  if run < 3 then none
  else some (List.replicate (min (run - 3) 2) quote, s.drop (min run 5))

/-- Reads a character of a text over several lines; the end of a line is one of them. -/
def lineCharacter : List Char → Option (Char × List Char)
  | [] => none
  | c :: s =>
    if isPrintable c then some (c, s)
    else (afterNewline? (c :: s)).map fun rest => ('\n', rest)

/-- What follows when a backslash ends a line; blanks and ends of lines after it do not count. -/
def afterContinuation? (s : List Char) : Option (List Char) :=
  (afterNewline? (skipSpace s)).map skipLines

theorem afterNewline?_length {s rest : List Char} (h : afterNewline? s = some rest) :
    rest.length < s.length := by
  unfold afterNewline? at h
  split at h
  · cases h
    exact Nat.lt_succ_self _
  · cases h
    exact Nat.lt_succ_of_lt (Nat.lt_succ_self _)
  · cases h

theorem lineCharacter_length {s rest : List Char} {c : Char}
    (h : lineCharacter s = some (c, rest)) : rest.length < s.length := by
  unfold lineCharacter at h
  split at h
  · cases h
  · split at h
    · rw [← (Prod.mk.inj (Option.some.inj h)).2]
      exact Nat.lt_succ_self _
    · obtain ⟨_, hn, h⟩ := Option.map_eq_some_iff.1 h
      rw [← (Prod.mk.inj h).2]
      exact afterNewline?_length hn

theorem skipLines_length (s : List Char) : (skipLines s).length ≤ s.length := by
  fun_induction skipLines s with
  | case1 s ih => exact Nat.le_succ_of_le ih
  | case2 s ih => exact Nat.le_succ_of_le (Nat.le_succ_of_le ih)
  | case3 c s _ _ _ ih => exact Nat.le_succ_of_le ih
  | case4 => exact Nat.le_refl _
  | case5 => exact Nat.le_refl _

theorem afterContinuation?_length {s rest : List Char} (h : afterContinuation? s = some rest) :
    rest.length < s.length := by
  obtain ⟨t, ht, rfl⟩ := Option.map_eq_some_iff.1 h
  have h1 := afterNewline?_length ht
  have h2 : (skipSpace s).length ≤ s.length := (List.dropWhile_suffix _).length_le
  have h3 := skipLines_length t
  omega

/-- Reads a text over several lines that stands between double quotes. -/
def quotedLines (s : List Char) : Option (List Char × List Char) :=
  match closing? '"' s with
  | some reading => some reading
  | none =>
    match s with
    | '\\' :: s =>
      match hc : afterContinuation? s with
      | some rest =>
        have := afterContinuation?_length hc
        quotedLines rest
      | none =>
        match he : escape s with
        | none => none
        | some (c, rest) =>
          have := escape_length he
          (quotedLines rest).map (prepend c)
    | s =>
      match hl : lineCharacter s with
      | none => none
      | some (c, rest) =>
        have := lineCharacter_length hl
        (quotedLines rest).map (prepend c)
termination_by s.length

/-- Reads a text over several lines that stands between single quotes. -/
def literalLines (s : List Char) : Option (List Char × List Char) :=
  match closing? '\'' s with
  | some reading => some reading
  | none =>
    match hl : lineCharacter s with
    | none => none
    | some (c, rest) =>
      have := lineCharacter_length hl
      (literalLines rest).map (prepend c)
termination_by s.length

/-- Drops the end of a line that directly follows the quotes in front of a text. -/
def skipFirstNewline (s : List Char) : List Char :=
  (afterNewline? s).getD s

/-- Reads a text of any form, if one comes first. -/
def readText : List Char → Option (List Char × List Char)
  | '"' :: '"' :: '"' :: s => quotedLines (skipFirstNewline s)
  | '\'' :: '\'' :: '\'' :: s => literalLines (skipFirstNewline s)
  | '"' :: s => quotedText s
  | '\'' :: s => literalText s
  | _ => none

/-! ## Keys -/

/-- Whether a character may stand in a key without quotes. -/
def isBare (c : Char) : Bool :=
  c.isAlphanum || c == '-' || c == '_'

/-- Reads one key. -/
def simpleKey : List Char → Option (List Char × List Char)
  | '"' :: s => quotedText s
  | '\'' :: s => literalText s
  | s =>
    if (s.takeWhile isBare).isEmpty then none
    else some (s.takeWhile isBare, s.dropWhile isBare)

/-- Reads keys with dots between them. Blanks around them do not count. -/
def readPath (s : List Char) : Option (List String × List Char) :=
  match simpleKey (skipSpace s) with
  | none => none
  | some (key, rest) =>
    match skipSpace rest with
    | '.' :: rest =>
      if rest.length < s.length then
        (readPath rest).map fun (path, rest) => (String.ofList key :: path, rest)
      else none
    | rest => some ([String.ofList key], rest)
termination_by s.length

/-- A path must have fewer keys than this. -/
def pathLimit : Nat := 80

/-- Reads a path of admissible length. -/
def readKey (s : List Char) : Option (List String × List Char) :=
  (readPath s).filter fun (path, _) => path.length < pathLimit

end CaseReport.Toml
