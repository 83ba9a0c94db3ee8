import CaseReport.Diagnostic.Pattern.Escape

/-!
# Classes

A class is written in brackets. Behind the opening bracket a circumflex negates the class, and
dashes or a closing bracket stand for themselves. Ranges, named classes, shorthands and classes
in brackets of their own make up its parts; between two parts stands an operator, which is a
character written twice.
-/

namespace CaseReport.Diagnostic.Pattern

/-- A class whose end has not been read. -/
structure OpenClass where
  negated : Bool := false
  /-- The parts that have been read, the last one first. -/
  parts : List (List ClassItem) := []
  /-- The items of the part that is being read, the last one first. -/
  items : List ClassItem := []

namespace OpenClass

/-- Adds an item. -/
def push (c : OpenClass) (item : ClassItem) : OpenClass :=
  { c with items := item :: c.items }

/-- Starts another part. -/
def nextPart (c : OpenClass) : OpenClass :=
  { c with parts := c.items.reverse :: c.parts, items := [] }

/-- The class that ends here. -/
def close (c : OpenClass) : ClassItem :=
  .bracketed c.negated (c.items.reverse :: c.parts).reverse

end OpenClass

/-! ## Tokens -/

/-- A part of the written form of a class. -/
inductive ClassToken where
  | item (item : ClassItem)
  | operator
  | opening (start : OpenClass)

/-- The names of classes of ASCII characters. -/
def classNames : List String :=
  ["alnum", "alpha", "ascii", "blank", "cntrl", "digit", "graph", "lower", "print", "punct",
    "space", "upper", "word", "xdigit"]

/-- Reads the name of a class and the end behind it. -/
def readName (negated : Bool) (s : List Char) : Option (ClassItem × List Char) :=
  match s.dropWhile (· != ':') with
  | ':' :: ']' :: rest =>
    if classNames.contains (String.ofList (s.takeWhile (· != ':'))) then
      some (.named negated, rest)
    else none
  | _ => none

/-- Reads a name that stands with its colons behind an opening bracket. -/
def readNamed : List Char → Option (ClassItem × List Char)
  | ':' :: '^' :: s => readName true s
  | ':' :: s => readName false s
  | _ => none

/-- Passes over dashes, and tells whether there are any. -/
def skipDashes (verbose : Bool) (count : Nat) (s : List Char) : Nat × List Char :=
  match h : skipGap verbose s with
  | '-' :: rest =>
    have := lt_of_skipGap h
    skipDashes verbose (count + 1) rest
  | rest => (count, rest)
termination_by s.length

/-- Reads the start of a class whose opening bracket has been read. -/
def readOpening (verbose : Bool) (s : List Char) : OpenClass × List Char :=
  let t := skipGap verbose s
  let negated := t.head? == some '^'
  let (dashes, u) := skipDashes verbose 0 (if negated then t.tail else t)
  if dashes = 0 ∧ u.head? = some ']' then
    (⟨negated, [], [.literal ⟨']', false⟩]⟩, u.tail)
  else (⟨negated, [], List.replicate dashes (.literal ⟨'-', false⟩)⟩, u)

/-- Reads an item that is no range. -/
def readSingle (verbose : Bool) : List Char → Option (ClassItem × List Char)
  | [] => none
  | '\\' :: s =>
    match readEscape verbose s with
    | some (.literal literal, rest) => some (.literal literal, rest)
    | some (.shorthand negated, rest) => some (.shorthand negated, rest)
    | _ => none
  | c :: s => some (.literal ⟨c, false⟩, s)

/-- The character that is seen next. What is seen of a comment is its first character. -/
def glance (verbose : Bool) (s : List Char) : Option Char :=
  if verbose then
    match s.dropWhile Text.isBlank with
    | '#' :: comment => (comment.dropWhile Text.isBlank).head?
    | t => t.head?
  else s.head?

/-- The range between two items. -/
def range? : ClassItem → ClassItem → Option ClassItem
  | .literal first, .literal last => if first.isRange last then some (.range first last) else none
  | _, _ => none

/-- Reads an item or a range. A dash in front of a closing bracket or of another dash makes no
range. -/
def readRange (verbose : Bool) (s : List Char) : Option (ClassItem × List Char) := do
  let (first, t) ← readSingle verbose s
  match skipGap verbose t with
  | [] => none
  | '-' :: u =>
    if glance verbose u = some ']' ∨ glance verbose u = some '-' then return (first, '-' :: u)
    else
      let (last, rest) ← readSingle verbose (skipGap verbose u)
      return (← range? first last, rest)
  | rest => return (first, rest)

/-- Whether two characters are an operator. -/
def isOperator (c d : Char) : Bool :=
  c == d && (c == '&' || c == '-' || c == '~')

/-- Reads a part of a class other than its end, given the first character and the rest. -/
def readClassToken (verbose : Bool) (c : Char) (s : List Char) :
    Option (ClassToken × List Char) :=
  if c = '[' then
    match readNamed s with
    | some (item, rest) => some (.item item, rest)
    | none =>
      let (start, rest) := readOpening verbose s
      some (.opening start, rest)
  else if s.head?.any (isOperator c) then some (.operator, s.tail)
  else (readRange verbose (c :: s)).map fun (item, rest) => (.item item, rest)

/-! ### Progress -/

theorem readName_length {negated : Bool} {s rest : List Char} {item : ClassItem}
    (h : readName negated s = some (item, rest)) : rest.length ≤ s.length := by
  have hle := (List.dropWhile_suffix (· != ':') (l := s)).length_le
  unfold readName at h
  split at h
  · rename_i rest' hd
    rw [hd] at hle
    split at h
    · simp only [Option.some.injEq, Prod.mk.injEq] at h
      rw [← h.2]
      simp only [List.length_cons] at hle
      omega
    · cases h
  · cases h

theorem readNamed_length {s rest : List Char} {item : ClassItem}
    (h : readNamed s = some (item, rest)) : rest.length ≤ s.length := by
  unfold readNamed at h
  split at h
  · exact Nat.le_succ_of_le (Nat.le_succ_of_le (readName_length h))
  · exact Nat.le_succ_of_le (readName_length h)
  · cases h

theorem skipDashes_length (verbose : Bool) (count : Nat) (s : List Char) :
    (skipDashes verbose count s).2.length ≤ s.length := by
  fun_induction skipDashes verbose count s with
  | case1 count s rest h hlt ih => omega
  | case2 count s h => exact skipGap_length ..

theorem readOpening_length (verbose : Bool) (s : List Char) :
    (readOpening verbose s).2.length ≤ s.length := by
  unfold readOpening
  dsimp only
  have hg := skipGap_length verbose s
  generalize skipGap verbose s = t at hg
  generalize ht : (if t.head? == some '^' then t.tail else t) = t'
  have ht' : t'.length ≤ t.length := by
    rw [← ht]; split <;> simp
  have hd := skipDashes_length verbose 0 t'
  split
  · simp only [List.length_tail]; omega
  · dsimp only; omega

theorem readSingle_length {verbose : Bool} {s rest : List Char} {item : ClassItem}
    (h : readSingle verbose s = some (item, rest)) : rest.length < s.length := by
  unfold readSingle at h
  split at h
  · cases h
  · split at h
    · rename_i hr
      simp only [Option.some.injEq, Prod.mk.injEq] at h
      rw [← h.2]
      exact Nat.lt_succ_of_lt (readEscape_length hr)
    · rename_i hr
      simp only [Option.some.injEq, Prod.mk.injEq] at h
      rw [← h.2]
      exact Nat.lt_succ_of_lt (readEscape_length hr)
    · cases h
  · simp only [Option.some.injEq, Prod.mk.injEq] at h
    rw [← h.2]
    exact Nat.lt_succ_self _

theorem readRange_length {verbose : Bool} {s rest : List Char} {item : ClassItem}
    (h : readRange verbose s = some (item, rest)) : rest.length < s.length := by
  unfold readRange at h
  simp only [Option.bind_eq_bind, Option.bind_eq_some_iff, Prod.exists] at h
  obtain ⟨first, t, hf, h⟩ := h
  have h1 := readSingle_length hf
  have h2 := skipGap_length verbose t
  split at h
  · cases h
  · rename_i u hu
    rw [hu] at h2
    split at h
    · simp only [Option.pure_def, Option.some.injEq, Prod.mk.injEq] at h
      rw [← h.2]; omega
    · simp only [Option.bind_eq_some_iff, Option.pure_def, Option.some.injEq, Prod.mk.injEq,
        Prod.exists] at h
      obtain ⟨_, _, hl, _, _, _, rfl⟩ := h
      have h3 := readSingle_length hl
      have h4 := skipGap_length verbose u
      simp only [List.length_cons] at h2
      omega
  · simp only [Option.pure_def, Option.some.injEq, Prod.mk.injEq] at h
    rw [← h.2]; omega

theorem readClassToken_length {verbose : Bool} {c : Char} {s rest : List Char}
    {token : ClassToken} (h : readClassToken verbose c s = some (token, rest)) :
    rest.length ≤ s.length := by
  unfold readClassToken at h
  split at h
  · split at h
    · rename_i hn
      simp only [Option.some.injEq, Prod.mk.injEq] at h
      rw [← h.2]
      exact readNamed_length hn
    · simp only [Option.some.injEq, Prod.mk.injEq] at h
      rw [← h.2]
      exact readOpening_length ..
  · split at h
    · simp only [Option.some.injEq, Prod.mk.injEq] at h
      rw [← h.2, List.length_tail]
      exact Nat.sub_le ..
    · obtain ⟨⟨_, _⟩, hr, h⟩ := Option.map_eq_some_iff.1 h
      rw [← (Prod.mk.inj h).2]
      exact Nat.le_of_lt_succ (readRange_length hr)

/-! ## Whole classes -/

/-- Reads up to the end of the outermost of some classes that are open. -/
def closeClass (verbose : Bool) (outer : List OpenClass) (inner : OpenClass) (s : List Char) :
    Option (ClassItem × List Char) :=
  match hs : skipGap verbose s with
  | [] => none
  | c :: t =>
    have := lt_of_skipGap hs
    if c = ']' then
      match outer with
      | [] => some (inner.close, t)
      | next :: outer => closeClass verbose outer (next.push inner.close) t
    else
      match ht : readClassToken verbose c t with
      | none => none
      | some (token, rest) =>
        have := readClassToken_length ht
        match token with
        | .item item => closeClass verbose outer (inner.push item) rest
        | .operator => closeClass verbose outer inner.nextPart rest
        | .opening start => closeClass verbose (inner :: outer) start rest
termination_by s.length

/-- Reads a class whose opening bracket has been read. -/
def readClass (verbose : Bool) (s : List Char) : Option (ClassItem × List Char) :=
  let (start, rest) := readOpening verbose s
  closeClass verbose [] start rest

theorem closeClass_length {verbose : Bool} {outer : List OpenClass} {inner : OpenClass}
    {s rest : List Char} {item : ClassItem}
    (h : closeClass verbose outer inner s = some (item, rest)) : rest.length ≤ s.length := by
  fun_induction closeClass verbose outer inner s <;> grind

theorem readClass_length {verbose : Bool} {s rest : List Char} {item : ClassItem}
    (h : readClass verbose s = some (item, rest)) : rest.length ≤ s.length := by
  unfold readClass at h
  exact Nat.le_trans (closeClass_length h) (readOpening_length ..)

end CaseReport.Diagnostic.Pattern
