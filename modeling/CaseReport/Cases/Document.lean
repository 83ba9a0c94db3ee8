import CaseReport.Cases
import CaseReport.Json.Skip

/-!
# Case documents

A configuration is a JSON document: an object whose members `setup` and `e2e` are lists of strings,
or a list of two such lists. Other members may hold anything and are passed over. No identifier may
hold a line break, because an identifier has to fit on one line of a report.
-/

namespace CaseReport

/-- Why a text is refused as a configuration. -/
inductive CasesFault where
  /-- The text is no case document. -/
  | document (fault : Json.Fault)
  /-- An identifier does not fit on a line. -/
  | lineBreak (group : Group) (identifier : String)
  deriving Repr, DecidableEq

/-- The text of a fault in a configuration. -/
def CasesFault.text : CasesFault → String
  | .document fault => fault.text
  | .lineBreak group identifier =>
    group.name ++ " test case " ++ Text.quoted identifier ++ " contains a line break"

namespace Cases

open Json

/-- What messages call the document, and what they call it when it is too short a list. -/
def documentName : String := "struct TestCases"

/-- Fails because of a value of another kind than the one wanted; a value that is malformed is
reported as such. -/
def unexpected (wanted : String) (s : List Char) : Except Failure α :=
  match s with
  | [] => failAt .endInValue []
  | 'n' :: s => do
    let rest ← literal ['u', 'l', 'l'] s
    failAfter (.unexpected .null wanted) rest
  | 't' :: s => do
    let rest ← literal ['r', 'u', 'e'] s
    failAfter (.unexpected (.boolean true) wanted) rest
  | 'f' :: s => do
    let rest ← literal ['a', 'l', 's', 'e'] s
    failAfter (.unexpected (.boolean false) wanted) rest
  | '"' :: s => do
    let (text, rest) ← stringBody s
    failAfter (.unexpected (.string (String.ofList text)) wanted) rest
  | '-' :: s => do
    let (value, rest) ← number true s
    failAfter (.unexpected (.number value) wanted) rest
  | '[' :: s => failAfter (.unexpected .list wanted) ('[' :: s)
  | '{' :: s => failAfter (.unexpected .object wanted) ('{' :: s)
  | c :: s =>
    if Text.isDigit c then do
      let (value, rest) ← number false (c :: s)
      failAfter (.unexpected (.number value) wanted) rest
    else failAt .expectedValue (c :: s)

/-- Reads a string. -/
def readString (s : List Char) : Reading String :=
  match skipSpace s with
  | '"' :: s =>
    match stringBody s with
    | .error failure => .error failure
    | .ok (text, rest) => .ok (String.ofList text, rest)
  | s => unexpected "a string" s

/-- Goes on to the next element of a list. Returns whether there is one, and the text from there on;
if there is none, the text behind the list. -/
def nextElement (first : Bool) (s : List Char) : Except Failure (Bool × List Char) :=
  match skipSpace s with
  | [] => failAt .endInList []
  | ']' :: s => .ok (false, s)
  | c :: s =>
    if first then .ok (true, c :: s)
    else if c = ',' then
      match skipSpace s with
      | [] => failAt .endInValue []
      | ']' :: s => failAt .trailingComma (']' :: s)
      | s => .ok (true, s)
    else failAt .expectedListCommaOrEnd (c :: s)

/-- Goes on to the name of the next member of an object. Returns whether there is one, and the text
behind the quote that opens it; if there is none, the text behind the object. -/
def nextMember (first : Bool) (s : List Char) : Except Failure (Bool × List Char) :=
  match skipSpace s with
  | [] => failAt .endInObject []
  | '}' :: s => .ok (false, s)
  | c :: s =>
    if first then
      if c = '"' then .ok (true, s) else failAt .keyNotString (c :: s)
    else if c = ',' then
      match skipSpace s with
      | [] => failAt .endInValue []
      | '"' :: s => .ok (true, s)
      | '}' :: s => failAt .trailingComma ('}' :: s)
      | s => failAt .keyNotString s
    else failAt .expectedObjectCommaOrEnd (c :: s)

theorem unexpected_ne_ok {α : Type} (wanted : String) (s : List Char) (a : α) :
    unexpected wanted s ≠ .ok a := by
  intro h
  unfold unexpected at h
  split at h
  all_goals first
    | cases h
    | (simp only [bind, Except.bind] at h
       split at h <;> cases h)
    | (split at h
       · simp only [bind, Except.bind] at h
         split at h <;> cases h
       · cases h)

theorem readString_length {s rest : List Char} {text : String}
    (h : readString s = .ok (text, rest)) : rest.length < s.length := by
  have hle := skipSpace_length s
  unfold readString at h
  split at h
  · next hs =>
    rw [hs] at hle
    split at h
    · cases h
    · next hb =>
      cases h
      have := stringBody_length hb
      simp only [List.length_cons] at hle
      omega
  · exact (unexpected_ne_ok _ _ _ h).elim

theorem nextElement_length {first more : Bool} {s rest : List Char}
    (h : nextElement first s = .ok (more, rest)) : rest.length ≤ s.length := by
  have hle := skipSpace_length s
  unfold nextElement at h
  split at h
  · cases h
  · next hs =>
    cases h
    rw [hs] at hle
    exact Nat.le_of_succ_le hle
  · next c s' _ hs =>
    rw [hs] at hle
    split at h
    · cases h
      exact hle
    · split at h
      · have hle' := skipSpace_length s'
        simp only [List.length_cons] at hle
        split at h
        · cases h
        · cases h
        · cases h
          omega
      · cases h

theorem nextMember_length {first more : Bool} {s rest : List Char}
    (h : nextMember first s = .ok (more, rest)) : rest.length < s.length := by
  have hle := skipSpace_length s
  unfold nextMember at h
  split at h
  · cases h
  · next hs =>
    cases h
    rw [hs] at hle
    exact hle
  · next c s' _ hs =>
    rw [hs] at hle
    split at h
    · split at h
      · cases h
        exact hle
      · cases h
    · split at h
      · have hle' := skipSpace_length s'
        simp only [List.length_cons] at hle
        split at h
        · cases h
        · next ht =>
          cases h
          rw [ht] at hle'
          simp only [List.length_cons] at hle'
          omega
        · cases h
        · cases h
      · cases h

/-- Reads the elements of a list of strings. -/
def readStrings (first : Bool) (s : List Char) : Reading (List String) :=
  match hn : nextElement first s with
  | .error failure => .error failure
  | .ok (false, rest) => .ok ([], rest)
  | .ok (true, s') =>
    match hs : readString s' with
    | .error failure => .error failure
    | .ok (text, s'') =>
      have := nextElement_length hn
      have := readString_length hs
      match readStrings false s'' with
      | .error failure => .error failure
      | .ok (texts, rest) => .ok (text :: texts, rest)
termination_by s.length

theorem readStrings_length {first : Bool} {s rest : List Char} {texts : List String}
    (h : readStrings first s = .ok (texts, rest)) : rest.length ≤ s.length := by
  fun_induction readStrings first s generalizing texts with
  | case1 => cases h
  | case2 first s rest' hn => cases h; exact nextElement_length hn
  | case3 => cases h
  | case4 => cases h
  | case5 first s s' hn text s'' hs h1 h2 texts' rest' hr ih =>
    cases h
    have := ih hr
    omega

/-- Reads a list of strings. -/
def readList (s : List Char) : Reading (List String) :=
  match skipSpace s with
  | [] => failAt .endInValue []
  | '[' :: s => readStrings true s
  | s => unexpected "a sequence" s

theorem readList_length {s rest : List Char} {texts : List String}
    (h : readList s = .ok (texts, rest)) : rest.length < s.length := by
  have hle := skipSpace_length s
  unfold readList at h
  split at h
  · cases h
  · next hs =>
    have := readStrings_length h
    rw [hs] at hle
    simp only [List.length_cons] at hle
    omega
  · exact (unexpected_ne_ok _ _ _ h).elim

/-- The two lists of an object, as far as they have been read. -/
structure Fields where
  setup : Option (List String) := none
  e2e : Option (List String) := none
  deriving Repr, DecidableEq

/-- Where a member with a name that has been used before is reported: behind its name and blanks,
and behind the end of the object if that comes next. -/
def behindRepeatedName (s : List Char) : List Char :=
  match skipSpace s with
  | '}' :: s => s
  | s => s

/-- Reads a member of an object, from behind the quote that opens its name. -/
def readMember (fields : Fields) (s : List Char) : Except Failure (Fields × List Char) := do
  let (name, s) ← stringBody s
  if name = ['s', 'e', 't', 'u', 'p'] then
    if fields.setup.isSome then failAfter (.duplicateField "setup") (behindRepeatedName s)
    else
      let (texts, rest) ← readList (← colon s)
      return ({ fields with setup := some texts }, rest)
  else if name = ['e', '2', 'e'] then
    if fields.e2e.isSome then failAfter (.duplicateField "e2e") (behindRepeatedName s)
    else
      let (texts, rest) ← readList (← colon s)
      return ({ fields with e2e := some texts }, rest)
  else
    let rest ← skipValue (← colon s)
    return (fields, rest)

/-- The test cases of an object that has been read to its end. -/
def Fields.finish (fields : Fields) (rest : List Char) : Reading Cases :=
  match fields.setup, fields.e2e with
  | none, _ => failAfter (.missingField "setup") rest
  | some _, none => failAfter (.missingField "e2e") rest
  | some setup, some e2e => .ok (⟨setup, e2e⟩, rest)

theorem readMember_length {fields fields' : Fields} {s rest : List Char}
    (h : readMember fields s = .ok (fields', rest)) : rest.length < s.length := by
  simp only [readMember, bind, Except.bind, pure, Except.pure] at h
  split at h
  · cases h
  · next name hname =>
    have h1 := stringBody_length hname
    split at h
    · split at h
      · cases h
      · split at h
        · cases h
        · next hc =>
          have h2 := colon_length hc
          split at h
          · cases h
          · next hl =>
            have h3 := readList_length hl
            cases h
            omega
    · split at h
      · split at h
        · cases h
        · split at h
          · cases h
          · next hc =>
            have h2 := colon_length hc
            split at h
            · cases h
            · next hl =>
              have h3 := readList_length hl
              cases h
              omega
      · split at h
        · cases h
        · next hc =>
          have h2 := colon_length hc
          split at h
          · cases h
          · next hl =>
            have h3 := skipValue_length hl
            cases h
            omega

/-- Reads the members of an object. -/
def readMembers (fields : Fields) (first : Bool) (s : List Char) : Reading Cases :=
  match hn : nextMember first s with
  | .error failure => .error failure
  | .ok (false, rest) => fields.finish rest
  | .ok (true, s') =>
    match hm : readMember fields s' with
    | .error failure => .error failure
    | .ok (fields', rest) =>
      have := nextMember_length hn
      have := readMember_length hm
      readMembers fields' false rest
termination_by s.length

/-- Reads the end of a list that must not go on. -/
def endOfList (s : List Char) : Except Failure (List Char) :=
  match skipSpace s with
  | [] => failAt .endInList []
  | ']' :: s => .ok s
  | ',' :: s =>
    match skipSpace s with
    | ']' :: s => failAt .trailingComma (']' :: s)
    | s => failAt .trailingCharacters s
  | s => failAt .trailingCharacters s

/-- Fails because a document that is a list has too few elements. -/
def tooShort (length : Nat) (rest : List Char) : Except Failure α :=
  failAfter (.tooShort length (documentName ++ " with 2 elements")) rest

/-- Reads the two elements of a document that is a list. -/
def readPair (s : List Char) : Except Failure (Cases × List Char) := do
  let (more, s) ← nextElement true s
  unless more do tooShort 0 s
  let (setup, s) ← readList s
  let (more, s) ← nextElement false s
  unless more do tooShort 1 s
  let (e2e, s) ← readList s
  let rest ← endOfList s
  return (⟨setup, e2e⟩, rest)

/-- Reads a case document from the front of a text. -/
def readDocument (s : List Char) : Reading Cases :=
  match skipSpace s with
  | [] => failAt .endInValue []
  | '[' :: s => readPair s
  | '{' :: s => readMembers {} true s
  | s => unexpected documentName s

/-- Reads a text that is a case document and nothing else. -/
def readWhole (text : List Char) : Except Failure Cases := do
  let (cases, rest) ← readDocument text
  match skipSpace rest with
  | [] => return cases
  | rest => failAt .trailingCharacters rest

/-- The test cases of a configuration. -/
def parse (text : List Char) : Except CasesFault Cases :=
  match readWhole text with
  | .error failure => .error (.document (failure.locate text))
  | .ok cases =>
    match cases.firstBroken? with
    | some (group, identifier) => .error (.lineBreak group identifier)
    | none => .ok cases

end Cases

end CaseReport
