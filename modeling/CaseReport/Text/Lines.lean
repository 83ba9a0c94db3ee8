/-!
# Lines of a text

A line ends at a line feed, and a carriage return directly before that line feed belongs to the
ending. A text that does not end in a line feed has a last line without an ending, which keeps
a carriage return at its end.
-/

namespace CaseReport.Text

/-- The lines of a text, without their endings. -/
def lines : List Char → List (List Char)
  | [] => []
  | '\n' :: s => [] :: lines s
  | '\r' :: '\n' :: s => [] :: lines s
  | c :: s =>
    match lines s with
    | [] => [[c]]
    | l :: ls => (c :: l) :: ls

/-- What follows a colon and a space at the front of a text. -/
def afterColon : List Char → Option (List Char)
  | ':' :: ' ' :: after => some after
  | _ => none

/-- Cuts a text at its last colon that a space follows, and drops these two characters. -/
def cutLast : List Char → Option (List Char × List Char)
  | [] => none
  | c :: s =>
    match cutLast s with
    | some (before, after) => some (c :: before, after)
    | none => (afterColon (c :: s)).map fun after => ([], after)

/-- The text without its line feeds and carriage returns. -/
def withoutBreaks (s : List Char) : List Char :=
  s.filter fun c => c != '\n' && c != '\r'

/-- Whether a text holds a line feed or a carriage return. -/
def hasBreak (s : List Char) : Bool :=
  s.any fun c => c == '\n' || c == '\r'

/-- Whether a text occurs inside another one, at any place. -/
def occurs (needle : List Char) : List Char → Bool
  | [] => needle.isEmpty
  | c :: s => needle.isPrefixOf (c :: s) || occurs needle s

@[simp] theorem lines_nil : lines [] = [] := rfl

@[simp] theorem lines_newline (s : List Char) : lines ('\n' :: s) = [] :: lines s := by
  rw [lines]

@[simp] theorem lines_return_newline (s : List Char) :
    lines ('\r' :: '\n' :: s) = [] :: lines s := by
  rw [lines]

theorem afterColon_eq_some_iff {s after : List Char} :
    afterColon s = some after ↔ s = ':' :: ' ' :: after := by
  constructor
  · intro h
    rw [afterColon.eq_def] at h
    split at h
    · rw [Option.some.inj h]
    · cases h
  · rintro rfl
    rfl

theorem cutLast_eq_some {s before after : List Char} (h : cutLast s = some (before, after)) :
    s = before ++ ':' :: ' ' :: after := by
  induction s generalizing before after with
  | nil => simp [cutLast] at h
  | cons c s ih =>
    cases hs : cutLast s with
    | some parts =>
      obtain ⟨rfl, rfl⟩ : c :: parts.1 = before ∧ parts.2 = after := by simpa [cutLast, hs] using h
      rw [ih hs]
      rfl
    | none =>
      obtain ⟨hafter, rfl⟩ : afterColon (c :: s) = some after ∧ [] = before := by
        simpa [cutLast, hs] using h
      exact afterColon_eq_some_iff.1 hafter

theorem hasBreak_eq_false_iff {s : List Char} :
    hasBreak s = false ↔ ∀ c ∈ s, c ≠ '\n' ∧ c ≠ '\r' := by
  simp [hasBreak]

theorem withoutBreaks_append (s t : List Char) :
    withoutBreaks (s ++ t) = withoutBreaks s ++ withoutBreaks t :=
  List.filter_append ..

theorem withoutBreaks_eq_self {s : List Char} (h : hasBreak s = false) : withoutBreaks s = s := by
  rw [withoutBreaks, List.filter_eq_self]
  intro c hc
  have hbreak := hasBreak_eq_false_iff.1 h c hc
  simp [hbreak]

/-- Searching finds a text exactly when it is an infix. -/
theorem occurs_iff {needle s : List Char} : occurs needle s = true ↔ needle <:+: s := by
  induction s with
  | nil => simp [occurs]
  | cons c s ih =>
    rw [occurs, Bool.or_eq_true, ih, List.isPrefixOf_iff_prefix, List.infix_cons_iff]

end CaseReport.Text
