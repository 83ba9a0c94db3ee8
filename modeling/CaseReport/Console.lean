/-!
# Console output

What a run prints is a list of lines, and a line is made of spans that may have a style. With
colours, a styled span stands between the control sequences of its style and the one that resets all
styles; a reset inside the span is followed by the style once more, so that the style holds to the
end of the span. Without colours only the texts remain.
-/

namespace CaseReport.Console

/-- The look of a span. -/
inductive Style where
  | cyan
  | green
  | red
  | yellow
  | bold
  | dimmed
  | boldRed
  /-- Bold and underlined. -/
  | heading
  deriving Repr, DecidableEq

/-- The parameters of the control sequences that start a style, one after the other. -/
def Style.parameters : Style → List String
  | .cyan => ["36"]
  | .green => ["32"]
  | .red => ["31"]
  | .yellow => ["33"]
  | .bold => ["1"]
  | .dimmed => ["2"]
  | .boldRed => ["1;31"]
  | .heading => ["1", "4"]

/-- A piece of a line in one look. -/
structure Span where
  text : String
  style : Option Style := none
  deriving Repr, DecidableEq

/-- A line of output, without its ending. -/
abbrev Line := List Span

/-- Text in no particular style. -/
def plain (text : String) : Span := ⟨text, none⟩

/-- Text in a style. -/
def styled (style : Style) (text : String) : Span := ⟨text, some style⟩

/-- The control sequence with the given parameters. -/
def control (parameters : String) : List Char :=
  '\x1b' :: '[' :: (parameters.toList ++ ['m'])

/-- The control sequences that start a style. -/
def Style.start (style : Style) : List Char :=
  style.parameters.flatMap control

/-- The control sequence that ends all styles. -/
def reset : List Char := control "0"

/-- Puts the start of a style behind every reset in a text. -/
def restyle (start : List Char) : List Char → List Char
  | '\x1b' :: '[' :: '0' :: 'm' :: s => reset ++ start ++ restyle start s
  | c :: s => c :: restyle start s
  | [] => []

/-- The characters of a span. -/
def Span.render (colours : Bool) (span : Span) : List Char :=
  match span.style, colours with
  | some style, true => style.start ++ restyle style.start span.text.toList ++ reset
  | _, _ => span.text.toList

/-- The characters of a line, with its ending. -/
def renderLine (colours : Bool) (line : Line) : List Char :=
  line.flatMap (Span.render colours) ++ ['\n']

/-- The characters of some lines. -/
def render (colours : Bool) (lines : List Line) : List Char :=
  lines.flatMap (renderLine colours)

@[simp] theorem render_nil (colours : Bool) : render colours [] = [] := rfl

@[simp] theorem render_append (colours : Bool) (a b : List Line) :
    render colours (a ++ b) = render colours a ++ render colours b := by
  simp [render]

end CaseReport.Console
