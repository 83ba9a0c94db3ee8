import Mathlib.Data.List.Forall2
import CaseReport.Proofs.Report.RoundTrip

/-!
# Which texts are reports

A report is read from a text exactly if each of its lines is blank or spells an entry, and a line
spells one entry in one way. If not, the first line that is neither is to blame. The lines are those
between line feeds, a carriage return at the end of which counts as part of the line feed.
-/

namespace CaseReport

namespace Text

/-- A piece of a text that ends at a line feed, without a carriage return right before it. -/
def withoutReturn (piece : List Char) : List Char :=
  if piece.getLast? = some '\r' then piece.dropLast else piece

/-- The pieces of a text between its line feeds, as lines. The last one ends at no line feed. -/
def splitLines (s : List Char) : List (List Char) :=
  (s.splitOn '\n').dropLast.map withoutReturn ++ (s.splitOn '\n').getLast?.toList

variable {s t line : List Char} {c : Char}

private theorem splitOn_newline (s : List Char) :
    ('\n' :: s).splitOn '\n' = [] :: s.splitOn '\n' := by
  simp [List.splitOn_eq_splitOnP, List.splitOnP_cons_eq_if_modifyHead]

private theorem splitOn_of_ne (h : c ≠ '\n') (s : List Char) :
    (c :: s).splitOn '\n' = (s.splitOn '\n').modifyHead (c :: ·) := by
  simp [List.splitOn_eq_splitOnP, List.splitOnP_cons_eq_if_modifyHead, h]

private theorem splitOn_eq_cons (s : List Char) :
    ∃ piece pieces, s.splitOn '\n' = piece :: pieces := by
  rw [List.splitOn_eq_splitOnP]
  exact List.exists_cons_of_ne_nil (List.splitOnP_ne_nil _ s)

private theorem splitLines_newline (s : List Char) :
    splitLines ('\n' :: s) = [] :: splitLines s := by
  obtain ⟨piece, pieces, hs⟩ := splitOn_eq_cons s
  simp [splitLines, splitOn_newline, hs, withoutReturn]

private theorem withoutReturn_cons (h : c = '\r' → s ≠ []) :
    withoutReturn (c :: s) = c :: withoutReturn s := by
  cases s with
  | nil =>
    have hc : c ≠ '\r' := fun hc => h hc rfl
    simp [withoutReturn, hc]
  | cons d s =>
    simp only [withoutReturn, List.getLast?_cons_cons, List.dropLast_cons_cons]
    split <;> rfl

/-- A character that ends no line stands at the front of the first line. -/
private theorem splitLines_cons (h : c ≠ '\n') (h' : c = '\r' → s.head? ≠ some '\n') :
    splitLines (c :: s) = (splitLines s).modifyHead (c :: ·) := by
  obtain ⟨piece, pieces, hs⟩ := splitOn_eq_cons s
  cases pieces with
  | nil => simp [splitLines, splitOn_of_ne h, hs]
  | cons next pieces =>
    have hreturn : c = '\r' → piece ≠ [] := by
      rintro hc rfl
      cases s with
      | nil => simp at hs
      | cons d s =>
        by_cases hd : d = '\n'
        · exact h' hc (by rw [hd]; rfl)
        · obtain ⟨piece', pieces', hs'⟩ := splitOn_eq_cons s
          rw [splitOn_of_ne hd, hs'] at hs
          simp at hs
    simp [splitLines, splitOn_of_ne h, hs, withoutReturn_cons hreturn]

theorem lines_eq_nil_iff : lines s = [] ↔ s = [] := by
  fun_induction lines s <;> simp_all

/-- These are the lines of the text, and one empty line more if the text is empty or ends in a line
feed. -/
theorem splitLines_eq (s : List Char) :
    splitLines s = lines s ∨ splitLines s = lines s ++ [[]] := by
  fun_induction lines s with
  | case1 => exact .inr rfl
  | case2 s ih =>
    rw [splitLines_newline]
    rcases ih with ih | ih
    · exact .inl (by rw [ih])
    · exact .inr (by rw [ih]; rfl)
  | case3 s ih =>
    have hreturn : splitLines ('\r' :: '\n' :: s) = [] :: splitLines s := by
      obtain ⟨piece, pieces, hs⟩ := splitOn_eq_cons s
      simp [splitLines, splitOn_of_ne, splitOn_newline, hs, withoutReturn]
    rw [hreturn]
    rcases ih with ih | ih
    · exact .inl (by rw [ih])
    · exact .inr (by rw [ih]; rfl)
  | case4 c s hc hreturn hnone ih =>
    obtain rfl := lines_eq_nil_iff.1 hnone
    rw [splitLines_cons hc (by simp)]
    exact .inl rfl
  | case5 c s hc hreturn l ls hlines ih =>
    have hhead : c = '\r' → s.head? ≠ some '\n' := by
      intro hc' hs
      obtain ⟨s', rfl⟩ := List.head?_eq_some_iff.1 hs
      exact hreturn s' hc' rfl
    rw [splitLines_cons hc hhead]
    rw [hlines] at ih
    rcases ih with ih | ih
    · exact .inl (by rw [ih]; rfl)
    · exact .inr (by rw [ih]; rfl)

/-- A text of blank characters only. -/
def IsBlank (s : List Char) : Prop :=
  ∀ c ∈ s, isBlank c = true

instance : DecidablePred IsBlank :=
  fun s => inferInstanceAs (Decidable (∀ c ∈ s, isBlank c = true))

theorem isEmpty_trim_iff : (trim s).isEmpty = true ↔ IsBlank s := by
  rw [List.isEmpty_iff, trim_eq_nil_iff, IsBlank]

private theorem dropWhile_isBlank_append (h : IsBlank s) (h' : ∀ c ∈ t, isBlank c = false)
    (rest : List Char) (hrest : t = [] → rest = []) :
    (s ++ (t ++ rest)).dropWhile isBlank = t ++ rest := by
  rw [List.dropWhile_append_of_pos h]
  cases t with
  | nil =>
    rw [hrest rfl]
    rfl
  | cons c t =>
    have hc := h' c List.mem_cons_self
    simp [hc]

/-- Trimming finds a text without blanks again after blanks are put around it. -/
theorem trim_append {before after : List Char} (hbefore : IsBlank before) (hafter : IsBlank after)
    (hne : s ≠ []) (hs : ∀ c ∈ s, isBlank c = false) : trim (before ++ (s ++ after)) = s := by
  have hfront : trimStart (before ++ (s ++ after)) = s ++ after :=
    dropWhile_isBlank_append hbefore hs after fun h => absurd h hne
  have hback : (after.reverse ++ (s.reverse ++ [])).dropWhile isBlank = s.reverse ++ [] := by
    apply dropWhile_isBlank_append
    · intro c hc
      exact hafter c (List.mem_reverse.1 hc)
    · intro c hc
      exact hs c (List.mem_reverse.1 hc)
    · exact fun _ => rfl
  rw [trim, hfront, trimEnd, List.reverse_append]
  simp only [List.append_nil] at hback
  rw [hback, List.reverse_reverse]

/-- Trimming takes nothing but blanks away. -/
theorem exists_eq_trim (s : List Char) :
    ∃ before after, s = before ++ (trim s ++ after) ∧ IsBlank before ∧ IsBlank after := by
  refine ⟨s.takeWhile isBlank, ((trimStart s).reverse.takeWhile isBlank).reverse, ?_, ?_, ?_⟩
  · have hback : trim s ++ ((trimStart s).reverse.takeWhile isBlank).reverse = trimStart s := by
      rw [trim, trimEnd, ← List.reverse_append, List.takeWhile_append_dropWhile,
        List.reverse_reverse]
    rw [hback, trimStart, List.takeWhile_append_dropWhile]
  · exact List.all_eq_true.1 List.all_takeWhile
  · intro c hc
    exact List.all_eq_true.1 List.all_takeWhile c (List.mem_reverse.1 hc)

end Text

namespace Status

theorem isBlank_token (status : Status) :
    ∀ c ∈ status.token.toList, Text.isBlank c = false := by
  cases status <;> simp [token, Text.isBlank]

theorem token_ne_nil (status : Status) : status.token.toList ≠ [] := by
  cases status <;> decide

end Status

namespace Entry

open Text

/-- A line spells an entry, with these blanks around the token. -/
structure Spells (line : List Char) (entry : Entry) (before after : List Char) : Prop where
  line_eq : line = entry.identifier.toList ++
    ':' :: ' ' :: (before ++ (entry.status.token.toList ++ after))
  before : IsBlank before
  after : IsBlank after

variable {line before after before' after' : List Char} {entry entry' : Entry}

theorem Spells.ofLine? (h : Spells line entry before after) : ofLine? line = some entry := by
  have hblank : ∀ {s : List Char}, IsBlank s → ':' ∉ s := fun hs hmem => by
    have hcolon := hs ':' hmem
    exact absurd hcolon (by decide)
  have hcolon : ':' ∉ before ++ (entry.status.token.toList ++ after) := by
    have htoken : ':' ∉ entry.status.token.toList := by cases entry.status <;> decide
    simp [hblank h.before, hblank h.after, htoken]
  have htrim := trim_append h.before h.after entry.status.token_ne_nil entry.status.isBlank_token
  rw [h.line_eq]
  simp [Entry.ofLine?, cutLast_append _ hcolon, htrim]

theorem ofLine?_eq_some_iff :
    Entry.ofLine? line = some entry ↔ ∃ before after, Spells line entry before after := by
  constructor
  · intro h
    simp only [Entry.ofLine?, Option.bind_eq_bind, Option.bind_eq_some_iff] at h
    obtain ⟨⟨identifier, rest⟩, hcut, status, hstatus, heq⟩ := h
    obtain rfl := Option.some.inj heq
    have htoken : trim rest = status.token.toList := by
      rw [← Status.ofToken?_eq_some_iff.1 hstatus, String.toList_ofList]
    obtain ⟨before, after, hrest, hbefore, hafter⟩ := exists_eq_trim rest
    refine ⟨before, after, ?_, hbefore, hafter⟩
    rw [cutLast_eq_some hcut, String.toList_ofList, ← htoken, ← hrest]
  · rintro ⟨before, after, h⟩
    exact h.ofLine?

/-- A line spells one entry in one way, however many separators and blanks its identifier has. -/
theorem Spells.unique (h : Spells line entry before after)
    (h' : Spells line entry' before' after') :
    entry = entry' ∧ before = before' ∧ after = after' := by
  obtain rfl : entry = entry' := Option.some.inj (h.ofLine?.symm.trans h'.ofLine?)
  have hrest := h.line_eq.symm.trans h'.line_eq
  rw [List.append_cancel_left_eq, List.cons.injEq, List.cons.injEq] at hrest
  obtain ⟨-, -, hrest⟩ := hrest
  have hfront : ∀ before after, IsBlank before →
      (before ++ (entry.status.token.toList ++ after)).takeWhile isBlank = before := by
    intro before after hbefore
    rw [List.takeWhile_append_of_pos hbefore]
    cases entry.status <;> simp [Status.token, isBlank]
  have hbefore : before = before' := by
    rw [← hfront before after h.before, hrest, hfront before' after' h'.before]
  subst hbefore
  simpa using hrest

theorem Spells.not_isBlank (h : Spells line entry before after) : ¬IsBlank line := by
  intro hblank
  have hcolon := hblank ':' (by simp [h.line_eq])
  exact absurd hcolon (by decide)

end Entry

namespace Report

open Text Entry

/-- A line that a report may have: it is blank or spells an entry. -/
def IsLine (line : List Char) : Prop :=
  IsBlank line ∨ ∃ entry before after, Spells line entry before after

variable {number : Nat} {line : List Char} {lines : List (List Char)} {entries : List Entry}
  {entry : Entry}

/-- These lines that are not blank spell these entries, one after the other. -/
def Lists (lines : List (List Char)) (entries : List Entry) : Prop :=
  List.Forall₂ (fun line entry => ∃ before after, Spells line entry before after)
    (lines.filter fun line => ¬IsBlank line) entries

theorem lists_cons_blank (h : IsBlank line) :
    Lists (line :: lines) entries ↔ Lists lines entries := by
  simp [Lists, h]

theorem Lists.cons {before after : List Char} (h : Lists lines entries)
    (hline : Spells line entry before after) : Lists (line :: lines) (entry :: entries) := by
  rw [Lists, List.filter_cons_of_pos (by simpa using hline.not_isBlank)]
  exact .cons ⟨before, after, hline⟩ h

theorem parseLines_cons_blank (h : IsBlank line) :
    parseLines number (line :: lines) = parseLines (number + 1) lines := by
  rw [parseLines, if_pos (isEmpty_trim_iff.2 h)]

theorem parseLines_cons_entry {before after : List Char} (h : Spells line entry before after) :
    parseLines number (line :: lines) =
      (parseLines (number + 1) lines).map (entry :: ·) := by
  rw [parseLines, if_neg (mt isEmpty_trim_iff.1 h.not_isBlank), h.ofLine?]
  dsimp only
  cases parseLines (number + 1) lines <;> rfl

theorem parseLines_cons_bad (h : ¬IsLine line) :
    parseLines number (line :: lines) = .error ⟨number, String.ofList line⟩ := by
  rw [IsLine, not_or] at h
  have hnone : Entry.ofLine? line = none := by
    rw [Option.eq_none_iff_forall_ne_some]
    intro entry hentry
    exact h.2 ⟨entry, ofLine?_eq_some_iff.1 hentry⟩
  rw [parseLines, if_neg (mt isEmpty_trim_iff.1 h.1), hnone]

theorem parseLines_append_nil (number : Nat) (lines : List (List Char)) :
    parseLines number (lines ++ [[]]) = parseLines number lines := by
  induction lines generalizing number with
  | nil => rfl
  | cons line lines ih =>
    by_cases hline : IsLine line
    · rcases hline with hblank | ⟨entry, before, after, hspells⟩
      · rw [List.cons_append, parseLines_cons_blank hblank, parseLines_cons_blank hblank, ih]
      · rw [List.cons_append, parseLines_cons_entry hspells, parseLines_cons_entry hspells, ih]
    · rw [List.cons_append, parseLines_cons_bad hline, parseLines_cons_bad hline]

theorem parse_eq_parseLines (text : List Char) :
    parse text = (parseLines 1 (splitLines text)).map Report.mk := by
  have hlines : parseLines 1 (splitLines text) = parseLines 1 (Text.lines text) := by
    rcases splitLines_eq text with heq | heq
    · rw [heq]
    · rw [heq, parseLines_append_nil]
  rw [parse, hlines]
  cases parseLines 1 (Text.lines text) <;> rfl

/-- Lines are read to their end, or up to the first one that no report may have. -/
theorem parseLines_cases (number : Nat) (lines : List (List Char)) :
    (∃ entries, parseLines number lines = .ok entries ∧ (∀ line ∈ lines, IsLine line) ∧
        Lists lines entries) ∨
      ∃ front line back, parseLines number lines =
          .error ⟨number + front.length, String.ofList line⟩ ∧
        lines = front ++ line :: back ∧ (∀ l ∈ front, IsLine l) ∧ ¬IsLine line := by
  induction lines generalizing number with
  | nil => exact .inl ⟨[], rfl, by simp, .nil⟩
  | cons line lines ih =>
    by_cases hline : IsLine line
    · have hnumber : ∀ front : List (List Char),
          number + 1 + front.length = number + (line :: front).length := by
        intro front
        rw [List.length_cons, Nat.add_assoc, Nat.add_comm 1]
      rcases ih (number + 1) with
        ⟨entries, hok, hlines, hlists⟩ | ⟨front, bad, back, herror, rfl, hfront, hbad⟩
      · have hlines' := List.forall_mem_cons.2 ⟨hline, hlines⟩
        rcases hline with hblank | ⟨entry, before, after, hspells⟩
        · rw [parseLines_cons_blank hblank]
          exact .inl ⟨entries, hok, hlines', (lists_cons_blank hblank).2 hlists⟩
        · rw [parseLines_cons_entry hspells, hok]
          exact .inl ⟨entry :: entries, rfl, hlines', hlists.cons hspells⟩
      · have hfront' := List.forall_mem_cons.2 ⟨hline, hfront⟩
        refine .inr ⟨line :: front, bad, back, ?_, rfl, hfront', hbad⟩
        rw [← hnumber]
        rcases hline with hblank | ⟨entry, before, after, hspells⟩
        · rw [parseLines_cons_blank hblank, herror]
        · rw [parseLines_cons_entry hspells, herror]
          rfl
    · exact .inr ⟨[], line, lines, parseLines_cons_bad hline, rfl, by simp, hline⟩

/-- The first line that is no line of a report is at one place only. -/
theorem front_unique {front front' back back' : List (List Char)} {line line' : List Char}
    (heq : front ++ line :: back = front' ++ line' :: back') (hfront : ∀ l ∈ front, IsLine l)
    (hline : ¬IsLine line) (hfront' : ∀ l ∈ front', IsLine l) (hline' : ¬IsLine line') :
    front = front' ∧ line = line' := by
  induction front generalizing front' with
  | nil =>
    cases front' with
    | nil => exact ⟨rfl, (List.cons.inj heq).1⟩
    | cons l front' =>
      rw [(List.cons.inj heq).1] at hline
      exact absurd (hfront' l List.mem_cons_self) hline
  | cons l front ih =>
    cases front' with
    | nil =>
      rw [← (List.cons.inj heq).1] at hline'
      exact absurd (hfront l List.mem_cons_self) hline'
    | cons l' front' =>
      obtain ⟨rfl, hrest⟩ := List.cons.inj heq
      rw [List.forall_mem_cons] at hfront hfront'
      obtain ⟨rfl, rfl⟩ := ih hrest hfront.2 hfront'.2
      exact ⟨rfl, rfl⟩

/-- A text is read as a report exactly if every line of it is blank or spells an entry. The report
then has the entries of the lines that are not blank, in order, and a line spells one entry in one
way. If not, the first line that is neither is to blame, with its number and without its ending. -/
theorem parse_follows_lines (text : List Char) :
    ((∃ report, parse text = .ok report) ↔ ∀ line ∈ splitLines text, IsLine line) ∧
    (∀ report, parse text = .ok report → Lists (splitLines text) report.entries) ∧
    (∀ bad, parse text = .error bad ↔ ∃ front line back,
      splitLines text = front ++ line :: back ∧ (∀ l ∈ front, IsLine l) ∧ ¬IsLine line ∧
        bad = ⟨front.length + 1, String.ofList line⟩) ∧
    ∀ line entry entry' before after before' after', Spells line entry before after →
      Spells line entry' before' after' → entry = entry' ∧ before = before' ∧ after = after' := by
  have hunique : ∀ line entry entry' before after before' after',
      Spells line entry before after → Spells line entry' before' after' →
        entry = entry' ∧ before = before' ∧ after = after' :=
    fun _ _ _ _ _ _ _ h h' => h.unique h'
  rw [parse_eq_parseLines]
  rcases parseLines_cases 1 (splitLines text) with
    ⟨entries, hok, hlines, hlists⟩ | ⟨front, line, back, herror, hlines, hfront, hline⟩
  · rw [hok]
    refine ⟨⟨fun _ => hlines, fun _ => ⟨_, rfl⟩⟩, ?_, ?_, hunique⟩
    · rintro report ⟨⟩
      exact hlists
    · refine fun bad => ⟨nofun, ?_⟩
      rintro ⟨front, line, back, heq, -, hline, -⟩
      exact absurd (hlines line (by rw [heq]; simp)) hline
  · rw [herror]
    refine ⟨⟨nofun, fun hall => ?_⟩, nofun, fun bad => ⟨?_, ?_⟩, hunique⟩
    · exact absurd (hall line (by rw [hlines]; simp)) hline
    · rintro ⟨⟩
      exact ⟨front, line, back, hlines, hfront, hline, by rw [Nat.add_comm]⟩
    · rintro ⟨front', line', back', heq, hfront', hline', rfl⟩
      obtain ⟨rfl, rfl⟩ := front_unique (hlines.symm.trans heq) hfront hline hfront' hline'
      rw [Nat.add_comm]
      rfl

/-- Separators and blanks in identifiers, blank lines, both line endings and none at the end; and a
text whose third line is to blame, as its carriage return does not stand before the line feed. -/
theorem parse_follows_mixed_lines :
    (∀ line ∈ splitLines "x: PASS: \tNA \r\n\u2003\r\n y\r\r: : FAIL".toList, IsLine line) ∧
    ∃ front back, splitLines "a: NA\n\r\nb: PASS\rc\nd".toList =
        front ++ "b: PASS\rc".toList :: back ∧ front.length = 2 ∧
      ¬IsLine "b: PASS\rc".toList := by
  obtain ⟨hok, -⟩ := parse_follows_lines "x: PASS: \tNA \r\n\u2003\r\n y\r\r: : FAIL".toList
  obtain ⟨-, -, hbad, -⟩ := parse_follows_lines "a: NA\n\r\nb: PASS\rc\nd".toList
  refine ⟨hok.1 ⟨⟨[⟨"x: PASS", .na⟩, ⟨" y\r\r: ", .fail⟩]⟩, by decide +kernel⟩, ?_⟩
  obtain ⟨front, line, back, hlines, -, hline, heq⟩ := (hbad ⟨3, "b: PASS\rc"⟩).1 rfl
  obtain ⟨hnumber, hcontent⟩ := MalformedLine.mk.inj heq
  obtain rfl : line = "b: PASS\rc".toList := by rw [hcontent, String.toList_ofList]
  exact ⟨front, back, hlines, by omega, hline⟩

end Report

end CaseReport
