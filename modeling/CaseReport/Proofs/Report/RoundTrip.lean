import CaseReport.Report

/-!
# Reading back a written report

Reading undoes writing for every report whose identifiers have no line feed, and reading yields no
other reports. So what a report file holds after it was read, changed and written is known from the
report alone.
-/

namespace CaseReport

namespace Text

private theorem lines_cons {c : Char} {s : List Char} (h : c ≠ '\n')
    (h' : c = '\r' → s.head? ≠ some '\n') :
    lines (c :: s) = match lines s with
      | [] => [[c]]
      | l :: ls => (c :: l) :: ls := by
  rw [lines.eq_def]
  split
  · next heq => cases heq
  · next heq => exact absurd (List.cons.inj heq).1 h
  · next heq =>
    obtain ⟨hc, hs⟩ := List.cons.inj heq
    exact absurd (by rw [hs]; rfl) (h' hc)
  · next heq =>
    obtain ⟨rfl, rfl⟩ := List.cons.inj heq
    rfl

/-- A line feed ends a line that has none and whose last character is no carriage return. -/
theorem lines_append_newline {l : List Char} (s : List Char) (h : '\n' ∉ l)
    (h' : l.getLast? ≠ some '\r') : lines (l ++ '\n' :: s) = l :: lines s := by
  induction l with
  | nil => exact lines_newline s
  | cons c l ih =>
    rw [List.mem_cons, not_or] at h
    have htail : l.getLast? ≠ some '\r' := by
      intro hl
      apply h'
      rw [List.getLast?_cons, hl]
      rfl
    have hreturn : c = '\r' → (l ++ '\n' :: s).head? ≠ some '\n' := by
      rintro rfl
      cases l with
      | nil => exact absurd rfl h'
      | cons d l =>
        intro hd
        apply h.2
        rw [← Option.some.inj hd]
        exact List.mem_cons_self
    rw [List.cons_append, lines_cons (Ne.symm h.1) hreturn, ih h.2 htail]

theorem newline_not_mem_of_mem_lines {s l : List Char} (h : l ∈ lines s) : '\n' ∉ l := by
  fun_induction lines s generalizing l with
  | case1 => cases h
  | case2 s ih =>
    rcases List.mem_cons.1 h with rfl | h
    · exact List.not_mem_nil
    · exact ih h
  | case3 s ih =>
    rcases List.mem_cons.1 h with rfl | h
    · exact List.not_mem_nil
    · exact ih h
  | case4 c s hc _ _ ih =>
    rw [List.mem_singleton.1 h, List.mem_singleton]
    exact fun heq => hc heq.symm
  | case5 c s hc _ l' ls heq ih =>
    rcases List.mem_cons.1 h with rfl | h
    · rw [List.mem_cons, not_or]
      exact ⟨fun heq => hc heq.symm, ih (by rw [heq]; exact List.mem_cons_self)⟩
    · exact ih (by rw [heq]; exact List.mem_cons_of_mem _ h)

private theorem cutLast_eq_none {s : List Char} (h : ':' ∉ s) : cutLast s = none := by
  induction s with
  | nil => rfl
  | cons c s ih =>
    rw [List.mem_cons, not_or] at h
    have hafter : afterColon (c :: s) = none := by
      rw [Option.eq_none_iff_forall_ne_some]
      intro after hafter
      exact h.1 (List.cons.inj (afterColon_eq_some_iff.1 hafter)).1.symm
    rw [cutLast, ih h.2, hafter]
    rfl

/-- What stands before the cut may hold the separator; what stands behind it has no colon. -/
theorem cutLast_append (before : List Char) {after : List Char} (h : ':' ∉ after) :
    cutLast (before ++ ':' :: ' ' :: after) = some (before, after) := by
  induction before with
  | nil =>
    have hblank : ':' ∉ ' ' :: after := by
      rw [List.mem_cons, not_or]
      exact ⟨by decide, h⟩
    rw [List.nil_append, cutLast, cutLast_eq_none hblank]
    rfl
  | cons c before ih => rw [List.cons_append, cutLast, ih]

end Text

namespace Entry

/-- The line of an entry, without its ending. -/
def line (entry : Entry) : List Char :=
  entry.identifier.toList ++ ':' :: ' ' :: entry.status.token.toList

theorem render_eq (entry : Entry) : entry.render = entry.line ++ ['\n'] := by
  simp [render, line]

theorem ofLine?_line (entry : Entry) : ofLine? entry.line = some entry := by
  have hcolon : ':' ∉ entry.status.token.toList := by cases entry.status <;> decide
  have htrim : Text.trim entry.status.token.toList = entry.status.token.toList := by
    cases entry.status <;> decide
  simp [ofLine?, line, Text.cutLast_append _ hcolon, htrim]

theorem trim_line_ne_nil (entry : Entry) : Text.trim entry.line ≠ [] := by
  rw [ne_eq, Text.trim_eq_nil_iff]
  intro h
  have hcolon : Text.isBlank ':' = true := h ':' (by simp [line])
  exact absurd hcolon (by decide)

theorem newline_not_mem_line {entry : Entry} (h : '\n' ∉ entry.identifier.toList) :
    '\n' ∉ entry.line := by
  have htoken : '\n' ∉ entry.status.token.toList := by cases entry.status <;> decide
  simp [line, h, htoken]

theorem getLast?_line (entry : Entry) : entry.line.getLast? ≠ some '\r' := by
  cases hs : entry.status <;> simp [line, hs, Status.token]

theorem identifier_of_ofLine? {l : List Char} {entry : Entry} (h : ofLine? l = some entry)
    (hl : '\n' ∉ l) : '\n' ∉ entry.identifier.toList := by
  simp only [ofLine?, Option.bind_eq_bind, Option.bind_eq_some_iff] at h
  obtain ⟨⟨before, after⟩, hcut, status, -, heq⟩ := h
  rw [← Option.some.inj heq]
  rw [Text.cutLast_eq_some hcut] at hl
  simp only [String.toList_ofList]
  exact fun hmem => hl (List.mem_append_left _ hmem)

end Entry

namespace Report

/-- Every identifier of the report fits on one line. -/
def FitsLines (report : Report) : Prop :=
  ∀ identifier ∈ report.identifiers, '\n' ∉ identifier.toList

theorem FitsLines.setStatus {report : Report} (h : report.FitsLines) (identifier : String)
    (status : Status) : (report.setStatus identifier status).FitsLines := by
  rw [FitsLines, identifiers_setStatus]
  exact h

private theorem parseLines_lines (number : Nat) (entries : List Entry)
    (h : ∀ entry ∈ entries, '\n' ∉ entry.identifier.toList) :
    parseLines number (Text.lines (render ⟨entries⟩)) = .ok entries := by
  induction entries generalizing number with
  | nil => rfl
  | cons entry entries ih =>
    rw [List.forall_mem_cons] at h
    rw [render_cons, Entry.render_eq, List.append_assoc, List.singleton_append,
      Text.lines_append_newline _ (Entry.newline_not_mem_line h.1) entry.getLast?_line]
    have hblank : (Text.trim entry.line).isEmpty = false := by
      simpa using entry.trim_line_ne_nil
    rw [parseLines, hblank, Entry.ofLine?_line, ih _ h.2]
    rfl

/-- A report whose identifiers fit on lines is read back as it was written. -/
theorem parse_render {report : Report} (h : report.FitsLines) :
    parse report.render = .ok report := by
  have hentries : ∀ entry ∈ report.entries, '\n' ∉ entry.identifier.toList :=
    fun entry hentry => h _ (List.mem_map_of_mem hentry)
  rw [parse, show report.render = render ⟨report.entries⟩ from rfl, parseLines_lines 1 _ hentries]

private theorem identifiers_parseLines {number : Nat} {ls : List (List Char)}
    {entries : List Entry} (h : parseLines number ls = .ok entries) (hls : ∀ l ∈ ls, '\n' ∉ l) :
    ∀ entry ∈ entries, '\n' ∉ entry.identifier.toList := by
  induction ls generalizing number entries with
  | nil =>
    cases h
    exact fun _ hentry => absurd hentry List.not_mem_nil
  | cons l ls ih =>
    rw [List.forall_mem_cons] at hls
    rw [parseLines] at h
    split at h
    · exact ih h hls.2
    · split at h
      · cases h
      · next entry hentry =>
        split at h
        · cases h
        · next entries' hentries =>
          cases h
          rw [List.forall_mem_cons]
          exact ⟨Entry.identifier_of_ofLine? hentry hls.1, ih hentries hls.2⟩

/-- Whatever text is read, the identifiers of the report fit on lines. -/
theorem fitsLines_of_parse {text : List Char} {report : Report} (h : parse text = .ok report) :
    report.FitsLines := by
  rw [parse] at h
  split at h
  · cases h
  · next entries hentries =>
    cases h
    intro identifier hidentifier
    obtain ⟨entry, hentry, rfl⟩ := List.mem_map.1 hidentifier
    exact identifiers_parseLines hentries (fun l hl => Text.newline_not_mem_of_mem_lines hl)
      entry hentry

/-- A report is read back as it was written exactly if none of its identifiers has a line feed.
Nothing else in an identifier stands in the way, be it blank or like the end of a line. -/
theorem parse_render_iff {report : Report} : parse report.render = .ok report ↔
    ∀ identifier ∈ report.identifiers, '\n' ∉ identifier.toList := by
  constructor
  · intro h
    exact fitsLines_of_parse h
  · intro h
    exact parse_render h

example : parse "\r: NA\n : PASS\na: PASS: FAIL\nb:: : NA\n".toList =
    .ok ⟨[⟨"\r", .na⟩, ⟨" ", .pass⟩, ⟨"a: PASS", .fail⟩, ⟨"b:: ", .na⟩]⟩ := by rfl

end Report

end CaseReport
