import Mathlib.Control.Monad.Basic
import CaseReport.Proofs.Reconciliation.Fresh
import CaseReport.Proofs.Report.Grammar

/-!
# The normal form of a report

A report that was read and is written down again has lost its blank lines, the blanks around its
tokens and the carriage returns before its line feeds, and its last line ends in a line feed.
Nothing else is changed, so a text that has none of this to lose is left as it is.
-/

namespace CaseReport

namespace Text

/-- What ends a line, as far as the rest of the text allows. -/
inductive Ending : List Char → List Char → Prop where
  | newline {rest} : Ending ['\n'] rest
  | returnNewline {rest} : Ending ['\r', '\n'] rest
  /-- The last line need not be ended. -/
  | missing : Ending [] []

/-- A text that is not empty starts with its first line. -/
theorem exists_firstLine {s : List Char} (h : s ≠ []) :
    ∃ line ending rest, s = line ++ (ending ++ rest) ∧ lines s = line :: lines rest ∧
      '\n' ∉ line ∧ Ending ending rest := by
  fun_induction lines s with
  | case1 => exact absurd rfl h
  | case2 s => exact ⟨[], ['\n'], s, rfl, rfl, List.not_mem_nil, .newline⟩
  | case3 s => exact ⟨[], ['\r', '\n'], s, rfl, rfl, List.not_mem_nil, .returnNewline⟩
  | case4 c s hc _ hnone ih =>
    obtain rfl := lines_eq_nil_iff.1 hnone
    refine ⟨[c], [], [], rfl, rfl, ?_, .missing⟩
    rw [List.mem_singleton]
    exact fun heq => hc heq.symm
  | case5 c s hc _ l ls hlines ih =>
    have hs : s ≠ [] := by
      rintro rfl
      cases hlines
    obtain ⟨line, ending, rest, rfl, hfirst, hline, hending⟩ := ih hs
    obtain ⟨rfl, rfl⟩ := List.cons.inj (hlines.symm.trans hfirst)
    refine ⟨c :: l, ending, rest, rfl, rfl, ?_, hending⟩
    rw [List.mem_cons, not_or]
    exact ⟨fun heq => hc heq.symm, hline⟩

end Text

namespace Report

open Text Entry

/-- A text that has a line for each entry and nothing else. -/
inductive IsTidy : List Char → Prop where
  | nil : IsTidy []
  | cons {identifier rest} (status : Status) (hidentifier : '\n' ∉ identifier)
      (hrest : IsTidy rest) :
      IsTidy (identifier ++ ':' :: ' ' :: (status.token.toList ++ '\n' :: rest))

/-- One text is the other one without its blank lines, without the blanks around the tokens, and
with a line feed at the end of every line. -/
inductive Tidies : List Char → List Char → Prop where
  | nil : Tidies [] []
  | blank {line ending rest tidy} (hblank : IsBlank line) (hline : '\n' ∉ line)
      (hending : Ending ending rest) (hrest : Tidies rest tidy) :
      Tidies (line ++ (ending ++ rest)) tidy
  | entry {line ending rest tidy entry before after} (hentry : Spells line entry before after)
      (hline : '\n' ∉ line) (hending : Ending ending rest) (hrest : Tidies rest tidy) :
      Tidies (line ++ (ending ++ rest))
        (entry.identifier.toList ++ ':' :: ' ' :: (entry.status.token.toList ++ '\n' :: tidy))

/-- A report that is written in the course of runs: one that is started from a configuration, or one
that was read, and either of them after changes. -/
inductive Written : Report → Prop where
  | started {text cases} (haccepted : Cases.parse text = .ok cases) : Written (ofCases cases)
  | read {text report} (hreport : parse text = .ok report) : Written report
  | changed {report} (identifier status) (h : Written report) :
      Written (report.setStatus identifier status)

variable {text : List Char} {report : Report} {entries : List Entry} {number : Nat}

theorem Written.fitsLines (h : Written report) : report.FitsLines := by
  induction h with
  | started haccepted => exact fitsLines_ofCases (Cases.firstBroken?_of_parse haccepted)
  | read hreport => exact fitsLines_of_parse hreport
  | changed identifier status _ ih => exact ih.setStatus identifier status

theorem isTidy_render (h : ∀ entry ∈ entries, '\n' ∉ entry.identifier.toList) :
    IsTidy (render ⟨entries⟩) := by
  induction entries with
  | nil => exact .nil
  | cons entry entries ih =>
    rw [List.forall_mem_cons] at h
    have hcons := IsTidy.cons entry.status h.1 (ih h.2)
    simpa [Entry.render] using hcons

theorem IsTidy.exists_render (h : IsTidy text) :
    ∃ report : Report, report.FitsLines ∧ report.render = text := by
  induction h with
  | nil => exact ⟨⟨[]⟩, nofun, rfl⟩
  | @cons identifier rest status hidentifier _ ih =>
    obtain ⟨⟨entries⟩, hfits, rfl⟩ := ih
    have hfits' : ∀ other ∈ String.ofList identifier :: identifiers ⟨entries⟩,
        '\n' ∉ other.toList := List.forall_mem_cons.2 ⟨by simpa using hidentifier, hfits⟩
    exact ⟨⟨⟨String.ofList identifier, status⟩ :: entries⟩, hfits', by simp [Entry.render]⟩

/-- A text that can be read is written down in the normal form exactly if it is in it. -/
theorem render_eq_iff_isTidy (h : parse text = .ok report) :
    report.render = text ↔ IsTidy text := by
  constructor
  · rintro rfl
    have hfits := fitsLines_of_parse h
    exact isTidy_render fun entry hentry => hfits _ (List.mem_map_of_mem hentry)
  · intro htidy
    obtain ⟨written, hfits, rfl⟩ := htidy.exists_render
    rw [Except.ok.inj (h.symm.trans (parse_render hfits))]

/-- A line that is read is written down as the line of its entry, or not at all if it is blank. -/
theorem tidies_of_parseLines (h : parseLines number (lines text) = .ok entries) :
    Tidies text (render ⟨entries⟩) := by
  -- The lines of a text are no part of it, so the induction is on how long the rest is.
  induction hlength : text.length using Nat.strongRecOn generalizing text number entries with
  | _ n ih =>
  by_cases hnil : text = []
  · subst hnil
    cases h
    exact .nil
  · obtain ⟨line, ending, rest, rfl, hlines, hline, hending⟩ := exists_firstLine hnil
    have hshorter : rest.length < n := by
      rw [← List.append_assoc, List.length_append] at hlength
      have hfront : (line ++ ending).length ≠ 0 := by
        intro hzero
        have hempty := List.eq_nil_of_length_eq_zero hzero
        cases hending with
        | newline => simp at hempty
        | returnNewline => simp at hempty
        | missing => exact hnil (by simpa using hempty)
      omega
    rw [hlines] at h
    by_cases hgood : IsLine line
    · rcases hgood with hblank | ⟨entry, before, after, hentry⟩
      · rw [parseLines_cons_blank hblank] at h
        exact .blank hblank hline hending (ih _ hshorter h rfl)
      · rw [parseLines_cons_entry hentry] at h
        cases hrest : parseLines (number + 1) (lines rest) with
        | error bad =>
          rw [hrest] at h
          cases h
        | ok entries' =>
          rw [hrest] at h
          obtain rfl := Except.ok.inj h
          have htidies := Tidies.entry hentry hline hending (ih _ hshorter hrest rfl)
          simpa [Entry.render] using htidies
    · rw [parseLines_cons_bad hgood] at h
      cases h

/-- A report that was read is read again from what is written down of it. That is the text itself
exactly if the text is in the normal form, as it is if it was written in the course of a run. Any
other text loses no more than blank lines, blanks around tokens and carriage returns before line
feeds, and gains no more than a line feed at its end. -/
theorem render_is_normal_form (h : parse text = .ok report) :
    parse report.render = .ok report ∧ (report.render = text ↔ IsTidy text) ∧
      (∀ written, Written written → text = written.render → report.render = text) ∧
      Tidies text report.render := by
  refine ⟨parse_render (fitsLines_of_parse h), render_eq_iff_isTidy h, ?_, ?_⟩
  · rintro written hwritten rfl
    rw [Except.ok.inj (h.symm.trans (parse_render hwritten.fitsLines))]
  · rw [parse] at h
    split at h
    · cases h
    · next entries hentries =>
      obtain rfl := Except.ok.inj h
      exact tidies_of_parseLines hentries

/-- A carriage return within an identifier is kept, and one before a line feed is lost. -/
theorem render_is_normal_form_rough :
    ∃ report, parse "a\rb: \u2003NA\r\n \t\nc\r: PASS".toList = .ok report ∧
      report.render = "a\rb: NA\nc\r: PASS\n".toList ∧
      Tidies "a\rb: \u2003NA\r\n \t\nc\r: PASS".toList report.render ∧
      ¬IsTidy "a\rb: \u2003NA\r\n \t\nc\r: PASS".toList := by
  have hparse : parse "a\rb: \u2003NA\r\n \t\nc\r: PASS".toList =
      .ok ⟨[⟨"a\rb", .na⟩, ⟨"c\r", .pass⟩]⟩ := by decide +kernel
  obtain ⟨-, hstable, -, htidies⟩ := render_is_normal_form hparse
  refine ⟨_, hparse, by decide +kernel, htidies, ?_⟩
  rw [← hstable]
  decide +kernel

end Report

end CaseReport
