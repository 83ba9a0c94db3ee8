import Mathlib.Control.Monad.Basic
import CaseReport.Proofs.Reconciliation.ClosedForm

/-!
# Reconciling while requests are refused

Whichever requests are refused, an update either rewrites the report where it is, with its mode, or
changes nothing at all. The next update reads the report again, so that one that went wrong is not
noticed by those after it. In the end the report has the verdicts that were recorded, and no other.
-/

namespace CaseReport

namespace Report

open FileSystem

/-- A report has been rewritten where it was: the path leads to a file with this report and mode,
and nothing but the entry that the path names differs, where something was before. In particular no
other file is left behind. -/
structure Rewritten (fs : FileSystem) (path : Path) (report : Report) (mode : Nat)
    (fs' : FileSystem) : Prop where
  read : fs'.read path = .ok report.content
  moded : fs'.mode path = .ok mode
  elsewhere : ∃ entry, fs.resolveEntry .busy path = .ok entry ∧ fs.node? entry ≠ none ∧
    ∀ place, place ≠ entry → fs'.node? place = fs.node? place

variable {fs fs' fs'' : FileSystem} {path : Path} {report : Report} {bytes : List UInt8}
  {mode : Nat}

theorem Replaced.mode_eq_ok {content : List UInt8} (h : Replaced fs path content fs')
    (hread : fs.read path = .ok bytes) (hmode : fs.mode path = .ok mode) :
    fs'.mode path = .ok mode := by
  obtain ⟨entry, -, -, -, found⟩ := h.entry_of_read hread hmode
  simp [FileSystem.mode, found, bind, Except.bind]

theorem Replaced.rewritten (h : Replaced fs path report.content fs')
    (hread : fs.read path = .ok bytes) (hmode : fs.mode path = .ok mode) :
    Rewritten fs path report mode fs' := by
  obtain ⟨entry, entered, hnode, hfiles, -⟩ := h.entry_of_read hread hmode
  refine ⟨h.read_eq_ok hread, h.mode_eq_ok hread hmode, entry, entered, hnode, ?_⟩
  intro place hne
  rw [hfiles, node?_insert_of_ne _ _ hne]

/-- A report that was replaced is rewritten once more at the same entry. -/
theorem Replaced.trans_rewritten {content : List UInt8} (h : Replaced fs path content fs')
    (hread : fs.read path = .ok bytes) (hmode : fs.mode path = .ok mode)
    (h' : Rewritten fs' path report mode fs'') : Rewritten fs path report mode fs'' := by
  obtain ⟨entry, entered, hnode, -, -⟩ := h.entry_of_read hread hmode
  have hat : WritesAt fs path entry := fun _ hentry => Except.ok.inj (hentry.symm.trans entered)
  obtain ⟨hat', hframe⟩ := h.frame hat
  obtain ⟨entry', entered', -, hframe'⟩ := h'.elsewhere
  obtain rfl := hat' entry' entered'
  refine ⟨h'.read, h'.moded, entry', entered, hnode, ?_⟩
  exact fun place hne => (hframe' place hne).trans (hframe place hne)

end Report

namespace Reconciliation

open Host Report Action ExecutionLog

/-- The identifiers of the results that were recorded. -/
def recorded (results : List CaseResult) : List String :=
  (results.filter fun result => result.fault.isNone).map CaseResult.identifier

variable {plan : List (Option SystemFault)} {path : Path} {log : ExecutionLog}
  {fs fs' : FileSystem} {cases : List (Group × String)} {results : List CaseResult}
  {old : Report} {mode : Nat}

/-- Whatever goes wrong in a pass, the report has been rewritten with the verdicts that were
recorded, if any were, and nothing has changed otherwise. -/
theorem Pass.keeps_report (h : Pass plan path log fs cases results fs')
    (hreport : Report.ofFile fs path = .ok old) (hmode : fs.mode path = .ok mode) :
    recorded results = [] ∧ fs' = fs ∨
      recorded results ≠ [] ∧ Rewritten fs path (old.marked log (recorded results)) mode fs' := by
  induction h generalizing old with
  | nil => exact .inl ⟨rfl, rfl⟩
  | @cons fs fs₁ fs₂ group identifier update cases results updated rest ih =>
    rcases updated.kept_or_replaced with
      ⟨⟨fault, rfl⟩, rfl⟩ | ⟨rfl, report, hreport', hline, hreplaced⟩
    · exact ih hreport hmode
    · -- The updates after this one read the report that it has left behind.
      obtain rfl := Except.ok.inj (hreport.symm.trans hreport')
      obtain ⟨bytes, hread⟩ := exists_read_of_ofFile hreport
      have hreport₁ := ofFile_of_read ((fitsLines_of_ofFile hreport).setStatus _ _)
        (hreplaced.read_eq_ok hread)
      have hrecorded : recorded (⟨identifier, group, log.verdict identifier, faultOf (.ok ())⟩ ::
          results) = identifier :: recorded results := rfl
      rw [hrecorded, ← marked_setStatus]
      refine .inr ⟨List.cons_ne_nil _ _, ?_⟩
      rcases ih hreport₁ (hreplaced.mode_eq_ok hread hmode) with ⟨hnone, rfl⟩ | ⟨-, hrewritten⟩
      · rw [hnone, marked_nil]
        exact hreplaced.rewritten hread hmode
      · exact hreplaced.trans_rewritten hread hmode hrewritten

/-- Whichever requests are refused, an update of a report file that goes wrong changes nothing, and
one that does not rewrites the report with the status in the lines of the identifier. A
reconciliation with a log that could be read makes one such update for each case that the log has it
judge. Each result tells what its own update ended in, and the report has the verdicts of those that
did not go wrong and is the same in all other entries. -/
theorem reconcile_keeps_report {host : Host} {report logPath : Path} {bytes : List UInt8}
    {mode : Nat} (expected : Cases) (hread : host.files.read report = .ok bytes)
    (hmode : host.files.mode report = .ok mode) :
    (∀ identifier status,
      (∃ fault host', (updateStatus report identifier status).perform host =
          (.error fault, host') ∧ host'.files = host.files) ∨
        ∃ old host', (updateStatus report identifier status).perform host = (.ok (), host') ∧
          Report.ofFile host.files report = .ok old ∧ identifier ∈ old.identifiers ∧
          Rewritten host.files report (old.setStatus identifier status) mode host'.files) ∧
    ∀ log host₁, (ExecutionLog.load logPath).perform host = (.ok log, host₁) →
      ∃ outcome host', (reconcile expected report logPath).perform host = (.ok outcome, host') ∧
        outcome.results.map (fun result => (result.group, result.identifier)) =
          log.judged expected ∧
        outcome.missingSetup = log.missing? expected.setup ∧
        Calls report log host₁ (log.judged expected) outcome.results host' ∧
        (∀ fault, Report.ofFile host.files report = .error fault →
          (∀ result ∈ outcome.results, result.fault ≠ none) ∧ host'.files = host.files) ∧
        ∀ old, Report.ofFile host.files report = .ok old →
          Report.ofFile host'.files report = .ok (old.marked log (recorded outcome.results)) ∧
          (recorded outcome.results = [] → host'.files = host.files) ∧
          (recorded outcome.results ≠ [] → Rewritten host.files report
            (old.marked log (recorded outcome.results)) mode host'.files) := by
  refine ⟨fun identifier status => ?_, fun log host₁ hload => ?_⟩
  · rcases hperform : (updateStatus report identifier status).perform host with ⟨update, host'⟩
    obtain ⟨-, hupdated⟩ := yields_updateStatus.of_perform hperform
    rcases hupdated.kept_or_replaced with
      ⟨⟨fault, rfl⟩, hfiles⟩ | ⟨rfl, old, hreport, hline, hreplaced⟩
    · exact .inl ⟨fault, host', rfl, hfiles⟩
    · exact .inr ⟨old, host', rfl, hreport, hline, hreplaced.rewritten hread hmode⟩
  · obtain ⟨outcome, host', hperform, hmissing, hcalls⟩ := perform_reconcile expected report hload
    obtain ⟨-, hpass⟩ := hcalls.pass
    rw [((ExecutionLog.reads_load logPath).of_perform hload).files] at hpass
    refine ⟨outcome, host', hperform, hpass.map_results, hmissing, hcalls, ?_, ?_⟩
    · exact fun fault hreport => hpass.of_ofFile_eq_error hreport
    · intro old hreport
      have hfits := fitsLines_of_ofFile hreport
      rcases hpass.keeps_report hreport hmode with ⟨hnone, hfiles⟩ | ⟨hsome, hrewritten⟩
      · refine ⟨?_, fun _ => hfiles, fun hsome => absurd hnone hsome⟩
        rw [hnone, hfiles, marked_nil]
        exact hreport
      · exact ⟨ofFile_of_read hfits.marked hrewritten.read, fun hnone => absurd hnone hsome,
          fun _ => hrewritten⟩

/-- The host of two cases, with a plan that refuses to put the first update in its place. -/
def twoCasesRefused : Host :=
  { twoCases with refusals := [none, none, none, none, none, none, none, some .inputOutput] }

theorem reconcile_twoCasesRefused :
    ∃ outcome host', (reconcile ⟨["x: PASS"], ["b"]⟩ "report" "log").perform twoCasesRefused =
        (.ok outcome, host') ∧
      outcome.results.map CaseResult.fault =
        [some ⟨"x: PASS", .file (.unwritable "report" (.system .inputOutput))⟩, none] ∧
      host'.files.read "report" =
        .ok (Text.Utf8.encode "x: PASS: NA\nz: FAIL\nb: FAIL\n".toList) ∧
      host'.files.mode "report" = .ok 0o644 := by
  have hread : twoCasesRefused.files.read "report" =
      .ok (Text.Utf8.encode "x: PASS: NA\nz: FAIL\nb: NA\n".toList) := by decide +kernel
  have hmode : twoCasesRefused.files.mode "report" = .ok 0o644 := by
    decide +kernel
  have hload : (ExecutionLog.load "log").perform twoCasesRefused =
      (.ok (ofBytes brokenLog), ((ExecutionLog.load "log").perform twoCasesRefused).2) := by
    decide +kernel
  have hreport : Report.ofFile twoCasesRefused.files "report" =
      .ok ⟨[⟨"x: PASS", .na⟩, ⟨"z", .fail⟩, ⟨"b", .na⟩]⟩ := by decide +kernel
  obtain ⟨-, hreconcile⟩ := reconcile_keeps_report ⟨["x: PASS"], ["b"]⟩ hread hmode
  obtain ⟨outcome, host', hperform, -, -, -, -, hrecorded⟩ := hreconcile _ _ hload
  have houtcome :
      ((reconcile ⟨["x: PASS"], ["b"]⟩ "report" "log").perform twoCasesRefused).1 =
        .ok ⟨[⟨"x: PASS", .setup, .pass,
            some ⟨"x: PASS", .file (.unwritable "report" (.system .inputOutput))⟩⟩,
          ⟨"b", .e2e, .fail, none⟩], none⟩ := by decide +kernel
  rw [hperform] at houtcome
  obtain rfl := Except.ok.inj houtcome
  obtain ⟨-, -, hrewritten⟩ := hrecorded _ hreport
  obtain ⟨hread', hmode', -⟩ := hrewritten (by decide)
  refine ⟨_, host', hperform, rfl, ?_, hmode'⟩
  rw [hread']
  decide +kernel

end Reconciliation

end CaseReport
