import Mathlib.Control.Monad.Basic
import CaseReport.Proofs.Reconciliation.Fresh
import CaseReport.Proofs.Run.Steps

/-!
# A run from end to end

Whatever a configuration holds, if it is accepted then the format of reports can carry it: a run in
which nothing is refused records every verdict and leaves a report that can be read.
-/

namespace CaseReport

open Host Action ExecutionLog

namespace Run

variable {host host₁ : Host} {locations : Locations} {cases : Cases} {log : Path}
  {bytes content : List UInt8}

/-- What was started can be read as the report of the cases, if it can be read at all. -/
theorem read_of_prepare (hprepare : (prepare locations).perform host = (.ok cases, host₁))
    (hreport : host₁.files.read locations.report = .ok content) :
    host.Silently host₁ ∧ content = (Report.ofCases cases).content ∧
      Report.Placeable host₁.files locations.report ∧ cases.firstBroken? = none := by
  obtain ⟨hsilent, hprepared⟩ := yields_prepare.of_perform hprepare
  cases hprepared with
  | prepared hcases hpart hreplaced =>
    obtain ⟨text, hparse⟩ := Cases.exists_parse_of_ofFile hcases
    exact ⟨hsilent, hreplaced.eq_of_read hreport,
      hreplaced.placeable.congr hreplaced.workingDirectory,
      Cases.firstBroken?_of_parse hparse⟩

/-- A run that could start its report, and can read it and the log, records every verdict. Its
report then has one line for each expected case in their order, with the verdict of the log if the
case was judged, and the run fails exactly if a setup case is missing. -/
theorem withPaths_records_all (hplan : host.refusals = [])
    (hprepare : (prepare locations).perform host = (.ok cases, host₁))
    (hreport : host₁.files.read locations.report = .ok content)
    (hlog : host₁.files.read log = .ok bytes) :
    ∃ outcome host₂ host',
      (Reconciliation.reconcile cases locations.report log).perform host₁ = (.ok outcome, host₂) ∧
      (∀ result ∈ outcome.results, result.fault = none) ∧
      (withPaths locations log).perform host =
        ((match (ofBytes bytes).missing? cases.setup with
          | some identifier => .error (.setupMissing identifier)
          | none => .ok ()), host') ∧
      Report.ofFile host'.files locations.report = .ok ⟨cases.identifiers.map fun identifier =>
        ⟨identifier, if identifier ∈ (ofBytes bytes).evaluated cases
          then (ofBytes bytes).verdict identifier else .na⟩⟩ := by
  obtain ⟨hsilent, rfl, hpath, hbroken⟩ := read_of_prepare hprepare hreport
  obtain ⟨outcome, host₂, hreconcile, hmissing, hfaults, hread⟩ :=
    Reconciliation.reconcile_ofCases (hsilent.refusals_eq_nil hplan) hpath hbroken hreport
      (ofFile_eq_ok_iff.2 ⟨bytes, hlog, rfl⟩)
  obtain ⟨host', hrun, -, hfiles⟩ := perform_withPaths hprepare hreconcile
  refine ⟨outcome, host₂, host', hreconcile, hfaults, ?_, ?_⟩
  · cases hfirst : (ofBytes bytes).missing? cases.setup with
    | none => simp [hrun, Outcome.verdict, hmissing, hfirst]
    | some identifier => simp [hrun, Outcome.verdict, hmissing, hfirst]
  · rw [← hfiles] at hread
    rw [← Report.marked_ofCases]
    exact Report.ofFile_of_read (Report.fitsLines_ofCases hbroken).marked hread

theorem withPaths_twoCases :
    ∃ host', (withPaths ⟨"config", "report"⟩ "log").perform Reconciliation.twoCases =
        (.ok (), host') ∧
      Report.ofFile host'.files "report" = .ok ⟨[⟨"x: PASS", .pass⟩, ⟨"b", .fail⟩]⟩ := by
  have hprepare : (prepare ⟨"config", "report"⟩).perform Reconciliation.twoCases =
      (.ok ⟨["x: PASS"], ["b"]⟩,
        ((prepare ⟨"config", "report"⟩).perform Reconciliation.twoCases).2) := by decide +kernel
  have hreport : ((prepare ⟨"config", "report"⟩).perform Reconciliation.twoCases).2.files.read
      "report" = .ok (Report.ofCases ⟨["x: PASS"], ["b"]⟩).content := by decide +kernel
  have hlog : ((prepare ⟨"config", "report"⟩).perform Reconciliation.twoCases).2.files.read
      "log" = .ok Reconciliation.brokenLog := by decide +kernel
  obtain ⟨-, -, host', -, -, hrun, hfile⟩ := withPaths_records_all rfl hprepare hreport hlog
  have hmissing : (ofBytes Reconciliation.brokenLog).missing? ["x: PASS"] = none := by
    decide +kernel
  refine ⟨host', ?_, ?_⟩
  · rw [hrun, hmissing]
  · rw [hfile]
    decide +kernel

end Run

end CaseReport
