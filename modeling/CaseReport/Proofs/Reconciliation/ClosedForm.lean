import Mathlib.Control.Monad.Basic
import CaseReport.Proofs.Reconciliation.Pass

/-!
# The closed form of a reconciliation

The pass reads and writes the report once for each judged case. Since a written report is read back
as it was, what is left in the file is the report it held before, marked once for all judged cases.
-/

namespace CaseReport

namespace Reconciliation

open Host Report Action ExecutionLog

/-- What went wrong is that a report could not be written. -/
def WriteFailed (fault : Option UpdateFault) : Prop :=
  ∃ identifier path cause, fault = some ⟨identifier, .file (.unwritable path cause)⟩

variable {plan : List (Option SystemFault)} {path : Path} {log : ExecutionLog}
  {fs fs' : FileSystem} {cases : List (Group × String)} {results : List CaseResult}
  {old : Report} {fault : FileFault}

namespace Pass

/-- Without a report to read every update goes wrong and nothing changes. -/
theorem of_ofFile_eq_error (h : Pass plan path log fs cases results fs')
    (hreport : Report.ofFile fs path = .error fault) :
    (∀ result ∈ results, result.fault ≠ none) ∧ fs' = fs := by
  induction h with
  | nil => exact ⟨fun _ hresult => absurd hresult List.not_mem_nil, rfl⟩
  | cons updated _ ih =>
    rcases updated.kept_or_replaced with ⟨⟨fault, rfl⟩, rfl⟩ | ⟨-, _, hok, -⟩
    · obtain ⟨hfaults, hfiles⟩ := ih hreport
      refine ⟨?_, hfiles⟩
      rw [List.forall_mem_cons]
      exact ⟨Option.some_ne_none _, hfaults⟩
    · cases hok.symm.trans hreport

/-- If the path lets a file be put in its place, no write fails. -/
theorem not_writeFailed (hpath : Placeable fs path) (h : Pass [] path log fs cases results fs') :
    ∀ result ∈ results, ¬WriteFailed result.fault := by
  induction h with
  | nil => exact fun _ hresult => absurd hresult List.not_mem_nil
  | @cons fs fs₁ fs₂ group identifier update cases results updated rest ih =>
    rw [List.forall_mem_cons]
    refine ⟨?_, ih (hpath.congr updated.workingDirectory)⟩
    rintro ⟨identifier', path', cause, hfault⟩
    cases update with
    | ok => cases hfault
    | error fault =>
      cases hfault
      exact updated.ne_unwritable hpath rfl

/-- An update that is not refused and does not fail in writing changes the report as `setStatus`
does, and goes wrong only if the identifier is on no line. -/
theorem step_of_ofFile_eq_ok {identifier : String} {status : Status}
    {update : Except UpdateFault Unit}
    (h : Updated [] fs path identifier status update fs')
    (hreport : Report.ofFile fs path = .ok old)
    (hwritten : ¬WriteFailed (faultOf update)) :
    Report.ofFile fs' path = .ok (old.setStatus identifier status) ∧
    ((faultOf update = none ∧ identifier ∈ old.identifiers ∧
        fs'.read path = .ok (old.setStatus identifier status).content) ∨
      (faultOf update ≠ none ∧ identifier ∉ old.identifiers ∧ fs' = fs)) := by
  have hwritten' : ∀ cause, update ≠ .error ⟨identifier, .file (.unwritable path cause)⟩ := by
    rintro cause rfl
    exact hwritten ⟨_, _, _, rfl⟩
  obtain ⟨hreport', ⟨rfl, hline, hread⟩ | ⟨rfl, hline, hfiles⟩⟩ :=
    h.of_ofFile_eq_ok hreport hwritten'
  · exact ⟨hreport', .inl ⟨rfl, hline, hread⟩⟩
  · exact ⟨hreport', .inr ⟨Option.some_ne_none _, hline, hfiles⟩⟩

/-- The files after the pass, and which updates went wrong, from the report before it. -/
theorem of_ofFile_eq_ok (h : Pass [] path log fs cases results fs')
    (hreport : Report.ofFile fs path = .ok old)
    (hwritten : ∀ result ∈ results, ¬WriteFailed result.fault) :
    (∀ result ∈ results, result.fault = none ↔ result.identifier ∈ old.identifiers) ∧
    ((∀ identifier ∈ cases.map Prod.snd, identifier ∉ old.identifiers) ∧ fs' = fs ∨
      (∃ identifier ∈ cases.map Prod.snd, identifier ∈ old.identifiers) ∧
        fs'.read path = .ok (old.marked log (cases.map Prod.snd)).content) := by
  induction h generalizing old with
  | nil =>
    refine ⟨fun _ hresult => absurd hresult List.not_mem_nil, .inl ⟨?_, rfl⟩⟩
    exact fun _ hmem => absurd hmem List.not_mem_nil
  | @cons fs fs₁ fs₂ group identifier update cases results updated rest ih =>
    rw [List.forall_mem_cons] at hwritten
    obtain ⟨hreport', ⟨hfault, hline, hread⟩ | ⟨hfault, hline, rfl⟩⟩ :=
      step_of_ofFile_eq_ok updated hreport hwritten.1
    · obtain ⟨hfaults, hfiles⟩ := ih hreport' hwritten.2
      simp only [identifiers_setStatus] at hfaults hfiles
      rw [List.map_cons, ← marked_setStatus]
      refine ⟨?_, .inr ⟨⟨identifier, List.mem_cons_self, hline⟩, ?_⟩⟩
      · rw [List.forall_mem_cons]
        exact ⟨⟨fun _ => hline, fun _ => hfault⟩, hfaults⟩
      · rcases hfiles with ⟨hnone, rfl⟩ | ⟨-, hread'⟩
        · rw [marked_of_disjoint (by simpa only [identifiers_setStatus] using hnone)]
          exact hread
        · exact hread'
    · obtain ⟨hfaults, hfiles⟩ := ih hreport hwritten.2
      refine ⟨?_, ?_⟩
      · rw [List.forall_mem_cons]
        refine ⟨⟨fun hnone => absurd hnone hfault, fun hmem => absurd hmem hline⟩, hfaults⟩
      · rw [List.map_cons, ← marked_setStatus, setStatus_of_not_mem hline]
        rcases hfiles with ⟨hnone, rfl⟩ | ⟨⟨other, hmem, hother⟩, hread⟩
        · refine .inl ⟨?_, rfl⟩
          rw [List.forall_mem_cons]
          exact ⟨hline, hnone⟩
        · exact .inr ⟨⟨other, List.mem_cons_of_mem _ hmem, hother⟩, hread⟩

end Pass

/-- A reconciliation with a log that can be read judges the setup cases up to the first one that is
missing, and the end-to-end cases if none is. If the report file cannot be read as a report, no
verdict is recorded and nothing changes. If it can, and no write fails, exactly the verdicts on its
own identifiers are recorded, all of them in one stroke as it were. No write fails if the path lets
a file be put in its place. -/
theorem reconcile_closed_form {host : Host} {bytes : List UInt8} {logPath : Path}
    (expected : Cases) (report : Path) (hplan : host.refusals = [])
    (hlog : host.files.read logPath = .ok bytes) :
    let log := ofBytes bytes
    ∃ outcome host', (reconcile expected report logPath).perform host = (.ok outcome, host') ∧
      outcome.results.map (fun result => (result.group, result.identifier)) = log.judged expected ∧
      (∀ fault, Report.ofFile host.files report = .error fault →
        (∀ result ∈ outcome.results, result.fault ≠ none) ∧ host'.files = host.files) ∧
      (Placeable host.files report → ∀ result ∈ outcome.results, ¬WriteFailed result.fault) ∧
      ∀ old, Report.ofFile host.files report = .ok old →
        (∀ result ∈ outcome.results, ¬WriteFailed result.fault) →
          (∀ result ∈ outcome.results, result.fault = none ↔ result.identifier ∈ old.identifiers) ∧
          ((∀ identifier ∈ log.evaluated expected, identifier ∉ old.identifiers) →
            host'.files = host.files) ∧
          ((∃ identifier ∈ log.evaluated expected, identifier ∈ old.identifiers) →
            host'.files.read report = .ok (old.marked log (log.evaluated expected)).content) := by
  intro log
  rcases hperform : (reconcile expected report logPath).perform host with ⟨result, host'⟩
  obtain ⟨-, hend⟩ := (yields_reconcile _ _ _).of_perform hperform
  have hofFile : ExecutionLog.ofFile host.files logPath = .ok log :=
    ofFile_eq_ok_iff.2 ⟨bytes, hlog, rfl⟩
  cases result with
  | error fault => cases hofFile.symm.trans (hend.2 hplan)
  | ok outcome =>
    obtain ⟨log', hlog', -, hpass⟩ := hend
    obtain rfl := Except.ok.inj (hofFile.symm.trans hlog')
    rw [hplan] at hpass
    refine ⟨outcome, host', rfl, hpass.map_results, ?_, fun hpath => hpass.not_writeFailed hpath,
      ?_⟩
    · exact fun fault hreport => hpass.of_ofFile_eq_error hreport
    · intro old hreport hwritten
      obtain ⟨hfaults, hfiles⟩ := hpass.of_ofFile_eq_ok hreport hwritten
      refine ⟨hfaults, ?_, ?_⟩
      · intro hnone
        rcases hfiles with ⟨-, hfiles⟩ | ⟨⟨identifier, hmem, hline⟩, -⟩
        · exact hfiles
        · exact absurd hline (hnone identifier hmem)
      · rintro ⟨identifier, hmem, hline⟩
        rcases hfiles with ⟨hnone, -⟩ | ⟨-, hread⟩
        · exact absurd hline (hnone identifier hmem)
        · exact hread

/-- A log that mentions one case, over a line break. -/
def brokenLog : List UInt8 :=
  Text.Utf8.encode "done x: PA\nSS\n".toList

/-- A host with a configuration of two cases, a report that has a line for each of them and one
more, and a log that mentions the first case, the identifier of which looks like a line. -/
def twoCases : Host where
  files := { nodes := [
    (["config"], .file (Text.Utf8.encode "[[\"x: PASS\"],[\"b\"]]".toList) 0o644),
    (["report"], .file (Text.Utf8.encode "x: PASS: NA\nz: FAIL\nb: NA\n".toList) 0o644),
    (["log"], .file brokenLog 0o644)] }

theorem reconcile_twoCases :
    ∃ outcome host', (reconcile ⟨["x: PASS"], ["b"]⟩ "report" "log").perform twoCases =
        (.ok outcome, host') ∧
      (∀ result ∈ outcome.results, result.fault = none) ∧
      host'.files.read "report" =
        .ok (Text.Utf8.encode "x: PASS: PASS\nz: FAIL\nb: FAIL\n".toList) := by
  have hlog : twoCases.files.read "log" = .ok brokenLog := by decide +kernel
  obtain ⟨outcome, host', hperform, -, -, hwritten, hrecorded⟩ :=
    reconcile_closed_form ⟨["x: PASS"], ["b"]⟩ "report" rfl hlog
  have houtcome : ((reconcile ⟨["x: PASS"], ["b"]⟩ "report" "log").perform twoCases).1 =
      .ok ⟨[⟨"x: PASS", .setup, .pass, none⟩, ⟨"b", .e2e, .fail, none⟩], none⟩ := by decide +kernel
  rw [hperform] at houtcome
  obtain rfl := Except.ok.inj houtcome
  have hreport : Report.ofFile twoCases.files "report" =
      .ok ⟨[⟨"x: PASS", .na⟩, ⟨"z", .fail⟩, ⟨"b", .na⟩]⟩ := by decide +kernel
  have hpath : Placeable twoCases.files "report" :=
    ⟨⟨"report", by decide +kernel⟩, by decide +kernel, by decide +kernel⟩
  obtain ⟨-, -, hread⟩ := hrecorded _ hreport (hwritten hpath)
  refine ⟨_, host', hperform, by simp, ?_⟩
  rw [hread ⟨"x: PASS", by decide +kernel, by decide +kernel⟩]
  decide +kernel

end Reconciliation

end CaseReport
