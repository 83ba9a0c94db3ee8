import CaseReport.Proofs.Reconciliation.ClosedForm

/-!
# Reconciling a report that was just started

Every judged case has a line in a report that was just started, and every identifier that a
configuration may hold fits on its line. So each verdict is recorded, unless the path does not let a
file be put in its place.
-/

namespace CaseReport

theorem Cases.firstBroken?_of_parse {text : List Char} {cases : Cases}
    (h : Cases.parse text = .ok cases) : cases.firstBroken? = none := by
  rw [Cases.parse] at h
  split at h
  · cases h
  · split at h
    · cases h
    · next hnone =>
      rw [← Except.ok.inj h]
      exact hnone

/-- An identifier of an accepted configuration has no line break. -/
theorem Cases.hasBreak_of_mem {cases : Cases} (h : cases.firstBroken? = none) {identifier : String}
    (hidentifier : identifier ∈ cases.identifiers) : Text.hasBreak identifier.toList = false := by
  rw [← map_snd_grouped] at hidentifier
  obtain ⟨case, hcase, rfl⟩ := List.mem_map.1 hidentifier
  exact Bool.eq_false_iff.2 (List.find?_eq_none.1 h case hcase)

namespace Report

theorem fitsLines_ofCases {cases : Cases} (h : cases.firstBroken? = none) :
    (ofCases cases).FitsLines := by
  intro identifier hidentifier hnewline
  rw [identifiers_ofCases] at hidentifier
  have hbreak := Text.hasBreak_eq_false_iff.1 (Cases.hasBreak_of_mem h hidentifier)
  exact (hbreak '\n' hnewline).1 rfl

/-- The report of some cases, on which the verdicts of a log are given for some identifiers. -/
theorem marked_ofCases {cases : Cases} {log : ExecutionLog} {identifiers : List String} :
    (ofCases cases).marked log identifiers = ⟨cases.identifiers.map fun identifier =>
      ⟨identifier, if identifier ∈ identifiers then log.verdict identifier else .na⟩⟩ := by
  simp only [marked, ofCases, List.map_map]
  congr 1
  apply List.map_congr_left
  intro identifier _
  simp only [Function.comp_apply]
  split <;> rfl

end Report

namespace Reconciliation

open Host Report Action ExecutionLog

variable {path : Path} {log : ExecutionLog} {fs fs' : FileSystem}
  {cases : List (Group × String)} {results : List CaseResult}

namespace Pass

/-- What the file of a report holds after the pass. -/
theorem read_eq {old : Report} (hpath : Placeable fs path) (hfits : old.FitsLines)
    (hread : fs.read path = .ok old.content) (h : Pass [] path log fs cases results fs') :
    fs'.read path = .ok (old.marked log (cases.map Prod.snd)).content := by
  obtain ⟨-, hfiles⟩ := h.of_ofFile_eq_ok (ofFile_of_read hfits hread) (h.not_writeFailed hpath)
  rcases hfiles with ⟨hnone, rfl⟩ | ⟨-, hread'⟩
  · rw [marked_of_disjoint hnone]
    exact hread
  · exact hread'

end Pass

variable {host : Host} {expected : Cases} {report logPath : Path}

/-- A reconciliation of a report that was just started records every verdict. -/
theorem reconcile_ofCases (hplan : host.refusals = []) (hpath : Placeable host.files report)
    (hbroken : expected.firstBroken? = none)
    (hreport : host.files.read report = .ok (ofCases expected).content)
    (hlog : ExecutionLog.ofFile host.files logPath = .ok log) :
    ∃ outcome host', (reconcile expected report logPath).perform host = (.ok outcome, host') ∧
      outcome.missingSetup = log.missing? expected.setup ∧
      (∀ result ∈ outcome.results, result.fault = none) ∧
      host'.files.read report = .ok ((ofCases expected).marked log (log.evaluated expected)).content
      := by
  rcases hperform : (reconcile expected report logPath).perform host with ⟨result, host'⟩
  obtain ⟨-, hend⟩ := (yields_reconcile _ _ _).of_perform hperform
  cases result with
  | error fault => cases hlog.symm.trans (hend.2 hplan)
  | ok outcome =>
    obtain ⟨log', hlog', hmissing, hpass⟩ := hend
    obtain rfl := Except.ok.inj (hlog.symm.trans hlog')
    rw [hplan] at hpass
    have hfits := fitsLines_ofCases hbroken
    obtain ⟨hfaults, -⟩ := hpass.of_ofFile_eq_ok (ofFile_of_read hfits hreport)
      (hpass.not_writeFailed hpath)
    refine ⟨outcome, host', rfl, hmissing, ?_, hpass.read_eq hpath hfits hreport⟩
    intro result hresult
    rw [hfaults result hresult, identifiers_ofCases]
    exact mem_identifiers_of_mem_judged (hpass.mem_of_mem_results hresult)

end Reconciliation

end CaseReport
