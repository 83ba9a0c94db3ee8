import Mathlib.Control.Monad.Basic
import CaseReport.Proofs.Report.Updating

/-!
# A sequence of updates

The file of a report follows the report in memory. Each update reads the file and writes it back as
a whole, and what it writes is read as what was written. A file that is not written in the usual
form is brought into it by the first update that finds its identifier.
-/

namespace CaseReport

namespace Report

open Host Action

/-- Updates of the file of a report, one after the other, whatever they end in. -/
def updateAll (path : Path) (updates : List (String × Status)) :
    Work (List (Except UpdateFault Unit)) :=
  updates.mapM fun update => (updateStatus path update.1 update.2).run

/-- The report after these changes, one after the other. -/
def setAll (report : Report) (updates : List (String × Status)) : Report :=
  updates.foldl (fun report update => report.setStatus update.1 update.2) report

variable {path : Path} {host host' : Host} {old : Report} {update : String × Status}
  {updates : List (String × Status)} {result : Except UpdateFault Unit}
  {results : List (Except UpdateFault Unit)}

theorem run_updateAll_cons {host₁ host₂ : Host}
    (hfirst : (updateStatus path update.1 update.2).perform host = (result, host₁))
    (hrest : (updateAll path updates).run host₁ = (results, host₂)) :
    (updateAll path (update :: updates)).run host = (result :: results, host₂) :=
  Work.run_mapM_cons hfirst hrest

/-- An update of a report that can be read, unless it fails in writing. -/
theorem updateStatus_of_ofFile {identifier : String} {status : Status}
    (hplan : host.refusals = []) (hreport : ofFile host.files path = .ok old)
    (hupdate : (updateStatus path identifier status).perform host = (result, host'))
    (hwritten : ∀ cause, result ≠ .error ⟨identifier, .file (.unwritable path cause)⟩) :
    host'.refusals = [] ∧ ofFile host'.files path = .ok (old.setStatus identifier status) ∧
      (result = .ok () ∧ identifier ∈ old.identifiers ∧
          host'.files.read path = .ok (old.setStatus identifier status).content ∨
        result = .error ⟨identifier, .noLine⟩ ∧ identifier ∉ old.identifiers ∧
          host'.files = host.files) := by
  obtain ⟨hsilent, hupdated⟩ := yields_updateStatus.of_perform hupdate
  rw [hplan] at hupdated
  exact ⟨hsilent.refusals_eq_nil hplan, hupdated.of_ofFile_eq_ok hreport hwritten⟩

/-- After any updates, none of which fails in writing, the file holds the report with these changes.
If one of them was recorded it holds that report as it is written down, and if not it is what it
was. -/
theorem updateAll_of_ofFile (hplan : host.refusals = [])
    (hreport : ofFile host.files path = .ok old)
    (hrun : (updateAll path updates).run host = (results, host'))
    (hwritten : ∀ identifier cause,
      .error ⟨identifier, .file (.unwritable path cause)⟩ ∉ results) :
    host'.refusals = [] ∧ ofFile host'.files path = .ok (old.setAll updates) ∧
      (.ok () ∈ results ∧ host'.files.read path = .ok (old.setAll updates).content ∨
        .ok () ∉ results ∧ host'.files = host.files) := by
  induction updates generalizing host old results with
  | nil =>
    cases hrun
    exact ⟨hplan, hreport, .inr ⟨List.not_mem_nil, rfl⟩⟩
  | cons update updates ih =>
    rcases hfirst : (updateStatus path update.1 update.2).perform host with ⟨result, host₁⟩
    rcases hrest : (updateAll path updates).run host₁ with ⟨results', host₂⟩
    cases (run_updateAll_cons hfirst hrest).symm.trans hrun
    have hwritten₁ : ∀ cause, result ≠ .error ⟨update.1, .file (.unwritable path cause)⟩ := by
      rintro cause rfl
      exact hwritten _ _ List.mem_cons_self
    obtain ⟨hplan₁, hreport₁, hresult⟩ := updateStatus_of_ofFile hplan hreport hfirst hwritten₁
    obtain ⟨hplan₂, hreport₂, hresults⟩ := ih hplan₁ hreport₁ hrest
      fun identifier cause hmem => hwritten identifier cause (List.mem_cons_of_mem _ hmem)
    refine ⟨hplan₂, hreport₂, ?_⟩
    rcases hresults with ⟨hmem, hread⟩ | ⟨hnone, hfiles⟩
    · exact .inl ⟨List.mem_cons_of_mem _ hmem, hread⟩
    · -- Nothing was recorded after the first update, which is the one that counts.
      have hsame : old.setStatus update.1 update.2 = old.setAll (update :: updates) := by
        rw [hfiles] at hreport₂
        exact Except.ok.inj (hreport₁.symm.trans hreport₂)
      rcases hresult with ⟨rfl, -, hread⟩ | ⟨rfl, -, hfiles₁⟩
      · rw [hsame, ← hfiles] at hread
        exact .inl ⟨List.mem_cons_self, hread⟩
      · refine .inr ⟨?_, hfiles.trans hfiles₁⟩
        rw [List.mem_cons, not_or]
        exact ⟨nofun, hnone⟩

/-- If the path lets a file be put in its place, no update fails in writing, and it is so for the
updates to come. -/
theorem updateAll_ne_unwritable (hplan : host.refusals = []) (hpath : Placeable host.files path)
    (hrun : (updateAll path updates).run host = (results, host')) :
    Placeable host'.files path ∧
      ∀ identifier cause, .error ⟨identifier, .file (.unwritable path cause)⟩ ∉ results := by
  induction updates generalizing host results with
  | nil =>
    cases hrun
    exact ⟨hpath, fun _ _ => List.not_mem_nil⟩
  | cons update updates ih =>
    rcases hfirst : (updateStatus path update.1 update.2).perform host with ⟨result, host₁⟩
    rcases hrest : (updateAll path updates).run host₁ with ⟨results', host₂⟩
    cases (run_updateAll_cons hfirst hrest).symm.trans hrun
    obtain ⟨hsilent, hupdated⟩ := yields_updateStatus.of_perform hfirst
    rw [hplan] at hupdated
    obtain ⟨hpath', hwritten⟩ := ih (hsilent.refusals_eq_nil hplan)
      (hpath.congr hupdated.workingDirectory) hrest
    refine ⟨hpath', fun identifier cause => ?_⟩
    rw [List.mem_cons, not_or]
    exact ⟨(hupdated.ne_unwritable hpath).symm, hwritten identifier cause⟩

/-- The file of a report that can be read follows the report in memory through any updates, as long
as none fails in writing: loading gives that report, and an update is recorded exactly if it has a
line to change. If not it says so and leaves every file as it is. From the first update that is
recorded on the file holds the report as it is written down, and up to there it is what it was. None
fails in writing if the path lets a file be put in its place. -/
theorem updateAll_tracks_setAll (hplan : host.refusals = [])
    (hreport : ofFile host.files path = .ok old)
    (hrun : (updateAll path updates).run host = (results, host')) :
    (Placeable host.files path →
      ∀ identifier cause, .error ⟨identifier, .file (.unwritable path cause)⟩ ∉ results) ∧
    ((∀ identifier cause, .error ⟨identifier, .file (.unwritable path cause)⟩ ∉ results) →
      ((load path).perform host').1 = .ok (old.setAll updates) ∧
      (.ok () ∈ results → host'.files.read path = .ok (old.setAll updates).content) ∧
      (.ok () ∉ results → host'.files = host.files) ∧
      ∀ identifier status result host'',
        (updateStatus path identifier status).perform host' = (result, host'') →
        (Placeable host.files path →
          ∀ cause, result ≠ .error ⟨identifier, .file (.unwritable path cause)⟩) ∧
        ((∀ cause, result ≠ .error ⟨identifier, .file (.unwritable path cause)⟩) →
          (result = .ok () ↔ (old.setAll updates).occurrences identifier ≠ 0) ∧
          ((old.setAll updates).occurrences identifier = 0 →
            result = .error ⟨identifier, .noLine⟩ ∧ host''.files = host'.files))) := by
  refine ⟨fun hpath => (updateAll_ne_unwritable hplan hpath hrun).2, fun hwritten => ?_⟩
  obtain ⟨hplan', hreport', hresults⟩ := updateAll_of_ofFile hplan hreport hrun hwritten
  refine ⟨?_, ?_, ?_, ?_⟩
  · have hload : (load path).Reads host' _ := reads_load path
    rw [← hreport']
    exact hload.exact hplan'
  · intro hmem
    rcases hresults with ⟨-, hread⟩ | ⟨hnone, -⟩
    · exact hread
    · exact absurd hmem hnone
  · intro hnone
    rcases hresults with ⟨hmem, -⟩ | ⟨-, hfiles⟩
    · exact absurd hmem hnone
    · exact hfiles
  · intro identifier status result host'' hupdate
    obtain ⟨-, hupdated⟩ := yields_updateStatus.of_perform hupdate
    rw [hplan'] at hupdated
    refine ⟨fun hpath _ => hupdated.ne_unwritable (updateAll_ne_unwritable hplan hpath hrun).1, ?_⟩
    intro hwritten'
    obtain ⟨-, -, ⟨rfl, hline, -⟩ | ⟨rfl, hline, hfiles⟩⟩ :=
      updateStatus_of_ofFile hplan' hreport' hupdate hwritten'
    · have hsome := mt occurrences_eq_zero_iff.1 (not_not_intro hline)
      exact ⟨⟨fun _ => hsome, fun _ => rfl⟩, fun hzero => absurd hzero hsome⟩
    · have hzero := occurrences_eq_zero_iff.2 hline
      exact ⟨⟨nofun, fun hsome => absurd hzero hsome⟩, fun _ => ⟨rfl, hfiles⟩⟩

/-- A host with a report that is not written in the usual form. -/
def roughReport : Host where
  files := { nodes := [(["report"], .file
    (Text.Utf8.encode "\r\nx: PASS: NA\r\n \nb:  FAIL\t".toList) 0o644)] }

/-- The first update has no line and leaves the file as it is; the second one brings it into the
usual form. A further one without a line changes nothing. -/
theorem updateAll_roughReport :
    ∃ host' host'', (updateAll "report" [("x\nb", .pass), ("x: PASS", .fail)]).run roughReport =
        ([.error ⟨"x\nb", .noLine⟩, .ok ()], host') ∧
      ((load "report").perform host').1 = .ok ⟨[⟨"x: PASS", .fail⟩, ⟨"b", .fail⟩]⟩ ∧
      host'.files.read "report" =
        .ok (Text.Utf8.encode "x: PASS: FAIL\nb: FAIL\n".toList) ∧
      (updateStatus "report" "x" .na).perform host' = (.error ⟨"x", .noLine⟩, host'') ∧
      host''.files = host'.files := by
  have hreport : ofFile roughReport.files "report" =
      .ok ⟨[⟨"x: PASS", .na⟩, ⟨"b", .fail⟩]⟩ := by decide +kernel
  have hrun : (updateAll "report" [("x\nb", .pass), ("x: PASS", .fail)]).run roughReport =
      ([.error ⟨"x\nb", .noLine⟩, .ok ()],
        ((updateAll "report" [("x\nb", .pass), ("x: PASS", .fail)]).run roughReport).2) :=
    Work.run_eq (by decide +kernel)
  have hpath : Placeable roughReport.files "report" :=
    ⟨⟨"report", by decide +kernel⟩, by decide +kernel, by decide +kernel⟩
  obtain ⟨hwritten, htracks⟩ := updateAll_tracks_setAll rfl hreport hrun
  obtain ⟨hload, hread, -, hnext⟩ := htracks (hwritten hpath)
  have hupdate : (updateStatus "report" "x" .na).perform
      ((updateAll "report" [("x\nb", .pass), ("x: PASS", .fail)]).run roughReport).2 =
        (.error ⟨"x", .noLine⟩, ((updateStatus "report" "x" .na).perform
          ((updateAll "report" [("x\nb", .pass), ("x: PASS", .fail)]).run roughReport).2).2) :=
    perform_eq (by decide +kernel)
  obtain ⟨hwritten', hrecorded⟩ := hnext _ _ _ _ hupdate
  obtain ⟨-, hkept⟩ := hrecorded (hwritten' hpath)
  refine ⟨_, _, hrun, ?_, ?_, hupdate, (hkept (by decide +kernel)).2⟩
  · rw [hload]
    decide +kernel
  · rw [hread (by simp)]
    decide +kernel

end Report

end CaseReport
