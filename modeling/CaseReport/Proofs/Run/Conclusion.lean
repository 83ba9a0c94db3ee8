import Mathlib.Control.Monad.Basic
import CaseReport.Proofs.Reconciliation.Fresh
import CaseReport.Proofs.Reconciliation.Verdicts
import CaseReport.Proofs.Report.Filing
import CaseReport.Proofs.Run.Steps

/-!
# What a run comes to

Where nothing is refused by plan, and the report can be made or is a file already, a run is settled
by the cases of its configuration and by the log as it is once the report was started. They give
the result, everything that is printed, and what the report holds at the end.
-/

namespace CaseReport

namespace Run

open Report Reconciliation Host Action ExecutionLog Console

variable {host host₁ : Host} {locations : Locations} {log : Path} {cases : Cases}
  {place entry : Location} {fs fs' : FileSystem}

/-! ## The summary -/

/-- The lines behind those of the verdicts: what went wrong with the report, and what it counts if
it can be read. -/
def summaryLines (path : Path) (outcome : Outcome) (loaded : Except FileFault Report) :
    List Line :=
  (outcome.results.filterMap CaseResult.fault).map faultLine ++
    match loaded with
    | .ok report => [[], countsLine report.counts, [plain ("Report: " ++ path)]]
    | .error _ => [[plain ("Report: " ++ path)]]

theorem prints_printFaults {faults : List UpdateFault} :
    Work.Yields (faults.forM fun fault => print (faultLine fault)) host fun _ host' =>
      host.Prints (faults.map faultLine) host' := by
  induction faults generalizing host with
  | nil => exact (List.append_nil _).symm
  | cons fault faults ih =>
    have hfirst : host.Prints [faultLine fault]
        { host with printed := host.printed ++ [faultLine fault] } := rfl
    exact Work.yields_print_bind (hfirst.trans ih)

theorem prints_summarize {outcome : Outcome} {path : Path} (hplan : host.refusals = []) :
    (summarize path outcome).Yields host fun _ host' =>
      host.Prints (summaryLines path outcome (Report.ofFile host.files path)) host' := by
  have hfaults : Work.Yields ((outcome.results.filterMap CaseResult.fault).forM fun fault =>
      print (faultLine fault)) host fun _ host' =>
      host.Prints ((outcome.results.filterMap CaseResult.fault).map faultLine) host' ∧
        host.Onward host' ∧ host'.files = host.files :=
    ⟨prints_printFaults, yields_printFaults⟩
  rw [summarize]
  refine hfaults.bind ?_
  rintro ⟨⟩ host₁ ⟨hprints, honward, hfiles⟩
  refine Work.Yields.bind (Work.yields_run (Report.reads_load path)) ?_
  intro loaded host₂ hanswered
  have hloaded := hanswered.exact (honward.refusals_eq_nil hplan)
  rw [hfiles] at hloaded
  rw [hloaded]
  cases Report.ofFile host.files path with
  | ok report =>
    refine Work.yields_print_bind (Work.yields_print_bind ?_)
    have hlast : host₂.Prints [[], countsLine report.counts, [plain ("Report: " ++ path)]]
        { host₂ with printed := host₂.printed ++ [[]] ++ [countsLine report.counts] ++
          [[plain ("Report: " ++ path)]] } := by simp [Prints]
    exact hprints.trans (hanswered.silently.prints hlast)
  | error fault =>
    have hlast : host₂.Prints [[plain ("Report: " ++ path)]]
        { host₂ with
          printed := host₂.printed ++ [[plain ("Report: " ++ path)]]
          diagnosed := host₂.diagnosed ++ [.summaryUnavailable fault] } := rfl
    exact hprints.trans (hanswered.silently.prints hlast)

/-- A run that was prepared and reconciled prints what the reconciliation has printed, and the
summary of the report that is there then. -/
theorem prints_withPaths {host₂ : Host} {outcome : Outcome} (hplan : host₂.refusals = [])
    (hprepare : (prepare locations).perform host = (.ok cases, host₁))
    (hreconcile : (reconcile cases locations.report log).perform host₁ = (.ok outcome, host₂)) :
    host₂.Prints (summaryLines locations.report outcome
      (Report.ofFile host₂.files locations.report)) ((withPaths locations log).perform host).2 := by
  have hsummary : (summarize locations.report outcome).Yields host₂ _ := prints_summarize hplan
  rw [withPaths, perform_bind, hprepare]
  simp only [perform_bind, perform_adapt, hreconcile]
  exact hsummary

/-! ## The preparation -/

/-- What the preparation of a run ends in, and the files after it. -/
inductive Begun (fs : FileSystem) (locations : Locations) (place : Location) :
    Except Fault Cases → FileSystem → Prop where
  | unconfigured {fault} (hcases : Cases.ofFile fs locations.config = .error fault) :
    Begun fs locations place (.error fault) fs
  | cramped {cases : Cases} {cause} {fs' : FileSystem}
      (hcases : Cases.ofFile fs locations.config = .ok cases)
      (hfiled : Filed fs locations.report place (ofCases cases).content (.error cause) fs') :
    Begun fs locations place (.error (.file (.unwritable locations.report cause))) fs'
  | begun {cases : Cases} {fs' : FileSystem}
      (hcases : Cases.ofFile fs locations.config = .ok cases)
      (hfiled : Filed fs locations.report place (ofCases cases).content (.ok ()) fs') :
    Begun fs locations place (.ok cases) fs'

/-- The preparation is settled by the configuration, and by the room beside the report. -/
theorem Begun.result_eq {result : Except Fault Cases} (h : Begun fs locations place result fs') :
    result = do
      let cases ← Cases.ofFile fs locations.config
      (room fs locations.report).mapError fun cause => .file (.unwritable locations.report cause)
      return cases := by
  cases h with
  | unconfigured hcases =>
    rw [hcases]
    rfl
  | cramped hcases hfiled =>
    rw [hcases, hfiled.room_eq]
    rfl
  | begun hcases hfiled =>
    rw [hcases, hfiled.room_eq]
    rfl

theorem yields_prepare_of_ready (hready : Ready host.files locations.report place)
    (hplan : host.refusals = []) : (prepare locations).Yields host fun result host' =>
      host.Silently host' ∧ Begun host.files locations place result host'.files := by
  rcases hload : (Cases.load locations.config).perform host with ⟨loaded, host₁⟩
  have hanswered := (Cases.reads_load locations.config).of_perform hload
  have hcases := (hanswered.exact hplan).symm
  cases loaded with
  | error fault =>
    rw [Yields, prepare, perform_bind, hload]
    refine ⟨hanswered.silently, ?_⟩
    dsimp only
    rw [hanswered.files]
    exact .unconfigured hcases
  | ok cases =>
    have hready' : Ready (host₁.tell (announcement locations cases)).files locations.report place :=
      hanswered.files ▸ hready
    rcases hstart : (Report.start locations.report cases).perform
      (host₁.tell (announcement locations cases)) with ⟨result, host₂⟩
    obtain ⟨hsilent, stored, rfl, hfiled⟩ := (hready'.yields_start
      (hanswered.silently.refusals_eq_nil hplan)).of_perform hstart
    have hsilent' : host.Silently host₂ :=
      hanswered.silently.trans ⟨hsilent.printed, hsilent.onward⟩
    rw [files_tell, hanswered.files] at hfiled
    rw [Yields, perform_prepare hload, hstart]
    cases stored with
    | error cause => exact ⟨hsilent', .cramped hcases hfiled⟩
    | ok => exact ⟨hsilent', .begun hcases hfiled⟩

/-! ## The whole run -/

/-- What a run comes to once its report is started. -/
structure Conclusion where
  result : Except Fault Unit
  printed : List Line
  report : Report

/-- The conclusion from the expected cases and the log, if that can be read. -/
def conclude (path : Path) (cases : Cases) : Except FileFault ExecutionLog → Conclusion
  | .error fault => ⟨.error (.file fault), [], ofCases cases⟩
  | .ok log =>
    let report := (ofCases cases).marked log (log.evaluated cases)
    { result := match log.missing? cases.setup with
        | some identifier => .error (.setupMissing identifier)
        | none => .ok ()
      printed := judgedLines log cases ++
        [[], countsLine report.counts, [plain ("Report: " ++ path)]]
      report }

/-- What a run ends in, what it prints, and the files after it. -/
inductive Ran (fs : FileSystem) (locations : Locations) (log : Path) (place : Location) :
    Except Fault Unit → List Line → FileSystem → Prop where
  | unconfigured {fault} (hcases : Cases.ofFile fs locations.config = .error fault) :
    Ran fs locations log place (.error fault) [] fs
  | cramped {cases : Cases} {cause} {fs' : FileSystem}
      (hcases : Cases.ofFile fs locations.config = .ok cases)
      (hfiled : Filed fs locations.report place (ofCases cases).content (.error cause) fs') :
    Ran fs locations log place (.error (.file (.unwritable locations.report cause))) [] fs'
  | concluded {cases : Cases} {fs₁ fs' : FileSystem} {entry conclusion}
      (hcases : Cases.ofFile fs locations.config = .ok cases)
      (hfiled : Filed fs locations.report place (ofCases cases).content (.ok ()) fs₁)
      (hconclude : conclude locations.report cases (ExecutionLog.ofFile fs₁ log) = conclusion)
      (hentry : fs₁.resolveEntry .busy locations.report = .ok entry)
      (hdiffer : FileSystem.DifferAt entry fs₁ fs') (hfile : fs'.HasFile entry)
      (hread : fs'.read locations.report = .ok conclusion.report.content) :
    Ran fs locations log place conclusion.result conclusion.printed fs'

namespace Ran

variable {result : Except Fault Unit} {printed : List Line} {final : FileSystem}

theorem of_unconfigured {fault : Fault} (h : Ran fs locations log place result printed final)
    (hcases : Cases.ofFile fs locations.config = .error fault) :
    result = .error fault ∧ printed = [] ∧ final = fs := by
  cases h with
  | unconfigured herror =>
    cases herror.symm.trans hcases
    exact ⟨rfl, rfl, rfl⟩
  | cramped hok => cases hok.symm.trans hcases
  | concluded hok => cases hok.symm.trans hcases

theorem of_cramped {cases : Cases} {cause : WriteCause}
    (h : Ran fs locations log place result printed final)
    (hcases : Cases.ofFile fs locations.config = .ok cases)
    (hroom : room fs locations.report = .error cause) :
    result = .error (.file (.unwritable locations.report cause)) ∧ printed = [] ∧
      (fs.HasFile place → final = fs) := by
  cases h with
  | unconfigured herror => cases herror.symm.trans hcases
  | cramped _ hfiled =>
    cases hfiled with
    | cramped hroom' _ _ hkept =>
      cases hroom'.symm.trans hroom
      exact ⟨rfl, rfl, hkept⟩
  | concluded _ hfiled => cases hfiled.room_eq.symm.trans hroom

theorem of_room {cases : Cases} (h : Ran fs locations log place result printed final)
    (hcases : Cases.ofFile fs locations.config = .ok cases)
    (hroom : room fs locations.report = .ok ()) :
    ∃ started, Filed fs locations.report place (ofCases cases).content (.ok ()) started ∧
      ∀ {conclusion},
        conclude locations.report cases (ExecutionLog.ofFile started log) = conclusion →
          result = conclusion.result ∧ printed = conclusion.printed ∧
            final.read locations.report = .ok conclusion.report.content := by
  cases h with
  | unconfigured herror => cases herror.symm.trans hcases
  | cramped _ hfiled => cases hfiled.room_eq.symm.trans hroom
  | @concluded _ started _ _ _ hok hfiled hconclude _ _ _ hread =>
    cases hok.symm.trans hcases
    refine ⟨started, hfiled, ?_⟩
    rintro _ hconclude'
    obtain rfl := hconclude.symm.trans hconclude'
    exact ⟨rfl, rfl, hread⟩

end Ran

/-- From the moment when the report has a file at its entry, the pass changes that file only. -/
theorem differAt_of_pass {plan : List (Option SystemFault)} {path : Path} {text : ExecutionLog}
    {judged : List (Group × String)} {results : List CaseResult}
    (h : Pass plan path text fs judged results fs')
    (hentry : fs.resolveEntry .busy path = .ok entry) (hfile : fs.HasFile entry) :
    FileSystem.DifferAt entry fs fs' ∧ fs'.HasFile entry := by
  induction h with
  | nil => exact ⟨.refl hfile.fileAtMost, hfile⟩
  | cons updated _ ih =>
    rcases updated.kept_or_replaced with ⟨-, rfl⟩ | ⟨-, _, -, -, hreplaced⟩
    · exact ih hentry hfile
    · obtain ⟨hdiffer, hfile'⟩ := hreplaced.differAt hentry hfile
      obtain ⟨hdiffer', hfile''⟩ :=
        ih ((hdiffer.alike hfile hfile').resolveEntry_eq _ hentry) hfile'
      exact ⟨hdiffer.trans hdiffer', hfile''⟩

/-- A reconciliation of a report that was just started, by the log or without one. -/
theorem concludes_of_read (hplan : host₁.refusals = [])
    (hprepare : (prepare locations).perform host = (.ok cases, host₁))
    (hsilent : host.Silently host₁) (hpath : Placeable host₁.files locations.report)
    (hbroken : cases.firstBroken? = none)
    (hreport : host₁.files.read locations.report = .ok (ofCases cases).content)
    (hentry : host₁.files.resolveEntry .busy locations.report = .ok entry)
    (hfile : host₁.files.HasFile entry) :
    let conclusion := conclude locations.report cases (ExecutionLog.ofFile host₁.files log)
    (withPaths locations log).Yields host fun result host' =>
      result = conclusion.result ∧ host.Prints conclusion.printed host' ∧ host'.refusals = [] ∧
        FileSystem.DifferAt entry host₁.files host'.files ∧ host'.files.HasFile entry ∧
        host'.files.read locations.report = .ok conclusion.report.content := by
  rcases hload : (ExecutionLog.load log).perform host₁ with ⟨fault | text, host₂⟩
  · have hanswered := (ExecutionLog.reads_load log).of_perform hload
    have hreconcile : (reconcile cases locations.report log).perform host₁ =
        (.error fault, host₂) := by
      rw [reconcile, perform_bind, hload]
    rw [Yields, perform_withPaths_of_unread hprepare hreconcile, ← hanswered.exact hplan]
    dsimp only
    rw [hanswered.files]
    exact ⟨rfl, (hsilent.trans hanswered.silently).prints_nil,
      hanswered.silently.refusals_eq_nil hplan, .refl hfile.fileAtMost, hfile, hreport⟩
  · have hofFile := ((ExecutionLog.reads_load log).of_perform hload).sound text rfl
    obtain ⟨outcome, host₃, hreconcile, -, hprints⟩ :=
      judgedBy_reconcile cases locations.report hload
    obtain ⟨outcome', host₃', hreconcile', hmissing, hfaults, hread⟩ :=
      reconcile_ofCases hplan hpath hbroken hreport hofFile
    cases hreconcile.symm.trans hreconcile'
    obtain ⟨honward, text', htext, -, hpass⟩ := (yields_reconcile _ _ _).of_perform hreconcile
    obtain rfl := Except.ok.inj (hofFile.symm.trans htext)
    have hplan' := honward.refusals_eq_nil hplan
    have hsummary := prints_withPaths hplan' hprepare hreconcile
    obtain ⟨host', hrun, honward', hfiles⟩ := perform_withPaths hprepare hreconcile
    have hfinal := ofFile_of_read (fitsLines_ofCases hbroken).marked hread
    have hnone : outcome.results.filterMap CaseResult.fault = [] :=
      List.filterMap_eq_nil_iff.2 hfaults
    rw [hrun, hfinal, summaryLines, hnone] at hsummary
    rw [Yields, hrun, hofFile, hfiles]
    refine ⟨?_, hsilent.prints (hprints.trans hsummary), honward'.refusals_eq_nil hplan',
      (differAt_of_pass hpass hentry hfile).1, (differAt_of_pass hpass hentry hfile).2, hread⟩
    rw [Outcome.verdict, hmissing]
    rfl

/-- Where nothing is refused by plan, a run from files in which the report is ready. -/
theorem yields_withPaths (hready : Ready host.files locations.report place)
    (hplan : host.refusals = []) : (withPaths locations log).Yields host fun result host' =>
      host'.refusals = [] ∧ ∃ printed, host.Prints printed host' ∧
        Ran host.files locations log place result printed host'.files := by
  rcases hprepare : (prepare locations).perform host with ⟨prepared, host₁⟩
  obtain ⟨hsilent, hbegun⟩ := (yields_prepare_of_ready hready hplan).of_perform hprepare
  have hplan' := hsilent.refusals_eq_nil hplan
  generalize hfs : host₁.files = fs₁ at hbegun
  cases hbegun with
  | unconfigured hcases =>
    rw [Yields, perform_withPaths_of_error hprepare]
    refine ⟨hplan', [], hsilent.prints_nil, ?_⟩
    rw [hfs]
    exact .unconfigured hcases
  | cramped hcases hfiled =>
    rw [Yields, perform_withPaths_of_error hprepare]
    refine ⟨hplan', [], hsilent.prints_nil, ?_⟩
    rw [hfs]
    exact .cramped hcases hfiled
  | begun hcases hfiled =>
    subst hfs
    obtain ⟨files, entry, mode, -, -, -, hfiles, hne, hthere, hentry⟩ := hfiled.exists_entry hready
    have hfile : host₁.files.node? entry = some (.file _ mode) :=
      hfiles ▸ FileSystem.node?_insert_self files _ hne
    have hreport := FileSystem.read_eq_ok_iff.2 ⟨entry, mode, hthere.find_eq hfile⟩
    obtain ⟨_, hparse⟩ := Cases.exists_parse_of_ofFile hcases
    have hpath := (hready.placeable hfiled.room_eq).congr hfiled.workingDirectory
    obtain ⟨hresult, hprints, hplan'', hdiffer, hfile', hread⟩ :=
      concludes_of_read hplan' hprepare hsilent hpath (Cases.firstBroken?_of_parse hparse) hreport
        hentry ⟨_, mode, hfile⟩
    rw [Yields, hresult]
    exact ⟨hplan'', _, hprints, .concluded hcases hfiled rfl hentry hdiffer hfile' hread⟩

end Run

end CaseReport
