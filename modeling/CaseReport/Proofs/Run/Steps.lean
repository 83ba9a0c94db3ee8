import CaseReport.Run
import CaseReport.Proofs.Reconciliation.Pass
import CaseReport.Proofs.Report.Starting

/-!
# The steps of a run

What the parts of a run around the reconciliation end in: the configuration is read, the report is
started, and at the end the summary only looks at the report.
-/

namespace CaseReport

open Host Action

variable {host : Host}

namespace Cases

/-- The expected cases in the file that a path leads to. -/
def ofFile (fs : FileSystem) (path : Path) : Except Fault Cases := do
  let text ← (fs.readText path).mapError (.configUnreadable path)
  match parse text with
  | .error fault => .error (.configInvalid path fault)
  | .ok cases => .ok cases

theorem exists_parse_of_ofFile {fs : FileSystem} {path : Path} {cases : Cases}
    (h : ofFile fs path = .ok cases) : ∃ text, parse text = .ok cases := by
  obtain ⟨text, -, hcases⟩ := mapError_bind_eq_ok_iff.1 h
  refine ⟨text, ?_⟩
  split at hcases
  · cases hcases
  · next hparse => rw [hparse, Except.ok.inj hcases]

theorem reads_load (path : Path) : (load path).Reads host (ofFile host.files path) := by
  rw [load, ofFile]
  refine Reads.bind (reads_readText path).adapt ?_
  intro text host' _
  cases parse text with
  | error fault => exact reads_throw
  | ok cases => exact reads_pure

theorem failsOnly_load {path : Path} {allowed : Fault → Prop}
    (hunreadable : ∀ cause, allowed (.configUnreadable path cause))
    (hinvalid : ∀ fault, allowed (.configInvalid path fault)) :
    (load path).FailsOnly allowed := by
  rw [load]
  refine (failsOnly_adapt hunreadable).bind fun text => ?_
  cases parse text with
  | error fault => exact failsOnly_throw (hinvalid fault)
  | ok cases => exact .of_ok fun _ => ⟨_, rfl⟩

end Cases

namespace Settings

/-- The settings in the file that a path leads to. -/
def ofFile (fs : FileSystem) (path : Path) : Except Fault Settings := do
  let text ← (fs.readText path).mapError fun cause => .file (.unreadable path cause)
  match parse? text with
  | none => .error .settingsInvalid
  | some settings => .ok settings

/-- The settings of an environment. -/
def ofFiles (env : Environment) (fs : FileSystem) : Except Fault Settings :=
  match env.settingsFile? with
  | none => .ok {}
  | some path => if fs.holds path then ofFile fs path else .ok {}

theorem reads_loadFrom (path : Path) : (loadFrom path).Reads host (ofFile host.files path) := by
  rw [loadFrom, ofFile]
  refine Reads.bind (reads_readText path).adapt ?_
  intro text host' _
  cases parse? text with
  | none => exact reads_throw
  | some settings => exact reads_pure

theorem reads_load (env : Environment) : (load env).Reads host (ofFiles env host.files) := by
  rw [load, ofFiles]
  cases env.settingsFile? with
  | none => exact reads_pure
  | some path =>
    refine yields_look_bind ?_
    dsimp only
    split
    · exact reads_loadFrom path
    · exact reads_pure

theorem failsOnly_load {env : Environment} {allowed : Fault → Prop}
    (hunreadable : ∀ path cause, env.settingsFile? = some path →
      allowed (.file (.unreadable path cause)))
    (hinvalid : allowed .settingsInvalid) : (load env).FailsOnly allowed := by
  rw [load]
  split
  · exact .of_ok fun _ => ⟨_, rfl⟩
  · next path hpath =>
    refine FailsOnly.bind (.of_ok fun _ => ⟨_, rfl⟩) fun present => ?_
    split
    · rw [loadFrom]
      refine (failsOnly_adapt fun cause => hunreadable path cause hpath).bind fun text => ?_
      cases parse? text with
      | none => exact failsOnly_throw hinvalid
      | some settings => exact .of_ok fun _ => ⟨_, rfl⟩
    · exact .of_ok fun _ => ⟨_, rfl⟩

end Settings

namespace Run

variable {locations : Locations} {log report : Path} {outcome : Outcome}

/-- What preparing a run ends in, and the files after it. -/
inductive Prepared (fs : FileSystem) (locations : Locations) :
    Except Fault Cases → FileSystem → Prop where
  | failed {fault fs'} (hpart : fs.IsPartOf fs') : Prepared fs locations (.error fault) fs'
  | prepared {cases files fs'} (hcases : Cases.ofFile fs locations.config = .ok cases)
      (hpart : fs.IsPartOf files)
      (hreplaced : Report.Replaced files locations.report (Report.ofCases cases).content fs') :
    Prepared fs locations (.ok cases) fs'

/-- What is told about the cases once they are read. -/
def announcement (locations : Locations) (cases : Cases) : List Diagnostic :=
  .casesLoaded cases.setup.length cases.e2e.length ::
    if cases.isEmpty then [.noCases locations.config] else []

/-- Once the configuration is read only the report is started. -/
theorem perform_prepare {host₁ : Host} {cases : Cases}
    (hcases : (Cases.load locations.config).perform host = (.ok cases, host₁)) :
    (prepare locations).perform host =
      match (Report.start locations.report cases).perform
        (host₁.tell (announcement locations cases)) with
      | (.ok _, host₂) => (.ok cases, host₂)
      | (.error fault, host₂) => (.error (.file fault), host₂) := by
  have hstart : ∀ host, perform (do
      let _ ← ExceptT.adapt .file (Report.start locations.report cases)
      return cases : Action Fault Cases) host =
        match (Report.start locations.report cases).perform host with
        | (.ok _, host₂) => (.ok cases, host₂)
        | (.error fault, host₂) => (.error (.file fault), host₂) := by
    intro host
    rw [perform_bind, perform_adapt]
    rcases (Report.start locations.report cases).perform host with ⟨_ | _, _⟩ <;> rfl
  rw [prepare, perform_bind, hcases]
  dsimp only
  rw [perform_bind, perform_diagnose, announcement]
  dsimp only
  cases cases.isEmpty with
  | false => exact hstart _
  | true =>
    rw [if_pos rfl, if_pos rfl, perform_bind, perform_diagnose]
    dsimp only
    rw [hstart]
    simp only [Host.tell, List.append_assoc, List.singleton_append]

theorem yields_prepare : (prepare locations).Yields host fun result host' =>
    host.Silently host' ∧ Prepared host.files locations result host'.files := by
  rcases hload : (Cases.load locations.config).perform host with ⟨fault | cases, host₁⟩
  · have hanswered := (Cases.reads_load locations.config).of_perform hload
    rw [Yields, prepare, perform_bind, hload]
    refine ⟨hanswered.silently, .failed ?_⟩
    dsimp only
    rw [hanswered.files]
    exact .refl _
  · have hanswered := (Cases.reads_load locations.config).of_perform hload
    rcases hstart : (Report.start locations.report cases).perform
      (host₁.tell (announcement locations cases)) with ⟨result, host₂⟩
    obtain ⟨hsilent, hstarted⟩ := Report.yields_start.of_perform hstart
    have hsilent' : host.Silently host₂ :=
      hanswered.silently.trans ⟨hsilent.printed, hsilent.onward⟩
    rw [files_tell, hanswered.files] at hstarted
    rw [Yields, perform_prepare hload, hstart]
    cases hstarted with
    | failed hpart => exact ⟨hsilent', .failed hpart⟩
    | started hpart hreplaced =>
      exact ⟨hsilent', .prepared (hanswered.sound cases rfl) hpart hreplaced⟩

theorem yields_printFaults {faults : List UpdateFault} :
    Work.Yields (faults.forM fun fault => print (faultLine fault)) host fun _ host' =>
      host.Onward host' ∧ host'.files = host.files := by
  induction faults generalizing host with
  | nil => exact ⟨.refl host, rfl⟩
  | cons fault faults ih => exact Work.yields_print_bind ih

/-- The summary changes no file. -/
theorem yields_summarize : (summarize report outcome).Yields host fun _ host' =>
    host.Onward host' ∧ host'.files = host.files := by
  rw [summarize]
  refine yields_printFaults.bind ?_
  rintro ⟨⟩ host₁ ⟨honward, hfiles⟩
  refine Work.Yields.bind (Work.yields_run (Report.reads_load report)) ?_
  intro result host₂ hanswered
  have honward' := honward.trans hanswered.silently.onward
  have hfiles' := hanswered.files.trans hfiles
  split
  · exact ⟨honward', hfiles'⟩
  · exact ⟨honward', hfiles'⟩

/-- A run that is prepared and reconciled ends in the verdict of the outcome. -/
theorem perform_withPaths {host₁ host₂ : Host} {cases : Cases}
    (hprepare : (prepare locations).perform host = (.ok cases, host₁))
    (hreconcile : (Reconciliation.reconcile cases locations.report log).perform host₁ =
      (.ok outcome, host₂)) :
    ∃ host', (withPaths locations log).perform host = (outcome.verdict, host') ∧
      host₂.Onward host' ∧ host'.files = host₂.files := by
  have hsummary : (summarize locations.report outcome).Yields host₂ _ := yields_summarize
  obtain ⟨honward, hfiles⟩ := hsummary
  refine ⟨_, ?_, honward, hfiles⟩
  rw [withPaths, perform_bind, hprepare]
  simp only [perform_bind, perform_adapt, hreconcile]
  rfl

/-- A run that cannot be prepared ends there. -/
theorem perform_withPaths_of_error {host₁ : Host} {fault : Fault}
    (hprepare : (prepare locations).perform host = (.error fault, host₁)) :
    (withPaths locations log).perform host = (.error fault, host₁) := by
  rw [withPaths, perform_bind, hprepare]

/-- A run that cannot read its log ends there. -/
theorem perform_withPaths_of_unread {host₁ host₂ : Host} {cases : Cases} {fault : FileFault}
    (hprepare : (prepare locations).perform host = (.ok cases, host₁))
    (hreconcile : (Reconciliation.reconcile cases locations.report log).perform host₁ =
      (.error fault, host₂)) :
    (withPaths locations log).perform host = (.error (.file fault), host₂) := by
  rw [withPaths, perform_bind, hprepare]
  simp only [perform_bind, perform_adapt, hreconcile]
  rfl

end Run

end CaseReport
