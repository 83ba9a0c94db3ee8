import Mathlib.Control.Monad.Basic
import CaseReport.Program
import CaseReport.Proofs.Reconciliation.ClosedForm
import CaseReport.Proofs.Run.Precedence

/-!
# Where a run ends

A run goes through its stages in order: it loads the settings, settles the two paths, loads the
configuration, starts the report, reads the log and judges the cases. Any of these can end it. Up to
the configuration it only reads, and once it judges cases only a missing setup case counts: a
verdict that cannot be recorded ends nothing.
-/

namespace CaseReport

namespace Run

open Host Action ExecutionLog

/-- What can end a run before the report is started. -/
inductive EndsEarly (env : Environment) : Fault → Prop where
  | settingsUnreadable (path cause) (hpath : env.settingsFile? = some path) :
    EndsEarly env (.file (.unreadable path cause))
  | settingsInvalid : EndsEarly env .settingsInvalid
  | noConfigPath : EndsEarly env .noConfigPath
  | noReportPath : EndsEarly env .noReportPath
  | configUnreadable (path cause) : EndsEarly env (.configUnreadable path cause)
  | configInvalid (path fault) : EndsEarly env (.configInvalid path fault)

/-- The settings load, they and the options give both paths, and the configuration loads. The report
is about to be started, from this host. -/
inductive Configured (env : Environment) (config report : Option Path) (host : Host) :
    Locations → Cases → Host → Prop where
  | intro {settings host₁ locations cases host₂}
      (hsettings : (Settings.load env).perform host = (.ok settings, host₁))
      (hlocations : Locations.resolve config report settings env.workspaceRoot? = .ok locations)
      (hcases : (Cases.load locations.config).perform
        (host₁.tell [.pathsResolved locations.config locations.report]) = (.ok cases, host₂)) :
      Configured env config report host locations cases
        (host₂.tell (announcement locations cases))

variable {env : Environment} {config report : Option Path} {host host₁ host₂ host₃ : Host}
  {locations : Locations} {cases : Cases} {started : Report} {path : Path} {log : ExecutionLog}
  {fault : FileFault}

theorem perform_withOptions_of_error {fault : Fault}
    (hsettings : (Settings.load env).perform host = (.error fault, host₁)) :
    (withOptions env config report path).perform host = (.error fault, host₁) := by
  rw [withOptions, perform_bind, hsettings]

theorem endsEarly_of_resolve {settings : Settings} {root : Option Path} {fault : Fault}
    (h : Locations.resolve config report settings root = .error fault) : EndsEarly env fault := by
  rw [Locations.resolve_eq] at h
  split at h
  · cases h
    exact .noConfigPath
  · cases h
    exact .noReportPath
  · cases h

/-- A run that does not come to start its report has only read. -/
theorem configured_or_endsEarly (env : Environment) (config report : Option Path) (path : Path)
    (host : Host) :
    (∃ locations cases host₁, Configured env config report host locations cases host₁) ∨
      ∃ fault host', (withOptions env config report path).perform host = (.error fault, host') ∧
        EndsEarly env fault ∧ host'.files = host.files ∧ host'.printed = host.printed := by
  -- The stages before the report only read, so whichever of them fails has changed nothing.
  rcases hsettings : (Settings.load env).perform host with ⟨fault | settings, host₁⟩
  · have hanswered := (Settings.reads_load env).of_perform hsettings
    have hearly : EndsEarly env fault :=
      (Settings.failsOnly_load .settingsUnreadable .settingsInvalid).allows hsettings
    exact .inr ⟨fault, host₁, perform_withOptions_of_error hsettings, hearly, hanswered.files,
      hanswered.silently.printed⟩
  · have hanswered := (Settings.reads_load env).of_perform hsettings
    have hrun := perform_withOptions config report path hsettings
    cases hlocations : Locations.resolve config report settings env.workspaceRoot? with
    | error fault =>
      rw [hlocations] at hrun
      exact .inr ⟨fault, host₁, hrun, endsEarly_of_resolve hlocations, hanswered.files,
        hanswered.silently.printed⟩
    | ok locations =>
      rw [hlocations] at hrun
      rcases hcases : (Cases.load locations.config).perform
        (host₁.tell [.pathsResolved locations.config locations.report]) with ⟨fault | cases, host₂⟩
      · have hanswered' := (Cases.reads_load locations.config).of_perform hcases
        have hearly : EndsEarly env fault :=
          (Cases.failsOnly_load (.configUnreadable _) (.configInvalid _)).allows hcases
        have hprepare : (prepare locations).perform
            (host₁.tell [.pathsResolved locations.config locations.report]) =
              (.error fault, host₂) := by rw [prepare, perform_bind, hcases]
        refine .inr ⟨fault, host₂, hrun.trans (perform_withPaths_of_error hprepare), hearly, ?_, ?_⟩
        · exact hanswered'.files.trans hanswered.files
        · exact hanswered'.silently.printed.trans hanswered.silently.printed
      · exact .inl ⟨locations, cases, _, .intro hsettings hlocations hcases⟩

namespace Configured

theorem files_eq (h : Configured env config report host locations cases host₁) :
    host₁.files = host.files := by
  cases h with
  | intro hsettings _ hcases =>
    have hanswered := (Settings.reads_load env).of_perform hsettings
    have hanswered' := (Cases.reads_load locations.config).of_perform hcases
    exact hanswered'.files.trans hanswered.files

/-- The run goes on by starting the report. -/
theorem exists_prepare (h : Configured env config report host locations cases host₁)
    (path : Path) : ∃ host₀,
      (withOptions env config report path).perform host =
        (withPaths locations path).perform host₀ ∧
      (prepare locations).perform host₀ =
        match (Report.start locations.report cases).perform host₁ with
        | (.ok _, host₂) => (.ok cases, host₂)
        | (.error fault, host₂) => (.error (.file fault), host₂) := by
  cases h with
  | intro hsettings hlocations hcases =>
    have hrun := perform_withOptions config report path hsettings
    rw [hlocations] at hrun
    exact ⟨_, hrun, perform_prepare hcases⟩

theorem perform_of_start_error (h : Configured env config report host locations cases host₁)
    (hstart : (Report.start locations.report cases).perform host₁ = (.error fault, host₂)) :
    (withOptions env config report path).perform host = (.error (.file fault), host₂) := by
  obtain ⟨host₀, hrun, hprepare⟩ := h.exists_prepare path
  rw [hstart] at hprepare
  exact hrun.trans (perform_withPaths_of_error hprepare)

theorem perform_of_log_error (h : Configured env config report host locations cases host₁)
    (hstart : (Report.start locations.report cases).perform host₁ = (.ok started, host₂))
    (hload : (ExecutionLog.load path).perform host₂ = (.error fault, host₃)) :
    (withOptions env config report path).perform host = (.error (.file fault), host₃) := by
  obtain ⟨host₀, hrun, hprepare⟩ := h.exists_prepare path
  rw [hstart] at hprepare
  have hreconcile : (Reconciliation.reconcile cases locations.report path).perform host₂ =
      (.error fault, host₃) := by rw [Reconciliation.reconcile, perform_bind, hload]
  exact hrun.trans (perform_withPaths_of_unread hprepare hreconcile)

/-- With a log the setup cases alone decide how the run ends. -/
theorem perform_of_log_ok (h : Configured env config report host locations cases host₁)
    (hstart : (Report.start locations.report cases).perform host₁ = (.ok started, host₂))
    (hload : (ExecutionLog.load path).perform host₂ = (.ok log, host₃)) :
    ((withOptions env config report path).perform host).1 =
      match log.missing? cases.setup with
      | some identifier => .error (.setupMissing identifier)
      | none => .ok () := by
  obtain ⟨host₀, hrun, hprepare⟩ := h.exists_prepare path
  rw [hstart] at hprepare
  obtain ⟨outcome, host₄, hreconcile, hmissing, -⟩ :=
    Reconciliation.perform_reconcile cases locations.report hload
  obtain ⟨host', hend, -, -⟩ := perform_withPaths hprepare hreconcile
  rw [hrun, hend]
  cases hfirst : log.missing? cases.setup with
  | some identifier => simp [Outcome.verdict, hmissing, hfirst]
  | none => simp [Outcome.verdict, hmissing, hfirst]

/-- A report that was started, and that nothing has been written to since. -/
theorem replaced_of_start (h : Configured env config report host locations cases host₁)
    (hstart : (Report.start locations.report cases).perform host₁ = (.ok started, host₂)) :
    ∃ files, host.files.IsPartOf files ∧
      Report.Replaced files locations.report (Report.ofCases cases).content host₂.files := by
  obtain ⟨-, hstarted⟩ := Report.yields_start.of_perform hstart
  rw [h.files_eq] at hstarted
  cases hstarted with
  | started hpart hreplaced => exact ⟨_, hpart, hreplaced⟩

end Configured

/-- Where a run ends, and in what. -/
inductive Ended (env : Environment) (config report : Option Path) (path : Path) (host : Host) :
    Except Fault Unit → Host → Prop where
  /-- The report was not about to be started yet, and the run has only read. -/
  | early {fault host'} (hearly : EndsEarly env fault) (hfiles : host'.files = host.files)
      (hprinted : host'.printed = host.printed) :
      Ended env config report path host (.error fault) host'
  | unstarted {locations cases host₁ fault host'}
      (hconfigured : Configured env config report host locations cases host₁)
      (hstart : (Report.start locations.report cases).perform host₁ = (.error fault, host')) :
      Ended env config report path host (.error (.file fault)) host'
  | unread {locations cases host₁ started host₂ fault host'}
      (hconfigured : Configured env config report host locations cases host₁)
      (hstart : (Report.start locations.report cases).perform host₁ = (.ok started, host₂))
      (hload : (ExecutionLog.load path).perform host₂ = (.error fault, host')) :
      Ended env config report path host (.error (.file fault)) host'
  | aborted {locations cases host₁ started host₂ log host₃ identifier host'}
      (hconfigured : Configured env config report host locations cases host₁)
      (hstart : (Report.start locations.report cases).perform host₁ = (.ok started, host₂))
      (hload : (ExecutionLog.load path).perform host₂ = (.ok log, host₃))
      (hmissing : log.missing? cases.setup = some identifier) :
      Ended env config report path host (.error (.setupMissing identifier)) host'
  | finished {locations cases host₁ started host₂ log host₃ host'}
      (hconfigured : Configured env config report host locations cases host₁)
      (hstart : (Report.start locations.report cases).perform host₁ = (.ok started, host₂))
      (hload : (ExecutionLog.load path).perform host₂ = (.ok log, host₃))
      (hfound : ∀ identifier ∈ cases.setup, log.mentions identifier = true) :
      Ended env config report path host (.ok ()) host'

theorem yields_withOptions : (withOptions env config report path).Yields host
    (Ended env config report path host) := by
  rcases configured_or_endsEarly env config report path host with
    ⟨locations, cases, host₁, hconfigured⟩ | ⟨fault, host', hrun, hearly, hfiles, hprinted⟩
  · -- Each stage is performed from the host that the one before it has left.
    rcases hstart : (Report.start locations.report cases).perform host₁ with
      ⟨fault | started, host₂⟩
    · rw [Yields, hconfigured.perform_of_start_error hstart]
      exact .unstarted hconfigured hstart
    · rcases hload : (ExecutionLog.load path).perform host₂ with ⟨fault | log, host₃⟩
      · rw [Yields, hconfigured.perform_of_log_error hstart hload]
        exact .unread hconfigured hstart hload
      · rw [Yields, hconfigured.perform_of_log_ok hstart hload]
        cases hmissing : log.missing? cases.setup with
        | some identifier => exact .aborted hconfigured hstart hload hmissing
        | none => exact .finished hconfigured hstart hload (missing?_eq_none_iff.1 hmissing)
  · rw [Yields, hrun]
    exact .early hearly hfiles hprinted

/-- A run ends well exactly if it comes to judge cases and finds every setup case. -/
theorem withOptions_eq_ok_iff :
    ((withOptions env config report path).perform host).1 = .ok () ↔
      ∃ locations cases host₁ started host₂ log host₃,
        Configured env config report host locations cases host₁ ∧
        (Report.start locations.report cases).perform host₁ = (.ok started, host₂) ∧
        (ExecutionLog.load path).perform host₂ = (.ok log, host₃) ∧
        ∀ identifier ∈ cases.setup, log.mentions identifier = true := by
  constructor
  · intro hok
    have hended : Ended env config report path host _ _ := yields_withOptions
    rw [hok] at hended
    cases hended with
    | finished hconfigured hstart hload hfound =>
      exact ⟨_, _, _, _, _, _, _, hconfigured, hstart, hload, hfound⟩
  · rintro ⟨locations, cases, host₁, started, host₂, log, host₃, hconfigured, hstart, hload, hfound⟩
    rw [hconfigured.perform_of_log_ok hstart hload, missing?_eq_none_iff.2 hfound]

/-- What a run cannot end in: what is wrong with a report that is read back, or with a verdict that
is recorded. And a fault that is neither a file's nor a missing setup case's comes early. -/
theorem Ended.of_error {fault : Fault} {host' : Host}
    (h : Ended env config report path host (.error fault) host') :
    (∀ line, fault ≠ .file (.malformed line)) ∧ (∀ update, fault ≠ .update update) ∧
      ((∃ inner, fault = .file inner) ∨ (∃ identifier, fault = .setupMissing identifier) ∨
        host'.files = host.files ∧ host'.printed = host.printed) := by
  cases h with
  | early hearly hfiles hprinted =>
    refine ⟨?_, ?_, .inr (.inr ⟨hfiles, hprinted⟩)⟩
    · rintro line rfl
      cases hearly
    · rintro update rfl
      cases hearly
  | unstarted hconfigured hstart =>
    obtain ⟨cause, rfl⟩ := Report.failsOnly_start.allows hstart
    exact ⟨nofun, nofun, .inl ⟨_, rfl⟩⟩
  | unread hconfigured hstart hload =>
    obtain ⟨cause, rfl⟩ := ExecutionLog.failsOnly_load.allows hload
    exact ⟨nofun, nofun, .inl ⟨_, rfl⟩⟩
  | aborted => exact ⟨nofun, nofun, .inr (.inl ⟨_, rfl⟩)⟩

end Run

namespace Program

open Host Action Run

/-- What a run ends in is decided by its stages in turn. It ends well exactly if the settings, the
paths and the configuration are there, the report is started, the log is read and every setup case
is in it; so neither a missing end-to-end case nor a verdict that cannot be recorded matters. As
long as the report is not about to be started nothing is changed and nothing is printed. Without a
log the report is left as it was started. The exit code tells whether the run has ended well. -/
theorem runWith_ends_by_stage (env : Environment) (arguments : Arguments) (host : Host) :
    ((runWith env arguments).Yields host fun result host' =>
      (∀ fault, result = .error fault →
        (∀ line, fault ≠ .file (.malformed line)) ∧ (∀ update, fault ≠ .update update) ∧
        ((∃ inner, fault = .file inner) ∨ (∃ identifier, fault = .setupMissing identifier) ∨
          host'.files = host.files ∧ host'.printed = host.printed)) ∧
      (result = .ok () ↔ ∃ locations cases host₁ started host₂ log host₃,
        Configured env arguments.config arguments.report host locations cases host₁ ∧
        (Report.start locations.report cases).perform host₁ = (.ok started, host₂) ∧
        (ExecutionLog.load arguments.log).perform host₂ = (.ok log, host₃) ∧
        ∀ identifier ∈ cases.setup, log.mentions identifier = true) ∧
      ((∀ locations cases host₁,
          ¬Configured env arguments.config arguments.report host locations cases host₁) →
        (∃ fault, result = .error fault ∧ EndsEarly env fault) ∧
        host'.files = host.files ∧ host'.printed = host.printed) ∧
      (∀ locations cases host₁ started host₂ log host₃,
        Configured env arguments.config arguments.report host locations cases host₁ →
        (Report.start locations.report cases).perform host₁ = (.ok started, host₂) →
        (ExecutionLog.load arguments.log).perform host₂ = (.ok log, host₃) →
          result = match log.missing? cases.setup with
            | some identifier => .error (.setupMissing identifier)
            | none => .ok ()) ∧
      ∀ locations cases host₁ started host₂ fault host₃,
        Configured env arguments.config arguments.report host locations cases host₁ →
        (Report.start locations.report cases).perform host₁ = (.ok started, host₂) →
        (ExecutionLog.load arguments.log).perform host₂ = (.error fault, host₃) →
          (∃ cause, result = .error (.file (.unreadable arguments.log cause))) ∧
          (∃ files, host.files.IsPartOf files ∧ Report.Replaced files locations.report
            (Report.ofCases cases).content host'.files) ∧
          ∀ bytes, host'.files.read locations.report = .ok bytes →
            bytes = (Report.ofCases cases).content) ∧
    ∀ words files, Arguments.parse words = .ok (.run arguments) →
      (execute env words files).exitCode =
        match ((runWith env arguments).perform { files }).1 with
        | .ok () => 0
        | .error _ => 1 := by
  refine ⟨⟨?_, withOptions_eq_ok_iff, ?_, ?_, ?_⟩, ?_⟩
  · intro fault hfault
    have hended : Ended env arguments.config arguments.report arguments.log host _ _ :=
      yields_withOptions
    rw [← runWith, hfault] at hended
    exact hended.of_error
  · intro hnone
    rcases configured_or_endsEarly env arguments.config arguments.report arguments.log host with
      ⟨locations, cases, host₁, hconfigured⟩ | ⟨fault, host', hrun, hearly, hfiles, hprinted⟩
    · exact absurd hconfigured (hnone locations cases host₁)
    · rw [runWith, hrun]
      exact ⟨⟨fault, rfl, hearly⟩, hfiles, hprinted⟩
  · intro locations cases host₁ started host₂ log host₃ hconfigured hstart hload
    exact hconfigured.perform_of_log_ok hstart hload
  · intro locations cases host₁ started host₂ fault host₃ hconfigured hstart hload
    obtain ⟨files, hpart, hreplaced⟩ := hconfigured.replaced_of_start hstart
    obtain ⟨cause, rfl⟩ := ExecutionLog.failsOnly_load.allows hload
    rw [← ((ExecutionLog.reads_load arguments.log).of_perform hload).files] at hreplaced
    rw [runWith, hconfigured.perform_of_log_error hstart hload]
    exact ⟨⟨_, rfl⟩, ⟨files, hpart, hreplaced⟩, fun bytes hread => hreplaced.eq_of_read hread⟩
  · intro words files hwords
    rw [execute, hwords]
    dsimp only
    cases ((runWith env arguments).perform { files }).1 <;> rfl

/-- The host of two cases, with a plan that refuses to put the first update in its place. -/
def unrecordedVerdict : Host :=
  { Reconciliation.twoCases with refusals := List.replicate 14 none ++ [some .noSpace] }

/-- The verdict on the setup case is not recorded and the other case is missing, and yet the run
ends well. -/
theorem runWith_unrecordedVerdict :
    ∃ host', (runWith {} ⟨"log", some "config", some "report"⟩).perform unrecordedVerdict =
        (.ok (), host') ∧
      host'.files.read "report" =
        .ok (Text.Utf8.encode "x: PASS: NA\nb: FAIL\n".toList) := by
  have hconfigured : Configured {} (some "config") (some "report") unrecordedVerdict
      ⟨"config", "report"⟩ ⟨["x: PASS"], ["b"]⟩ _ :=
    .intro rfl rfl (Prod.ext (by decide +kernel) rfl)
  have hfound : ∀ identifier ∈ ["x: PASS"],
      (ExecutionLog.ofBytes Reconciliation.brokenLog).mentions identifier = true := by
    decide +kernel
  obtain ⟨⟨-, hok, -⟩, -⟩ :=
    runWith_ends_by_stage {} ⟨"log", some "config", some "report"⟩ unrecordedVerdict
  refine ⟨_, Prod.ext (hok.2 ⟨_, _, _, Report.ofCases ⟨["x: PASS"], ["b"]⟩, _, _, _, hconfigured,
    Prod.ext ?_ rfl, Prod.ext ?_ rfl, hfound⟩) rfl, ?_⟩
  · decide +kernel
  · decide +kernel
  · decide +kernel

end Program

end CaseReport
