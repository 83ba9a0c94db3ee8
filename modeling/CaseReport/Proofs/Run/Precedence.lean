import Mathlib.Control.Monad.Basic
import CaseReport.Proofs.Run.Steps

/-!
# Where a run takes its paths from

The configuration and the report are looked for independently of each other, each in three sources,
and the first one that gives a path counts. The last source is the root of a workspace, for which
there are three sources again: the workspace that the environment names, the place below its
directory of sources, and the settings. A run goes on with the two paths, or it lacks one.
-/

namespace CaseReport

/-- The workspace that the environment names. -/
def Environment.namedRoot? (env : Environment) : Option Path :=
  env.workspace.filter (!·.isEmpty)

/-- The workspace at its place below the directory of sources. -/
def Environment.sourcesRoot? (env : Environment) : Option Path :=
  (env.goPath.filter (!·.isEmpty)).map fun directory => Path.join directory workspaceBelow

namespace Locations

/-- The path that the first of some sources gives. -/
def firstOf (sources : List (Option Path)) : Option Path :=
  sources.findSome? id

variable {config report root : Option Path} {settings : Settings}

@[simp] theorem firstOf_nil : firstOf [] = none := rfl

@[simp] theorem firstOf_cons (source : Option Path) (sources : List (Option Path)) :
    firstOf (source :: sources) = source.or (firstOf sources) := by
  cases source <;> rfl

/-- Exchanging two sources matters only if both give a path and none before them does. -/
theorem firstOf_ne_swap_iff {first second third : Option Path} :
    firstOf [first, second, third] ≠ firstOf [first, third, second] ↔
      first = none ∧ ∃ a b, second = some a ∧ third = some b ∧ a ≠ b := by
  cases first <;> cases second <;> cases third <;> simp

theorem workspaceRoot?_or (env : Environment) (workspace : Option Path) :
    env.workspaceRoot?.or workspace = firstOf [env.namedRoot?, env.sourcesRoot?, workspace] := by
  simp [Environment.workspaceRoot?, Environment.namedRoot?, Environment.sourcesRoot?,
    Option.or_assoc]

/-- The two paths are found apart from each other; if both are missing, the configuration is
missed. -/
theorem resolve_eq : resolve config report settings root =
    match firstOf [config, settings.config, (root.or settings.workspace).map defaultConfig],
      firstOf [report, settings.report, (root.or settings.workspace).map defaultReport] with
    | none, _ => .error .noConfigPath
    | some _, none => .error .noReportPath
    | some config, some report => .ok ⟨config, report⟩ := by
  simp only [firstOf_cons, firstOf_nil, Option.or_none, ← Option.or_assoc, resolve]
  cases (config.or settings.config).or ((root.or settings.workspace).map defaultConfig) with
  | none => rfl
  | some config =>
    cases (report.or settings.report).or ((root.or settings.workspace).map defaultReport) with
    | none => rfl
    | some report => rfl

end Locations

namespace Run

open Host Action Locations

variable {host host₁ : Host} {locations : Locations} {log : Path}

/-- What can end a run that has its paths. -/
inductive Ends (locations : Locations) : Fault → Prop where
  | configUnreadable (cause) : Ends locations (.configUnreadable locations.config cause)
  | configInvalid (fault) : Ends locations (.configInvalid locations.config fault)
  | file (fault) : Ends locations (.file fault)
  | setupMissing (identifier) : Ends locations (.setupMissing identifier)

/-- From any host the action ends in a result, or in a fault of a run that has its paths. -/
def EndsOnly {α : Type} (locations : Locations) (action : Action Fault α) : Prop :=
  action.FailsOnly (Ends locations)

theorem endsOnly_prepare : EndsOnly locations (prepare locations) := by
  rw [prepare]
  refine (Cases.failsOnly_load .configUnreadable .configInvalid).bind fun cases => ?_
  refine FailsOnly.bind (.of_ok fun _ => ⟨_, rfl⟩) fun _ => ?_
  have hstart : EndsOnly locations (do
      let _ ← ExceptT.adapt .file (Report.start locations.report cases)
      return cases : Action Fault Cases) :=
    (failsOnly_adapt .file).bind fun _ => .of_ok fun _ => ⟨_, rfl⟩
  split
  · exact FailsOnly.bind (.of_ok fun _ => ⟨_, rfl⟩) fun _ => hstart
  · exact hstart

/-- A run that has its paths does not end for the lack of one. -/
theorem endsOnly_withPaths : EndsOnly locations (withPaths locations log) := by
  rw [withPaths]
  refine FailsOnly.bind endsOnly_prepare fun cases => ?_
  refine (failsOnly_adapt .file).bind fun outcome => ?_
  refine FailsOnly.bind (.of_ok fun _ => ⟨_, rfl⟩) fun _ => ?_
  rintro host fault hfault
  change outcome.verdict = .error fault at hfault
  rw [Outcome.verdict] at hfault
  split at hfault
  · cases hfault
    exact .setupMissing _
  · cases hfault

theorem perform_withOptions {env : Environment} {settings : Settings}
    (config report : Option Path) (log : Path)
    (hsettings : (Settings.load env).perform host = (.ok settings, host₁)) :
    (withOptions env config report log).perform host =
      match resolve config report settings env.workspaceRoot? with
      | .error fault => (.error fault, host₁)
      | .ok locations => (withPaths locations log).perform { host₁ with
          diagnosed := host₁.diagnosed ++ [.pathsResolved locations.config locations.report] } := by
  rw [withOptions, perform_bind, hsettings]
  dsimp only
  cases resolve config report settings env.workspaceRoot? with
  | error fault => rfl
  | ok locations => rfl

/-- A run takes the configuration and the report from the first source that gives them, and fails
for the lack of a path exactly if one of them has no source. It takes the root of a workspace from
the directory of sources before it looks at the settings; the other way round would make a
difference exactly if both give one, no workspace is named, and the two are not the same. -/
theorem withOptions_takes_first {env : Environment} {settings : Settings}
    (config report : Option Path) (log : Path)
    (hsettings : (Settings.load env).perform host = (.ok settings, host₁)) :
    let root := firstOf [env.namedRoot?, env.sourcesRoot?, settings.workspace]
    let config? := firstOf [config, settings.config,
      root.map fun root => Path.join root "tests/e2e/conf/testcases.json"]
    let report? := firstOf [report, settings.report,
      root.map fun root => Path.join root "block-vpc-csi-driver-e2e.out"]
    (∀ config' report', config? = some config' → report? = some report' →
      (withOptions env config report log).perform host = (withPaths ⟨config', report'⟩ log).perform
        { host₁ with diagnosed := host₁.diagnosed ++ [.pathsResolved config' report'] }) ∧
    (((withOptions env config report log).perform host).1 = .error .noConfigPath ∨
        ((withOptions env config report log).perform host).1 = .error .noReportPath ↔
      config? = none ∨ report? = none) ∧
    (root ≠ firstOf [env.namedRoot?, settings.workspace, env.sourcesRoot?] ↔
      env.namedRoot? = none ∧ ∃ below workspace, env.sourcesRoot? = some below ∧
        settings.workspace = some workspace ∧ below ≠ workspace) := by
  intro root config? report?
  have hrun := perform_withOptions config report log hsettings
  have hconfig : firstOf [config, settings.config, root.map defaultConfig] = config? := rfl
  have hreport : firstOf [report, settings.report, root.map defaultReport] = report? := rfl
  rw [resolve_eq, workspaceRoot?_or, hconfig, hreport] at hrun
  rw [hrun]
  refine ⟨?_, ?_, firstOf_ne_swap_iff⟩
  · intro config' report' hconfig' hreport'
    rw [hconfig', hreport']
  · cases config? with
    | none => simp
    | some config' =>
      cases report? with
      | none => simp
      | some report' =>
        have hends : EndsOnly ⟨config', report'⟩ (withPaths ⟨config', report'⟩ log) :=
          endsOnly_withPaths
        constructor
        · rintro (hfault | hfault)
          · cases hends _ _ hfault
          · cases hends _ _ hfault
        · rintro (hnone | hnone)
          · cases hnone
          · cases hnone

/-- An environment with a directory of sources. -/
def sourcesOnly : Environment := { goPath := some "go", home := some "home" }

/-- A host with settings that give the root of a workspace. -/
def workspaceSettings : Host where
  files := { nodes := [
    (["home"], .directory 0o755),
    ([".config", "home"], .directory 0o755),
    (["e2e-report", ".config", "home"], .directory 0o755),
    (["config.toml", "e2e-report", ".config", "home"],
      .file (Text.Utf8.encode "[paths]\nworkspace = \"ws\"\n".toList) 0o644)] }

/-- Here the settings give the root of a workspace, and yet the run looks below the directory of
sources, where there is nothing. -/
theorem withOptions_passes_over_settings :
    ((withOptions sourcesOnly none none "log").perform workspaceSettings).1 =
      .error (.configUnreadable
        "go/src/github.com/IBM/ibm-csi-common/tests/e2e/conf/testcases.json" (.system .noEntry)) ∧
    firstOf [sourcesOnly.namedRoot?, sourcesOnly.sourcesRoot?, some "ws"] ≠
      firstOf [sourcesOnly.namedRoot?, some "ws", sourcesOnly.sourcesRoot?] := by
  have hsettings : (Settings.load sourcesOnly).perform workspaceSettings =
      (.ok { workspace := some "ws" },
        ((Settings.load sourcesOnly).perform workspaceSettings).2) :=
    perform_eq (by decide +kernel)
  obtain ⟨hrun, -, hroot⟩ := withOptions_takes_first none none "log" hsettings
  refine ⟨?_, hroot.2 ?_⟩
  · rw [hrun _ _ rfl rfl]
    decide +kernel
  · exact ⟨rfl, _, _, rfl, rfl, by decide⟩

end Run

end CaseReport
