import CaseReport.Fault
import CaseReport.Settings

/-!
# Locations

Where a run finds its configuration and puts its report. Each of the two paths comes from the first
of these that gives it: the command line, the settings, and the root of a workspace. The root is
taken from the environment first and from the settings second. A run also has one settings file,
and the environment says where.
-/

namespace CaseReport

/-- What the environment of a run says. -/
structure Environment where
  /-- The root of a workspace. -/
  workspace : Option String := none
  /-- The directory in which a workspace lies at a fixed place. -/
  goPath : Option String := none
  /-- The directory of all settings files. -/
  configHome : Option String := none
  /-- The home directory of the user. -/
  home : Option String := none
  /-- The home directory that the system has for the account of the user. -/
  accountHome : Option String := none
  /-- The filter on diagnostics. -/
  filter : Option String := none
  /-- Whether output has colours wherever it goes. -/
  colours : Option String := none
  /-- Whether output has no colours. -/
  noColours : Option String := none
  deriving Repr, DecidableEq

/-- The two paths that a run works with. -/
structure Locations where
  config : Path
  report : Path
  deriving Repr, DecidableEq

namespace Environment

/-- The place of a workspace below a directory of sources. -/
def workspaceBelow : Path := "src/github.com/IBM/ibm-csi-common"

/-- The root of the workspace that the environment names. Empty values name none. -/
def workspaceRoot? (env : Environment) : Option Path :=
  (env.workspace.filter (!·.isEmpty)).or
    ((env.goPath.filter (!·.isEmpty)).map fun directory => Path.join directory workspaceBelow)

/-- The home directory, for which the account is asked last. Empty values name none. -/
def homeDirectory? (env : Environment) : Option Path :=
  (env.home.filter (!·.isEmpty)).or (env.accountHome.filter (!·.isEmpty))

/-- The directory of all settings files; a user without a home directory has none. The one that is
named has to be absolute to count. -/
def configDirectory? (env : Environment) : Option Path :=
  env.homeDirectory?.map fun home =>
    (env.configHome.filter Path.isAbsolute).getD (Path.join home ".config")

/-- The settings file. -/
def settingsFile? (env : Environment) : Option Path :=
  env.configDirectory?.map fun directory =>
    Path.join (Path.join directory "e2e-report") "config.toml"

/-- Whether what a run prints has colours wherever it goes. -/
def coloursRuns (env : Environment) : Bool :=
  env.colours.any (· != "0")

/-- Whether the text about the command line has colours wherever it goes. Empty values count as
none, and asking for no colours comes first. -/
def coloursHelp (env : Environment) : Bool :=
  !env.noColours.any (!·.isEmpty) && env.colours.any (!·.isEmpty)

end Environment

namespace Locations

/-- The configuration of a workspace. -/
def defaultConfig (root : Path) : Path :=
  root.join "tests/e2e/conf/testcases.json"

/-- The report of a workspace. -/
def defaultReport (root : Path) : Path :=
  root.join "block-vpc-csi-driver-e2e.out"

/-- The paths of a run, of which the command line may give some and the environment may give the
root. -/
def resolve (config report : Option Path) (settings : Settings) (root : Option Path) :
    Except Fault Locations := do
  let root := root.or settings.workspace
  let some config := (config.or settings.config).or (root.map defaultConfig)
    | throw .noConfigPath
  let some report := (report.or settings.report).or (root.map defaultReport)
    | throw .noReportPath
  return ⟨config, report⟩

end Locations

end CaseReport
