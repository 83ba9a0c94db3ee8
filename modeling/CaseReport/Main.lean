import CaseReport.Program

/-!
# The command line

The program takes a picture of the files that it looks at, executes on the picture, and brings the
files up to date with what has changed in it.
-/

namespace CaseReport.CommandLine

/-- Adds what is at a location to a picture. Links are taken for what they lead to, and nothing has
other permissions than what is new. -/
def probe (files : FileSystem) (location : Location) : IO FileSystem := do
  try
    let content ← IO.FS.readBinFile (FileSystem.pathOf location)
    return files.insert location (.file content.toList files.newFileMode)
  catch
    | .inappropriateType .. =>
      return files.insert location (.directory files.newDirectoryMode)
    | _ => return files

/-- The locations that steps lead through, in order. -/
def locationsOn : Location → List Path.Step → List Location
  | _, [] => []
  | location, .stay :: steps => locationsOn location steps
  | location, .slash :: steps => locationsOn location steps
  | location, .up :: steps => locationsOn location.tail steps
  | location, .enter name :: steps => (name :: location) :: locationsOn (name :: location) steps

/-- Adds what a path leads through to a picture. -/
def addPath (files : FileSystem) (path : Path) : IO FileSystem :=
  (locationsOn (files.start path) path.steps).foldlM probe files

/-- A picture in which only the working directory can be seen. -/
def emptyPicture : IO FileSystem := do
  let directory := toString (← IO.currentDir)
  let location := (locationsOn [] (Path.steps directory)).getLastD []
  let files : FileSystem := { workingDirectory := location }
  addPath files directory

/-- Brings the files up to date with a picture that has changed. -/
def store (before after : FileSystem) : IO Unit :=
  after.nodes.reverse.forM fun (location, node) => do
    if before.node? location ≠ some node then
      match node with
      | .directory _ => IO.FS.createDirAll (FileSystem.pathOf location)
      | .file content _ => IO.FS.writeBinFile (FileSystem.pathOf location) ⟨content.toArray⟩
      | .link _ => return ()

/-- The environment of the process. The database of accounts is not asked for a home. -/
def environment : IO Environment := do
  return {
    workspace := ← IO.getEnv "E2E_REPORT_WORKSPACE"
    goPath := ← IO.getEnv "GOPATH"
    configHome := ← IO.getEnv "XDG_CONFIG_HOME"
    home := ← IO.getEnv "HOME"
    filter := ← IO.getEnv "RUST_LOG"
    colours := ← IO.getEnv "CLICOLOR_FORCE"
    noColours := ← IO.getEnv "NO_COLOR" }

/-- Executes the program on the command line of the process, and returns the exit code. -/
def execute (words : List String) : IO UInt32 := do
  let env ← environment
  let settings ← env.settingsFile?.toList.foldlM addPath (← emptyPicture)
  let files ← (Program.pathsOf env words settings).foldlM addPath settings
  let ending := Program.execute env words files
  store files ending.files
  IO.print (String.ofList ending.output)
  ending.messages.forM fun line => IO.eprintln (String.ofList line)
  return ending.exitCode.toUInt32

end CaseReport.CommandLine

def main (words : List String) : IO UInt32 :=
  CaseReport.CommandLine.execute words
