import CaseReport.Console
import CaseReport.Diagnostic
import CaseReport.FileSystem.Request
import CaseReport.Text.Utf8

/-!
# The host of a run

A run works on a host: it sends requests to the file system, prints lines and tells diagnostics. A
host carries a plan of refusals, one item for each request to come, so that a statement about a run
can speak of every way in which requests may be refused. A request that is refused by plan changes
no file. To look whether something is there is no request: it finds nothing where the file system
gives no answer, and no plan has a part in it. A host also keeps the files as they were after each
request, so that a statement can speak of every moment of a run.
-/

namespace CaseReport

/-- What a run works on. Lines and diagnostics are in the order in which they came. -/
structure Host where
  files : FileSystem
  /-- Which of the next requests are refused, and why; later ones are carried out. -/
  refusals : List (Option SystemFault) := []
  printed : List Console.Line := []
  diagnosed : List Diagnostic := []
  /-- The files after each request and after each other change, the latest last. -/
  history : List FileSystem := []
  deriving Repr, DecidableEq

/-- Work on a host that always ends. -/
abbrev Work := StateM Host

/-- Work on a host that ends in a result or in a fault. -/
abbrev Action (ε : Type) := ExceptT ε Work

/-- What an action ends in, and the host after it. -/
def Action.perform (action : Action ε α) (host : Host) : Except ε α × Host :=
  StateT.run (ExceptT.run action) host

namespace Host

/-- The host with these files from now on. -/
def settle (host : Host) (files : FileSystem) : Host :=
  { host with files, history := host.history ++ [files] }

/-- The host after one more request, with these files. -/
def served (host : Host) (files : FileSystem) : Host :=
  { host.settle files with refusals := host.refusals.tail }

/-- Sends a request to the file system. -/
def request (ask : FileSystem → Except SystemFault (α × FileSystem)) : Action SystemFault α :=
  ExceptT.mk fun host =>
    match host.refusals.head?.join with
    | some fault => (.error fault, host.served host.files)
    | none =>
      match ask host.files with
      | .error fault => (.error fault, host.served host.files)
      | .ok (answer, files) => (.ok answer, host.served files)

/-- Asks the file system for something. -/
def query (ask : FileSystem → Except SystemFault α) : Action SystemFault α :=
  request fun files => (ask files).map fun answer => (answer, files)

/-- Asks the file system to change. -/
def change (ask : FileSystem → Except SystemFault FileSystem) : Action SystemFault Unit :=
  request fun files => (ask files).map fun files => ((), files)

/-- Asks the system to take up what was written so far. -/
def flush : Action SystemFault Unit :=
  change .ok

/-- Reads the text of a file. -/
def readText (path : Path) : Action ReadCause (List Char) := do
  let content ← ExceptT.adapt .system (query fun files => files.read path)
  match Text.Utf8.decode? content with
  | none => throw .notUtf8
  | some text => return text

section

variable {m : Type → Type} [MonadStateOf Host m]

/-- Looks at the file system. -/
def look (view : FileSystem → α) : m α :=
  modifyGet fun host => (view host.files, host)

/-- Changes the file system in a way that cannot be refused. -/
def adjust (edit : FileSystem → FileSystem) : m Unit :=
  modify fun host => host.settle (edit host.files)

/-- Prints a line. -/
def print (line : Console.Line) : m Unit :=
  modify fun host => { host with printed := host.printed ++ [line] }

/-- Tells a diagnostic. -/
def diagnose (diagnostic : Diagnostic) : m Unit :=
  modify fun host => { host with diagnosed := host.diagnosed ++ [diagnostic] }

end

end Host

namespace Action

open Host

@[simp] theorem perform_pure (a : α) (host : Host) :
    perform (pure a : Action ε α) host = (.ok a, host) := rfl

@[simp] theorem perform_throw (fault : ε) (host : Host) :
    perform (throw fault : Action ε α) host = (.error fault, host) := rfl

theorem perform_bind (action : Action ε α) (next : α → Action ε β) (host : Host) :
    perform (action >>= next) host =
      match perform action host with
      | (.ok a, host) => perform (next a) host
      | (.error fault, host) => (.error fault, host) := by
  rcases hp : perform action host with ⟨_ | _, _⟩ <;>
  · simp only [perform] at hp
    simp only [perform, ExceptT.run_bind, StateT.run_bind, hp]
    rfl

theorem perform_tryCatch (action : Action ε α) (handle : ε → Action ε α) (host : Host) :
    perform (tryCatch action handle) host =
      match perform action host with
      | (.ok a, host) => (.ok a, host)
      | (.error fault, host) => perform (handle fault) host := by
  rcases hp : perform action host with ⟨_ | _, _⟩ <;>
  · simp only [perform, ExceptT.run] at hp
    simp only [perform, tryCatch, tryCatchThe, MonadExceptOf.tryCatch, ExceptT.tryCatch,
      ExceptT.run_mk, StateT.run_bind, hp]
    rfl

theorem perform_adapt (f : ε → ε') (action : Action ε α) (host : Host) :
    perform (ExceptT.adapt f action : Action ε' α) host =
      ((perform action host).1.mapError f, (perform action host).2) := by
  rfl

theorem perform_map (f : α → β) (action : Action ε α) (host : Host) :
    perform (f <$> action) host = ((perform action host).1.map f, (perform action host).2) := by
  rcases hp : perform action host with ⟨_ | _, _⟩ <;>
  · simp only [perform] at hp
    simp only [perform, ExceptT.run_map, StateT.run_map, hp]
    rfl

@[simp] theorem perform_look (view : FileSystem → α) (host : Host) :
    perform (look view : Action ε α) host = (.ok (view host.files), host) := rfl

@[simp] theorem perform_adjust (edit : FileSystem → FileSystem) (host : Host) :
    perform (adjust edit : Action ε Unit) host =
      (.ok (), host.settle (edit host.files)) := rfl

@[simp] theorem perform_print (line : Console.Line) (host : Host) :
    perform (print line : Action ε Unit) host =
      (.ok (), { host with printed := host.printed ++ [line] }) := rfl

@[simp] theorem perform_diagnose (d : Diagnostic) (host : Host) :
    perform (diagnose d : Action ε Unit) host =
      (.ok (), { host with diagnosed := host.diagnosed ++ [d] }) := rfl

@[simp] theorem perform_lift (work : Work α) (host : Host) :
    perform (liftM work : Action ε α) host = (.ok (work.run host).1, (work.run host).2) := rfl

theorem perform_request (ask : FileSystem → Except SystemFault (α × FileSystem)) (host : Host) :
    perform (request ask) host =
      match host.refusals.head?.join with
      | some fault => (.error fault, host.served host.files)
      | none =>
        match ask host.files with
        | .error fault => (.error fault, host.served host.files)
        | .ok (answer, files) => (.ok answer, host.served files) := by
  simp only [perform, request]
  rfl

end Action

end CaseReport
