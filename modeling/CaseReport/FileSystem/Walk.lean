import CaseReport.FileSystem.Basic
import CaseReport.FileSystem.Fault

/-!
# Finding the location of a path

A path is walked step by step. Every step needs a directory to be taken from; only the location
that the last step leads to may be vacant or hold something else. A symbolic link on the way is
replaced by the steps of its target, at most forty times, and so is one at the end when links are
followed.
-/

namespace CaseReport.FileSystem

open CaseReport.Path

/-- The most bytes a name may have. -/
def maxNameSize : Nat := 255

/-- A path must have fewer bytes than this. -/
def pathSizeLimit : Nat := 4096

/-- The most links that one path may lead through. -/
def maxLinks : Nat := 40

/-- What a request does at the last step of a path. -/
inductive LastStep where
  /-- A link is followed. -/
  | follow
  /-- A link stands for itself. -/
  | keep
  /-- A link is followed and a vacant location is filled, but not with a directory, as a slash
  behind the name would want. -/
  | fill
  deriving Repr, DecidableEq

/-- Walks from a location. At a link that has to be followed, `onLink` goes on from where its target
starts, with the steps of the target and those that are left. -/
def walkUntilLink (fs : FileSystem) (last : LastStep)
    (onLink : Location → List Step → Except SystemFault Location) :
    Location → List Step → Except SystemFault Location
  | location, [] => .ok location
  | location, step :: steps =>
    match fs.node? location with
    | none => .error .noEntry
    | some (.file ..) => .error .notDirectory
    | some (.link _) => .error .notDirectory
    | some (.directory _) =>
      match step with
      | .stay => walkUntilLink fs last onLink location steps
      | .slash => walkUntilLink fs last onLink location steps
      | .up => walkUntilLink fs last onLink location.tail steps
      | .enter name =>
        if last = .fill ∧ steps = [.slash] then .error .isDirectory
        else if maxNameSize < name.utf8ByteSize then .error .nameTooLong
        else
          match fs.node? (name :: location) with
          | some (.link target) =>
            if last = .keep ∧ steps = [] then .ok (name :: location)
            else onLink (if target.isAbsolute then [] else location) (target.steps ++ steps)
          | _ => walkUntilLink fs last onLink (name :: location) steps

/-- Walks from a location through at most the given number of links. -/
def walk (fs : FileSystem) (last : LastStep) :
    Nat → Location → List Step → Except SystemFault Location
  | 0 => fs.walkUntilLink last fun _ _ => .error .tooManyLinks
  | links + 1 => fs.walkUntilLink last (fs.walk last links)

/-- Whether the system takes a path at all. -/
def admits (path : Path) : Except SystemFault Unit :=
  if path.toList.contains '\x00' then .error .nulInName
  else if path.isEmpty then .error .noEntry
  else if pathSizeLimit ≤ path.utf8ByteSize then .error .nameTooLong
  else .ok ()

/-- The path of a location, from the root directory on. -/
def pathOf (location : Location) : Path :=
  "/" ++ "/".intercalate location.reverse

/-- Where a path starts. -/
def start (fs : FileSystem) (path : Path) : Location :=
  if path.isAbsolute then [] else fs.workingDirectory

/-- The location of a path, which may be vacant. -/
def resolve (fs : FileSystem) (last : LastStep) (path : Path) : Except SystemFault Location := do
  admits path
  fs.walk last maxLinks (fs.start path) path.steps

/-- What a path leads to. -/
def find (fs : FileSystem) (path : Path) : Except SystemFault (Location × Node) := do
  let location ← fs.resolve .follow path
  match fs.node? location with
  | none => .error .noEntry
  | some node => .ok (location, node)

/-- The location of the entry that the last step of a path names, without following a link there
and without minding a slash at the end. If the last step names no entry, the fault is
`unnamed`. -/
def resolveEntry (fs : FileSystem) (unnamed : SystemFault) (path : Path) :
    Except SystemFault Location := do
  admits path
  match path.innerSteps.getLast? with
  | some (.enter _) => fs.walk .keep maxLinks (fs.start path) path.innerSteps
  | _ =>
    let location ← fs.walk .follow maxLinks (fs.start path) path.innerSteps
    match fs.node? location with
    | none => .error .noEntry
    | some _ => .error unnamed

end CaseReport.FileSystem
