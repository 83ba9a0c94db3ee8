import CaseReport.FileSystem.Walk

/-!
# Requests to a file system

Each request is carried out as a whole or refused, and a refused one changes nothing. A replacement
for a file is prepared under a name that its directory does not have yet, and takes the place of the
file by being renamed.
-/

namespace CaseReport.FileSystem

open CaseReport.Path

/-- Whether a path leads to something. -/
def holds (fs : FileSystem) (path : Path) : Bool :=
  match fs.find path with
  | .ok _ => true
  | .error _ => false

/-- Whether a path leads to a directory. -/
def holdsDirectory (fs : FileSystem) (path : Path) : Bool :=
  match fs.find path with
  | .ok (_, node) => node.isDirectory
  | .error _ => false

/-- The content of the file that a path leads to. -/
def read (fs : FileSystem) (path : Path) : Except SystemFault (List UInt8) := do
  match ← fs.find path with
  | (_, .file content _) => .ok content
  | (_, .directory _) => .error .isDirectory
  | (_, .link _) => .error .tooManyLinks

/-- The permission bits of what a path leads to. A link has all of them. -/
def mode (fs : FileSystem) (path : Path) : Except SystemFault Nat := do
  match ← fs.find path with
  | (_, .file _ mode) => .ok mode
  | (_, .directory mode) => .ok mode
  | (_, .link _) => .ok 0o777

/-- Makes an empty file at a path, or empties the file that is there. -/
def create (fs : FileSystem) (path : Path) : Except SystemFault FileSystem := do
  let location ← fs.resolve .fill path
  match fs.node? location with
  | none => .ok (fs.insert location (.file [] fs.newFileMode))
  | some (.file _ mode) => .ok (fs.insert location (.file [] mode))
  | some (.directory _) => .error .isDirectory
  | some (.link _) => .error .tooManyLinks

/-- Makes an empty directory. -/
def makeDirectory (fs : FileSystem) (path : Path) : Except SystemFault FileSystem := do
  let location ← fs.resolveEntry .alreadyExists path
  match fs.node? location with
  | none => .ok (fs.insert location (.directory fs.newDirectoryMode))
  | some _ => .error .alreadyExists

/-- Replaces the content of a file at a location. -/
def setContent (fs : FileSystem) (location : Location) (content : List UInt8) :
    Except SystemFault FileSystem :=
  match fs.node? location with
  | some (.file _ mode) => .ok (fs.insert location (.file content mode))
  | some (.directory _) => .error .isDirectory
  | _ => .error .noEntry

/-- Replaces the permission bits of what is at a location. -/
def setMode (fs : FileSystem) (location : Location) (mode : Nat) : Except SystemFault FileSystem :=
  match fs.node? location with
  | some (.file content _) => .ok (fs.insert location (.file content mode))
  | some (.directory _) => .ok (fs.insert location (.directory mode))
  | _ => .error .noEntry

/-- How the name of a file that is being prepared starts. -/
def temporaryStem : String := ".tmp"

/-- The permission bits of a file that is being prepared. -/
def temporaryMode (fs : FileSystem) : Nat :=
  fs.granted 0o600

/-- The path of a file that is being prepared in a directory, from the root directory on. The `x`
stand for characters that are picked when the file is made. -/
def temporaryPath (fs : FileSystem) (directory : Path) : Path :=
  ((pathOf fs.workingDirectory).join directory).join (temporaryStem ++ "xxxxxx")

/-- The sum of the lengths of all names in use. -/
def nameLengths (fs : FileSystem) : Nat :=
  fs.nodes.foldr (fun entry total => (entry.1.headD "").length + total) 0

/-- A name that no location of the file system starts with: it is longer than all of them. -/
def freshName (fs : FileSystem) : String :=
  temporaryStem ++ String.ofList (List.replicate (fs.nameLengths + 6) 'x')

/-- Makes an empty file with a fresh name in a directory, and returns its location. -/
def createTemporary (fs : FileSystem) (directory : Path) :
    Except SystemFault (Location × FileSystem) := do
  admits (fs.temporaryPath directory)
  let (parent, node) ← fs.find directory
  if node.isDirectory then
    let location := fs.freshName :: parent
    .ok (location, fs.insert location (.file [] fs.temporaryMode))
  else .error .notDirectory

/-- Moves the file at a location to a path, in place of the file or link that is there. -/
def rename (fs : FileSystem) (source : Location) (path : Path) : Except SystemFault FileSystem := do
  let location ← fs.resolveEntry .busy path
  if path.endsInSlash then .error .notDirectory
  else
    match fs.node? source, fs.node? location with
    | none, _ => .error .noEntry
    | some _, some (.directory _) => .error .isDirectory
    | some node, _ => .ok ((fs.erase source).insert location node)

/-- Makes a symbolic link. -/
def makeLink (fs : FileSystem) (target path : Path) : Except SystemFault FileSystem := do
  let location ← fs.resolveEntry .alreadyExists path
  match fs.node? location with
  | none => .ok (fs.insert location (.link target))
  | some _ => .error .alreadyExists

/-- Takes away the entry that a path names, and everything below it. -/
def remove (fs : FileSystem) (path : Path) : Except SystemFault FileSystem := do
  let location ← fs.resolveEntry .busy path
  match fs.node? location with
  | none => .error .noEntry
  | some _ => .ok (fs.eraseTree location)

private theorem length_le_total {entries : List (Location × Node)} {entry : Location × Node}
    (h : entry ∈ entries) :
    (entry.1.headD "").length ≤
      entries.foldr (fun e total => (e.1.headD "").length + total) 0 := by
  induction entries with
  | nil => cases h
  | cons first entries ih =>
    rw [List.foldr_cons]
    cases h with
    | head => exact Nat.le_add_right ..
    | tail _ h => exact Nat.le_trans (ih h) (Nat.le_add_left ..)

/-- Nothing has a fresh name. -/
theorem node?_freshName (fs : FileSystem) (parent : Location) :
    fs.node? (fs.freshName :: parent) = none := by
  simp only [node?]
  rw [List.lookup_eq_none_iff]
  intro entry hentry
  rw [bne_iff_ne]
  intro heq
  have hle := length_le_total hentry
  rw [← heq] at hle
  simp [freshName, nameLengths, temporaryStem] at hle
  omega

end CaseReport.FileSystem
