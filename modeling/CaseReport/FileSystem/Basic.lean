import CaseReport.Lookup
import CaseReport.Path

/-!
# File systems

A file system assigns a node to some locations. A location is the chain of names that leads to it,
innermost name first; the root directory has the empty chain and is always there. The view of a
file system is `node?`: inserting and erasing change it at one location and nowhere else.
-/

namespace CaseReport

/-- A place in the tree of directories: its names, innermost first. -/
abbrev Location := List String

/-- What a location holds. A mode is the permission bits, at most `0o7777`. -/
inductive Node where
  | file (content : List UInt8) (mode : Nat)
  | directory (mode : Nat)
  | link (target : Path)
  deriving Repr, DecidableEq

/-- Whether a node is a directory. -/
def Node.isDirectory : Node → Bool
  | .directory _ => true
  | _ => false

/-- A tree of files, directories and symbolic links, as a process sees it. -/
structure FileSystem where
  nodes : List (Location × Node) := []
  /-- The directory that relative paths start from. -/
  workingDirectory : Location := []
  /-- The permission bits that nothing new gets. -/
  umask : Nat := 0o022
  deriving Repr, DecidableEq

namespace FileSystem

/-- The permission bits of something new, of those that are asked for. -/
def granted (fs : FileSystem) (mode : Nat) : Nat :=
  mode ^^^ (mode &&& fs.umask)

/-- The permission bits of a new file. -/
def newFileMode (fs : FileSystem) : Nat :=
  fs.granted 0o666

/-- The permission bits of a new directory. -/
def newDirectoryMode (fs : FileSystem) : Nat :=
  fs.granted 0o777

/-- The permission bits of the root directory. -/
def rootMode : Nat := 0o755

/-- What a location holds. -/
def node? (fs : FileSystem) : Location → Option Node
  | [] => some (.directory rootMode)
  | location => fs.nodes.lookup location

/-- Puts a node at a location, in place of what is there. -/
def insert (fs : FileSystem) (location : Location) (node : Node) : FileSystem :=
  { fs with nodes := (location, node) :: fs.nodes.filter fun entry => entry.1 != location }

/-- Takes away what is at a location. -/
def erase (fs : FileSystem) (location : Location) : FileSystem :=
  { fs with nodes := fs.nodes.filter fun entry => entry.1 != location }

/-- Takes away what is at a location and everything below it. -/
def eraseTree (fs : FileSystem) (location : Location) : FileSystem :=
  { fs with nodes := fs.nodes.filter fun entry => !location.isSuffixOf entry.1 }

@[simp] theorem node?_root (fs : FileSystem) : fs.node? [] = some (.directory rootMode) :=
  rfl

@[simp] theorem workingDirectory_insert (fs : FileSystem) (location : Location) (node : Node) :
    (fs.insert location node).workingDirectory = fs.workingDirectory := rfl

@[simp] theorem workingDirectory_erase (fs : FileSystem) (location : Location) :
    (fs.erase location).workingDirectory = fs.workingDirectory := rfl

@[simp] theorem umask_insert (fs : FileSystem) (location : Location) (node : Node) :
    (fs.insert location node).umask = fs.umask := rfl

@[simp] theorem umask_erase (fs : FileSystem) (location : Location) :
    (fs.erase location).umask = fs.umask := rfl

/-- What a new file may do depends on the process alone. -/
theorem newFileMode_congr {fs fs' : FileSystem} (h : fs'.umask = fs.umask) :
    fs'.newFileMode = fs.newFileMode := by
  rw [newFileMode, granted, h]
  rfl

theorem node?_insert_self (fs : FileSystem) {location : Location} (node : Node)
    (h : location ≠ []) : (fs.insert location node).node? location = some node := by
  cases location with
  | nil => exact absurd rfl h
  | cons name parent => simp [node?, insert]

theorem node?_insert_of_ne (fs : FileSystem) {a b : Location} (node : Node) (h : b ≠ a) :
    (fs.insert a node).node? b = fs.node? b := by
  cases b with
  | nil => rfl
  | cons name parent =>
    have hb : (name :: parent == a) = false := beq_eq_false_iff_ne.2 h
    simp only [node?, insert, List.lookup_cons, hb]
    exact lookup_filter_ne h

theorem node?_erase_self (fs : FileSystem) {location : Location} (h : location ≠ []) :
    (fs.erase location).node? location = none := by
  cases location with
  | nil => exact absurd rfl h
  | cons name parent => exact lookup_filter_self ..

theorem node?_erase_of_ne (fs : FileSystem) {a b : Location} (h : b ≠ a) :
    (fs.erase a).node? b = fs.node? b := by
  cases b with
  | nil => rfl
  | cons name parent => exact lookup_filter_ne h

theorem insert_insert (fs : FileSystem) (location : Location) (a b : Node) :
    (fs.insert location a).insert location b = fs.insert location b := by
  simp [insert]

theorem erase_insert (fs : FileSystem) (location : Location) (node : Node) :
    (fs.insert location node).erase location = fs.erase location := by
  simp [insert, erase]

/-- Nothing changes when what is erased is not there. -/
theorem erase_eq_self {fs : FileSystem} {location : Location} (h : fs.node? location = none) :
    fs.erase location = fs := by
  cases location with
  | nil => cases h
  | cons name parent =>
    have hnodes : (fs.nodes.filter fun entry => entry.1 != name :: parent) = fs.nodes := by
      rw [List.filter_eq_self]
      intro entry hentry
      have hne := List.lookup_eq_none_iff.1 h entry hentry
      rw [bne_iff_ne] at hne ⊢
      exact Ne.symm hne
    rw [erase, hnodes]

end FileSystem

end CaseReport
