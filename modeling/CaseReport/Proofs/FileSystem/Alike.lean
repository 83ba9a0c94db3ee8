import CaseReport.Proofs.FileSystem.Sharing

/-!
# File systems that differ in files only

A walk looks at directories and links. Where each of two file systems has a file they need not have
the same one, and still every path is walked in the same way, to the same place or to the same
fault. If one of them may even lack a file that the other one has, then at least what leads
somewhere leads there in both.
-/

namespace CaseReport.FileSystem

open Path

variable {fs fs' fs'' : FileSystem} {place other entry location : Location} {last : LastStep}
  {links : Nat} {steps : List Step} {content content' : List UInt8} {mode mode' : Nat}

/-- There is a file at a place. -/
def HasFile (fs : FileSystem) (place : Location) : Prop :=
  ∃ content mode, fs.node? place = some (.file content mode)

theorem HasFile.not_directory (h : fs.HasFile place) (m : Nat) :
    fs.node? place ≠ some (.directory m) := by
  obtain ⟨content, mode, hfile⟩ := h
  simp [hfile]

theorem HasFile.ne_nil (h : fs.HasFile place) : place ≠ [] := by
  rintro rfl
  exact h.not_directory _ (node?_root fs)

theorem hasFile_insert (hplace : place ≠ []) :
    (fs.insert place (.file content mode)).HasFile place :=
  ⟨content, mode, node?_insert_self fs _ hplace⟩

/-! ## The same files, with another content -/

/-- Two file systems that are the same but for what their files hold. -/
structure Alike (fs fs' : FileSystem) : Prop where
  workingDirectory : fs'.workingDirectory = fs.workingDirectory
  node? : ∀ location, fs'.node? location = fs.node? location ∨
    fs.HasFile location ∧ fs'.HasFile location

namespace Alike

theorem hasFile (h : fs.Alike fs') (hfile : fs.HasFile place) : fs'.HasFile place := by
  obtain ⟨content, mode, hnode⟩ := hfile
  rcases h.node? place with heq | ⟨-, hfile'⟩
  · exact ⟨content, mode, heq.trans hnode⟩
  · exact hfile'

theorem trans (h : fs.Alike fs') (h' : fs'.Alike fs'') : fs.Alike fs'' := by
  refine ⟨h'.workingDirectory.trans h.workingDirectory, ?_⟩
  intro location
  rcases h.node? location with heq | ⟨hfile, hfile'⟩
  · rcases h'.node? location with heq' | ⟨hfile', hfile''⟩
    · exact .inl (heq'.trans heq)
    · refine .inr ⟨?_, hfile''⟩
      rw [HasFile, ← heq]
      exact hfile'
  · exact .inr ⟨hfile, h'.hasFile hfile'⟩

theorem insert (h : fs.Alike fs') (hplace : place ≠ []) :
    (fs.insert place (.file content mode)).Alike (fs'.insert place (.file content' mode')) := by
  refine ⟨h.workingDirectory, ?_⟩
  intro location
  by_cases hlocation : location = place
  · subst hlocation
    exact .inr ⟨hasFile_insert hplace, hasFile_insert hplace⟩
  · simp only [HasFile, node?_insert_of_ne _ _ hlocation]
    exact h.node? location

theorem of_insert (h : fs.HasFile place) : fs.Alike (fs.insert place (.file content mode)) := by
  refine ⟨rfl, ?_⟩
  intro location
  by_cases hlocation : location = place
  · subst hlocation
    exact .inr ⟨h, hasFile_insert h.ne_nil⟩
  · exact .inl (node?_insert_of_ne _ _ hlocation)

private theorem walkUntilLink_eq (h : fs.Alike fs')
    {onLink onLink' : Location → List Step → Except SystemFault Location}
    (hlink : ∀ location steps, onLink' location steps = onLink location steps)
    (location : Location) (steps : List Step) :
    fs'.walkUntilLink last onLink' location steps =
      fs.walkUntilLink last onLink location steps := by
  induction steps generalizing location with
  | nil => rfl
  | cons step steps ih =>
    rw [walkUntilLink.eq_def, walkUntilLink.eq_def fs]
    dsimp only
    rcases h.node? location with heq | ⟨⟨c, m, hfile⟩, ⟨c', m', hfile'⟩⟩
    · rw [heq]
      rcases hnode : fs.node? location with _ | ⟨c, m⟩ | m | target <;> try rfl
      cases step with
      | stay => exact ih location
      | slash => exact ih location
      | up => exact ih location.tail
      | enter name =>
        dsimp only
        split
        · rfl
        · split
          · rfl
          · rcases h.node? (name :: location) with heq' | ⟨⟨c, m, hfile⟩, ⟨c', m', hfile'⟩⟩
            · rw [heq']
              simp only [hlink, ih]
            · rw [hfile, hfile']
              exact ih (name :: location)
    · rw [hfile, hfile']

theorem walk_eq (h : fs.Alike fs') (location : Location) (steps : List Step) :
    fs'.walk last links location steps = fs.walk last links location steps := by
  induction links generalizing location steps with
  | zero => exact h.walkUntilLink_eq (fun _ _ => rfl) location steps
  | succ links ih => exact h.walkUntilLink_eq ih location steps

theorem start_eq (h : fs.Alike fs') (path : Path) : fs'.start path = fs.start path := by
  rw [start, start, h.workingDirectory]

theorem resolve_eq (h : fs.Alike fs') (path : Path) :
    fs'.resolve last path = fs.resolve last path := by
  rw [resolve, resolve, h.start_eq]
  simp only [h.walk_eq]

theorem resolveEntry_eq (h : fs.Alike fs') {unnamed : SystemFault} (path : Path)
    (hentry : fs.resolveEntry unnamed path = .ok entry) :
    fs'.resolveEntry unnamed path = .ok entry := by
  rw [resolveEntry_eq_ok_iff] at hentry ⊢
  rw [h.start_eq, ← walk_eq_ok_iff, h.walk_eq, walk_eq_ok_iff]
  exact hentry

/-- A path is read alike if the file that it leads to has the same content. -/
theorem read_eq (h : fs.Alike fs') {path : Path}
    (hsame : ∀ location, fs.resolve .follow path = .ok location →
      fs'.node? location = fs.node? location ∨ ∃ content mode mode',
        fs.node? location = some (.file content mode) ∧
          fs'.node? location = some (.file content mode')) :
    fs'.read path = fs.read path := by
  rw [read, read, find, find, h.resolve_eq]
  cases hresolve : fs.resolve .follow path with
  | error fault => rfl
  | ok location =>
    rcases hsame location hresolve with heq | ⟨content, mode, mode', hnode, hnode'⟩
    · simp only [bind, Except.bind, heq]
    · simp only [bind, Except.bind, hnode, hnode']

end Alike

/-! ## A file that may be missing -/

/-- There is a file or nothing at a place. -/
def FileAtMost (fs : FileSystem) (place : Location) : Prop :=
  ∀ node, fs.node? place = some node → ∃ content mode, node = .file content mode

/-- Two file systems that differ in one file at most, which either may lack. -/
structure DifferAt (place : Location) (fs fs' : FileSystem) : Prop where
  workingDirectory : fs'.workingDirectory = fs.workingDirectory
  node? : ∀ location, location ≠ place → fs'.node? location = fs.node? location
  fileAtMost : fs.FileAtMost place
  fileAtMost' : fs'.FileAtMost place

theorem FileAtMost.not_directory (h : fs.FileAtMost place) (m : Nat) :
    fs.node? place ≠ some (.directory m) := by
  intro hnode
  obtain ⟨content, mode, hfile⟩ := h _ hnode
  cases hfile

theorem FileAtMost.not_link (h : fs.FileAtMost place) (target : Path) :
    fs.node? place ≠ some (.link target) := by
  intro hnode
  obtain ⟨content, mode, hfile⟩ := h _ hnode
  cases hfile

theorem FileAtMost.ne_nil (h : fs.FileAtMost place) : place ≠ [] := by
  rintro rfl
  exact h.not_directory _ (node?_root fs)

theorem HasFile.fileAtMost (h : fs.HasFile place) : fs.FileAtMost place := by
  obtain ⟨content, mode, hfile⟩ := h
  intro node hnode
  exact ⟨content, mode, Option.some.inj (hnode.symm.trans hfile)⟩

namespace DifferAt

theorem refl (h : fs.FileAtMost place) : DifferAt place fs fs :=
  ⟨rfl, fun _ _ => rfl, h, h⟩

theorem symm (h : DifferAt place fs fs') : DifferAt place fs' fs :=
  ⟨h.workingDirectory.symm, fun location hne => (h.node? location hne).symm, h.fileAtMost',
    h.fileAtMost⟩

theorem trans (h : DifferAt place fs fs') (h' : DifferAt place fs' fs'') :
    DifferAt place fs fs'' :=
  ⟨h'.workingDirectory.trans h.workingDirectory,
    fun location hne => (h'.node? location hne).trans (h.node? location hne), h.fileAtMost,
    h'.fileAtMost'⟩

theorem of_insert (h : fs.FileAtMost place) :
    DifferAt place fs (fs.insert place (.file content mode)) :=
  ⟨rfl, fun _ hne => node?_insert_of_ne _ _ hne, h, (hasFile_insert h.ne_nil).fileAtMost⟩

theorem erase_insert (hplace : place ≠ []) :
    DifferAt place (fs.erase place) (fs.insert place (.file content mode)) := by
  refine ⟨rfl, ?_, ?_, (hasFile_insert hplace).fileAtMost⟩
  · intro location hne
    rw [node?_insert_of_ne _ _ hne, node?_erase_of_ne _ hne]
  · intro node hnode
    cases (node?_erase_self fs hplace).symm.trans hnode

theorem erase (h : DifferAt place fs fs') (entry : Location) (hentry : entry ≠ []) :
    DifferAt place (fs.erase entry) (fs'.erase entry) := by
  have hatMost : ∀ {fs : FileSystem}, fs.FileAtMost place → (fs.erase entry).FileAtMost place :=
    fun hatMost node hnode => hatMost node ((isPartOf_erase hentry).node? hnode)
  refine ⟨h.workingDirectory, ?_, hatMost h.fileAtMost, hatMost h.fileAtMost'⟩
  intro location hne
  by_cases hlocation : location = entry
  · rw [hlocation, node?_erase_self _ hentry, node?_erase_self _ hentry]
  · rw [node?_erase_of_ne _ hlocation, node?_erase_of_ne _ hlocation]
    exact h.node? location hne

theorem alike (h : DifferAt place fs fs') (hfile : fs.HasFile place) (hfile' : fs'.HasFile place) :
    fs.Alike fs' := by
  refine ⟨h.workingDirectory, ?_⟩
  intro location
  by_cases hlocation : location = place
  · subst hlocation
    exact .inr ⟨hfile, hfile'⟩
  · exact .inl (h.node? location hlocation)

private theorem node?_of_ne_file (h : DifferAt place fs fs') {node : Node}
    (hnode : fs.node? location = some node) (hne : ∀ c m, node ≠ .file c m) :
    fs'.node? location = some node := by
  rw [h.node?]
  · exact hnode
  · rintro rfl
    obtain ⟨c, m, hfile⟩ := h.fileAtMost _ hnode
    exact hne c m hfile

/-- What leads somewhere does so whatever is in the file, and if there is none. -/
theorem leads (h : DifferAt place fs fs') (hleads : fs.Leads last links location steps other) :
    fs'.Leads last links location steps other := by
  induction hleads with
  | here => exact .here
  | stay hdir _ ih => exact .stay (h.node?_of_ne_file hdir (by simp)) ih
  | slash hdir _ ih => exact .slash (h.node?_of_ne_file hdir (by simp)) ih
  | up hdir _ ih => exact .up (h.node?_of_ne_file hdir (by simp)) ih
  | @enter _ location _ name _ _ hdir hfill hsize hnode _ ih =>
    refine .enter (h.node?_of_ne_file hdir (by simp)) hfill hsize ?_ ih
    by_cases hname : name :: location = place
    · rw [hname]
      exact h.fileAtMost'.not_link
    · rw [h.node? _ hname]
      exact hnode
  | keep hdir hlast hsize hnode =>
    exact .keep (h.node?_of_ne_file hdir (by simp)) hlast hsize
      (h.node?_of_ne_file hnode (by simp))
  | link hdir hfill hsize hlast hnode _ ih =>
    exact .link (h.node?_of_ne_file hdir (by simp)) hfill hsize hlast
      (h.node?_of_ne_file hnode (by simp)) ih

theorem resolve (h : DifferAt place fs fs') {path : Path}
    (hresolve : fs.resolve last path = .ok other) : fs'.resolve last path = .ok other := by
  rw [resolve_eq_ok_iff] at hresolve ⊢
  have hstart : fs'.start path = fs.start path := by rw [start, start, h.workingDirectory]
  rw [hstart]
  exact ⟨hresolve.1, h.leads hresolve.2⟩

theorem find (h : DifferAt place fs fs') {path : Path} {node : Node}
    (hfind : fs.find path = .ok (other, node)) (hne : other ≠ place) :
    fs'.find path = .ok (other, node) := by
  obtain ⟨hadmits, hleads, hnode⟩ := find_eq_ok_iff.1 hfind
  obtain ⟨-, hleads'⟩ := resolve_eq_ok_iff.1 (h.resolve (resolve_eq_ok_iff.2 ⟨hadmits, hleads⟩))
  exact find_eq_ok_iff.2 ⟨hadmits, hleads', (h.node? other hne).trans hnode⟩

theorem find_directory (h : DifferAt place fs fs') {path : Path} {mode : Nat}
    (hfind : fs.find path = .ok (other, .directory mode)) :
    fs'.find path = .ok (other, .directory mode) := by
  refine h.find hfind ?_
  rintro rfl
  exact h.fileAtMost.not_directory mode (find_eq_ok_iff.1 hfind).2.2

theorem find_directory_iff (h : DifferAt place fs fs') {path : Path} {mode : Nat} :
    fs.find path = .ok (other, .directory mode) ↔ fs'.find path = .ok (other, .directory mode) :=
  ⟨h.find_directory, h.symm.find_directory⟩

theorem resolveEntry (h : DifferAt place fs fs') {unnamed : SystemFault} {path : Path}
    (hentry : fs.resolveEntry unnamed path = .ok entry) :
    fs'.resolveEntry unnamed path = .ok entry := by
  rw [resolveEntry_eq_ok_iff] at hentry ⊢
  have hstart : fs'.start path = fs.start path := by rw [start, start, h.workingDirectory]
  rw [hstart]
  exact ⟨hentry.1, hentry.2.1, h.leads hentry.2.2⟩

end DifferAt

end CaseReport.FileSystem
