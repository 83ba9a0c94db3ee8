import CaseReport.Report.File
import CaseReport.Proofs.FileSystem.Directory
import CaseReport.Proofs.FileSystem.Sharing
import CaseReport.Proofs.Host.Yields

/-!
# Replacing a report

Writing a report either puts a file with the whole content and the old mode at the entry that the
path names, or leaves the files as they were, whichever requests are refused. The one exception is
the empty file that is made where nothing was. When nothing is refused by plan, a report that can
be found is replaced exactly when a temporary file can be made beside it.
-/

namespace CaseReport

namespace FileSystem

variable {fs fs' : FileSystem} {path : Path} {source entry place : Location} {mode : Nat}
  {content : List UInt8} {node : Node}

theorem createTemporary_eq_ok_iff :
    fs.createTemporary path = .ok (place, fs') ↔
      admits (fs.temporaryPath path) = .ok () ∧
        ∃ parent mode, fs.find path = .ok (parent, .directory mode) ∧
          place = fs.freshName :: parent ∧ fs' = fs.insert place (.file [] fs.temporaryMode) := by
  rw [createTemporary]
  cases admits (fs.temporaryPath path) with
  | error fault => simp [bind, Except.bind]
  | ok =>
    cases fs.find path with
    | error fault => simp [bind, Except.bind]
    | ok found =>
      obtain ⟨parent, node⟩ := found
      cases node with
      | directory mode =>
        simp only [bind, Except.bind, Node.isDirectory, if_true, Except.ok.injEq, Prod.mk.injEq]
        constructor
        · rintro ⟨rfl, rfl⟩
          exact ⟨trivial, parent, mode, ⟨rfl, rfl⟩, rfl, rfl⟩
        · rintro ⟨-, parent', mode', ⟨rfl, -⟩, rfl, rfl⟩
          exact ⟨rfl, rfl⟩
      | file content mode => simp [bind, Except.bind, Node.isDirectory]
      | link target => simp [bind, Except.bind, Node.isDirectory]

theorem setContent_insert (hplace : place ≠ []) (old content : List UInt8) (mode : Nat) :
    (fs.insert place (.file old mode)).setContent place content =
      .ok (fs.insert place (.file content mode)) := by
  simp [setContent, node?_insert_self _ _ hplace, insert_insert]

theorem setMode_insert (hplace : place ≠ []) (content : List UInt8) (old mode : Nat) :
    (fs.insert place (.file content old)).setMode place mode =
      .ok (fs.insert place (.file content mode)) := by
  simp [setMode, node?_insert_self _ _ hplace, insert_insert]

theorem find_of_mode (h : fs.mode path = .ok mode) :
    ∃ place node, fs.find path = .ok (place, node) := by
  rw [FileSystem.mode] at h
  cases hfind : fs.find path with
  | error fault =>
    rw [hfind] at h
    cases h
  | ok found => exact ⟨found.1, found.2, rfl⟩

theorem rename_eq_ok_iff (hsource : fs.node? source = some node) :
    fs.rename source path = .ok fs' ↔ path.endsInSlash = false ∧
      ∃ entry, fs.resolveEntry .busy path = .ok entry ∧
        (∀ m, fs.node? entry ≠ some (.directory m)) ∧
        fs' = (fs.erase source).insert entry node := by
  rw [rename]
  cases fs.resolveEntry .busy path with
  | error fault => simp [bind, Except.bind]
  | ok entry =>
    cases path.endsInSlash with
    | true => simp [bind, Except.bind]
    | false =>
      simp only [bind, Except.bind, hsource, Bool.false_eq_true, if_false, true_and,
        Except.ok.injEq, exists_eq_left']
      cases hentry : fs.node? entry with
      | none => simp [eq_comm]
      | some found => cases found <;> simp [eq_comm]

end FileSystem

namespace Report

open Host FileSystem Path Action

/-- What the system says of the path of a temporary file beside a report. -/
def room (fs : FileSystem) (path : Path) : Except WriteCause Unit :=
  (admits (fs.temporaryPath path.directory)).mapError
    (.temporary (fs.temporaryPath path.directory))

theorem room_eq_ok_iff {fs : FileSystem} {path : Path} :
    room fs path = .ok () ↔ admits (fs.temporaryPath path.directory) = .ok () := by
  rw [room]
  cases admits (fs.temporaryPath path.directory) with
  | error fault => exact ⟨nofun, nofun⟩
  | ok => exact ⟨fun _ => rfl, fun _ => rfl⟩

theorem exists_of_room_eq_error {fs : FileSystem} {path : Path} {cause : WriteCause}
    (h : room fs path = .error cause) : ∃ fault,
      admits (fs.temporaryPath path.directory) = .error fault ∧
        .temporary (fs.temporaryPath path.directory) fault = cause := by
  rw [room] at h
  cases hadmits : admits (fs.temporaryPath path.directory) with
  | error fault =>
    rw [hadmits] at h
    exact ⟨fault, rfl, Except.error.inj h⟩
  | ok =>
    rw [hadmits] at h
    cases h

theorem temporaryPath_congr {fs fs' : FileSystem}
    (h : fs'.workingDirectory = fs.workingDirectory) (directory : Path) :
    fs'.temporaryPath directory = fs.temporaryPath directory := by
  rw [temporaryPath, temporaryPath, h]

theorem room_congr {fs fs' : FileSystem} (h : fs'.workingDirectory = fs.workingDirectory)
    (path : Path) : room fs' path = room fs path := by
  rw [room, room, temporaryPath_congr h]

/-- A file can be put in the place of what a path names, as far as the text of the path goes. -/
structure Placeable (fs : FileSystem) (path : Path) : Prop where
  named : ∃ name, path.innerSteps.getLast? = some (.enter name)
  unslashed : path.endsInSlash = false
  room : room fs path = .ok ()

theorem Placeable.congr {fs fs' : FileSystem} {path : Path}
    (h : fs'.workingDirectory = fs.workingDirectory) (hpath : Placeable fs path) :
    Placeable fs' path :=
  ⟨hpath.named, hpath.unslashed, (room_congr h path).trans hpath.room⟩

/-- A file system in which a file with some content has taken the place of the entry that a path
names, and has the mode of what the path led to. -/
inductive Replaced (fs : FileSystem) (path : Path) (content : List UInt8) : FileSystem → Prop where
  | intro {place node mode entry} (placeable : Placeable fs path)
      (found : fs.find path = .ok (place, node)) (moded : fs.mode path = .ok mode)
      (entered : fs.resolveEntry .busy path = .ok entry)
      (unoccupied : ∀ m, fs.node? entry ≠ some (.directory m)) :
      Replaced fs path content (fs.insert entry (.file content mode))

variable {path place : Path} {content : List UInt8} {host : Host} {files : FileSystem}

/-- Until it is renamed, only the temporary file is changed. -/
private theorem yields_replace {temporary : Location} {bytes : List UInt8} {old mode : Nat}
    (htemporary : host.files.node? temporary = some (.file bytes old)) :
    (replace path place temporary content mode).Yields host fun result host' =>
      host.Silently host' ∧
        match result with
        | .error _ => host'.files.erase temporary = host.files.erase temporary ∧
          (host.refusals = [] → ∃ fault,
            (host.files.insert temporary (.file content mode)).rename temporary path =
              .error fault)
        | .ok () => (host.files.insert temporary (.file content mode)).rename temporary path =
            .ok host'.files := by
  have hne : temporary ≠ [] := by
    rintro rfl
    cases htemporary
  have hcontent : host.files.setContent temporary content =
      .ok (host.files.insert temporary (.file content old)) := by
    simp [setContent, htemporary]
  have hmode : (host.files.insert temporary (.file content old)).setMode temporary mode =
      .ok (host.files.insert temporary (.file content mode)) := setMode_insert hne content old mode
  have hsilent := Silently.refl host
  rw [replace]
  refine yields_change_bind ?_ ?_
  · intro fault hask
    refine ⟨hsilent.served _, rfl, ?_⟩
    intro hplan
    cases hcontent.symm.trans (hask hplan)
  intro files hask
  obtain rfl := Except.ok.inj (hcontent.symm.trans hask)
  refine yields_change_bind ?_ ?_
  · intro fault hask
    refine ⟨(hsilent.served _).served _, erase_insert .., ?_⟩
    intro hplan
    cases hask (by simp [hplan])
  intro files hask
  obtain rfl := Except.ok.inj hask
  refine yields_change_bind ?_ ?_
  · intro fault hask
    refine ⟨((hsilent.served _).served _).served _, erase_insert .., ?_⟩
    intro hplan
    cases hmode.symm.trans (hask (by simp [hplan]))
  intro files hask
  obtain rfl := Except.ok.inj (hmode.symm.trans hask)
  refine Yields.adapt (yields_change ?_ ?_)
  · intro fault hask
    exact ⟨(((hsilent.served _).served _).served _).served _, erase_insert ..,
      fun hplan => ⟨fault, hask (by simp [hplan])⟩⟩
  · intro files hask
    exact ⟨(((hsilent.served _).served _).served _).served _, hask⟩

/-- A temporary file is not in the way of a path that leads to something. -/
private theorem resolveEntry_beside {fs : FileSystem} {temporary place : Location} {node : Node}
    (hvacant : fs.node? temporary = none) (found : fs.find path = .ok (place, node))
    (named : ∃ name, path.innerSteps.getLast? = some (.enter name))
    (unslashed : path.endsInSlash = false) (newcomer : Node) :
    ∃ entry, fs.resolveEntry .busy path = .ok entry ∧ entry ≠ temporary ∧
      (fs.insert temporary newcomer).resolveEntry .busy path = .ok entry := by
  obtain ⟨entry, entered, hnode⟩ := exists_entry_of_find .busy found named unslashed
  have hsome : fs.node? entry ≠ none := by
    rcases hnode with rfl | ⟨target, hlink⟩
    · simp [(find_eq_ok_iff.1 found).2.2]
    · simp [hlink]
  refine ⟨entry, entered, ?_, resolveEntry_of_isPartOf (isPartOf_insert hvacant) entered hsome⟩
  rintro rfl
  exact hsome hvacant

/-- The temporary file takes the place of the report. -/
theorem replaced_of_rename {fs : FileSystem} {temporary : Location} {mode : Nat}
    (hvacant : fs.node? temporary = none) (moded : fs.mode path = .ok mode)
    (room : room fs path = .ok ())
    (h : (fs.insert temporary (.file content mode)).rename temporary path = .ok files) :
    Replaced fs path content files := by
  have hne : temporary ≠ [] := by
    rintro rfl
    cases hvacant
  obtain ⟨unslashed, entry, hentry, hdir, rfl⟩ :=
    (rename_eq_ok_iff (node?_insert_self _ _ hne)).1 h
  obtain ⟨place, node, found⟩ := find_of_mode moded
  have named := (resolveEntry_eq_ok_iff.1 hentry).2.1
  obtain ⟨entry', entered, hother, hentry'⟩ :=
    resolveEntry_beside hvacant found named unslashed (.file content mode)
  obtain rfl := Except.ok.inj (hentry'.symm.trans hentry)
  rw [erase_insert, erase_eq_self hvacant]
  refine .intro ⟨named, unslashed, room⟩ found moded entered ?_
  intro m hm
  rw [← node?_insert_of_ne _ (.file content mode) hother] at hm
  exact hdir m hm

private theorem rename_of_replaced {temporary : Location}
    (hvacant : host.files.node? temporary = none) (h : Replaced host.files path content files) :
    ∃ mode, host.files.mode path = .ok mode ∧
      (host.files.insert temporary (.file content mode)).rename temporary path = .ok files := by
  have hne : temporary ≠ [] := by
    rintro rfl
    cases hvacant
  cases h with
  | @intro place node mode entry placeable found moded entered unoccupied =>
    obtain ⟨entry', entered', hother, hentry⟩ := resolveEntry_beside hvacant found
      placeable.named placeable.unslashed (.file content mode)
    obtain rfl := Except.ok.inj (entered'.symm.trans entered)
    refine ⟨mode, moded, (rename_eq_ok_iff (node?_insert_self _ _ hne)).2
      ⟨placeable.unslashed, entry', hentry, ?_, ?_⟩⟩
    · rw [node?_insert_of_ne _ _ hother]
      exact unoccupied
    · rw [erase_insert, erase_eq_self hvacant]

/-- A report that is there is replaced, or the files are what they were. -/
theorem yields_swap : (swap path place content).Yields host fun result host' =>
    host.Silently host' ∧
      match result with
      | .error _ => host'.files = host.files ∧
        (host.refusals = [] → ∀ files, ¬Replaced host.files path content files)
      | .ok () => Replaced host.files path content host'.files := by
  have hsilent := Silently.refl host
  rw [swap]
  refine yields_query_bind ?_ ?_
  · intro fault hask
    refine ⟨hsilent.served _, rfl, ?_⟩
    rintro hplan files ⟨-, -, moded⟩
    cases moded.symm.trans (hask hplan)
  intro mode moded
  refine yields_request_bind ?_ ?_
  · intro fault hask
    refine ⟨(hsilent.served _).served _, rfl, ?_⟩
    rintro hplan files ⟨placeable, found, -⟩
    obtain ⟨parent, m, hdirectory⟩ :=
      find_directory found placeable.named placeable.unslashed
    have hmade := createTemporary_eq_ok_iff.2
      ⟨room_eq_ok_iff.1 placeable.room, parent, m, hdirectory, rfl, rfl⟩
    cases hmade.symm.trans (hask (by simp [hplan]))
  intro temporary files hask
  obtain ⟨admitted, parent, m, hdirectory, htemporary, rfl⟩ := createTemporary_eq_ok_iff.1 hask
  have hvacant : host.files.node? temporary = none := by
    rw [htemporary]
    exact node?_freshName _ _
  have hne : temporary ≠ [] := by
    rw [htemporary]
    exact List.cons_ne_nil _ _
  refine Yields.tryCatch (yields_replace (node?_insert_self _ _ hne)) ?_ ?_
  · rintro ⟨⟩ host' ⟨hsilent', hrename⟩
    refine ⟨((hsilent.served _).served _).trans hsilent', ?_⟩
    rw [files_served, insert_insert] at hrename
    exact replaced_of_rename hvacant moded (room_eq_ok_iff.2 admitted) hrename
  · rintro fault host' ⟨hsilent', herase, hask⟩
    refine yields_adjust_bind (yields_throw ?_)
    have hsilent'' := ((hsilent.served _).served _).trans hsilent'
    refine ⟨⟨hsilent''.printed, hsilent''.onward⟩, ?_, ?_⟩
    · rw [files_served, erase_insert, files_served, erase_eq_self hvacant] at herase
      exact herase
    · intro hplan files hreplaced
      obtain ⟨mode', moded', hrename⟩ := rename_of_replaced hvacant hreplaced
      obtain rfl := Except.ok.inj (moded.symm.trans moded')
      obtain ⟨_, hfault⟩ := hask (by simp [hplan])
      rw [files_served, insert_insert] at hfault
      cases hrename.symm.trans hfault

/-! ## What a replacement leaves behind -/

/-- If a file can be put in the place of a report, then at this entry. -/
def WritesAt (fs : FileSystem) (path : Path) (entry : Location) : Prop :=
  ∀ entry', fs.resolveEntry .busy path = .ok entry' → entry' = entry

namespace Replaced

variable {fs fs' : FileSystem} {bytes : List UInt8} {entry : Location} {mode : Nat}

theorem placeable (h : Replaced fs path content fs') : Placeable fs path := by
  cases h with
  | intro placeable => exact placeable

theorem workingDirectory (h : Replaced fs path content fs') :
    fs'.workingDirectory = fs.workingDirectory := by
  cases h with
  | intro => rfl

/-- A file that was there is replaced at the entry through which the path led to it. -/
theorem entry_of_read (h : Replaced fs path content fs') (hread : fs.read path = .ok bytes)
    (hmode : fs.mode path = .ok mode) :
    ∃ entry, fs.resolveEntry .busy path = .ok entry ∧ fs.node? entry ≠ none ∧
      fs' = fs.insert entry (.file content mode) ∧
      fs'.find path = .ok (entry, .file content mode) := by
  obtain ⟨place, old, found⟩ := read_eq_ok_iff.1 hread
  cases h with
  | intro placeable _ moded entered unoccupied =>
    obtain rfl := Except.ok.inj (hmode.symm.trans moded)
    obtain ⟨entry, entered', hentry⟩ :=
      exists_entry_of_find .busy found placeable.named placeable.unslashed
    obtain rfl := Except.ok.inj (entered.symm.trans entered')
    refine ⟨_, entered, ?_, rfl,
      find_insert_entry found (by simp) entered placeable.unslashed unoccupied⟩
    rcases hentry with rfl | ⟨target, hlink⟩
    · simp [(find_eq_ok_iff.1 found).2.2]
    · simp [hlink]

/-- What could be read before holds the new content. -/
theorem read_eq_ok (h : Replaced fs path content fs') (hread : fs.read path = .ok bytes) :
    fs'.read path = .ok content := by
  obtain ⟨place, mode, found⟩ := read_eq_ok_iff.1 hread
  cases h with
  | intro placeable _ _ entered unoccupied =>
    exact read_eq_ok_iff.2
      ⟨_, _, find_insert_entry found (by simp) entered placeable.unslashed unoccupied⟩

/-- What can be read afterwards is the new content. -/
theorem eq_of_read (h : Replaced fs path content fs') (hread : fs'.read path = .ok bytes) :
    bytes = content := by
  obtain ⟨place, mode, found⟩ := read_eq_ok_iff.1 hread
  cases h with
  | intro placeable _ _ entered unoccupied =>
    obtain ⟨-, heq⟩ := find_insert_entry_eq entered placeable.unslashed unoccupied found
    cases heq
    rfl

/-- What can be read can be replaced. -/
theorem exists_of_read (hpath : Placeable fs path) (hread : fs.read path = .ok bytes)
    (content : List UInt8) : ∃ fs', Replaced fs path content fs' := by
  obtain ⟨place, mode, found⟩ := read_eq_ok_iff.1 hread
  have moded : fs.mode path = .ok mode := by simp [FileSystem.mode, found, bind, Except.bind]
  obtain ⟨entry, entered, hnode⟩ :=
    exists_entry_of_find .busy found hpath.named hpath.unslashed
  refine ⟨_, .intro hpath found moded entered ?_⟩
  intro m hm
  rcases hnode with rfl | ⟨target, hlink⟩
  · simp [(find_eq_ok_iff.1 found).2.2] at hm
  · simp [hlink] at hm

theorem frame (h : Replaced fs path content fs') (hat : WritesAt fs path entry) :
    WritesAt fs' path entry ∧ ∀ place, place ≠ entry → fs'.node? place = fs.node? place := by
  cases h with
  | intro placeable found moded entered unoccupied =>
    obtain rfl := hat _ entered
    refine ⟨?_, fun place hne => node?_insert_of_ne _ _ hne⟩
    intro entry' hentry'
    exact resolveEntry_insert_entry_eq entered unoccupied hentry'

/-- A report that was replaced has an entry of its own. What other paths lead to, if not to the
report, is not at that entry when it was a file before, and so it is with what they led to. -/
theorem exists_entry (h : Replaced fs path content fs') :
    ∃ entry, WritesAt fs' path entry ∧ (∀ place, place ≠ entry → fs'.node? place = fs.node? place) ∧
      ∀ other place bytes mode, fs'.sameFile other path = false →
        (∀ node, fs'.find other = .ok (place, node) → fs.node? place = some (.file bytes mode) →
          place ≠ entry) ∧
        (fs.find other = .ok (place, .file bytes mode) → place ≠ entry ∧
          ∀ found, fs'.find other = .ok found → found = (place, .file bytes mode)) := by
  cases h with
  | @intro _ _ _ entry placeable found moded entered unoccupied =>
    refine ⟨entry, ?_, fun place hne => node?_insert_of_ne _ _ hne, ?_⟩
    · intro entry' hentry'
      exact resolveEntry_insert_entry_eq entered unoccupied hentry'
    · intro other place bytes mode hapart
      refine ⟨?_, fun hother =>
        find_insert_apart entered placeable.unslashed unoccupied hother hapart⟩
      rintro node hfind hfile rfl
      rw [sameFile_insert_file entered placeable.unslashed hfile hfind] at hapart
      cases hapart

end Replaced

/-! ## Writing -/

/-- A file system in which the file that a path leads to has been made if there was none. -/
inductive Ensured (fs : FileSystem) (path : Path) : FileSystem → Prop where
  | there (h : fs.holds path = true) : Ensured fs path fs
  | made {fs'} (h : fs.holds path = false) (hcreate : fs.create path = .ok fs') :
    Ensured fs path fs'

theorem Ensured.eq_of_holds {fs fs' : FileSystem} (h : Ensured fs path fs')
    (hholds : fs.holds path = true) : fs' = fs := by
  cases h with
  | there => rfl
  | made hvacant => cases hholds.symm.trans hvacant

theorem yields_ensureFile : (ensureFile path).Yields host fun result host' =>
    host.Silently host' ∧
      match result with
      | .error _ => host'.files = host.files ∧ host.files.holds path = false
      | .ok () => Ensured host.files path host'.files := by
  have hsilent := Silently.refl host
  rw [ensureFile]
  refine yields_look_bind ?_
  cases hholds : host.files.holds path with
  | true => exact yields_pure ⟨hsilent, .there hholds⟩
  | false =>
    refine yields_change ?_ ?_
    · exact fun _ _ => ⟨hsilent.served _, rfl, rfl⟩
    · exact fun _ hcreate => ⟨hsilent.served _, .made hholds hcreate⟩

/-- A file is only made where nothing is, and the path leads to it then. -/
theorem insert_of_create {fs fs' : FileSystem} (hholds : fs.holds path = false)
    (hcreate : fs.create path = .ok fs') :
    ∃ place, fs.node? place = none ∧ fs' = fs.insert place (.file [] fs.newFileMode) ∧
      fs'.find path = .ok (place, .file [] fs.newFileMode) := by
  rw [create, resolve] at hcreate
  cases hadmits : admits path with
  | error fault => simp [hadmits, bind, Except.bind] at hcreate
  | ok =>
    cases hwalk : fs.walk .fill maxLinks (fs.start path) path.steps with
    | error fault => simp [hadmits, hwalk, bind, Except.bind] at hcreate
    | ok place =>
      cases hnode : fs.node? place with
      | none =>
        have hinsert : fs' = fs.insert place (.file [] fs.newFileMode) := by
          simpa [hadmits, hwalk, hnode, bind, Except.bind, eq_comm] using hcreate
        have hplace : place ≠ [] := by
          rintro rfl
          cases hnode
        have hfile := node?_insert_self fs (.file [] fs.newFileMode) hplace
        have hleads := (walk_eq_ok_iff.1 hwalk).follow_of_fill
        rw [hinsert]
        refine ⟨place, hnode, rfl, find_eq_ok_iff.2 ⟨hadmits, ?_, hfile⟩⟩
        exact hleads.of_isPartOf (isPartOf_insert hnode) (by simp [hfile])
      | some node =>
        have hfind : fs.find path = .ok (place, node) :=
          find_eq_ok_iff.2 ⟨hadmits, (walk_eq_ok_iff.1 hwalk).follow_of_fill, hnode⟩
        simp [holds, hfind] at hholds

/-- Making the file of a report adds to the files and changes none. -/
theorem Ensured.isPartOf {fs fs' : FileSystem} (h : Ensured fs path fs') : fs.IsPartOf fs' := by
  cases h with
  | there => exact .refl fs
  | made hholds hcreate =>
    obtain ⟨place, hvacant, rfl, -⟩ := insert_of_create hholds hcreate
    exact isPartOf_insert hvacant

/-- What writing ends in, and the files after it. -/
inductive Stored (plan : List (Option SystemFault)) (fs : FileSystem) (path : Path)
    (content : List UInt8) : Except WriteCause Unit → FileSystem → Prop where
  /-- Nothing was replaced, but an empty file may have been made. -/
  | kept {fault fs'} (hfiles : fs' = fs ∨ Ensured fs path fs')
      (hfixed : plan = [] → fs.holds path = true → ∀ files, ¬Replaced fs path content files) :
    Stored plan fs path content (.error fault) fs'
  | replaced {files fs'} (hensured : Ensured fs path files)
      (hreplaced : Replaced files path content fs') : Stored plan fs path content (.ok ()) fs'

theorem yields_store : (store path content).Yields host fun result host' =>
    host.Silently host' ∧
      Stored host.refusals host.files path content result host'.files := by
  rw [store]
  refine yields_look_bind (yields_ensureFile.adapt_bind ?_ ?_)
  · rintro ⟨⟩ host₁ ⟨hsilent, hensured⟩
    refine yields_swap.mono ?_
    rintro (fault | ⟨⟩) host₂ ⟨hsilent', hswap⟩
    · refine ⟨hsilent.trans hsilent', .kept (.inr (hswap.1 ▸ hensured)) ?_⟩
      intro hplan hholds files
      rw [← hensured.eq_of_holds hholds]
      exact hswap.2 (hsilent.refusals_eq_nil hplan) files
    · exact ⟨hsilent.trans hsilent', .replaced hensured hswap⟩
  · rintro fault host' ⟨hsilent, hfiles, hvacant⟩
    refine ⟨hsilent, .kept (.inl hfiles) ?_⟩
    intro _ hholds
    cases hholds.symm.trans hvacant

end Report

end CaseReport
