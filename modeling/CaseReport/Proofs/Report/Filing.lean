import CaseReport.Proofs.FileSystem.Alike
import CaseReport.Proofs.Report.Stages

/-!
# Writing a report where nothing is refused

If a path names an entry, and leads to a file or to a place where one can be made, then a report is
written there unless the path of a temporary file beside it is too long. What was at that place
before has no part in this, and it is at most that place and the entry that are changed.
-/

namespace CaseReport

namespace Report

open Host FileSystem Path Action

/-- A path names an entry, and leads to a file or to a place where one can be made. -/
structure Ready (fs : FileSystem) (path : Path) (place : Location) : Prop where
  named : ∃ name, path.innerSteps.getLast? = some (.enter name)
  resolved : fs.resolve .follow path = .ok place
  fileAtMost : fs.FileAtMost place

variable {fs fs' : FileSystem} {path : Path} {place entry : Location} {content : List UInt8}
  {host : Host} {cases : Cases}

namespace Ready

theorem unslashed (h : Ready fs path place) : path.endsInSlash = false := by
  rw [Bool.eq_false_iff]
  intro hslash
  obtain ⟨-, hleads⟩ := resolve_eq_ok_iff.1 h.resolved
  rw [steps, if_pos hslash] at hleads
  obtain ⟨mode, hmode⟩ := hleads.directory_of_slash
  exact h.fileAtMost.not_directory mode hmode

theorem placeable (h : Ready fs path place) (hroom : room fs path = .ok ()) : Placeable fs path :=
  ⟨h.named, h.unslashed, hroom⟩

theorem of_differAt (h : Ready fs path place) (hdiffer : DifferAt place fs fs') :
    Ready fs' path place :=
  ⟨h.named, hdiffer.resolve h.resolved, hdiffer.fileAtMost'⟩

theorem find_eq (h : Ready fs path place) {mode : Nat}
    (hfile : fs.node? place = some (.file content mode)) :
    fs.find path = .ok (place, .file content mode) := by
  obtain ⟨hadmits, hleads⟩ := resolve_eq_ok_iff.1 h.resolved
  exact find_eq_ok_iff.2 ⟨hadmits, hleads, hfile⟩

theorem create_eq (h : Ready fs path place) (hvacant : fs.node? place = none) :
    fs.create path = .ok (fs.insert place (.file [] fs.newFileMode)) := by
  obtain ⟨hadmits, hleads⟩ := resolve_eq_ok_iff.1 h.resolved
  have hfill := resolve_eq_ok_iff.2 ⟨hadmits, hleads.fill_of_follow h.fileAtMost.not_directory⟩
  simp [create, hfill, hvacant, bind, Except.bind]

theorem holds_directory (h : Ready fs path place) {directory : Path}
    (hdirectory : path.parentDirectory? = some directory) : fs.holds directory = true := by
  obtain ⟨parent, mode, hfind⟩ := find_directory_of_resolve h.resolved h.named h.unslashed
  rw [Path.directory, hdirectory, Option.getD_some] at hfind
  simp [holds, hfind]

/-- Afterwards there is a file, and nothing is changed if there was one before. -/
theorem yields_ensureFile (h : Ready host.files path place) (hplan : host.refusals = []) :
    (ensureFile path).Yields host fun result host' => host.Silently host' ∧ result = .ok () ∧
      DifferAt place host.files host'.files ∧ host'.files.HasFile place ∧
      (host.files.HasFile place → host'.files = host.files) := by
  rw [ensureFile]
  refine yields_look_bind ?_
  cases hnode : host.files.node? place with
  | none =>
    have hholds : host.files.holds path = false := by
      simp [holds, FileSystem.find, h.resolved, hnode, bind, Except.bind]
    rw [hholds]
    refine yields_change ?_ ?_
    · intro fault hask
      cases (h.create_eq hnode).symm.trans (hask hplan)
    · intro files hask
      obtain rfl := Except.ok.inj ((h.create_eq hnode).symm.trans hask)
      refine ⟨(Silently.refl host).served _, rfl, .of_insert h.fileAtMost,
        hasFile_insert h.fileAtMost.ne_nil, ?_⟩
      rintro ⟨content, mode, hfile⟩
      cases hnode.symm.trans hfile
  | some node =>
    obtain ⟨content, mode, rfl⟩ := h.fileAtMost _ hnode
    have hholds : host.files.holds path = true := by simp [holds, h.find_eq hnode]
    rw [hholds]
    exact yields_pure ⟨.refl host, rfl, .refl h.fileAtMost, ⟨content, mode, hnode⟩, fun _ => rfl⟩

/-- A file that is there is replaced if there is room beside it. -/
theorem yields_swap (h : Ready host.files path place) (hfile : host.files.HasFile place)
    (hplan : host.refusals = []) :
    (swap path (host.files.temporaryPath path.directory) content).Yields host
      fun result host' => host.Silently host' ∧ result = room host.files path ∧
        match result with
        | .error _ => host'.files = host.files
        | .ok () => Replaced host.files path content host'.files := by
  obtain ⟨old, mode, hnode⟩ := hfile
  have hfind := h.find_eq hnode
  cases hroom : room host.files path with
  | ok =>
    refine Report.yields_swap.mono ?_
    rintro (fault | ⟨⟩) host' ⟨hsilent, hend⟩
    · obtain ⟨files, hreplaced⟩ := Replaced.exists_of_read (h.placeable hroom)
        (read_eq_ok_iff.2 ⟨place, mode, hfind⟩) content
      exact absurd hreplaced (hend.2 hplan files)
    · exact ⟨hsilent, rfl, hend⟩
  | error cause =>
    have hmode : host.files.mode path = .ok mode := by
      simp [FileSystem.mode, hfind, bind, Except.bind]
    obtain ⟨fault, hadmits, rfl⟩ := exists_of_room_eq_error hroom
    have htemporary : host.files.createTemporary path.directory = .error fault := by
      simp [createTemporary, hadmits, bind, Except.bind]
    rw [swap]
    refine yields_query_bind ?_ ?_
    · intro fault' hask
      cases hmode.symm.trans (hask hplan)
    · intro mode' _
      refine yields_request_bind ?_ ?_
      · intro fault' hask
        obtain rfl := Except.error.inj (htemporary.symm.trans (hask (by simp [hplan])))
        exact ⟨((Silently.refl host).served _).served _, rfl, rfl⟩
      · intro answer files hask
        cases htemporary.symm.trans hask

end Ready

/-- What writing a report ends in, and the files after it. -/
inductive Filed (fs : FileSystem) (path : Path) (place : Location) (content : List UInt8) :
    Except WriteCause Unit → FileSystem → Prop where
  /-- At most the file was made. -/
  | cramped {cause files} (hroom : room fs path = .error cause) (hdiffer : DifferAt place fs files)
      (hfile : files.HasFile place) (hkept : fs.HasFile place → files = fs) :
    Filed fs path place content (.error cause) files
  | filed {files fs'} (hroom : room fs path = .ok ()) (hdiffer : DifferAt place fs files)
      (hfile : files.HasFile place) (hreplaced : Replaced files path content fs') :
    Filed fs path place content (.ok ()) fs'

theorem Ready.yields_store (h : Ready host.files path place) (hplan : host.refusals = []) :
    (store path content).Yields host fun result host' => host.Silently host' ∧
      Filed host.files path place content result host'.files := by
  rw [store]
  refine yields_look_bind ((h.yields_ensureFile hplan).adapt_bind ?_ ?_)
  · rintro ⟨⟩ host₁ ⟨hsilent, -, hdiffer, hfile, hkept⟩
    rw [← temporaryPath_congr hdiffer.workingDirectory]
    refine ((h.of_differAt hdiffer).yields_swap hfile (hsilent.refusals_eq_nil hplan)).mono ?_
    rintro result host₂ ⟨hsilent', hroom, hend⟩
    rw [room_congr hdiffer.workingDirectory] at hroom
    refine ⟨hsilent.trans hsilent', ?_⟩
    cases result with
    | error cause =>
      rw [hend]
      exact .cramped hroom.symm hdiffer hfile hkept
    | ok => exact .filed hroom.symm hdiffer hfile hend
  · rintro fault host₁ ⟨-, hok, -⟩
    cases hok

/-- A report that is ready is started exactly if there is room beside it. -/
theorem Ready.yields_start (h : Ready host.files path place) (hplan : host.refusals = []) :
    (start path cases).Yields host fun result host' => host.Silently host' ∧
      ∃ stored, result = (stored.mapError (.unwritable path)).map (fun _ => ofCases cases) ∧
        Filed host.files path place (ofCases cases).content stored host'.files := by
  obtain ⟨told, hstart⟩ := perform_start_of_holds cases fun _ => h.holds_directory
  have hwrite : ((ofCases cases).write path).Yields (host.tell told) fun result host' =>
      host.Silently host' ∧ ∃ stored, result = stored.mapError (.unwritable path) ∧
        Filed host.files path place (ofCases cases).content stored host'.files := by
    have hready : Ready (host.tell told).files path place := h
    rw [write]
    refine (hready.yields_store hplan).adapted.bind ?_ ?_
    · rintro ⟨⟩ host₁ ⟨stored, hresult, hsilent, hfiled⟩
      exact yields_diagnose ⟨⟨hsilent.printed, hsilent.onward⟩, stored, hresult, hfiled⟩
    · rintro fault host₁ ⟨stored, hresult, hsilent, hfiled⟩
      exact ⟨⟨hsilent.printed, hsilent.onward⟩, stored, hresult, hfiled⟩
  obtain ⟨hsilent, stored, hresult, hfiled⟩ := hwrite
  rw [Yields, hstart]
  exact ⟨hsilent, stored, by rw [hresult], hfiled⟩

/-! ## The entry of a report that was written -/

theorem Replaced.differAt (h : Replaced fs path content fs')
    (hentry : fs.resolveEntry .busy path = .ok entry) (hfile : fs.HasFile entry) :
    DifferAt entry fs fs' ∧ fs'.HasFile entry := by
  cases h with
  | intro _ _ _ entered _ =>
    obtain rfl := Except.ok.inj (entered.symm.trans hentry)
    exact ⟨.of_insert hfile.fileAtMost, hasFile_insert hfile.ne_nil⟩

namespace Filed

theorem room_eq {stored : Except WriteCause Unit} (h : Filed fs path place content stored fs') :
    room fs path = stored := by
  cases h with
  | cramped hroom => exact hroom
  | filed hroom => exact hroom

theorem workingDirectory {stored : Except WriteCause Unit}
    (h : Filed fs path place content stored fs') : fs'.workingDirectory = fs.workingDirectory := by
  cases h with
  | cramped _ hdiffer => exact hdiffer.workingDirectory
  | filed _ hdiffer _ hreplaced =>
    exact hreplaced.workingDirectory.trans hdiffer.workingDirectory

/-- The report is put at its entry, from where it is read and written from then on. -/
theorem exists_entry (h : Filed fs path place content (.ok ()) fs') (hready : Ready fs path place) :
    ∃ files entry mode, DifferAt place fs files ∧ files.HasFile place ∧
      files.resolveEntry .busy path = .ok entry ∧
      fs' = files.insert entry (.file content mode) ∧ entry ≠ [] ∧
      Ready fs' path entry ∧ fs'.resolveEntry .busy path = .ok entry := by
  cases h with
  | @filed files _ hroom hdiffer hfile hreplaced =>
    have hthere := hready.of_differAt hdiffer
    obtain ⟨old, oldMode, hnode⟩ := id hfile
    cases hreplaced with
    | @intro _ _ mode entry placeable _ _ entered unoccupied =>
      have hne := ne_nil_of_resolveEntry entered unoccupied
      have hfind : (files.insert entry (.file content mode)).find path =
          .ok (entry, .file content mode) :=
        find_insert_entry (hthere.find_eq hnode) (by simp) entered hthere.unslashed unoccupied
      obtain ⟨entry', entered', -⟩ :=
        exists_entry_of_find .busy hfind hready.named hready.unslashed
      obtain rfl := resolveEntry_insert_entry_eq entered unoccupied entered'
      obtain ⟨hadmits, hleads, -⟩ := find_eq_ok_iff.1 hfind
      exact ⟨files, entry', mode, hdiffer, hfile, entered, rfl, hne,
        ⟨hready.named, resolve_eq_ok_iff.2 ⟨hadmits, hleads⟩, (hasFile_insert hne).fileAtMost⟩,
        entered'⟩

end Filed

end Report

end CaseReport
