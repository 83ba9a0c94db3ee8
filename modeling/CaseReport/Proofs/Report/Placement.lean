import Mathlib.Control.Monad.Basic
import CaseReport.Proofs.FileSystem.Alike
import CaseReport.Proofs.Report.Updating

/-!
# Where a written report is

A report is put at the entry that its path names; a link there is replaced and not followed. No
other entry is changed, and none is added unless the link led nowhere: then there is an empty file
where it would have led. The path leads to the report from then on, unless it went through its own
entry: a path to a directory may do so, by a link that is replaced now.
-/

namespace CaseReport

namespace FileSystem

variable {fs : FileSystem} {path : Path}

theorem holds_eq_true_iff : fs.holds path = true ↔ ∃ found, fs.find path = .ok found := by
  rw [holds]
  cases fs.find path <;> simp

theorem holdsDirectory_of_find {place : Location} {node : Node}
    (h : fs.find path = .ok (place, node)) : fs.holdsDirectory path = node.isDirectory := by
  rw [holdsDirectory, h]

end FileSystem

namespace Report

open Host FileSystem Path Action

variable {fs files : FileSystem} {path other : Path} {entry parent : Location}
  {content : List UInt8} {report : Report} {host host' : Host} {mode m : Nat}

/-- A missing report is made where nothing is, and nothing else is changed. -/
theorem Ensured.differAt (h : Ensured fs path files) (hholds : fs.holds path = false) :
    ∃ place, fs.node? place = none ∧ DifferAt place fs files ∧
      files.find path = .ok (place, .file [] fs.newFileMode) := by
  cases h with
  | there hthere => cases hthere.symm.trans hholds
  | made _ hcreate =>
    obtain ⟨place, hvacant, rfl, hfind⟩ := insert_of_create hholds hcreate
    have hatMost : fs.FileAtMost place := by simp [FileAtMost, hvacant]
    exact ⟨place, hvacant, .of_insert hatMost, hfind⟩

theorem Ensured.eq_or_differAt (h : Ensured fs path files) :
    files = fs ∨ fs.holds path = false ∧ ∃ place, fs.node? place = none ∧
      DifferAt place fs files ∧ files.find path = .ok (place, .file [] fs.newFileMode) := by
  cases hholds : fs.holds path with
  | true => exact .inl (h.eq_of_holds hholds)
  | false => exact .inr ⟨rfl, h.differAt hholds⟩

theorem Ensured.resolveEntry_eq (h : Ensured fs path files) {unnamed : SystemFault}
    (hentry : files.resolveEntry unnamed other = .ok entry) :
    fs.resolveEntry unnamed other = .ok entry := by
  rcases h.eq_or_differAt with rfl | ⟨-, place, -, hdiffer, -⟩
  · exact hentry
  · exact hdiffer.symm.resolveEntry hentry

/-- On the way to a directory a file is as good as nothing. -/
theorem Ensured.find_directory_iff (h : Ensured fs path files) (hentry : entry ≠ []) :
    (files.insert entry (.file content mode)).find other = .ok (parent, .directory m) ↔
      (fs.erase entry).find other = .ok (parent, .directory m) := by
  have herase : DifferAt entry (files.erase entry) (files.insert entry (.file content mode)) :=
    .erase_insert hentry
  rw [← herase.find_directory_iff]
  rcases h.eq_or_differAt with rfl | ⟨-, place, -, hdiffer, -⟩
  · rfl
  · exact (hdiffer.erase entry hentry).find_directory_iff.symm

/-- The path of a new file leads to it if its directory is found without what was at the entry. -/
theorem Ensured.find_insert_entry_iff (h : Ensured fs path files)
    (hplaceable : Placeable files path)
    (hentry : files.resolveEntry .busy path = .ok entry) (hne : entry ≠ []) :
    (files.insert entry (.file content mode)).find path = .ok (entry, .file content mode) ↔
      (fs.erase entry).holds path.directory = true := by
  rw [holds_eq_true_iff]
  constructor
  · intro hfind
    obtain ⟨parent, m, hparent⟩ := find_directory hfind hplaceable.named hplaceable.unslashed
    exact ⟨_, (h.find_directory_iff hne).1 hparent⟩
  · rintro ⟨found, hfound⟩
    obtain ⟨name, parent, m, hname, hsize, rfl, hparent⟩ :=
      exists_directory_of_resolveEntry hentry hplaceable.unslashed
    obtain rfl : (parent, .directory m) = found := Except.ok.inj
      (hparent.symm.trans (find_of_isPartOf ((isPartOf_erase hne).trans h.isPartOf) hfound))
    exact find_of_directory (resolveEntry_eq_ok_iff.1 hentry).1 hname hplaceable.unslashed hsize
      ((h.find_directory_iff hne).2 hfound) (node?_insert_self _ _ hne) (by simp)

/-- The entry that a path names is a link that leads the path to a place where nothing is. -/
structure Dangles (fs : FileSystem) (path : Path) (entry place : Location) : Prop where
  link : ∃ target, fs.node? entry = some (.link target)
  leads : fs.resolve .follow path = .ok place
  vacant : fs.node? place = none

/-- Where a file was made, the path leads there through the link at its entry, unless that is the
entry itself. -/
theorem Ensured.node?_eq_or_dangles (h : Ensured fs path files) (hplaceable : Placeable files path)
    (hentry : fs.resolveEntry .busy path = .ok entry) {place : Location} (hne : place ≠ entry) :
    files.node? place = fs.node? place ∨ Dangles fs path entry place := by
  rcases h.eq_or_differAt with rfl | ⟨-, made, hvacant, hdiffer, hfind⟩
  · exact .inl rfl
  by_cases hmade : place = made
  · subst hmade
    obtain ⟨hadmits, hleads, -⟩ := find_eq_ok_iff.1 hfind
    obtain ⟨entry', hentry', hend⟩ :=
      exists_entry_of_find .busy hfind hplaceable.named hplaceable.unslashed
    obtain rfl := Except.ok.inj (hentry.symm.trans (hdiffer.symm.resolveEntry hentry'))
    obtain ⟨target, hlink⟩ := hend.resolve_left fun heq => hne heq.symm
    rw [hdiffer.node? entry hne.symm] at hlink
    have hresolve := hdiffer.symm.resolve (resolve_eq_ok_iff.2 ⟨hadmits, hleads⟩)
    exact .inr ⟨⟨target, hlink⟩, hresolve, hvacant⟩
  · exact .inl (hdiffer.node? place hmade)

/-- A file is made where a path leads to nothing. -/
theorem Ensured.node?_of_vacant (h : Ensured fs path files) {place : Location}
    (hleads : fs.resolve .follow path = .ok place) (hvacant : fs.node? place = none) :
    files.node? place = some (.file [] fs.newFileMode) := by
  have hholds : fs.holds path = false := by
    simp [holds, FileSystem.find, hleads, hvacant, bind, Except.bind]
  obtain ⟨made, -, hdiffer, hfind⟩ := h.differAt hholds
  obtain ⟨hadmits, hends, hfile⟩ := find_eq_ok_iff.1 hfind
  have hmade : fs.resolve .follow path = .ok made :=
    hdiffer.symm.resolve (resolve_eq_ok_iff.2 ⟨hadmits, hends⟩)
  obtain rfl := Except.ok.inj (hleads.symm.trans hmade)
  exact hfile

/-- A report that was written is at the entry that the path names, which was no directory. The path
leads to it exactly if the directory of the path is found without what was at that entry, and always
if the path did not lead to a directory. Every other place is what it was, with one exception: if
the entry was a link that led to a place where nothing was, there is an empty file there now. -/
theorem write_changes_one_entry (hwrite : (report.write path).perform host = (.ok (), host')) :
    ∃ entry mode, host.files.resolveEntry .busy path = .ok entry ∧
      (∀ m, host.files.node? entry ≠ some (.directory m)) ∧
      host'.files.node? entry = some (.file report.content mode) ∧
      (host'.files.find path = .ok (entry, .file report.content mode) ↔
        (host.files.erase entry).holds path.directory = true) ∧
      (host.files.holdsDirectory path = false →
        host'.files.find path = .ok (entry, .file report.content mode)) ∧
      (∀ place, place ≠ entry → ¬Dangles host.files path entry place →
        host'.files.node? place = host.files.node? place) ∧
      ∀ place, Dangles host.files path entry place →
        host'.files.node? place = some (.file [] host.files.newFileMode) := by
  obtain ⟨stored, hresult, -, hstored⟩ := yields_write.of_perform hwrite
  cases hstored with
  | kept => cases hresult
  | @replaced files _ hensured hreplaced =>
    generalize host'.files = files' at hreplaced ⊢
    cases hreplaced with
    | @intro _ node mode entry placeable found _ entered unoccupied =>
      have hne := ne_nil_of_resolveEntry entered unoccupied
      have hentry := hensured.resolveEntry_eq entered
      refine ⟨entry, mode, hentry, ?_, node?_insert_self _ _ hne,
        hensured.find_insert_entry_iff placeable entered hne, ?_, ?_, ?_⟩
      · exact fun m hm => unoccupied m (hensured.isPartOf.node? hm)
      · intro hdirectory
        refine find_insert_entry found ?_ entered placeable.unslashed unoccupied
        rintro m rfl
        rcases hensured.eq_or_differAt with rfl | ⟨-, place, -, -, hmade⟩
        · rw [holdsDirectory_of_find found] at hdirectory
          cases hdirectory
        · cases hmade.symm.trans found
      · intro place hplace hdangles
        rw [node?_insert_of_ne _ _ hplace]
        exact (hensured.node?_eq_or_dangles placeable hentry hplace).resolve_right hdangles
      · intro place hdangles
        have hplace : place ≠ entry := by
          rintro rfl
          obtain ⟨target, hlink⟩ := hdangles.link
          cases hdangles.vacant.symm.trans hlink
        rw [node?_insert_of_ne _ _ hplace]
        exact hensured.node?_of_vacant hdangles.leads hdangles.vacant

/-- A report that is a link to a file in a directory. -/
def linkToFile : Host where
  files := { nodes := [
    (["report"], .link "d/old"),
    (["old", "d"], .file [0] 0o644),
    (["d"], .directory 0o755)] }

/-- A report that is a link to nothing, with a mask that leaves new files to their owner. -/
def linkToNothing : Host where
  files := { nodes := [(["report"], .link "ghost")], umask := 0o077 }

/-- The link is replaced, and the file that it led to is kept. If it led nowhere, an empty file is
at its other end and nothing is anywhere else. -/
theorem write_linkToFile :
    (∃ host' mode, ((ofCases ⟨["a"], []⟩).write "report").perform linkToFile = (.ok (), host') ∧
      host'.files.find "report" =
        .ok (["report"], .file (Text.Utf8.encode "a: NA\n".toList) mode) ∧
      ∀ place, place ≠ ["report"] → host'.files.node? place = linkToFile.files.node? place) ∧
    ∃ host', ((ofCases ⟨["a"], []⟩).write "report").perform linkToNothing = (.ok (), host') ∧
      (∀ place, place ≠ ["report"] → place ≠ ["ghost"] →
        host'.files.node? place = linkToNothing.files.node? place) ∧
      host'.files.node? ["ghost"] = some (.file [] 0o600) := by
  constructor
  · have hwrite : ((ofCases ⟨["a"], []⟩).write "report").perform linkToFile =
        (.ok (), (((ofCases ⟨["a"], []⟩).write "report").perform linkToFile).2) := by
      decide +kernel
    have hreport : linkToFile.files.resolveEntry .busy "report" = .ok ["report"] := by
      decide +kernel
    have hend : linkToFile.files.resolve .follow "report" = .ok ["old", "d"] := by decide +kernel
    have hcontent : (ofCases ⟨["a"], []⟩).content = Text.Utf8.encode "a: NA\n".toList := by
      decide +kernel
    obtain ⟨entry, mode, hentry, -, -, -, hfind, hother, -⟩ := write_changes_one_entry hwrite
    obtain rfl := Except.ok.inj (hreport.symm.trans hentry)
    rw [hcontent] at hfind
    refine ⟨_, mode, hwrite, hfind (by decide +kernel), fun place hne => hother place hne ?_⟩
    rintro ⟨-, hplace, hvacant⟩
    obtain rfl := Except.ok.inj (hend.symm.trans hplace)
    exact absurd hvacant (by decide)
  · have hwrite : ((ofCases ⟨["a"], []⟩).write "report").perform linkToNothing =
        (.ok (), (((ofCases ⟨["a"], []⟩).write "report").perform linkToNothing).2) := by
      decide +kernel
    have hreport : linkToNothing.files.resolveEntry .busy "report" = .ok ["report"] := by
      decide +kernel
    have hend : linkToNothing.files.resolve .follow "report" = .ok ["ghost"] := by decide +kernel
    have hmode : linkToNothing.files.newFileMode = 0o600 := by decide
    obtain ⟨entry, -, hentry, -, -, -, -, hother, hmade⟩ := write_changes_one_entry hwrite
    obtain rfl := Except.ok.inj (hreport.symm.trans hentry)
    rw [hmode] at hmade
    refine ⟨_, hwrite, fun place hne hghost => hother place hne ?_, hmade _ ?_⟩
    · rintro ⟨-, hplace, -⟩
      exact hghost (Except.ok.inj (hplace.symm.trans hend))
    · exact ⟨⟨"ghost", by decide⟩, hend, by decide⟩

/-- A directory and a link to it. -/
def linkToDirectory : Host where
  files := { nodes := [(["x"], .link "d"), (["d"], .directory 0o755)] }

/-- A path that goes through the link that it names leads nowhere once the report is written there.
Where the report is a link to nothing, an empty file is left at the other end of the link. -/
theorem write_misses_path :
    (∃ host', ((ofCases ⟨["a"], []⟩).write "x/../x").perform linkToDirectory = (.ok (), host') ∧
      host'.files.find "x/../x" = .error .notDirectory) ∧
    ∃ host', ((ofCases ⟨["a"], []⟩).write "report").perform linkToNothing = (.ok (), host') ∧
      linkToNothing.files.node? ["ghost"] = none ∧
      host'.files.node? ["ghost"] = some (.file [] 0o600) := by
  have hthrough : ((ofCases ⟨["a"], []⟩).write "x/../x").perform linkToDirectory =
      (.ok (), (((ofCases ⟨["a"], []⟩).write "x/../x").perform linkToDirectory).2) := by
    decide +kernel
  have hbeyond : ((ofCases ⟨["a"], []⟩).write "report").perform linkToNothing =
      (.ok (), (((ofCases ⟨["a"], []⟩).write "report").perform linkToNothing).2) := by
    decide +kernel
  exact ⟨⟨_, hthrough, by decide +kernel⟩, _, hbeyond, by decide, by decide +kernel⟩

end Report

end CaseReport
