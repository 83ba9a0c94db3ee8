import CaseReport.Proofs.FileSystem.Entry

/-!
# Paths that lead to the same file

When a file is put at the entry that one path names, another path that led to a file before either
leads there still, or it leads to the new file, and then the first path does too.
-/

namespace CaseReport.FileSystem

open Path

variable {fs : FileSystem} {path other : Path} {entry place : Location} {content : List UInt8}
  {mode : Nat}

/-- Whether two paths lead to the same place. -/
def sameFile (fs : FileSystem) (path other : Path) : Bool :=
  match fs.find path, fs.find other with
  | .ok (place, _), .ok (place', _) => place == place'
  | _, _ => false

theorem sameFile_of_find {node node' : Node} (h : fs.find path = .ok (place, node))
    (h' : fs.find other = .ok (place, node')) : fs.sameFile path other = true := by
  simp [sameFile, h, h']

theorem read_of_sameFile {bytes : List UInt8} (h : fs.sameFile path other = true)
    (hread : fs.read path = .ok bytes) : fs.read other = .ok bytes := by
  obtain ⟨place, mode, hfind⟩ := read_eq_ok_iff.1 hread
  rw [sameFile, hfind] at h
  cases hother : fs.find other with
  | error fault =>
    rw [hother] at h
    cases h
  | ok found =>
    obtain ⟨place', node⟩ := found
    rw [hother] at h
    obtain rfl : place = place' := by simpa using h
    have hnode := (find_eq_ok_iff.1 hother).2.2
    rw [(find_eq_ok_iff.1 hfind).2.2] at hnode
    cases hnode
    exact read_eq_ok_iff.2 ⟨place, mode, hother⟩

/-- A new content for a file is not noticed on the way. -/
theorem Leads.insert_file {last : LastStep} {links : Nat} {location : Location} {steps : List Step}
    {old : List UInt8} {oldMode : Nat} (hfile : fs.node? entry = some (.file old oldMode))
    (h : fs.Leads last links location steps place) :
    (fs.insert entry (.file content mode)).Leads last links location steps place := by
  have hother : ∀ {location node}, fs.node? location = some node → (∀ c m, node ≠ .file c m) →
      (fs.insert entry (.file content mode)).node? location = some node := by
    intro location node hnode hne
    rw [node?_insert_of_ne]
    · exact hnode
    · rintro rfl
      exact hne old oldMode (Option.some.inj (hnode.symm.trans hfile))
  induction h with
  | here => exact .here
  | stay hdir _ ih => exact .stay (hother hdir (by simp)) ih
  | slash hdir _ ih => exact .slash (hother hdir (by simp)) ih
  | up hdir _ ih => exact .up (hother hdir (by simp)) ih
  | @enter _ location _ name _ _ hdir hfill hsize hnode _ ih =>
    refine .enter (hother hdir (by simp)) hfill hsize ?_ ih
    intro target
    by_cases hname : name :: location = entry
    · rw [hname, node?_insert_self _ _ (hname ▸ List.cons_ne_nil _ _)]
      simp
    · rw [node?_insert_of_ne _ _ hname]
      exact hnode target
  | keep hdir hlast hsize hnode =>
    exact .keep (hother hdir (by simp)) hlast hsize (hother hnode (by simp))
  | link hdir hfill hsize hlast hnode _ ih =>
    exact .link (hother hdir (by simp)) hfill hsize hlast (hother hnode (by simp)) ih

/-- A walk that ends at a new file came to the file that was there before, or to a link. -/
theorem Leads.eq_or_link_of_insert {links more : Nat} {location : Location} {steps : List Step}
    (hentry : entry ≠ []) (h : fs.Leads .follow links location steps place)
    (h' : (fs.insert entry (.file content mode)).Leads .follow more location steps entry) :
    place = entry ∨ ∃ name directory target fewer, entry = name :: directory ∧
      fs.node? entry = some (.link target) ∧
        fs.Leads .follow fewer (base target directory) target.steps place := by
  have hfile := node?_insert_self fs (.file content mode) hentry
  have hstop : ∀ {more steps}, (fs.insert entry (.file content mode)).Leads .follow more entry steps
      entry → steps = [] := by
    intro more steps hrest
    exact (hrest.eq_of_not_directory (by simp [hfile])).1
  induction h generalizing more with
  | here =>
    cases h' with
    | here => exact .inl rfl
  | stay _ _ ih =>
    cases h' with
    | stay _ rest => exact ih rest
  | slash _ _ ih =>
    cases h' with
    | slash _ rest => exact ih rest
  | up _ _ ih =>
    cases h' with
    | up _ rest => exact ih rest
  | @enter _ location _ name _ _ _ _ _ hnode hrest ih =>
    cases h' with
    | enter _ _ _ _ rest =>
      by_cases hname : name :: location = entry
      · obtain rfl := hstop (hname ▸ rest)
        cases hrest with
        | here => exact .inl hname
      · exact ih rest
    | keep _ hlast => cases hlast
    | link _ _ _ _ hnode' =>
      by_cases hname : name :: location = entry
      · rw [hname, hfile] at hnode'
        cases hnode'
      · rw [node?_insert_of_ne _ _ hname] at hnode'
        exact absurd hnode' (hnode _)
  | keep _ hlast => cases hlast
  | @link _ location _ name target _ _ _ _ _ _ hnode hrest ih =>
    by_cases hname : name :: location = entry
    · cases h' with
      | enter _ _ _ _ rest =>
        obtain rfl := hstop (hname ▸ rest)
        rw [List.append_nil] at hrest
        exact .inr ⟨name, location, target, _, hname.symm, hname ▸ hnode, hrest⟩
      | keep _ hlast => cases hlast
      | link _ _ _ _ hnode' =>
        rw [hname, hfile] at hnode'
        cases hnode'
    · have hsame := node?_insert_of_ne fs (.file content mode) hname
      cases h' with
      | enter _ _ _ hnode' => exact absurd (hsame.trans hnode) (hnode' _)
      | keep _ hlast => cases hlast
      | link _ _ _ _ hnode' rest =>
        rw [hsame, hnode] at hnode'
        cases hnode'
        exact ih rest

variable {unnamed : SystemFault} {old : List UInt8} {oldMode : Nat} {node : Node}

/-- A path names the same entry after a file was put there. -/
theorem resolveEntry_insert_entry_eq {entry' : Location}
    (hentry : fs.resolveEntry unnamed path = .ok entry)
    (hdir : ∀ m, fs.node? entry ≠ some (.directory m))
    (h : (fs.insert entry (.file content mode)).resolveEntry unnamed path = .ok entry') :
    entry' = entry := by
  obtain ⟨-, -, hkeep⟩ := resolveEntry_eq_ok_iff.1 hentry
  obtain ⟨-, -, hkeep'⟩ := resolveEntry_eq_ok_iff.1 h
  exact (hkeep.eq_or_eq_of_insert (ne_nil_of_resolveEntry hentry hdir) hkeep').elim id id

theorem find_insert_of_find_file (h : fs.find path = .ok (place, .file old oldMode)) :
    (fs.insert place (.file content mode)).find path = .ok (place, .file content mode) := by
  obtain ⟨hadmits, hleads, hnode⟩ := find_eq_ok_iff.1 h
  have hplace : place ≠ [] := by
    rintro rfl
    cases hnode
  exact find_eq_ok_iff.2 ⟨hadmits, hleads.insert_file hnode, node?_insert_self fs _ hplace⟩

/-- A path that led to a file, and leads to a new file after it was put at the entry of another
path, shares the new file with that path. -/
theorem sameFile_insert_entry (hentry : fs.resolveEntry unnamed other = .ok entry)
    (hslash : other.endsInSlash = false) (hdir : ∀ m, fs.node? entry ≠ some (.directory m))
    (h : fs.find path = .ok (place, .file old oldMode))
    (h' : (fs.insert entry (.file content mode)).find path = .ok (entry, node)) :
    (fs.insert entry (.file content mode)).sameFile path other = true := by
  refine sameFile_of_find h' (find_insert_of_follow hentry hslash hdir ?_)
  intro name directory target hcons hlink
  obtain ⟨-, hleads, hnode⟩ := find_eq_ok_iff.1 h
  obtain ⟨-, hleads', -⟩ := find_eq_ok_iff.1 h'
  rcases hleads.eq_or_link_of_insert (ne_nil_of_resolveEntry hentry hdir) hleads' with
    rfl | ⟨name', directory', target', fewer, hcons', hlink', hfollow⟩
  · rw [hnode] at hlink
    cases hlink
  · obtain ⟨rfl, rfl⟩ := List.cons.inj (hcons.symm.trans hcons')
    obtain rfl : target = target' := by simpa using hlink.symm.trans hlink'
    exact ⟨fewer, place, hfollow, by simp [hnode]⟩

/-- A path that leads to a file after it was put in the place of another file shares it with every
path that names the entry. -/
theorem sameFile_insert_file (hentry : fs.resolveEntry unnamed other = .ok entry)
    (hslash : other.endsInSlash = false) (hfile : fs.node? entry = some (.file old oldMode))
    (h' : (fs.insert entry (.file content mode)).find path = .ok (entry, node)) :
    (fs.insert entry (.file content mode)).sameFile path other = true := by
  refine sameFile_of_find h' (find_insert_of_follow hentry hslash (by simp [hfile]) ?_)
  intro name directory target _ hlink
  rw [hfile] at hlink
  cases hlink

/-- After a file is put at the entry of another path, a path that does not lead there is left
alone: so is the file it led to, and it leads nowhere else. -/
theorem find_insert_apart (hentry : fs.resolveEntry unnamed other = .ok entry)
    (hslash : other.endsInSlash = false) (hdir : ∀ m, fs.node? entry ≠ some (.directory m))
    (h : fs.find path = .ok (place, .file old oldMode))
    (hapart : (fs.insert entry (.file content mode)).sameFile path other = false) :
    place ≠ entry ∧ ∀ found, (fs.insert entry (.file content mode)).find path = .ok found →
      found = (place, .file old oldMode) := by
  have hnot : ∀ node', (fs.insert entry (.file content mode)).find path ≠ .ok (entry, node') := by
    intro node' h'
    rw [sameFile_insert_entry hentry hslash hdir h h'] at hapart
    cases hapart
  constructor
  · rintro rfl
    exact hnot _ (find_insert_of_find_file h)
  · rintro ⟨place', node'⟩ h'
    rcases find_insert_of_find (ne_nil_of_resolveEntry hentry hdir) h h' with rfl | ⟨rfl, rfl⟩
    · exact absurd h' (hnot node')
    · rfl

/-- After a file is put at the entry of a path that leads to a file, a path to another file leads
there still. -/
theorem find_insert_elsewhere {place' : Location} {bytes : List UInt8} {bytesMode : Nat}
    (hother : fs.find other = .ok (place, .file old oldMode))
    (hentry : fs.resolveEntry unnamed other = .ok entry) (hslash : other.endsInSlash = false)
    (h : fs.find path = .ok (place', .file bytes bytesMode)) (hne : place' ≠ place) :
    place' ≠ entry ∧
      (fs.insert entry (.file content mode)).find path = .ok (place', .file bytes bytesMode) := by
  obtain ⟨hadmits, hleads, hnode⟩ := find_eq_ok_iff.1 h
  obtain ⟨-, hother, hfile⟩ := find_eq_ok_iff.1 hother
  obtain ⟨-, -, hkeep⟩ := resolveEntry_eq_ok_iff.1 hentry
  rw [steps_of_not_endsInSlash hslash] at hother
  obtain ⟨entry', hkeep', hentry'⟩ := hother.keep_of_follow
  obtain rfl := hkeep.unique hkeep'
  -- The other path leads to its entry, or to a link there that leads on to its file.
  rcases hentry' with rfl | ⟨name, directory, target, fewer, rfl, hlink, hfollow⟩
  · refine ⟨hne, find_eq_ok_iff.2 ⟨hadmits, hleads.insert_apart hne (by simp [hfile]) ?_, ?_⟩⟩
    · intro _ _ target _ _ _ hlink
      rw [hfile] at hlink
      cases hlink
    rw [node?_insert_of_ne _ _ hne]
    exact hnode
  · have hne' : place' ≠ name :: directory := by
      rintro rfl
      cases hnode.symm.trans hlink
    refine ⟨hne', find_eq_ok_iff.2
      ⟨hadmits, hleads.insert_apart hne' (by simp [hlink]) ?_, ?_⟩⟩
    · intro name' directory' target' more back hcons hlink' hback
      obtain ⟨rfl, rfl⟩ := List.cons.inj hcons
      obtain rfl : target = target' := by simpa using hlink.symm.trans hlink'
      cases back with
      | nil =>
        rw [List.append_nil] at hback
        exact hne (hback.unique hfollow)
      | cons step back =>
        obtain ⟨middle, hmiddle, hrest⟩ := hback.split (List.cons_ne_nil step back)
        rw [hmiddle.unique hfollow] at hrest
        exact absurd (hrest.eq_of_not_directory (by simp [hfile])).1 (List.cons_ne_nil step back)
    · rw [node?_insert_of_ne _ _ hne']
      exact hnode

end CaseReport.FileSystem
