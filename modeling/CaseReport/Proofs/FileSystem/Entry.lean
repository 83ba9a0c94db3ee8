import CaseReport.FileSystem.Request
import CaseReport.Proofs.FileSystem.Leads

/-!
# Entries in whose place a file is put

A rename puts a file at the entry that a path names, and if that entry was a link the path leads to
another place from then on. What leads to a file through its entry leads to the entry afterwards,
and every other path that still leads somewhere leads to the entry or to where it led before.
-/

namespace CaseReport.FileSystem

open Path

variable {fs fs' : FileSystem} {path : Path} {node node' : Node} {place place' entry : Location}
  {content : List UInt8} {mode : Nat}

theorem resolve_eq_ok_iff {last : LastStep} : fs.resolve last path = .ok place ↔
    admits path = .ok () ∧ fs.Leads last maxLinks (fs.start path) path.steps place := by
  rw [← walk_eq_ok_iff, resolve]
  cases admits path <;> simp [bind, Except.bind]

theorem find_eq_ok_iff : fs.find path = .ok (place, node) ↔
    admits path = .ok () ∧ fs.Leads .follow maxLinks (fs.start path) path.steps place ∧
      fs.node? place = some node := by
  rw [← walk_eq_ok_iff, find, resolve]
  cases admits path with
  | error fault => simp [bind, Except.bind]
  | ok =>
    cases hw : fs.walk .follow maxLinks (fs.start path) path.steps with
    | error fault => simp [bind, Except.bind]
    | ok location =>
      cases hn : fs.node? location with
      | none =>
        simp only [bind, Except.bind, hn]
        constructor
        · intro h
          cases h
        · rintro ⟨-, h, hnode⟩
          cases h
          rw [hn] at hnode
          cases hnode
      | some found =>
        simp only [bind, Except.bind, hn, Except.ok.injEq, Prod.mk.injEq, true_and]
        constructor
        · rintro ⟨rfl, rfl⟩
          exact ⟨rfl, hn⟩
        · rintro ⟨rfl, hnode⟩
          exact ⟨rfl, Option.some.inj (hn.symm.trans hnode)⟩

/-- A path names an entry when its last step goes to one. -/
theorem resolveEntry_eq_ok_iff {unnamed : SystemFault} :
    fs.resolveEntry unnamed path = .ok entry ↔
      admits path = .ok () ∧ (∃ name, path.innerSteps.getLast? = some (.enter name)) ∧
        fs.Leads .keep maxLinks (fs.start path) path.innerSteps entry := by
  rw [← walk_eq_ok_iff, resolveEntry]
  cases admits path with
  | error fault => simp [bind, Except.bind]
  | ok =>
    simp only [bind, Except.bind, true_and]
    split
    · next name hlast => simp [hlast]
    · next hlast =>
      constructor
      · intro h
        split at h
        · cases h
        · split at h <;> cases h
      · rintro ⟨⟨name, hname⟩, -⟩
        exact absurd hname (hlast name)

theorem read_eq_ok_iff : fs.read path = .ok content ↔
    ∃ place mode, fs.find path = .ok (place, .file content mode) := by
  rw [read]
  cases fs.find path with
  | error fault => simp [bind, Except.bind]
  | ok found =>
    obtain ⟨place, node⟩ := found
    cases node <;> simp [bind, Except.bind]

theorem steps_of_not_endsInSlash (h : path.endsInSlash = false) : path.steps = path.innerSteps := by
  simp [steps, h]

theorem ne_nil_of_resolveEntry {unnamed : SystemFault}
    (h : fs.resolveEntry unnamed path = .ok entry)
    (hdir : ∀ m, fs.node? entry ≠ some (.directory m)) : entry ≠ [] := by
  rintro rfl
  exact hdir _ (node?_root fs)

/-! ## Walks around a new file -/

private theorem node?_of_insert_ne (h : fs.node? place ≠ some node')
    (hnode : fs.node? entry = some node') (newcomer : Node) :
    (fs.insert place newcomer).node? entry = some node' := by
  rw [node?_insert_of_ne]
  · exact hnode
  · rintro rfl
    exact h hnode

/-- Where steps lead before and after a file is put at an entry. -/
theorem Leads.eq_or_eq_of_insert {last : LastStep} {links more : Nat} {location : Location}
    {steps : List Step} (hentry : entry ≠ [])
    (h : fs.Leads last links location steps place)
    (h' : (fs.insert entry (.file content mode)).Leads last more location steps place') :
    place' = entry ∨ place' = place := by
  have hfile := node?_insert_self fs (.file content mode) hentry
  -- A walk that comes to the entry has to end there, because a file is no directory.
  have hstop : ∀ {more steps}, (fs.insert entry (.file content mode)).Leads last more entry steps
      place' → place' = entry := by
    intro more steps hrest
    exact (hrest.eq_of_not_directory (by simp [hfile])).2
  induction h generalizing more with
  | here =>
    cases h' with
    | here => exact .inr rfl
  | stay _ _ ih =>
    cases h' with
    | stay _ rest => exact ih rest
  | slash _ _ ih =>
    cases h' with
    | slash _ rest => exact ih rest
  | up _ _ ih =>
    cases h' with
    | up _ rest => exact ih rest
  | @enter _ location _ name _ _ _ _ _ hnode _ ih =>
    by_cases hname : name :: location = entry
    · cases h' with
      | enter _ _ _ _ rest => exact .inl (hstop (hname ▸ rest))
      | keep => exact .inl hname
      | link _ _ _ _ hnode' => rw [hname, hfile] at hnode'; cases hnode'
    · cases h' with
      | enter _ _ _ _ rest => exact ih rest
      | keep _ _ _ hnode' =>
        rw [node?_insert_of_ne _ _ hname] at hnode'
        exact absurd hnode' (hnode _)
      | link _ _ _ _ hnode' =>
        rw [node?_insert_of_ne _ _ hname] at hnode'
        exact absurd hnode' (hnode _)
  | @keep _ location _ name _ _ hlast _ hnode =>
    cases h' with
    | enter _ _ _ hnode' rest =>
      by_cases hname : name :: location = entry
      · exact .inl (hstop (hname ▸ rest))
      · rw [← node?_insert_of_ne fs (.file content mode) hname] at hnode
        exact absurd hnode (hnode' _)
    | keep => exact .inr rfl
    | link _ _ _ hlast' => exact absurd ⟨hlast, rfl⟩ hlast'
  | @link _ location _ name target _ _ _ _ _ hlast hnode _ ih =>
    by_cases hname : name :: location = entry
    · cases h' with
      | enter _ _ _ _ rest => exact .inl (hstop (hname ▸ rest))
      | keep => exact .inl hname
      | link _ _ _ _ hnode' => rw [hname, hfile] at hnode'; cases hnode'
    · have hsame := node?_insert_of_ne fs (.file content mode) hname
      cases h' with
      | enter _ _ _ hnode' => exact absurd (hsame.trans hnode) (hnode' _)
      | keep _ hlast' => exact absurd ⟨hlast', rfl⟩ hlast
      | link _ _ _ _ hnode' rest =>
        rw [hsame, hnode] at hnode'
        cases hnode'
        exact ih rest

/-- A walk that does not end at a new file was there before. -/
theorem Leads.of_insert {last : LastStep} {links : Nat} {location : Location} {steps : List Step}
    (hentry : entry ≠ []) (hne : place ≠ entry)
    (h : (fs.insert entry (.file content mode)).Leads last links location steps place) :
    fs.Leads last links location steps place := by
  have hfile := node?_insert_self fs (.file content mode) hentry
  have hback : ∀ {location node},
      (fs.insert entry (.file content mode)).node? location = some node →
        (∀ c m, node ≠ .file c m) → fs.node? location = some node := by
    intro location node hnode hnot
    rw [node?_insert_of_ne] at hnode
    · exact hnode
    · rintro rfl
      exact hnot _ _ (Option.some.inj (hnode.symm.trans hfile))
  induction h with
  | here => exact .here
  | stay hdir _ ih => exact .stay (hback hdir (by simp)) (ih hne)
  | slash hdir _ ih => exact .slash (hback hdir (by simp)) (ih hne)
  | up hdir _ ih => exact .up (hback hdir (by simp)) (ih hne)
  | @enter _ location _ name _ place hdir hfill hsize hnode rest ih =>
    have hname : name :: location ≠ entry := by
      intro hname
      rw [hname] at rest
      exact hne (rest.eq_of_not_directory (by simp [hfile])).2
    rw [node?_insert_of_ne _ _ hname] at hnode
    exact .enter (hback hdir (by simp)) hfill hsize hnode (ih hne)
  | keep hdir hlast hsize hnode =>
    exact .keep (hback hdir (by simp)) hlast hsize (hback hnode (by simp))
  | link hdir hfill hsize hlast hnode _ ih =>
    exact .link (hback hdir (by simp)) hfill hsize hlast (hback hnode (by simp)) (ih hne)

/-- A walk goes on to its end when a file is put at an entry, unless it ends there or passes through
a link there. -/
theorem Leads.insert_apart {links : Nat} {location : Location} {steps : List Step}
    (h : fs.Leads .follow links location steps place) (hne : place ≠ entry)
    (hdir : ∀ m, fs.node? entry ≠ some (.directory m))
    (hlink : ∀ {name directory target fewer back}, entry = name :: directory →
      fs.node? entry = some (.link target) →
        ¬fs.Leads .follow fewer (base target directory) (target.steps ++ back) place) :
    (fs.insert entry (.file content mode)).Leads .follow links location steps place := by
  have hkeep : ∀ {location m}, fs.node? location = some (.directory m) →
      (fs.insert entry (.file content mode)).node? location = some (.directory m) :=
    fun hnode => node?_of_insert_ne (hdir _) hnode _
  induction h with
  | here => exact .here
  | stay hd _ ih => exact .stay (hkeep hd) (ih hne hlink)
  | slash hd _ ih => exact .slash (hkeep hd) (ih hne hlink)
  | up hd _ ih => exact .up (hkeep hd) (ih hne hlink)
  | @enter _ location _ name _ place hd hfill hsize hnode rest ih =>
    have hname : name :: location ≠ entry := by
      rintro rfl
      exact hne (rest.eq_of_not_directory hdir).2
    refine .enter (hkeep hd) hfill hsize ?_ (ih hne hlink)
    rw [node?_insert_of_ne _ _ hname]
    exact hnode
  | keep _ hlast => cases hlast
  | @link _ location _ name target steps place hd hfill hsize hlast hnode rest ih =>
    have hname : name :: location ≠ entry := by
      rintro rfl
      exact hlink rfl hnode rest
    refine .link (hkeep hd) hfill hsize hlast ?_ (ih hne hlink)
    rw [node?_insert_of_ne _ _ hname]
    exact hnode

/-- Steps that lead through an entry to a file lead to the entry when a file is put there. -/
theorem Leads.follow_insert_entry {links : Nat} {location : Location} {steps : List Step}
    (h : fs.Leads .keep links location steps entry)
    (hdir : ∀ m, fs.node? entry ≠ some (.directory m))
    (hfollow : ∀ {name directory target}, entry = name :: directory →
      fs.node? entry = some (.link target) → ∃ fewer place,
        fs.Leads .follow fewer (base target directory) target.steps place ∧
          ∀ m, fs.node? place ≠ some (.directory m)) :
    (fs.insert entry (.file content mode)).Leads .follow links location steps entry := by
  have hentry : entry ≠ [] := by
    rintro rfl
    exact hdir _ (node?_root fs)
  have hfile := node?_insert_self fs (.file content mode) hentry
  have hkeep : ∀ {location m}, fs.node? location = some (.directory m) →
      (fs.insert entry (.file content mode)).node? location = some (.directory m) :=
    fun hnode => node?_of_insert_ne (hdir _) hnode _
  induction h with
  | here => exact .here
  | stay hd _ ih => exact .stay (hkeep hd) (ih hdir hfollow hentry hfile hkeep)
  | slash hd _ ih => exact .slash (hkeep hd) (ih hdir hfollow hentry hfile hkeep)
  | up hd _ ih => exact .up (hkeep hd) (ih hdir hfollow hentry hfile hkeep)
  | @enter _ location _ name _ entry hd _ hsize hnode rest ih =>
    refine .enter (hkeep hd) (by simp) hsize ?_ (ih hdir hfollow hentry hfile hkeep)
    intro target htarget
    by_cases hname : name :: location = entry
    · rw [hname, hfile] at htarget
      cases htarget
    · rw [node?_insert_of_ne _ _ hname] at htarget
      exact hnode target htarget
  | keep hd _ hsize _ =>
    exact .enter (hkeep hd) (by simp) hsize (by simp [hfile]) .here
  | @link _ location _ name target steps entry hd _ hsize hlast hnode rest ih =>
    have hsteps : steps ≠ [] := fun hs => hlast ⟨rfl, hs⟩
    have hname : name :: location ≠ entry := by
      -- The link is passed on the way to itself, but what it leads to is no directory.
      intro hname
      obtain ⟨fewer, place, hplace, hnot⟩ := hfollow hname.symm (hname ▸ hnode)
      obtain ⟨middle, hmiddle, hback⟩ := rest.split hsteps
      rw [hplace.unique hmiddle] at hnot
      exact hsteps (hback.eq_of_not_directory hnot).1
    refine .link (hkeep hd) (by simp) hsize (by simp) ?_ (ih hdir hfollow hentry hfile hkeep)
    rw [node?_insert_of_ne _ _ hname]
    exact hnode

/-! ## Paths around a new file -/

/-- What a larger file system finds at a path. -/
theorem find_of_isPartOf (hpart : fs.IsPartOf fs') (h : fs.find path = .ok (place, node)) :
    fs'.find path = .ok (place, node) := by
  rw [find_eq_ok_iff] at h ⊢
  obtain ⟨hadmits, hleads, hnode⟩ := h
  refine ⟨hadmits, ?_, hpart.node? hnode⟩
  have hstart : fs'.start path = fs.start path := by simp [start, hpart.workingDirectory]
  rw [hstart]
  exact hleads.of_isPartOf hpart (by simp [hnode])

theorem resolveEntry_of_isPartOf {unnamed : SystemFault} (hpart : fs.IsPartOf fs')
    (h : fs.resolveEntry unnamed path = .ok entry) (hnode : fs.node? entry ≠ none) :
    fs'.resolveEntry unnamed path = .ok entry := by
  rw [resolveEntry_eq_ok_iff] at h ⊢
  obtain ⟨hadmits, hname, hleads⟩ := h
  refine ⟨hadmits, hname, ?_⟩
  have hstart : fs'.start path = fs.start path := by simp [start, hpart.workingDirectory]
  rw [hstart]
  exact hleads.of_isPartOf hpart fun hvacant => absurd hvacant hnode

/-- The entry through which a path leads to something. -/
theorem exists_entry_of_find (unnamed : SystemFault) (h : fs.find path = .ok (place, node))
    (hname : ∃ name, path.innerSteps.getLast? = some (.enter name))
    (hslash : path.endsInSlash = false) :
    ∃ entry, fs.resolveEntry unnamed path = .ok entry ∧
      (entry = place ∨ ∃ target, fs.node? entry = some (.link target)) := by
  obtain ⟨hadmits, hleads, -⟩ := find_eq_ok_iff.1 h
  rw [steps_of_not_endsInSlash hslash] at hleads
  obtain ⟨entry, hkeep, hentry⟩ := hleads.keep_of_follow
  refine ⟨entry, resolveEntry_eq_ok_iff.2 ⟨hadmits, hname, hkeep⟩, ?_⟩
  rcases hentry with hentry | ⟨_, _, target, _, -, hnode, -⟩
  · exact .inl hentry
  · exact .inr ⟨target, hnode⟩

/-- A path leads to the new file that is put at its entry, unless what is there is a link that leads
to a directory or nowhere. -/
theorem find_insert_of_follow {unnamed : SystemFault}
    (hentry : fs.resolveEntry unnamed path = .ok entry) (hslash : path.endsInSlash = false)
    (hdir : ∀ m, fs.node? entry ≠ some (.directory m))
    (hfollow : ∀ {name directory target}, entry = name :: directory →
      fs.node? entry = some (.link target) → ∃ fewer place,
        fs.Leads .follow fewer (base target directory) target.steps place ∧
          ∀ m, fs.node? place ≠ some (.directory m)) :
    (fs.insert entry (.file content mode)).find path = .ok (entry, .file content mode) := by
  obtain ⟨hadmits, -, hkeep⟩ := resolveEntry_eq_ok_iff.1 hentry
  have hne := ne_nil_of_resolveEntry hentry hdir
  rw [find_eq_ok_iff, steps_of_not_endsInSlash hslash]
  exact ⟨hadmits, hkeep.follow_insert_entry hdir hfollow, node?_insert_self fs _ hne⟩

/-- If a path leads anywhere after a file is put at its entry, it leads to that file. -/
theorem find_insert_entry_eq {unnamed : SystemFault}
    (hentry : fs.resolveEntry unnamed path = .ok entry) (hslash : path.endsInSlash = false)
    (hdir : ∀ m, fs.node? entry ≠ some (.directory m))
    (h : (fs.insert entry (.file content mode)).find path = .ok (place, node)) :
    place = entry ∧ node = .file content mode := by
  obtain ⟨-, -, hkeep⟩ := resolveEntry_eq_ok_iff.1 hentry
  obtain ⟨-, hleads, hnode⟩ := find_eq_ok_iff.1 h
  have hne := ne_nil_of_resolveEntry hentry hdir
  have hfile := node?_insert_self fs (.file content mode) hne
  rw [steps_of_not_endsInSlash hslash] at hleads
  obtain ⟨entry', hkeep', hentry'⟩ := hleads.keep_of_follow
  obtain rfl : entry' = entry := (hkeep.eq_or_eq_of_insert hne hkeep').elim id id
  rcases hentry' with rfl | ⟨_, _, target, _, -, hlink, -⟩
  · exact ⟨rfl, Option.some.inj (hnode.symm.trans hfile)⟩
  · rw [hfile] at hlink
    cases hlink

/-- Any path after a file is put at an entry: it leads to the entry or where it led before. -/
theorem find_insert_of_find (hentry : entry ≠ []) (h : fs.find path = .ok (place, node))
    (h' : (fs.insert entry (.file content mode)).find path = .ok (place', node')) :
    place' = entry ∨ place' = place ∧ node' = node := by
  obtain ⟨-, hleads, hnode⟩ := find_eq_ok_iff.1 h
  obtain ⟨-, hleads', hnode'⟩ := find_eq_ok_iff.1 h'
  by_cases hplace : place' = entry
  · exact .inl hplace
  · have hsame := (hleads.eq_or_eq_of_insert hentry hleads').resolve_left hplace
    rw [node?_insert_of_ne _ _ hplace, hsame, hnode] at hnode'
    exact .inr ⟨hsame, (Option.some.inj hnode').symm⟩

end CaseReport.FileSystem
