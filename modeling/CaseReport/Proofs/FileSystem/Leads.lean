import CaseReport.FileSystem.Walk

/-!
# Where steps lead

The successful walks as a relation, with one rule for each kind of step, so that facts about walks
are inductions over the steps that were taken. The number is how many links may still be followed.
The relation is what the walking function computes, and the facts after that say how walks are cut
and joined, what becomes of them when links at the end are kept, and what they are in a larger file
system.
-/

namespace CaseReport.FileSystem

open Path

/-- Where the target of a link starts, if the link lies in the directory at a location. -/
def base (target : Path) (location : Location) : Location :=
  if target.isAbsolute then [] else location

/-- The steps lead from one location to another. -/
inductive Leads (fs : FileSystem) (last : LastStep) :
    Nat → Location → List Step → Location → Prop where
  | here {links location} : Leads fs last links location [] location
  | stay {links location mode steps place} (hdir : fs.node? location = some (.directory mode))
      (rest : Leads fs last links location steps place) :
      Leads fs last links location (.stay :: steps) place
  | slash {links location mode steps place} (hdir : fs.node? location = some (.directory mode))
      (rest : Leads fs last links location steps place) :
      Leads fs last links location (.slash :: steps) place
  | up {links location mode steps place} (hdir : fs.node? location = some (.directory mode))
      (rest : Leads fs last links location.tail steps place) :
      Leads fs last links location (.up :: steps) place
  | enter {links location mode name steps place}
      (hdir : fs.node? location = some (.directory mode))
      (hfill : ¬(last = .fill ∧ steps = [.slash])) (hsize : ¬maxNameSize < name.utf8ByteSize)
      (hnode : ∀ target, fs.node? (name :: location) ≠ some (.link target))
      (rest : Leads fs last links (name :: location) steps place) :
      Leads fs last links location (.enter name :: steps) place
  | keep {links location mode name target} (hdir : fs.node? location = some (.directory mode))
      (hlast : last = .keep) (hsize : ¬maxNameSize < name.utf8ByteSize)
      (hnode : fs.node? (name :: location) = some (.link target)) :
      Leads fs last links location [.enter name] (name :: location)
  | link {links location mode name target steps place}
      (hdir : fs.node? location = some (.directory mode))
      (hfill : ¬(last = .fill ∧ steps = [.slash])) (hsize : ¬maxNameSize < name.utf8ByteSize)
      (hlast : ¬(last = .keep ∧ steps = []))
      (hnode : fs.node? (name :: location) = some (.link target))
      (rest : Leads fs last links (base target location) (target.steps ++ steps) place) :
      Leads fs last (links + 1) location (.enter name :: steps) place

variable {fs fs' : FileSystem} {last : LastStep} {links more : Nat}
  {location place other : Location} {steps : List Step}

private theorem leads_of_walkUntilLink
    {onLink : Location → List Step → Except SystemFault Location}
    (hlink : ∀ location steps, onLink location steps = .ok place →
      ∃ fewer, links = fewer + 1 ∧ fs.Leads last fewer location steps place)
    (h : fs.walkUntilLink last onLink location steps = .ok place) :
    fs.Leads last links location steps place := by
  induction steps generalizing location with
  | nil =>
    cases h
    exact .here
  | cons step steps ih =>
    rw [walkUntilLink.eq_def] at h
    simp only at h
    split at h
    · cases h
    · cases h
    · cases h
    · next hdir =>
      cases step with
      | stay => exact .stay hdir (ih h)
      | slash => exact .slash hdir (ih h)
      | up => exact .up hdir (ih h)
      | enter name =>
        simp only at h
        split at h
        · cases h
        · next hfill =>
          split at h
          · cases h
          · next hsize =>
            split at h
            · next hnode =>
              split at h
              · next hlast =>
                cases h
                rw [hlast.2]
                exact .keep hdir hlast.1 hsize hnode
              · next hlast =>
                obtain ⟨fewer, rfl, rest⟩ := hlink _ _ h
                exact .link hdir hfill hsize hlast hnode rest
            · next hnode => exact .enter hdir hfill hsize hnode (ih h)

private theorem leads_of_walk (h : fs.walk last links location steps = .ok place) :
    fs.Leads last links location steps place := by
  induction links generalizing location steps with
  | zero =>
    have hnone : ∀ location steps, (fun _ _ => .error .tooManyLinks :
        Location → List Step → Except SystemFault Location) location steps = .ok place →
        ∃ fewer, 0 = fewer + 1 ∧ fs.Leads last fewer location steps place := by
      intro _ _ hlink
      cases hlink
    exact leads_of_walkUntilLink hnone h
  | succ links ih => exact leads_of_walkUntilLink (fun _ _ hlink => ⟨links, rfl, ih hlink⟩) h

private theorem walkUntilLink_enter
    {onLink : Location → List Step → Except SystemFault Location} {mode : Nat} {name : String}
    (hdir : fs.node? location = some (.directory mode))
    (hfill : ¬(last = .fill ∧ steps = [.slash])) (hsize : ¬maxNameSize < name.utf8ByteSize)
    (hnode : ∀ target, fs.node? (name :: location) ≠ some (.link target)) :
    fs.walkUntilLink last onLink location (.enter name :: steps) =
      fs.walkUntilLink last onLink (name :: location) steps := by
  simp only [walkUntilLink, hdir]
  rw [if_neg hfill, if_neg hsize]

private theorem walk_of_leads (h : fs.Leads last links location steps place) :
    fs.walk last links location steps = .ok place := by
  induction h with
  | @here links => cases links <;> rfl
  | @stay links _ _ _ _ hdir _ ih => cases links <;> simpa [walk, walkUntilLink, hdir] using ih
  | @slash links _ _ _ _ hdir _ ih => cases links <;> simpa [walk, walkUntilLink, hdir] using ih
  | @up links _ _ _ _ hdir _ ih => cases links <;> simpa [walk, walkUntilLink, hdir] using ih
  | @enter links _ _ _ _ _ hdir hfill hsize hnode _ ih =>
    cases links <;> simpa [walk, walkUntilLink_enter hdir hfill hsize hnode] using ih
  | @keep links _ _ _ _ hdir hlast hsize hnode =>
    cases links <;> simp [walk, walkUntilLink, hdir, hlast, hsize, hnode]
  | link hdir hfill hsize hlast hnode _ ih =>
    rw [base] at ih
    simp only [walk, walkUntilLink, hdir, hnode]
    rw [if_neg hfill, if_neg hsize, if_neg hlast, ih]

/-- The relation is what the walking function computes. -/
theorem walk_eq_ok_iff :
    fs.walk last links location steps = .ok place ↔ fs.Leads last links location steps place :=
  ⟨leads_of_walk, walk_of_leads⟩

namespace Leads

theorem mono (h : fs.Leads last links location steps place) (hle : links ≤ more) :
    fs.Leads last more location steps place := by
  induction h generalizing more with
  | here => exact .here
  | stay hdir _ ih => exact .stay hdir (ih hle)
  | slash hdir _ ih => exact .slash hdir (ih hle)
  | up hdir _ ih => exact .up hdir (ih hle)
  | enter hdir hfill hsize hnode _ ih => exact .enter hdir hfill hsize hnode (ih hle)
  | keep hdir hlast hsize hnode => exact .keep hdir hlast hsize hnode
  | link hdir hfill hsize hlast hnode _ ih =>
    obtain ⟨more, rfl⟩ : ∃ n, more = n + 1 := ⟨more - 1, by omega⟩
    exact .link hdir hfill hsize hlast hnode (ih (by omega))

/-- Steps lead to one place only, however many links may be followed. -/
theorem unique (h : fs.Leads last links location steps place)
    (h' : fs.Leads last more location steps other) : place = other := by
  have hm := walk_eq_ok_iff.2 (h.mono (Nat.le_max_left links more))
  have hm' := walk_eq_ok_iff.2 (h'.mono (Nat.le_max_right links more))
  exact Except.ok.inj (hm.symm.trans hm')

/-- Where a step is to be taken there has to be a directory. -/
theorem directory_of_ne_nil (h : fs.Leads last links location steps place) (hs : steps ≠ []) :
    ∃ mode, fs.node? location = some (.directory mode) := by
  cases h with
  | here => exact absurd rfl hs
  | stay hdir => exact ⟨_, hdir⟩
  | slash hdir => exact ⟨_, hdir⟩
  | up hdir => exact ⟨_, hdir⟩
  | enter hdir => exact ⟨_, hdir⟩
  | keep hdir => exact ⟨_, hdir⟩
  | link hdir => exact ⟨_, hdir⟩

/-- Steps that are taken from no directory are no steps. -/
theorem eq_of_not_directory (h : fs.Leads last links location steps place)
    (hdir : ∀ mode, fs.node? location ≠ some (.directory mode)) :
    steps = [] ∧ place = location := by
  cases steps with
  | nil =>
    cases h with
    | here => exact ⟨rfl, rfl⟩
  | cons step steps =>
    obtain ⟨mode, hmode⟩ := h.directory_of_ne_nil (List.cons_ne_nil step steps)
    exact absurd hmode (hdir mode)

/-- Filling a location is walking to it. -/
theorem follow_of_fill (h : fs.Leads .fill links location steps place) :
    fs.Leads .follow links location steps place := by
  induction h with
  | here => exact .here
  | stay hdir _ ih => exact .stay hdir ih
  | slash hdir _ ih => exact .slash hdir ih
  | up hdir _ ih => exact .up hdir ih
  | enter hdir _ hsize hnode _ ih => exact .enter hdir (by simp) hsize hnode ih
  | keep _ hlast => cases hlast
  | link hdir _ hsize _ hnode _ ih => exact .link hdir (by simp) hsize (by simp) hnode ih

/-- A walk passes through where its first steps lead, following links as long as steps remain. -/
theorem split {front back : List Step} (h : fs.Leads last links location (front ++ back) place)
    (hback : back ≠ []) :
    ∃ middle, fs.Leads .follow links location front middle ∧
      fs.Leads last links middle back place := by
  -- The steps that remain grow at a link, so the induction is on the walk and not on `front`.
  generalize hs : front ++ back = steps at h
  induction h generalizing front with
  | here => exact absurd (List.append_eq_nil_iff.1 hs).2 hback
  | stay hdir rest ih =>
    rcases List.append_eq_cons_iff.1 hs with ⟨rfl, rfl⟩ | ⟨front, rfl, hs'⟩
    · exact ⟨_, .here, .stay hdir rest⟩
    · obtain ⟨middle, h₁, h₂⟩ := ih hs'.symm
      exact ⟨middle, .stay hdir h₁, h₂⟩
  | slash hdir rest ih =>
    rcases List.append_eq_cons_iff.1 hs with ⟨rfl, rfl⟩ | ⟨front, rfl, hs'⟩
    · exact ⟨_, .here, .slash hdir rest⟩
    · obtain ⟨middle, h₁, h₂⟩ := ih hs'.symm
      exact ⟨middle, .slash hdir h₁, h₂⟩
  | up hdir rest ih =>
    rcases List.append_eq_cons_iff.1 hs with ⟨rfl, rfl⟩ | ⟨front, rfl, hs'⟩
    · exact ⟨_, .here, .up hdir rest⟩
    · obtain ⟨middle, h₁, h₂⟩ := ih hs'.symm
      exact ⟨middle, .up hdir h₁, h₂⟩
  | enter hdir hfill hsize hnode rest ih =>
    rcases List.append_eq_cons_iff.1 hs with ⟨rfl, rfl⟩ | ⟨front, rfl, hs'⟩
    · exact ⟨_, .here, .enter hdir hfill hsize hnode rest⟩
    · obtain ⟨middle, h₁, h₂⟩ := ih hs'.symm
      exact ⟨middle, .enter hdir (by simp) hsize hnode h₁, h₂⟩
  | keep hdir hlast hsize hnode =>
    rcases List.append_eq_cons_iff.1 hs with ⟨rfl, rfl⟩ | ⟨front, rfl, hs'⟩
    · exact ⟨_, .here, .keep hdir hlast hsize hnode⟩
    · exact absurd (List.append_eq_nil_iff.1 hs'.symm).2 hback
  | @link _ _ _ _ target _ _ hdir hfill hsize hlast hnode rest ih =>
    rcases List.append_eq_cons_iff.1 hs with ⟨rfl, rfl⟩ | ⟨front, rfl, rfl⟩
    · exact ⟨_, .here, .link hdir hfill hsize hlast hnode rest⟩
    · obtain ⟨middle, h₁, h₂⟩ := ih (List.append_assoc target.steps front back)
      exact ⟨middle, .link hdir (by simp) hsize (by simp) hnode h₁, h₂.mono (Nat.le_succ _)⟩

/-- A walk goes on from where another one ends. -/
theorem append {front back : List Step} (h : fs.Leads .follow links location front other)
    (h' : fs.Leads .follow more other back place) :
    fs.Leads .follow (links + more) location (front ++ back) place := by
  induction h with
  | here => exact h'.mono (Nat.le_add_left ..)
  | stay hdir _ ih => exact .stay hdir (ih h')
  | slash hdir _ ih => exact .slash hdir (ih h')
  | up hdir _ ih => exact .up hdir (ih h')
  | enter hdir _ hsize hnode _ ih => exact .enter hdir (by simp) hsize hnode (ih h')
  | keep _ hlast => cases hlast
  | link hdir _ hsize _ hnode _ ih =>
    rw [List.append_assoc] at ih
    rw [Nat.add_right_comm]
    exact .link hdir (by simp) hsize (by simp) hnode (ih h')

/-- A slash at the end wants a directory. -/
theorem directory_of_slash {front : List Step}
    (h : fs.Leads last links location (front ++ [.slash]) place) :
    ∃ mode, fs.node? place = some (.directory mode) := by
  obtain ⟨middle, -, hslash⟩ := h.split (List.cons_ne_nil _ _)
  cases hslash with
  | slash hdir rest =>
    cases rest with
    | here => exact ⟨_, hdir⟩

/-- Walking to what is no directory is filling it. -/
theorem fill_of_follow (h : fs.Leads .follow links location steps place)
    (hplace : ∀ mode, fs.node? place ≠ some (.directory mode)) :
    fs.Leads .fill links location steps place := by
  induction h with
  | here => exact .here
  | stay hdir _ ih => exact .stay hdir (ih hplace)
  | slash hdir _ ih => exact .slash hdir (ih hplace)
  | up hdir _ ih => exact .up hdir (ih hplace)
  | enter hdir _ hsize hnode rest ih =>
    refine .enter hdir ?_ hsize hnode (ih hplace)
    rintro ⟨-, rfl⟩
    rw [← List.nil_append [Step.slash]] at rest
    obtain ⟨mode, hmode⟩ := rest.directory_of_slash
    exact hplace mode hmode
  | keep _ hlast => cases hlast
  | link hdir _ hsize _ hnode rest ih =>
    refine .link hdir ?_ hsize (by simp) hnode (ih hplace)
    rintro ⟨-, rfl⟩
    obtain ⟨mode, hmode⟩ := rest.directory_of_slash
    exact hplace mode hmode

/-- A walk that keeps a link at its end stops at the place of the following walk, or at a link
that leads there. -/
theorem keep_of_follow (h : fs.Leads .follow links location steps place) :
    ∃ entry, fs.Leads .keep links location steps entry ∧
      (entry = place ∨ ∃ name directory target fewer, entry = name :: directory ∧
        fs.node? entry = some (.link target) ∧
        fs.Leads .follow fewer (base target directory) target.steps place) := by
  induction h with
  | here => exact ⟨_, .here, .inl rfl⟩
  | stay hdir _ ih =>
    obtain ⟨entry, h, hentry⟩ := ih
    exact ⟨entry, .stay hdir h, hentry⟩
  | slash hdir _ ih =>
    obtain ⟨entry, h, hentry⟩ := ih
    exact ⟨entry, .slash hdir h, hentry⟩
  | up hdir _ ih =>
    obtain ⟨entry, h, hentry⟩ := ih
    exact ⟨entry, .up hdir h, hentry⟩
  | enter hdir _ hsize hnode _ ih =>
    obtain ⟨entry, h, hentry⟩ := ih
    exact ⟨entry, .enter hdir (by simp) hsize hnode h, hentry⟩
  | keep _ hlast => cases hlast
  | @link links location _ name target steps _ hdir _ hsize _ hnode rest ih =>
    by_cases hs : steps = []
    · subst hs
      rw [List.append_nil] at rest
      exact ⟨_, .keep hdir rfl hsize hnode, .inr ⟨name, location, target, links, rfl, hnode, rest⟩⟩
    · obtain ⟨entry, h, hentry⟩ := ih
      exact ⟨entry, .link hdir (by simp) hsize (by simp [hs]) hnode h, hentry⟩

end Leads

/-- Everything in one file system is also in the other one. -/
structure IsPartOf (fs fs' : FileSystem) : Prop where
  workingDirectory : fs'.workingDirectory = fs.workingDirectory
  umask : fs'.umask = fs.umask
  node? : ∀ {location node}, fs.node? location = some node → fs'.node? location = some node

theorem IsPartOf.refl (fs : FileSystem) : fs.IsPartOf fs :=
  ⟨rfl, rfl, id⟩

theorem IsPartOf.trans {fs'' : FileSystem} (h : fs.IsPartOf fs') (h' : fs'.IsPartOf fs'') :
    fs.IsPartOf fs'' :=
  ⟨h'.workingDirectory.trans h.workingDirectory, h'.umask.trans h.umask,
    fun hnode => h'.node? (h.node? hnode)⟩

theorem isPartOf_insert {node : Node} (h : fs.node? place = none) :
    fs.IsPartOf (fs.insert place node) := by
  refine ⟨rfl, rfl, ?_⟩
  intro location node' hnode
  have hne : location ≠ place := by
    rintro rfl
    rw [h] at hnode
    cases hnode
  rw [node?_insert_of_ne _ _ hne]
  exact hnode

theorem isPartOf_erase (h : place ≠ []) : (fs.erase place).IsPartOf fs := by
  refine ⟨rfl, rfl, ?_⟩
  intro location node hnode
  have hne : location ≠ place := by
    rintro rfl
    rw [node?_erase_self fs h] at hnode
    cases hnode
  rw [node?_erase_of_ne _ hne] at hnode
  exact hnode

/-- What leads to something leads there in every larger file system, and so does what leads to a
vacant place, unless there is a link now. -/
theorem Leads.of_isPartOf (hpart : fs.IsPartOf fs')
    (h : fs.Leads last links location steps place)
    (hplace : fs.node? place = none → ∀ target, fs'.node? place ≠ some (.link target)) :
    fs'.Leads last links location steps place := by
  induction h with
  | here => exact .here
  | stay hdir _ ih => exact .stay (hpart.node? hdir) (ih hplace)
  | slash hdir _ ih => exact .slash (hpart.node? hdir) (ih hplace)
  | up hdir _ ih => exact .up (hpart.node? hdir) (ih hplace)
  | @enter _ location _ name _ _ hdir hfill hsize hnode rest ih =>
    refine .enter (hpart.node? hdir) hfill hsize ?_ (ih hplace)
    -- Nothing is passed that is vacant: only the end may be.
    cases hn : fs.node? (name :: location) with
    | none =>
      obtain ⟨-, rfl⟩ := rest.eq_of_not_directory (by simp [hn])
      exact hplace hn
    | some node =>
      intro target htarget
      rw [hpart.node? hn] at htarget
      exact hnode target (hn.trans htarget)
  | keep hdir hlast hsize hnode => exact .keep (hpart.node? hdir) hlast hsize (hpart.node? hnode)
  | link hdir hfill hsize hlast hnode _ ih =>
    exact .link (hpart.node? hdir) hfill hsize hlast (hpart.node? hnode) (ih hplace)

end CaseReport.FileSystem
