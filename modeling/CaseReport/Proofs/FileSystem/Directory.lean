import CaseReport.Proofs.FileSystem.Entry

/-!
# The directory of a path

The directory of a path is computed on its text, while a walk takes steps. The two agree: the steps
of a path that names an entry are those of its directory, some that stay where they are, and the
step to the entry. So whatever a path leads to, its directory is found.
-/

namespace CaseReport

namespace Path

/-- The steps that a text asks for. -/
def stepsOf (s : List Char) : List Step :=
  (names s).filterMap stepOf?

theorem stepOf?_eq_none_iff {name : List Char} : stepOf? name = none ↔ name = [] := by
  constructor
  · intro h
    rw [stepOf?] at h
    split at h
    · assumption
    · split at h
      · cases h
      · split at h <;> cases h
  · rintro rfl
    rfl

theorem innerSteps_eq (path : Path) : path.innerSteps = stepsOf path.toList := rfl

@[simp] theorem stepsOf_nil : stepsOf [] = [] := rfl

private theorem names_append (a b : List Char) : names (a ++ '/' :: b) = names a ++ names b := by
  induction a with
  | nil => rfl
  | cons c a ih =>
    by_cases hc : c = '/'
    · subst hc
      simp [names, ih]
    · cases hn : names a with
      | nil => exact absurd hn (names_ne_nil a)
      | cons n ns => simp [names, ih, hn]

theorem stepsOf_append (a b : List Char) : stepsOf (a ++ '/' :: b) = stepsOf a ++ stepsOf b := by
  simp [stepsOf, names_append]

theorem stepsOf_of_not_mem {s : List Char} (h : '/' ∉ s) : stepsOf s = (stepOf? s).toList := by
  have hnames : names s = [s] := by
    induction s with
    | nil => rfl
    | cons c s ih =>
      rw [List.mem_cons, not_or] at h
      simp [names, Ne.symm h.1, ih h.2]
  rw [stepsOf, hnames]
  cases hs : stepOf? s <;> simp [hs]

private theorem stepsOf_dropTail (s : List Char) :
    ∃ n, stepsOf s.reverse = stepsOf (dropTail s).reverse ++ List.replicate n .stay := by
  fun_induction dropTail s with
  | case1 => exact ⟨0, by simp_all⟩
  | case2 s _ ih =>
    obtain ⟨n, ih⟩ := ih
    refine ⟨n, ?_⟩
    rw [List.reverse_cons, stepsOf_append, stepsOf_nil, List.append_nil, ih]
  | case3 s hs =>
    obtain rfl : s = [] := by simpa using hs
    exact ⟨1, by decide⟩
  | case4 s _ ih =>
    obtain ⟨n, ih⟩ := ih
    refine ⟨n + 1, ?_⟩
    have hdot : stepsOf ['.'] = [.stay] := by decide
    rw [List.reverse_cons, List.reverse_cons, List.append_assoc, List.singleton_append,
      stepsOf_append, hdot, ih, List.append_assoc, ← List.replicate_succ']
  | case5 => exact ⟨0, by simp⟩

private theorem dropTail_suffix (s : List Char) : dropTail s <:+ s := by
  fun_induction dropTail s with
  | case1 s hs => exact ⟨[], by simp_all⟩
  | case2 s _ ih => exact ih.trans (List.suffix_cons ..)
  | case3 s hs => exact ⟨['.'], by simp_all⟩
  | case4 s _ ih => exact (ih.trans (List.suffix_cons ..)).trans (List.suffix_cons ..)
  | case5 => exact List.suffix_rfl

private theorem dropTail_ne_nil {s : List Char} (h : s ≠ []) : dropTail s ≠ [] := by
  fun_induction dropTail s with
  | case1 => simp
  | case2 s hs ih => exact ih (by simpa using hs)
  | case3 => simp
  | case4 s hs ih => exact ih (by simpa using hs)
  | case5 => exact h

private theorem dropTail_append {name front : List Char} (h : name ≠ []) (h' : name ≠ ['.'])
    (hslash : '/' ∉ name) : dropTail (name ++ front) = name ++ front := by
  rw [dropTail.eq_def]
  split
  · next heq =>
    cases name with
    | nil => exact absurd rfl h
    | cons c name =>
      rw [(List.cons.inj heq).1] at hslash
      exact absurd List.mem_cons_self hslash
  · next heq =>
    cases name with
    | nil => exact absurd rfl h
    | cons c name =>
      obtain ⟨rfl, hrest⟩ := List.cons.inj heq
      cases name with
      | nil => exact absurd rfl h'
      | cons d name =>
        have hd : d = '/' := (List.cons.inj hrest).1
        rw [hd] at hslash
        exact absurd (List.mem_cons_of_mem _ List.mem_cons_self) hslash
  · rfl

/-- A path that names an entry, backwards: the last name and what stands before it. -/
private theorem exists_lastName {path : Path} {entry : String}
    (hentry : path.innerSteps.getLast? = some (.enter entry)) (hslash : path.endsInSlash = false) :
    ∃ name front : List Char, path.toList.reverse = name ++ front ∧ '/' ∉ name ∧ name ≠ [] ∧
      name ≠ ['.'] ∧ (front = [] ∨ ∃ rest, front = '/' :: rest) ∧
      path.innerSteps = stepsOf front.reverse ++ [.enter entry] := by
  have hcut := List.takeWhile_append_dropWhile (p := (· != '/')) (l := path.toList.reverse)
  have hmem : '/' ∉ path.toList.reverse.takeWhile (· != '/') := by
    intro h
    simpa using List.all_eq_true.1 List.all_takeWhile '/' h
  have hhead := List.head?_dropWhile_not (· != '/') path.toList.reverse
  generalize path.toList.reverse.takeWhile (· != '/') = name at hcut hmem
  generalize path.toList.reverse.dropWhile (· != '/') = front at hcut hhead
  have htext : path.toList = front.reverse ++ name.reverse := by
    rw [← List.reverse_append, hcut, List.reverse_reverse]
  have hfront : front = [] ∨ ∃ rest, front = '/' :: rest := by
    cases front with
    | nil => exact .inl rfl
    | cons c rest => exact .inr ⟨rest, by simpa using hhead⟩
  have hsteps : path.innerSteps = stepsOf front.reverse ++ (stepOf? name.reverse).toList := by
    have hname : '/' ∉ name.reverse := by simpa using hmem
    rw [innerSteps_eq, htext, ← stepsOf_of_not_mem hname]
    rcases hfront with rfl | ⟨rest, rfl⟩
    · rfl
    · rw [List.reverse_cons, List.append_assoc, List.singleton_append, stepsOf_append,
        stepsOf_append, stepsOf_nil, List.append_nil]
  have hne : name ≠ [] := by
    rintro rfl
    rcases hfront with rfl | ⟨rest, rfl⟩
    · simp [hsteps, stepOf?] at hentry
    · have hlast : path.toList.getLast? = some '/' := by simp [htext]
      have hsome : path.innerSteps ≠ [] := by
        intro h
        rw [h] at hentry
        cases hentry
      simp [endsInSlash, hlast, hsome] at hslash
  have hstep : stepOf? name.reverse = some (.enter entry) := by
    cases hs : stepOf? name.reverse with
    | none => exact absurd (List.reverse_eq_nil_iff.1 (stepOf?_eq_none_iff.1 hs)) hne
    | some step => simpa [hsteps, hs] using hentry
  refine ⟨name, front, hcut.symm, hmem, hne, ?_, hfront, by rw [hsteps, hstep]; rfl⟩
  rintro rfl
  have hstay : stepOf? ['.'].reverse = some .stay := by decide
  rw [hstay] at hstep
  cases hstep

/-- The parent of a path is what stands before its last name, without the slashes at its end. -/
private theorem parent?_of_lastName {path : Path} {name front : List Char}
    (hcut : path.toList.reverse = name ++ front) (hmem : '/' ∉ name) (hne : name ≠ [])
    (hdot : name ≠ ['.']) (hfront : front = [] ∨ ∃ rest, front = '/' :: rest) :
    path.parent? = some (String.ofList (dropTail front).reverse) := by
  have hdrop : (name ++ front).dropWhile (· != '/') = front := by
    rw [List.dropWhile_append_of_pos]
    · rcases hfront with rfl | ⟨rest, rfl⟩ <;> simp
    · intro c hc
      simpa using fun h : c = '/' => hmem (h ▸ hc)
  have hslash : name ++ front ≠ ['/'] := by
    intro h
    cases name with
    | nil => exact hne rfl
    | cons c name => exact hmem (by rw [(List.cons.inj h).1]; exact List.mem_cons_self)
  simp only [parent?, hcut, dropTail_append hne hdot hmem, hdrop]
  rw [if_neg (by simp [hne, hslash])]

private theorem endsInSlash_dropTail {s : List Char} (h : s ≠ []) :
    endsInSlash (String.ofList (dropTail s).reverse) = false := by
  have hnil := dropTail_ne_nil h
  have hroot : ∀ back, dropTail s = '/' :: back → back = [] :=
    fun back hback => eq_nil_of_dropTail_eq_cons hback
  cases hdrop : dropTail s with
  | nil => exact absurd hdrop hnil
  | cons c w =>
    by_cases hc : c = '/'
    · subst hc
      obtain rfl := hroot w hdrop
      decide
    · simp [endsInSlash, hc]

/-- The steps of a path that names an entry, in terms of those of its directory. -/
theorem steps_directory {path : Path} {entry : String}
    (hentry : path.innerSteps.getLast? = some (.enter entry)) (hslash : path.endsInSlash = false) :
    (path.directory = "." ∧ path.isAbsolute = false ∧ path.innerSteps = [.enter entry]) ∨
      ∃ n, path.innerSteps = path.directory.steps ++ List.replicate n .stay ++ [.enter entry] ∧
        path.directory.isAbsolute = path.isAbsolute ∧ path.directory.toList ≠ [] ∧
        path.directory.toList <+: path.toList := by
  obtain ⟨name, front, hcut, hmem, hne, hdot, hfront, hsteps⟩ := exists_lastName hentry hslash
  have hparent := parent?_of_lastName hcut hmem hne hdot hfront
  rcases hfront with rfl | ⟨rest, rfl⟩
  · refine .inl ⟨?_, ?_, hsteps⟩
    · rw [directory, parentDirectory?, hparent]
      decide
    · rw [List.append_nil] at hcut
      have htext : path.toList = name.reverse := by rw [← hcut, List.reverse_reverse]
      rw [isAbsolute, htext, beq_eq_false_iff_ne]
      intro hhead
      exact hmem (List.mem_reverse.1 (List.mem_of_mem_head? hhead))
  · obtain ⟨n, hn⟩ := stepsOf_dropTail ('/' :: rest)
    have hnil := dropTail_ne_nil (List.cons_ne_nil '/' rest)
    have hsuffix := dropTail_suffix ('/' :: rest)
    have hends := endsInSlash_dropTail (List.cons_ne_nil '/' rest)
    generalize dropTail ('/' :: rest) = w at hparent hn hnil hsuffix hends
    have hempty : (String.ofList w.reverse).isEmpty = false := by
      rw [Bool.eq_false_iff]
      intro h
      exact hnil (by simpa using h)
    have hdirectory : path.directory = String.ofList w.reverse := by
      rw [directory, parentDirectory?, hparent, Option.filter_some, hempty]
      rfl
    have htext : path.toList = ('/' :: rest).reverse ++ name.reverse := by
      rw [← List.reverse_append, ← hcut, List.reverse_reverse]
    have hfront : w.reverse <+: path.toList := by
      rw [htext]
      exact (List.reverse_prefix.2 hsuffix).trans (List.prefix_append ..)
    refine .inr ⟨n, ?_, ?_, ?_, ?_⟩
    · rw [← hdirectory] at hends
      rw [FileSystem.steps_of_not_endsInSlash hends, hsteps, hn, innerSteps_eq, hdirectory,
        String.toList_ofList]
    · obtain ⟨back, hback⟩ := hfront
      rw [isAbsolute, isAbsolute, hdirectory, String.toList_ofList, ← hback]
      cases hw : w.reverse with
      | nil => exact absurd (List.reverse_eq_nil_iff.1 hw) hnil
      | cons c w => rfl
    · simpa [hdirectory] using hnil
    · rwa [hdirectory, String.toList_ofList]

end Path

namespace FileSystem

open Path

private theorem admits_of_front {path directory : Path} (h : admits path = .ok ())
    (hne : directory.toList ≠ []) (hfront : directory.toList <+: path.toList) :
    admits directory = .ok () := by
  obtain ⟨back, hback⟩ := hfront
  have hpath : path = directory ++ String.ofList back := by
    rw [← String.toList_inj, String.toList_append, String.toList_ofList, hback]
  have hempty : directory.isEmpty = false := by
    rw [Bool.eq_false_iff]
    intro h
    exact hne (by simpa using h)
  have hsize : directory.utf8ByteSize ≤ path.utf8ByteSize := by
    rw [hpath, String.utf8ByteSize_append]
    exact Nat.le_add_right ..
  rw [admits] at h ⊢
  split at h
  · cases h
  · next hnul =>
    split at h
    · cases h
    · split at h
      · cases h
      · next hlimit =>
        rw [if_neg, if_neg, if_neg]
        · omega
        · simp [hempty]
        · rw [← hback] at hnul
          simpa using fun hmem => hnul (by simp [hmem])

variable {fs : FileSystem} {path : Path} {name : String} {parent place : Location} {node : Node}
  {last : LastStep} {links more : Nat}

private theorem admits_directory (h : admits path = .ok ())
    (hname : path.innerSteps.getLast? = some (.enter name)) (hslash : path.endsInSlash = false) :
    admits path.directory = .ok () := by
  rcases steps_directory hname hslash with ⟨hdot, -, -⟩ | ⟨n, -, -, hne, hfront⟩
  · rw [hdot]
    rfl
  · exact admits_of_front h hne hfront

private theorem start_directory (fs : FileSystem)
    (hname : path.innerSteps.getLast? = some (.enter name)) (hslash : path.endsInSlash = false) :
    fs.start path.directory = fs.start path := by
  rcases steps_directory hname hslash with ⟨hdot, habsolute, -⟩ | ⟨n, -, habsolute, -, -⟩
  · rw [start, start, hdot, habsolute]
    rfl
  · rw [start, start, habsolute]

/-- Staying is not moving. -/
private theorem leads_stay_iff {mode n : Nat} {steps : List Step}
    (hdir : fs.node? parent = some (.directory mode)) :
    fs.Leads last links parent (List.replicate n .stay ++ steps) place ↔
      fs.Leads last links parent steps place := by
  induction n with
  | zero => rfl
  | succ n ih =>
    rw [List.replicate_succ, List.cons_append, ← ih]
    constructor
    · intro h
      cases h with
      | stay _ rest => exact rest
    · exact .stay hdir

private theorem steps_dot : steps "." = [.stay] := by decide

/-- A walk to an entry comes to its directory before the last step. -/
theorem Leads.directory (hname : path.innerSteps.getLast? = some (.enter name))
    (hslash : path.endsInSlash = false)
    (h : fs.Leads last links (fs.start path) path.innerSteps place) :
    ∃ parent mode, fs.node? parent = some (.directory mode) ∧
      fs.Leads .follow links (fs.start path.directory) path.directory.steps parent ∧
        fs.Leads last links parent [.enter name] place := by
  rw [start_directory fs hname hslash]
  rcases steps_directory hname hslash with ⟨hdot, -, hsteps⟩ | ⟨n, hsteps, -, -, -⟩
  · rw [hsteps] at h
    obtain ⟨mode, hdir⟩ := h.directory_of_ne_nil (by simp)
    rw [hdot, steps_dot]
    exact ⟨_, mode, hdir, .stay hdir .here, h⟩
  · rw [hsteps, List.append_assoc] at h
    obtain ⟨parent, hparent, hrest⟩ := h.split (by simp)
    obtain ⟨mode, hdir⟩ := hrest.directory_of_ne_nil (by simp)
    exact ⟨parent, mode, hdir, hparent, (leads_stay_iff hdir).1 hrest⟩

/-- The last step of a walk to an entry can be taken where its directory is. -/
theorem Leads.of_directory {mode : Nat} (hname : path.innerSteps.getLast? = some (.enter name))
    (hslash : path.endsInSlash = false) (hdir : fs.node? parent = some (.directory mode))
    (h : fs.Leads .follow links (fs.start path.directory) path.directory.steps parent)
    (hlast : fs.Leads .follow more parent [.enter name] place) :
    fs.Leads .follow (links + more) (fs.start path) path.innerSteps place := by
  rw [start_directory fs hname hslash] at h
  rcases steps_directory hname hslash with ⟨hdot, -, hsteps⟩ | ⟨n, hsteps, -, -, -⟩
  · rw [hdot, steps_dot] at h
    obtain rfl : fs.start path = parent := by
      cases h with
      | stay _ rest =>
        cases rest with
        | here => rfl
    rw [hsteps]
    exact hlast.mono (Nat.le_add_left ..)
  · rw [hsteps, List.append_assoc]
    exact h.append ((leads_stay_iff hdir).2 hlast)

/-- If a path that names an entry has a location, which may be vacant, its directory is found. -/
theorem find_directory_of_resolve (h : fs.resolve .follow path = .ok place)
    (hname : ∃ name, path.innerSteps.getLast? = some (.enter name))
    (hslash : path.endsInSlash = false) :
    ∃ parent mode, fs.find path.directory = .ok (parent, .directory mode) := by
  obtain ⟨hadmits, hleads⟩ := resolve_eq_ok_iff.1 h
  obtain ⟨name, hname⟩ := hname
  rw [steps_of_not_endsInSlash hslash] at hleads
  obtain ⟨parent, mode, hdir, hparent, -⟩ := hleads.directory hname hslash
  exact ⟨parent, mode, find_eq_ok_iff.2 ⟨admits_directory hadmits hname hslash, hparent, hdir⟩⟩

/-- If a path that names an entry leads to anything, its directory is found. -/
theorem find_directory (h : fs.find path = .ok (place, node))
    (hname : ∃ name, path.innerSteps.getLast? = some (.enter name))
    (hslash : path.endsInSlash = false) :
    ∃ parent mode, fs.find path.directory = .ok (parent, .directory mode) := by
  obtain ⟨hadmits, hleads, -⟩ := find_eq_ok_iff.1 h
  exact find_directory_of_resolve (resolve_eq_ok_iff.2 ⟨hadmits, hleads⟩) hname hslash

private theorem Leads.of_keep_enter {links : Nat}
    (h : fs.Leads .keep links parent [.enter name] place) :
    place = name :: parent ∧ ¬maxNameSize < name.utf8ByteSize := by
  cases h with
  | enter _ _ hsize _ rest =>
    cases rest with
    | here => exact ⟨rfl, hsize⟩
  | keep _ _ hsize => exact ⟨rfl, hsize⟩
  | link _ _ _ hkept => exact absurd ⟨rfl, rfl⟩ hkept

/-- The entry that a path names lies in its directory and has the last name of the path. -/
theorem exists_directory_of_resolveEntry {unnamed : SystemFault} {entry : Location}
    (h : fs.resolveEntry unnamed path = .ok entry) (hslash : path.endsInSlash = false) :
    ∃ name parent mode, path.innerSteps.getLast? = some (.enter name) ∧
      ¬maxNameSize < name.utf8ByteSize ∧ entry = name :: parent ∧
        fs.find path.directory = .ok (parent, .directory mode) := by
  obtain ⟨hadmits, ⟨name, hname⟩, hkeep⟩ := resolveEntry_eq_ok_iff.1 h
  obtain ⟨parent, mode, hdir, hparent, hlast⟩ := hkeep.directory hname hslash
  obtain ⟨hentry, hsize⟩ := hlast.of_keep_enter
  exact ⟨name, parent, mode, hname, hsize, hentry,
    find_eq_ok_iff.2 ⟨admits_directory hadmits hname hslash, hparent, hdir⟩⟩

/-- A path leads to what has its last name in its directory, if that is no link. -/
theorem find_of_directory {mode : Nat} (hadmits : admits path = .ok ())
    (hname : path.innerSteps.getLast? = some (.enter name)) (hslash : path.endsInSlash = false)
    (hsize : ¬maxNameSize < name.utf8ByteSize)
    (hparent : fs.find path.directory = .ok (parent, .directory mode))
    (hnode : fs.node? (name :: parent) = some node) (hlink : ∀ target, node ≠ .link target) :
    fs.find path = .ok (name :: parent, node) := by
  obtain ⟨-, hleads, hdir⟩ := find_eq_ok_iff.1 hparent
  have hlast : fs.Leads .follow 0 parent [.enter name] (name :: parent) := by
    refine .enter hdir (by simp) hsize ?_ .here
    intro target htarget
    exact hlink target (Option.some.inj (hnode.symm.trans htarget))
  rw [find_eq_ok_iff, steps_of_not_endsInSlash hslash]
  exact ⟨hadmits, hleads.of_directory hname hslash hdir hlast, hnode⟩

/-- A path that does not lead to a directory leads to the new file that is put at its entry. -/
theorem find_insert_entry {unnamed : SystemFault} {entry : Location} {content : List UInt8}
    {mode : Nat} (h : fs.find path = .ok (place, node)) (hnode : ∀ m, node ≠ .directory m)
    (hentry : fs.resolveEntry unnamed path = .ok entry) (hslash : path.endsInSlash = false)
    (hdir : ∀ m, fs.node? entry ≠ some (.directory m)) :
    (fs.insert entry (.file content mode)).find path = .ok (entry, .file content mode) := by
  obtain ⟨-, hleads, hplace⟩ := find_eq_ok_iff.1 h
  obtain ⟨-, ⟨name, hname⟩, hkeep⟩ := resolveEntry_eq_ok_iff.1 hentry
  rw [steps_of_not_endsInSlash hslash] at hleads
  obtain ⟨parent, _, -, hparent, hlast⟩ := hleads.directory hname hslash
  obtain ⟨parent', _, -, hparent', hkept⟩ := hkeep.directory hname hslash
  obtain rfl := hparent.unique hparent'
  obtain ⟨rfl, -⟩ := hkept.of_keep_enter
  refine find_insert_of_follow hentry hslash hdir ?_
  rintro _ _ target ⟨⟩ hlink
  -- The last step leads on through the link, to where the path leads.
  cases hlast with
  | enter _ _ _ hnot => exact absurd hlink (hnot target)
  | keep _ hkept => cases hkept
  | link _ _ _ _ hlink' rest =>
    cases hlink.symm.trans hlink'
    rw [List.append_nil] at rest
    refine ⟨_, place, rest, ?_⟩
    intro m hm
    exact hnode m (Option.some.inj (hplace.symm.trans hm))

end FileSystem

end CaseReport
