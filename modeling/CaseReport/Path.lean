/-!
# Paths

A path is kept as it was written. It is read as steps from a directory: an empty name and a final
slash ask for nothing but that what comes before is a directory. Joining and taking the parent work
on the written form.
-/

namespace CaseReport

/-- A path as it was written. -/
abbrev Path := String

namespace Path

/-- One step along a path. -/
inductive Step where
  /-- Stay in the directory. -/
  | stay
  /-- Go to the directory above. -/
  | up
  /-- Go to the entry of this name. -/
  | enter (name : String)
  /-- A slash that ends the path. -/
  | slash
  deriving Repr, DecidableEq

/-- The names between slashes; two slashes in a row have an empty name between them. -/
def names : List Char → List (List Char)
  | [] => [[]]
  | '/' :: s => [] :: names s
  | c :: s =>
    match names s with
    | [] => [[c]]
    | n :: ns => (c :: n) :: ns

/-- The step that a name asks for; an empty name asks for none. -/
def stepOf? (name : List Char) : Option Step :=
  if name = [] then none
  else if name = ['.'] then some .stay
  else if name = ['.', '.'] then some .up
  else some (.enter (String.ofList name))

/-- Whether a path starts at the root directory. -/
def isAbsolute (path : Path) : Bool :=
  path.toList.head? == some '/'

/-- The steps of a path, without a slash that ends it. -/
def innerSteps (path : Path) : List Step :=
  (names path.toList).filterMap stepOf?

/-- Whether a path ends in a slash that stands behind a step. -/
def endsInSlash (path : Path) : Bool :=
  path.toList.getLast? == some '/' && !(innerSteps path).isEmpty

/-- The steps of a path. -/
def steps (path : Path) : List Step :=
  if path.endsInSlash then path.innerSteps ++ [.slash] else path.innerSteps

/-- The path of `relative` as seen from `base`. An absolute path stays what it is. -/
def join (base relative : Path) : Path :=
  if relative.isAbsolute || base.isEmpty then relative
  else if base.toList.getLast? = some '/' then base ++ relative
  else base ++ "/" ++ relative

/-- Drops slashes and single dots from the end of a path, given and returned backwards. A slash or
a dot with nothing in front of it stays. -/
def dropTail : List Char → List Char
  | '/' :: s => if s.isEmpty then ['/'] else dropTail s
  | '.' :: '/' :: s => if s.isEmpty then ['/'] else dropTail s
  | s => s

/-- The path without its last step; the root directory and the empty path have none. -/
def parent? (path : Path) : Option Path :=
  let tail := dropTail path.toList.reverse
  if tail = [] ∨ tail = ['/'] then none
  else some (String.ofList (dropTail (tail.dropWhile (· != '/'))).reverse)

/-- The parent directory, if the path names one. -/
def parentDirectory? (path : Path) : Option Path :=
  path.parent?.filter fun directory => !directory.isEmpty

/-- The directory that the last step of a path is taken from. -/
def directory (path : Path) : Path :=
  path.parentDirectory?.getD "."

theorem names_ne_nil (s : List Char) : names s ≠ [] := by
  rw [names.eq_def]
  split
  · simp
  · simp
  · split <;> simp

theorem dropTail_length (s : List Char) : (dropTail s).length ≤ s.length := by
  fun_induction dropTail s with
  | case1 => simp
  | case2 s h ih => exact Nat.le_succ_of_le ih
  | case3 => simp
  | case4 s h ih => exact Nat.le_succ_of_le (Nat.le_succ_of_le ih)
  | case5 => exact Nat.le_refl _

theorem eq_nil_of_dropTail_eq_cons {s t : List Char} (h : dropTail s = '/' :: t) : t = [] := by
  fun_induction dropTail s with
  | case1 => exact (List.cons.inj h).2.symm
  | case2 s hs ih => exact ih h
  | case3 => exact (List.cons.inj h).2.symm
  | case4 s hs ih => exact ih h
  | case5 s h1 h2 => exact absurd h (h1 t)

private theorem dropWhile_length_lt {s : List Char} (h : s ≠ []) (h' : s ≠ ['/'])
    (hs : ∀ t, s = '/' :: t → t = []) : (s.dropWhile (· != '/')).length < s.length := by
  cases s with
  | nil => exact absurd rfl h
  | cons c t =>
    by_cases hc : c = '/'
    · subst hc
      exact absurd (by rw [hs t rfl]) h'
    · rw [List.dropWhile_cons_of_pos (by simp [hc])]
      exact Nat.lt_succ_of_le (List.dropWhile_suffix _).length_le

/-- The parent of a path is shorter than the path. -/
theorem parent?_length {path parent : Path} (h : path.parent? = some parent) :
    parent.toList.length < path.toList.length := by
  simp only [parent?] at h
  split at h
  · cases h
  · next hne =>
    rw [not_or] at hne
    rw [← Option.some.inj h, String.toList_ofList, List.length_reverse]
    have h1 := dropTail_length ((dropTail path.toList.reverse).dropWhile (· != '/'))
    have h2 := dropWhile_length_lt hne.1 hne.2 fun t ht => eq_nil_of_dropTail_eq_cons ht
    have h3 := dropTail_length path.toList.reverse
    rw [List.length_reverse] at h3
    omega

end Path

end CaseReport
