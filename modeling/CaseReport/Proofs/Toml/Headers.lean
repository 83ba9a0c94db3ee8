import CaseReport.Proofs.Toml.Grammar
import CaseReport.Proofs.Toml.Tables

/-!
# Ways of headers

A header leads through all but its last key, whatever made the tables on its way, and through the
last table of an array. What it is bound to at the end decides whether its section can be added. A
section that is added changes one place, so the way of another header ends in what it did before,
unless one of the two begins with the other.
-/

namespace CaseReport.Toml

theorem areApart_cons_cons {key : String} {keys keys' : List String} :
    AreApart (key :: keys) (key :: keys') ↔ AreApart keys keys' := by
  simp [AreApart, List.cons_prefix_cons]

theorem not_areApart_singleton {key : String} {keys : List String} :
    ¬AreApart [key] (key :: keys) :=
  fun h => h.1 ⟨keys, rfl⟩

namespace Table

variable {making : Making} {key other : String} {keys rest : List String}
  {value : Value} {old w : Option Value} {t u inner inner' : Table} {P Q : Option Value → Prop}

/-- The table in which a header goes on, given what a key is bound to. -/
def inner? : Option Value → Option Table
  | none => some (empty .implied)
  | some (.table making entries) => some ⟨making, entries⟩
  | some (.tables (last :: _)) => some ⟨.defined, last⟩
  | some _ => none

/-- What a key is bound to when that table has become another one. -/
def withInner (inner : Table) : Option Value → Value
  | some (.tables (_ :: earlier)) => .tables (inner.entries :: earlier)
  | _ => inner.toValue

theorem into_header {change : Table → Option Table} (h : inner? w = some inner) :
    Way.header.into change w = (change inner).map fun inner' => withInner inner' w := by
  rcases w with _ | _ | _ | _ | _ | _ | ⟨_ | ⟨last, earlier⟩⟩ <;> cases h <;> rfl

theorem exists_inner?_withInner (h : inner? w = some inner) :
    ∃ made, inner? (some (withInner inner' w)) = some made ∧ made.entries = inner'.entries := by
  rcases w with _ | _ | _ | _ | _ | _ | ⟨_ | ⟨last, earlier⟩⟩ <;> cases h <;> exact ⟨_, rfl, rfl⟩

/-! ## Where a header leads -/

/-- A header leads to its last key, and what that is bound to meets a condition. -/
def Opens (P : Option Value → Prop) : List String → Table → Prop
  | [], _ => False
  | [key], table => P (table.get? key)
  | key :: other :: keys, table =>
    ∃ inner, inner? (table.get? key) = some inner ∧ Opens P (other :: keys) inner

/-- There is a table to go on in, and from there a header leads to what meets a condition. -/
def OpensBelow (P : Option Value → Prop) (rest : List String) (w : Option Value) : Prop :=
  ∃ inner, inner? w = some inner ∧ Opens P rest inner

theorem Opens.ne_nil (h : Opens P keys t) : keys ≠ [] := by
  rintro rfl
  exact h

theorem Opens.of_entries (h : Opens P keys t) (hentries : u.entries = t.entries) :
    Opens P keys u := by
  have hget : ∀ key, u.get? key = t.get? key := fun key => by rw [get?, hentries, get?]
  cases keys with
  | nil => exact h
  | cons key keys =>
    cases keys with
    | nil => exact (congrArg P (hget key)).mpr h
    | cons other keys =>
      obtain ⟨inner, hinner, h⟩ := h
      exact ⟨inner, (hget key).symm ▸ hinner, h⟩

theorem opens_empty (hne : keys ≠ []) (h : P none) : Opens P keys (empty making) := by
  induction keys generalizing making with
  | nil => exact absurd rfl hne
  | cons key keys ih =>
    cases keys with
    | nil => exact h
    | cons other keys => exact ⟨_, rfl, ih (List.cons_ne_nil other keys)⟩

theorem Opens.mono (h : Opens P keys t) (himp : ∀ w, P w → Q w) : Opens Q keys t := by
  induction keys generalizing t with
  | nil => exact h
  | cons key keys ih =>
    cases keys with
    | nil => exact himp _ h
    | cons other keys =>
      obtain ⟨inner, hinner, h⟩ := h
      exact ⟨inner, hinner, ih h⟩

theorem opens_append (hne : keys ≠ []) (hrest : rest ≠ []) :
    Opens P (keys ++ rest) t ↔ Opens (OpensBelow P rest) keys t := by
  induction keys generalizing t with
  | nil => exact absurd rfl hne
  | cons key keys ih =>
    cases keys with
    | nil =>
      obtain ⟨first, rest, rfl⟩ := List.exists_cons_of_ne_nil hrest
      exact Iff.rfl
    | cons other keys =>
      exact exists_congr fun inner => and_congr_right fun _ => ih (List.cons_ne_nil other keys)

theorem Opens.set_of_ne (h : Opens P (key :: keys) t) (hkey : key ≠ other) :
    Opens P (key :: keys) (t.set other value) := by
  cases keys with
  | nil => exact (congrArg P (get?_set_of_ne hkey)).mpr h
  | cons _ keys =>
    obtain ⟨inner, hinner, h⟩ := h
    exact ⟨inner, (congrArg inner? (get?_set_of_ne hkey)).trans hinner, h⟩

/-! ## Changes at the end of a header -/

/-- One table comes from another by binding the last key of a header anew. -/
inductive Changed : List String → Option Value → Value → Table → Table → Prop where
  | here {key : String} {value : Value} {t : Table} :
      Changed [key] (t.get? key) value t (t.set key value)
  | inside {key other : String} {keys : List String} {old : Option Value} {value : Value}
      {t inner inner' : Table} (h : inner? (t.get? key) = some inner)
      (hinner : Changed (other :: keys) old value inner inner') :
      Changed (key :: other :: keys) old value t (t.set key (withInner inner' (t.get? key)))

/-- Where a header leads to what can be changed, it is changed. -/
theorem Opens.exists_changed {f : Option Value → Option Value}
    {becomes : Option Value → Value → Prop} (h : Opens P keys t)
    (hchange : ∀ w, P w → ∃ value, f w = some value ∧ becomes w value) :
    ∃ old value u, becomes old value ∧ Changed keys old value t u ∧
      alterLast .header (rebind f) keys t = some u := by
  induction keys generalizing t with
  | nil => exact h.elim
  | cons key keys ih =>
    cases keys with
    | nil =>
      obtain ⟨value, hvalue, hbecomes⟩ := hchange _ h
      refine ⟨_, value, _, hbecomes, .here, ?_⟩
      rw [alterLast_singleton, rebind, hvalue, Option.map_some]
    | cons other keys =>
      obtain ⟨inner, hinner, h⟩ := h
      obtain ⟨old, value, inner', hbecomes, hchanged, hu⟩ := ih h
      refine ⟨old, value, _, hbecomes, .inside hinner hchanged, ?_⟩
      rw [alterLast_cons_cons, into_header hinner, hu, Option.map_some, Option.map_some]

namespace Changed

theorem ne_nil (h : Changed keys old value t u) : keys ≠ [] := by
  cases h <;> exact List.cons_ne_nil _ _

theorem making_eq (h : Changed keys old value t u) : u.making = t.making := by
  cases h <;> rfl

theorem get?_of_ne (h : Changed (key :: keys) old value t u) (hne : other ≠ key) :
    u.get? other = t.get? other := by
  cases h with
  | here => exact get?_set_of_ne hne
  | inside => exact get?_set_of_ne hne

/-- What the header led to before. -/
theorem of_opens (h : Changed keys old value t u) (hopens : Opens P keys t) : P old := by
  induction h with
  | here => exact hopens
  | inside hinner _ ih =>
    obtain ⟨_, hinner', hopens⟩ := hopens
    cases hinner.symm.trans hinner'
    exact ih hopens

/-- What the header leads to now. -/
theorem opens (h : Changed keys old value t u) (hvalue : P (some value)) : Opens P keys u := by
  induction h with
  | here => exact (congrArg P get?_set_self).mpr hvalue
  | inside hinner _ ih =>
    obtain ⟨made, hmade, hentries⟩ := exists_inner?_withInner hinner
    exact ⟨made, (congrArg inner? get?_set_self).trans hmade, (ih hvalue).of_entries hentries⟩

/-- What is below the header is still open if it is in the new table. -/
theorem opens_below (h : Changed keys old value t u) (hrest : rest ≠ [])
    (hbelow : OpensBelow P rest old → OpensBelow P rest (some value))
    (hopens : Opens P (keys ++ rest) t) : Opens P (keys ++ rest) u := by
  rw [opens_append h.ne_nil hrest] at hopens ⊢
  exact h.opens (hbelow (h.of_opens hopens))

theorem opens_apart (h : Changed keys old value t u) {keys' : List String}
    (hapart : AreApart keys keys') (hopens : Opens P keys' t) : Opens P keys' u := by
  induction h generalizing keys' with
  | @here key value t =>
    cases keys' with
    | nil => exact hopens
    | cons key' keys' =>
      refine hopens.set_of_ne ?_
      rintro rfl
      exact not_areApart_singleton hapart
  | @inside key other keys old value t inner inner' hinner _ ih =>
    cases keys' with
    | nil => exact hopens
    | cons key' keys' =>
      by_cases hkey : key' = key
      · subst hkey
        rw [areApart_cons_cons] at hapart
        cases keys' with
        | nil => exact absurd List.nil_prefix hapart.2
        | cons other' keys' =>
          obtain ⟨_, hinner', hopens⟩ := hopens
          cases hinner.symm.trans hinner'
          obtain ⟨made, hmade, hentries⟩ := exists_inner?_withInner hinner
          exact ⟨made, (congrArg inner? get?_set_self).trans hmade,
            (ih hapart hopens).of_entries hentries⟩
      · exact hopens.set_of_ne hkey

/-- A change below some keys is a change at these: the table there becomes another one. -/
theorem of_append (h : Changed (keys ++ rest) old value t u) (hne : keys ≠ []) (hrest : rest ≠ []) :
    ∃ w inner inner', inner? w = some inner ∧ Changed rest old value inner inner' ∧
      Changed keys w (withInner inner' w) t u := by
  induction keys generalizing t u with
  | nil => exact absurd rfl hne
  | cons key keys ih =>
    cases keys with
    | nil =>
      obtain ⟨first, rest, rfl⟩ := List.exists_cons_of_ne_nil hrest
      cases h with
      | inside hinner h => exact ⟨_, _, _, hinner, h, .here⟩
    | cons other keys =>
      cases h with
      | inside hinner h =>
        obtain ⟨w, below, below', hbelow, hrest, h⟩ := ih h (List.cons_ne_nil other keys)
        exact ⟨w, below, below', hbelow, hrest, .inside hinner h⟩

end Changed

end Table

end CaseReport.Toml
