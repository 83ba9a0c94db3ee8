import CaseReport.Proofs.Toml.Documents
import CaseReport.Proofs.Toml.Tables

/-!
# Adding the parts of a document

The pairs and the sections of a document are added to a table one after the other. What holds of two
tables holds of what becomes of them, if it does with each part, and a part is added by a change of
the one key that it begins with.
-/

namespace CaseReport.Toml

open Table

variable {way : Way} {keys : List String} {depth : Nat} {v : Value} {pair : Pair}
  {pairs : List Pair} {values : List (List String × Value)} {part : Section}
  {document : Document} {t t' u : Table}

/-! ## Steps on two tables -/

/-- What holds of two tables still holds of what the same steps make of them. -/
theorem foldlM_keeps {α : Type} {f : Table → α → Option Table} {R : Table → Table → Prop}
    {l : List α}
    (hstep : ∀ a ∈ l, ∀ {t t' u}, R t t' → f t a = some u → ∃ u', f t' a = some u' ∧ R u u')
    (h : R t t') (hu : l.foldlM f t = some u) : ∃ u', l.foldlM f t' = some u' ∧ R u u' := by
  induction l generalizing t t' with
  | nil =>
    cases hu
    exact ⟨t', rfl, h⟩
  | cons a l ih =>
    rw [List.foldlM_cons, Option.bind_eq_bind, Option.bind_eq_some_iff] at hu
    obtain ⟨w, hw, hu⟩ := hu
    obtain ⟨w', hw', hrel⟩ := hstep a List.mem_cons_self h hw
    obtain ⟨u', hu', hend⟩ := ih (fun b hb => hstep b (List.mem_cons_of_mem a hb)) hrel hu
    exact ⟨u', by rw [List.foldlM_cons, hw', Option.bind_eq_bind, Option.bind_some, hu'], hend⟩

/-- A pair is added to two tables by the same change. -/
theorem Pair.addTo_keeps {R : Table → Table → Prop}
    (hstep : ∀ v, t.addPair pair.keys v = some u →
      ∃ u', t'.addPair pair.keys v = some u' ∧ R u u')
    (hu : pair.addTo depth t = some u) : ∃ u', pair.addTo depth t' = some u' ∧ R u u' := by
  obtain ⟨_, v, hread, hadd⟩ := Pair.addTo_eq_some_iff.1 hu
  obtain ⟨-, -, rfl⟩ := Pair.read?_eq_some_iff.1 hread
  obtain ⟨u', hu', hrel⟩ := hstep v hadd
  exact ⟨u', Pair.addTo_eq_some_iff.2 ⟨_, v, hread, hu'⟩, hrel⟩

theorem addTo_of_table (hvalues : pairs.mapM (Pair.read? maxDepth) = some values)
    (hlength : keys.length < pathLimit) :
    Section.addTo ⟨.table keys, pairs⟩ t = alterLast .header (rebind (defined? values)) keys t := by
  rw [Section.addTo, hvalues, Option.bind_eq_bind, Option.bind_some, Heading.keys, if_pos hlength]
  exact congrFun (addTable_eq values) t

theorem addTo_of_arrayItem (hvalues : pairs.mapM (Pair.read? maxDepth) = some values)
    (hlength : keys.length < pathLimit) (hinner : addPairs values (.empty .defined) = some u) :
    Section.addTo ⟨.arrayItem keys, pairs⟩ t =
      alterLast .header (rebind (extended? u.entries)) keys t := by
  rw [Section.addTo, hvalues, Option.bind_eq_bind, Option.bind_some, Heading.keys, if_pos hlength]
  exact congrFun (addToTables_eq hinner) t

/-- A section is added by a change that binds the last of its keys anew. -/
theorem Section.exists_rebind (hu : part.addTo t = some u) :
    ∃ f, ∀ t : Table, part.addTo t = alterLast .header (rebind f) part.heading.keys t := by
  obtain ⟨values, hvalues, hu⟩ := Option.bind_eq_some_iff.1 hu
  obtain ⟨hlength, hu⟩ := Option.ite_none_right_eq_some.1 hu
  obtain ⟨heading, pairs⟩ := part
  cases heading with
  | table keys => exact ⟨_, fun t => addTo_of_table hvalues hlength⟩
  | arrayItem keys =>
    obtain ⟨key, hkey, hu⟩ := Option.bind_eq_some_iff.1 hu
    obtain ⟨inner, hinner, -⟩ := Option.bind_eq_some_iff.1 hu
    exact ⟨_, fun t => addTo_of_arrayItem hvalues hlength hinner⟩

/-! ## Parts one by one -/

theorem Document.exists_tables (h : document.IsValid) : ∃ t u,
    Table.addWritten maxDepth document.pairs (.empty .defined) = some t ∧
      t.addParts document.sections = some u := by
  obtain ⟨u, hu⟩ := Option.isSome_iff_exists.1 h
  obtain ⟨t, ht, hu⟩ := Option.bind_eq_some_iff.1 hu
  exact ⟨t, u, ht, hu⟩

theorem ne_nil_of_addPair (h : t.addPair keys v = some u) : keys ≠ [] := by
  rintro rfl
  cases h

theorem ne_nil_of_alterLast {change : String → Table → Option Table}
    (h : alterLast way change keys t = some u) : keys ≠ [] := by
  rintro rfl
  cases h

theorem addTo_table_iff {key : String} : Section.addTo ⟨.table [key], pairs⟩ t = some u ↔
    ∃ entries inner, (t.get? key = none ∧ entries = [] ∨
        t.get? key = some (.table .implied entries)) ∧
      Table.addWritten maxDepth pairs ⟨.defined, entries⟩ = some inner ∧
      t.set key inner.toValue = u := by
  have hread : Section.addTo ⟨.table [key], pairs⟩ t = some u ↔
      ∃ values, pairs.mapM (Pair.read? maxDepth) = some values ∧
        t.addTable [key] values = some u :=
    Option.bind_eq_some_iff
  have hadd : ∀ values, t.addTable [key] values = some u ↔
      ∃ v, defined? values (t.get? key) = some v ∧ t.set key v = u := by
    intro values
    rw [addTable_eq, alterLast_singleton, rebind, Option.map_eq_some_iff]
  simp only [hread, hadd, addWritten_eq_some_iff, defined?_eq_some_iff]
  constructor
  · rintro ⟨values, hvalues, _, ⟨entries, inner, hentries, hinner, rfl⟩, hu⟩
    exact ⟨entries, inner, hentries, ⟨values, hvalues, hinner⟩, hu⟩
  · rintro ⟨entries, inner, hentries, ⟨values, hvalues, hinner⟩, hu⟩
    exact ⟨values, hvalues, _, ⟨entries, inner, hentries, hinner, rfl⟩, hu⟩

end CaseReport.Toml
