import CaseReport.Lookup
import CaseReport.Toml.Table
import Mathlib.Logic.Function.Basic

/-!
# Tables that differ in a part

Binding pairs and adding the tables of headers look at a table only under the first of their keys,
and change it only there. So they do the same to tables that differ elsewhere.
-/

namespace CaseReport.Toml.Table

variable {way : Way} {making : Making} {change : Table → Option Table} {key other : String}
  {keys : List String} {value : Value} {table t t' u : Table} {entries : List (String × Value)}

/-! ## Binding a key -/

@[simp] theorem get?_set_self : (table.set key value).get? key = some value := by
  simp [get?, set]

theorem get?_set_of_ne (h : other ≠ key) : (table.set key value).get? other = table.get? other := by
  have hne : (other == key) = false := by simpa using h
  rw [get?, set, List.lookup_cons, hne]
  exact lookup_filter_ne h

theorem bind_of_none (h : table.get? key = none) :
    table.bind key value = some (table.set key value) := by
  rw [bind, h]

/-! ## Ways through tables -/

/-- Changes the table that a key leads to, given what the key is bound to. -/
def Way.into (way : Way) (change : Table → Option Table) : Option Value → Option Value
  | none => (change (empty way.making)).map toValue
  | some (.table making entries) =>
    if way.enters making then (change ⟨making, entries⟩).map toValue else none
  | some (.tables (last :: earlier)) =>
    (change ⟨.defined, last⟩).map fun inner => .tables (inner.entries :: earlier)
  | some _ => none

theorem alter_cons : alter way change (key :: keys) table =
    (way.into (alter way change keys) (table.get? key)).map (table.set key) := by
  rw [alter]
  cases table.get? key with
  | none =>
    simp only [Way.into]
    cases alter way change keys (empty way.making) <;> rfl
  | some v =>
    cases v with
    | table making entries =>
      simp only [Way.into]
      split
      · cases alter way change keys ⟨making, entries⟩ <;> rfl
      · rfl
    | tables items =>
      cases items with
      | nil => rfl
      | cons last earlier =>
        simp only [Way.into]
        cases alter way change keys ⟨.defined, last⟩ <;> rfl
    | text _ => rfl
    | plain _ => rfl
    | list _ => rfl
    | closed _ => rfl

/-- A change that looks at what a key is bound to, and binds it anew. -/
def Rebinds (admits : Making → Prop) (key : String) (change : Table → Option Table) : Prop :=
  ∃ f : Option Value → Option Value, ∀ table : Table, admits table.making →
    change table = (f (table.get? key)).map (table.set key)

theorem Rebinds.transfer {admits : Making → Prop} (h : Rebinds admits key change)
    (ht : admits t.making) (ht' : admits t'.making) (hget : t'.get? key = t.get? key)
    (hu : change t = some u) :
    ∃ value, u = t.set key value ∧ change t' = some (t'.set key value) := by
  obtain ⟨f, hf⟩ := h
  rw [hf t ht, Option.map_eq_some_iff] at hu
  obtain ⟨value, hvalue, rfl⟩ := hu
  exact ⟨value, rfl, by rw [hf t' ht', hget, hvalue, Option.map_some]⟩

/-- What a key is bound to when it must not be bound yet. -/
def bound? (value : Value) : Option Value → Option Value
  | none => some value
  | some _ => none

theorem rebinds_bind {admits : Making → Prop} : Rebinds admits key (bind key value) := by
  refine ⟨bound? value, fun table _ => ?_⟩
  rw [bind]
  cases table.get? key <;> rfl

/-- Changes what the last of some keys is bound to, in the table that the others lead to. -/
def alterLast (way : Way) (change : String → Table → Option Table) (keys : List String)
    (table : Table) : Option Table := do
  let key ← keys.getLast?
  alter way (change key) keys.dropLast table

section

variable {change : String → Table → Option Table}

theorem alterLast_singleton : alterLast way change [key] = change key := rfl

theorem alterLast_cons_cons : alterLast way change (key :: other :: keys) table =
    (way.into (alterLast way change (other :: keys)) (table.get? key)).map (table.set key) := by
  obtain ⟨last, hlast⟩ : ∃ last, (other :: keys).getLast? = some last := by
    rw [List.getLast?_cons]
    exact ⟨_, rfl⟩
  have hinner : alterLast way change (other :: keys) =
      alter way (change last) (other :: keys).dropLast := by
    funext table
    rw [alterLast, hlast]
    rfl
  rw [hinner, ← alter_cons, alterLast, List.getLast?_cons_cons, hlast]
  rfl

theorem rebinds_alterLast {admits : Making → Prop}
    (h : ∀ key, Rebinds admits key (change key)) :
    Rebinds admits key (alterLast way change (key :: keys)) := by
  cases keys with
  | nil => exact h key
  | cons other keys => exact ⟨_, fun _ _ => alterLast_cons_cons⟩

end

/-! ## Pairs -/

/-- Binds a key in a table that is made by paths. -/
def bindOnPath (value : Value) (key : String) (table : Table) : Option Table :=
  if table.making = .onPath then table.bind key value else none

theorem rebinds_bindOnPath : Rebinds (· = .onPath) key (bindOnPath value key) := by
  obtain ⟨f, hf⟩ : Rebinds (· = .onPath) key (bind key value) := rebinds_bind
  exact ⟨f, fun table h => by rw [bindOnPath, if_pos h, hf table h]⟩

theorem addPair_singleton (h : table.making ≠ .onPath) :
    addPair [key] value table = table.bind key value := by
  have hmaking : ¬decide (table.making = .onPath) = ([] : List String).isEmpty := by simpa using h
  exact if_neg hmaking

theorem addPair_cons_cons :
    addPair (key :: other :: keys) value =
      alterLast .path (bindOnPath value) (key :: other :: keys) := by
  funext table
  rw [addPair, alterLast]
  congr 1
  funext last
  congr 1
  funext inner
  rw [List.dropLast_cons_cons, List.isEmpty_cons, bindOnPath]
  by_cases h : inner.making = .onPath <;> simp [h]

theorem rebinds_addPair : Rebinds (· ≠ .onPath) key (addPair (key :: keys) value) := by
  cases keys with
  | nil =>
    obtain ⟨f, hf⟩ : Rebinds (· ≠ .onPath) key (bind key value) := rebinds_bind
    exact ⟨f, fun table h => by rw [addPair_singleton h, hf table h]⟩
  | cons other keys =>
    rw [addPair_cons_cons]
    exact ⟨_, fun _ _ => alterLast_cons_cons⟩

/-! ## Headers -/

/-- What a key is bound to when a header defines its table. -/
def defined? (pairs : List (List String × Value)) : Option Value → Option Value
  | none => (addPairs pairs (empty .defined)).map toValue
  | some (.table .implied entries) => (addPairs pairs ⟨.defined, entries⟩).map toValue
  | some _ => none

theorem defined?_eq_some_iff {pairs : List (List String × Value)} {w : Option Value} :
    defined? pairs w = some value ↔ ∃ entries inner,
      (w = none ∧ entries = [] ∨ w = some (.table .implied entries)) ∧
        addPairs pairs ⟨.defined, entries⟩ = some inner ∧ inner.toValue = value := by
  rcases w with _ | _ | _ | _ | _ | ⟨_ | _ | _, _⟩ | _ <;>
    simp [defined?, empty, Option.map_eq_some_iff]

/-- What a key is bound to when a header adds a table to its array. -/
def extended? (entries : List (String × Value)) : Option Value → Option Value
  | none => some (.tables [entries])
  | some (.tables earlier) => some (.tables (entries :: earlier))
  | some _ => none

/-- Binds a key anew, given what it is bound to. -/
def rebind (f : Option Value → Option Value) (key : String) (table : Table) : Option Table :=
  (f (table.get? key)).map (table.set key)

theorem rebinds_rebind {admits : Making → Prop} {f : Option Value → Option Value} :
    Rebinds admits key (rebind f key) :=
  ⟨f, fun _ _ => rfl⟩

theorem addTable_eq (pairs : List (List String × Value)) :
    addTable keys pairs = alterLast .header (rebind (defined? pairs)) keys := by
  funext table
  rw [addTable, alterLast]
  congr 1
  funext last
  congr 1
  funext outer
  rw [rebind]
  cases outer.get? last with
  | none =>
    simp only [defined?]
    cases addPairs pairs (empty .defined) <;> rfl
  | some v =>
    cases v with
    | table making entries =>
      cases making with
      | implied =>
        simp only [defined?]
        cases addPairs pairs ⟨.defined, entries⟩ <;> rfl
      | defined => rfl
      | onPath => rfl
    | text _ => rfl
    | plain _ => rfl
    | list _ => rfl
    | closed _ => rfl
    | tables _ => rfl

theorem addToTables_eq {pairs : List (List String × Value)} {inner : Table}
    (h : addPairs pairs (empty .defined) = some inner) :
    addToTables keys pairs = alterLast .header (rebind (extended? inner.entries)) keys := by
  funext table
  rw [addToTables, alterLast, h]
  congr 1
  funext last
  rw [Option.bind_eq_bind, Option.bind_some]
  congr 1
  funext outer
  rw [rebind]
  cases outer.get? last with
  | none => rfl
  | some v => cases v <;> rfl

/-! ## Tables that differ in what a key is bound to -/

/-- Two tables, neither made by paths, that differ at most in what a key is bound to. -/
structure AgreesBut (key : String) (t t' : Table) : Prop where
  left : t.making ≠ .onPath
  right : t'.making ≠ .onPath
  get? : ∀ other, other ≠ key → t'.get? other = t.get? other

theorem AgreesBut.refl (key : String) (h : table.making ≠ .onPath) : AgreesBut key table table :=
  ⟨h, h, fun _ _ => rfl⟩

theorem AgreesBut.set (h : AgreesBut key t t') (value value' : Value) :
    AgreesBut key (t.set key value) (t'.set key value') := by
  refine ⟨h.left, h.right, fun other hother => ?_⟩
  rw [get?_set_of_ne hother, get?_set_of_ne hother, h.get? other hother]

theorem AgreesBut.set_right (h : AgreesBut key t t') (value : Value) :
    AgreesBut key t (t'.set key value) :=
  ⟨h.left, h.right, fun other hother => by rw [get?_set_of_ne hother, h.get? other hother]⟩

/-- A change at another key is the same change, and leaves both at the key as they are. -/
theorem AgreesBut.rebind (h : AgreesBut key t t') (hchange : Rebinds (· ≠ .onPath) other change)
    (hother : other ≠ key) (hu : change t = some u) : ∃ u', change t' = some u' ∧
      AgreesBut key u u' ∧ u.get? key = t.get? key ∧ u'.get? key = t'.get? key := by
  obtain ⟨value, rfl, hu'⟩ := hchange.transfer h.left h.right (h.get? other hother) hu
  refine ⟨_, hu', ⟨h.left, h.right, fun name hname => ?_⟩, get?_set_of_ne hother.symm,
    get?_set_of_ne hother.symm⟩
  by_cases heq : name = other
  · subst heq
    rw [get?_set_self, get?_set_self]
  · rw [get?_set_of_ne heq, get?_set_of_ne heq, h.get? name hname]

/-! ## Tables of which one has more -/

/-- Of two tables the second has what is given at some names, where the first has nothing. Apart
from that they have the same. -/
structure Gains (named : String → Prop) (given : String → Option Value) (t t' : Table) :
    Prop where
  given : ∀ name, named name → t'.get? name = given name
  fresh : ∀ name, named name → t.get? name = none
  others : ∀ name, ¬named name → t'.get? name = t.get? name

variable {named : String → Prop} {given : String → Option Value}

theorem Gains.nothing (h : ∀ name, named name → table.get? name = none) :
    Gains named (fun _ => none) table table :=
  ⟨h, h, fun _ _ => rfl⟩

theorem Gains.set (h : Gains named given t t') (hkey : ¬named key) (value : Value) :
    Gains named given (t.set key value) (t'.set key value) := by
  have hne : ∀ {name}, named name → name ≠ key := by
    rintro name hname rfl
    exact hkey hname
  refine ⟨fun name hname => ?_, fun name hname => ?_, fun name hname => ?_⟩
  · rw [get?_set_of_ne (hne hname), h.given name hname]
  · rw [get?_set_of_ne (hne hname), h.fresh name hname]
  · by_cases heq : name = key
    · subst heq
      rw [get?_set_self, get?_set_self]
    · rw [get?_set_of_ne heq, get?_set_of_ne heq, h.others name hname]

/-- A change at another name is the same change. -/
theorem Gains.rebind {admits : Making → Prop} (h : Gains named given t t')
    (hchange : Rebinds admits key change) (hkey : ¬named key) (ht : admits t.making)
    (ht' : admits t'.making) (hu : change t = some u) : ∃ u', change t' = some u' ∧
      Gains named given u u' ∧ u.making = t.making ∧ u'.making = t'.making := by
  obtain ⟨value, rfl, hu'⟩ := hchange.transfer ht ht' (h.others key hkey) hu
  exact ⟨_, hu', h.set hkey value, rfl, rfl⟩

/-- What is given at one more name. -/
theorem Gains.give (h : Gains named given t t') (hkey : named key) (value : Value) :
    Gains named (Function.update given key (some value)) t (t'.set key value) := by
  refine ⟨fun name hname => ?_, h.fresh, fun name hname => ?_⟩
  · by_cases heq : name = key
    · subst heq
      rw [get?_set_self, Function.update_self]
    · rw [get?_set_of_ne heq, Function.update_of_ne heq, h.given name hname]
  · rw [get?_set_of_ne (by rintro rfl; exact hname hkey), h.others name hname]

theorem Gains.bind (h : Gains named given t t') (hkey : named key) (hnone : given key = none)
    (value : Value) : t'.bind key value = some (t'.set key value) :=
  bind_of_none ((h.given key hkey).trans hnone)

/-! ## Tables of which one has more in a table inside -/

/-- Which tables a way leads through if it has to go on. -/
def Way.Admits : Way → Making → Prop
  | .header, _ => True
  | .path, making => making = .onPath

theorem Way.admits_making (way : Way) : way.Admits way.making := by
  cases way with
  | header => trivial
  | path => rfl

theorem Way.enters_of_admits (h : way.Admits making) : way.enters making = true := by
  cases way with
  | header => rfl
  | path =>
    cases h
    rfl

/-- The table that a way finds at a key, or makes there. -/
def Finds (way : Way) (key : String) (table inner : Table) : Prop :=
  table.get? key = none ∧ inner = empty way.making ∨
    table.get? key = some inner.toValue ∧ way.Admits inner.making

theorem Finds.admits {inner : Table} (h : Finds way key table inner) : way.Admits inner.making := by
  rcases h with ⟨-, rfl⟩ | ⟨-, h⟩
  · exact way.admits_making
  · exact h

theorem Finds.into {inner : Table} (h : Finds way key table inner) :
    way.into change (table.get? key) = (change inner).map toValue := by
  rcases h with ⟨hnone, rfl⟩ | ⟨hsome, h⟩
  · rw [hnone]
    rfl
  · rw [hsome]
    exact if_pos (Way.enters_of_admits h)

theorem Finds.set {inner : Table} (h : way.Admits inner.making) :
    Finds way key (table.set key inner.toValue) inner :=
  .inr ⟨get?_set_self, h⟩

theorem Finds.header {inner : Table} (h : Finds .path key table inner) :
    ∃ making, Finds .header key table ⟨making, inner.entries⟩ := by
  rcases h with ⟨hnone, rfl⟩ | ⟨hsome, -⟩
  · exact ⟨.implied, .inl ⟨hnone, rfl⟩⟩
  · exact ⟨inner.making, .inr ⟨hsome, trivial⟩⟩

theorem Finds.entries_eq {inner : Table} (h : Finds way key table inner)
    (hentries : table.get? key = none ∧ entries = [] ∨
      table.get? key = some (.table making entries)) : inner.entries = entries := by
  rcases h with ⟨hnone, rfl⟩ | ⟨hsome, -⟩
  · simpa [hnone, empty, eq_comm] using hentries
  · obtain ⟨-, heq⟩ : inner.making = making ∧ inner.entries = entries := by
      simpa [hsome, toValue] using hentries
    exact heq

/-- Two tables that agree but in a table inside, of which the second has more. -/
structure GainsInside (way : Way) (key : String) (named : String → Prop)
    (given : String → Option Value) (t t' : Table) : Prop where
  agrees : AgreesBut key t t'
  inside : ∃ inner inner', Finds way key t inner ∧ Finds way key t' inner' ∧
    Gains named given inner inner'

/-- Where the key is not bound yet, nothing is given. -/
theorem GainsInside.nothing (hmaking : table.making ≠ .onPath) (h : table.get? key = none) :
    GainsInside way key named (fun _ => none) table table :=
  ⟨.refl key hmaking, _, _, .inl ⟨h, rfl⟩, .inl ⟨h, rfl⟩, .nothing fun _ _ => rfl⟩

/-- One more name is bound inside, in a table that is made by paths. -/
theorem GainsInside.give (h : GainsInside .path key named given t t') (hother : named other)
    (hnone : given other = none) (value : Value) :
    ∃ u', addPair [key, other] value t' = some u' ∧
      GainsInside .path key named (Function.update given other (some value)) t u' := by
  obtain ⟨inner, inner', hinner, hinner', hgains⟩ := h.inside
  have hbind : bindOnPath value other inner' = some (inner'.set other value) := by
    have hmaking : inner'.making = .onPath := hinner'.admits
    rw [bindOnPath, if_pos hmaking, hgains.bind hother hnone]
  refine ⟨t'.set key (inner'.set other value).toValue, ?_, ⟨h.agrees.set_right _, inner, _, hinner,
    .set hinner'.admits, hgains.give hother value⟩⟩
  rw [addPair_cons_cons, alterLast_cons_cons, hinner'.into, alterLast_singleton, hbind]
  rfl

/-- Behind the pairs, the tables that they made are led through by headers. -/
theorem GainsInside.header (h : GainsInside .path key named given t t') :
    GainsInside .header key named given t t' := by
  obtain ⟨inner, inner', hinner, hinner', hgains⟩ := h.inside
  obtain ⟨_, hinner⟩ := hinner.header
  obtain ⟨_, hinner'⟩ := hinner'.header
  exact ⟨h.agrees, _, _, hinner, hinner', hgains.given, hgains.fresh, hgains.others⟩

/-- A change at another key is the same change. -/
theorem GainsInside.rebind (h : GainsInside way key named given t t')
    (hchange : Rebinds (· ≠ .onPath) other change) (hother : other ≠ key)
    (hu : change t = some u) : ∃ u', change t' = some u' ∧
      GainsInside way key named given u u' := by
  obtain ⟨u', hu', hagrees, hget, hget'⟩ := h.agrees.rebind hchange hother hu
  obtain ⟨inner, inner', hinner, hinner', hgains⟩ := h.inside
  refine ⟨u', hu', ⟨hagrees, inner, inner', ?_, ?_, hgains⟩⟩
  · rwa [Finds, hget]
  · rwa [Finds, hget']

/-- A change inside at another name is the same change. -/
theorem GainsInside.alterLast {change : String → Table → Option Table}
    (h : GainsInside way key named given t t')
    (hchange : ∀ name, Rebinds way.Admits name (change name)) (hother : ¬named other)
    (hu : alterLast way change (key :: other :: keys) t = some u) :
    ∃ u', alterLast way change (key :: other :: keys) t' = some u' ∧
      GainsInside way key named given u u' := by
  obtain ⟨inner, inner', hinner, hinner', hgains⟩ := h.inside
  rw [alterLast_cons_cons, hinner.into, Option.map_map, Option.map_eq_some_iff] at hu
  obtain ⟨v, hv, rfl⟩ := hu
  obtain ⟨v', hv', hgains', hmaking, hmaking'⟩ := hgains.rebind (rebinds_alterLast hchange) hother
    hinner.admits hinner'.admits hv
  refine ⟨t'.set key v'.toValue, ?_, h.agrees.set _ _, v, v', .set ?_, .set ?_, hgains'⟩
  · rw [alterLast_cons_cons, hinner'.into, hv']
    rfl
  · exact hmaking ▸ hinner.admits
  · exact hmaking' ▸ hinner'.admits

end CaseReport.Toml.Table
