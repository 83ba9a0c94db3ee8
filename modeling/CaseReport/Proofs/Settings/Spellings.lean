import CaseReport.Proofs.Settings.Grammar
import CaseReport.Proofs.Toml.Validity

/-!
# All ways to write settings agree

Each part of a document is added to the table of the parts in front of it. The table that comes
about with the paths is compared with the one that comes about without them: at any time they differ
in what the paths have been bound to so far, and in nothing else.
-/

namespace CaseReport.Settings

open Toml Toml.Table

variable {way : Way} {front keys : List String} {name : String} {value : Option Value}
  {pair : Pair} {pairs : List Pair} {part : Section} {sections : List Section}
  {paths : String → Option Path} {given : String → Option Value} {depth : Nat} {v : Value}
  {table t t' u : Table} {settings : Settings}

/-! ## Where no path is given -/

theorem IsElsewhere.exists_cons (h : IsElsewhere keys) (hne : keys ≠ []) :
    ∃ key rest, keys = key :: rest ∧ key ≠ "paths" := by
  cases keys with
  | nil => exact absurd rfl hne
  | cons key rest => exact ⟨key, rest, rfl, fun heq => h (congrArg some heq)⟩

theorem IsApart.not_mem {key : String} (h : IsApart [] (key :: keys)) : key ∉ names := by
  intro hkey
  exact (h key hkey).2 ⟨keys, rfl⟩

theorem IsApart.ne_nil (h : IsApart front keys) : keys ≠ [] := by
  rintro rfl
  exact (h "config" List.mem_cons_self).1 List.nil_prefix

/-- Keys that do not lead to a path, or through one, lead elsewhere or to another name beside the
paths. -/
theorem IsApart.cases_paths (h : IsApart ["paths"] keys) :
    (∃ key rest, keys = key :: rest ∧ key ≠ "paths") ∨
      ∃ name rest, keys = "paths" :: name :: rest ∧ name ∉ names := by
  cases keys with
  | nil => exact absurd rfl h.ne_nil
  | cons key rest =>
    by_cases hkey : key = "paths"
    · subst hkey
      cases rest with
      | nil => exact absurd ⟨["config"], rfl⟩ (h "config" List.mem_cons_self).1
      | cons name rest => exact .inr ⟨name, rest, rfl, fun hname => (h name hname).2 ⟨rest, rfl⟩⟩
    · exact .inl ⟨key, rest, rfl, hkey⟩

/-! ## Tables that differ in the paths as a whole -/

/-- The first table has nothing under the key of the paths, and the second has the given there. -/
structure Holds (value : Option Value) (t t' : Table) : Prop where
  agrees : AgreesBut "paths" t t'
  fresh : t.get? "paths" = none
  held : t'.get? "paths" = value

theorem Holds.empty : Holds none (.empty .defined) (.empty .defined) :=
  ⟨.refl _ nofun, rfl, rfl⟩

theorem Holds.rebind {change : Table → Option Table} {key : String} (h : Holds value t t')
    (hchange : Rebinds (· ≠ .onPath) key change) (hkey : key ≠ "paths") (hu : change t = some u) :
    ∃ u', change t' = some u' ∧ Holds value u u' := by
  obtain ⟨u', hu', hagrees, hget, hget'⟩ := h.agrees.rebind hchange hkey hu
  exact ⟨u', hu', hagrees, hget.trans h.fresh, hget'.trans h.held⟩

theorem Holds.addWritten (h : Holds value t t') (hpairs : ∀ pair ∈ pairs, IsElsewhere pair.keys)
    (hu : Table.addWritten depth pairs t = some u) :
    ∃ u', Table.addWritten depth pairs t' = some u' ∧ Holds value u u' := by
  refine foldlM_keeps (fun pair hpair _ _ _ h hu => Pair.addTo_keeps (fun v hadd => ?_) hu) h hu
  obtain ⟨key, rest, hkeys, hkey⟩ := (hpairs pair hpair).exists_cons (ne_nil_of_addPair hadd)
  rw [hkeys] at hadd ⊢
  exact h.rebind rebinds_addPair hkey hadd

theorem Holds.addParts (h : Holds value t t')
    (hsections : ∀ part ∈ sections, IsElsewhere part.heading.keys)
    (hu : t.addParts sections = some u) :
    ∃ u', t'.addParts sections = some u' ∧ Holds value u u' := by
  refine foldlM_keeps (fun part hpart t t' u h hu => ?_) h hu
  obtain ⟨f, hf⟩ := Section.exists_rebind hu
  rw [hf] at hu ⊢
  obtain ⟨key, rest, hkeys, hkey⟩ := (hsections part hpart).exists_cons (ne_nil_of_alterLast hu)
  rw [hkeys] at hu ⊢
  exact h.rebind (rebinds_alterLast fun _ => rebinds_rebind) hkey hu

/-! ## Tables that differ in some of the paths -/

/-- A step elsewhere, or at another name beside the paths, is the same step. -/
theorem gainsInside_step (step : List String → Table → Option Table)
    {change : String → Table → Option Table}
    (h : GainsInside way "paths" (· ∈ names) given t t') (hkeys : IsApart ["paths"] keys)
    (hstep : ∀ key keys, Rebinds (· ≠ .onPath) key (step (key :: keys)))
    (hinside : ∀ key other keys,
      step (key :: other :: keys) = alterLast way change (key :: other :: keys))
    (hchange : ∀ name, Rebinds way.Admits name (change name)) (hu : step keys t = some u) :
    ∃ u', step keys t' = some u' ∧ GainsInside way "paths" (· ∈ names) given u u' := by
  rcases hkeys.cases_paths with ⟨key, rest, rfl, hkey⟩ | ⟨name, rest, rfl, hname⟩
  · exact h.rebind (hstep key rest) hkey hu
  · rw [hinside] at hu ⊢
    exact h.alterLast hchange hname hu

theorem gainsInside_addParts (h : GainsInside .header "paths" (· ∈ names) given t t')
    (hsections : ∀ part ∈ sections, IsApart ["paths"] part.heading.keys)
    (hu : t.addParts sections = some u) :
    ∃ u', t'.addParts sections = some u' ∧
      GainsInside .header "paths" (· ∈ names) given u u' := by
  refine foldlM_keeps (fun part hpart t t' u h hu => ?_) h hu
  obtain ⟨f, hf⟩ := Section.exists_rebind hu
  rw [hf] at hu ⊢
  exact gainsInside_step (fun keys => alterLast .header (rebind f) keys) h (hsections part hpart)
    (fun _ _ => rebinds_alterLast fun _ => rebinds_rebind) (fun _ _ _ => rfl)
    (fun _ => rebinds_rebind) hu

/-! ## Pairs that give paths -/

theorem gives_iff : gives front pair = true ↔ ∃ name ∈ names, pair.keys = front ++ [name] := by
  simp [gives]

theorem additions_cons_of_gives (h : gives front pair = true) :
    additions front (pair :: pairs) = additions front pairs := by
  rw [additions, List.filter_cons_of_neg (by simp [h]), additions]

theorem additions_cons_of_not_gives (h : ¬gives front pair = true) :
    additions front (pair :: pairs) = pair :: additions front pairs := by
  rw [additions, List.filter_cons_of_pos (by simp [h]), additions]

/-- A pair that gives a path is the only one for its name. -/
theorem Supplies.of_gives (h : Supplies front (pair :: pairs) paths)
    (hgives : gives front pair = true) : ∃ name path, name ∈ names ∧ pair.keys = front ++ [name] ∧
      paths name = some path ∧ IsQuoted pair.value path ∧
      Supplies front pairs (Function.update paths name none) := by
  obtain ⟨name, hname, hkeys⟩ := gives_iff.1 hgives
  have hgiven := h.given name hname
  rw [List.filter_cons_of_pos (by simpa using hkeys), List.forall₂_cons_left_iff] at hgiven
  obtain ⟨path, rest, hquoted, hrest, hpaths⟩ := hgiven
  obtain ⟨hpath, rfl⟩ : paths name = some path ∧ rest = [] := by
    cases hp : paths name with
    | none => simp [hp] at hpaths
    | some p => simpa [hp, eq_comm] using hpaths
  refine ⟨name, path, hname, hkeys, hpath, hquoted, fun other hother => ?_, ?_⟩
  · by_cases heq : other = name
    · subst heq
      rw [Function.update_self]
      exact hrest
    · have hne : ¬front ++ [name] = front ++ [other] := by simpa using Ne.symm heq
      have hrest := h.given other hother
      rw [List.filter_cons_of_neg (by simpa [hkeys] using hne)] at hrest
      rwa [Function.update_of_ne heq]
  · rw [← additions_cons_of_gives hgives]
    exact h.apart

theorem Supplies.of_not_gives (h : Supplies front (pair :: pairs) paths)
    (hgives : ¬gives front pair = true) :
    IsApart front pair.keys ∧ Supplies front pairs paths := by
  have hapart := h.apart
  rw [additions_cons_of_not_gives hgives, List.forall_mem_cons] at hapart
  refine ⟨hapart.1, fun name hname => ?_, hapart.2⟩
  have hne : ¬pair.keys = front ++ [name] := fun hkeys => hgives (gives_iff.2 ⟨name, hname, hkeys⟩)
  have hgiven := h.given name hname
  rwa [List.filter_cons_of_neg (by simpa using hne)] at hgiven

theorem Supplies.nil (h : Supplies front [] paths) (hname : name ∈ names) : paths name = none := by
  have hgiven := h.given name hname
  cases hp : paths name with
  | none => rfl
  | some path =>
    rw [hp] at hgiven
    cases hgiven

/-- A relation between tables without and with what is given, which each pair carries on. -/
structure Carries (front : List String) (R : (String → Option Value) → Table → Table → Prop) :
    Prop where
  apart : ∀ {given t t' u keys v}, R given t t' → IsApart front keys →
    t.addPair keys v = some u → ∃ u', t'.addPair keys v = some u' ∧ R given u u'
  give : ∀ {given t t' name}, R given t t' → name ∈ names → given name = none → ∀ v : Value,
    ∃ u', t'.addPair (front ++ [name]) v = some u' ∧ R (Function.update given name (some v)) t u'

theorem carries_gains : Carries [] fun given t t' =>
    t.making ≠ .onPath ∧ t'.making ≠ .onPath ∧ Gains (· ∈ names) given t t' where
  apart := by
    rintro given t t' u keys v ⟨ht, ht', hgains⟩ hkeys hu
    cases keys with
    | nil => exact absurd rfl hkeys.ne_nil
    | cons key keys =>
      obtain ⟨u', hu', hgains', hmaking, hmaking'⟩ :=
        hgains.rebind rebinds_addPair hkeys.not_mem ht ht' hu
      exact ⟨u', hu', hmaking ▸ ht, hmaking' ▸ ht', hgains'⟩
  give := by
    rintro given t t' name ⟨ht, ht', hgains⟩ hname hnone v
    exact ⟨t'.set name v, (addPair_singleton ht').trans (hgains.bind hname hnone v), ht, ht',
      hgains.give hname v⟩

theorem carries_gainsInside : Carries ["paths"] (GainsInside .path "paths" (· ∈ names)) where
  apart := by
    rintro given t t' u keys v h hkeys hu
    exact gainsInside_step (fun keys => addPair keys v) h hkeys
      (fun _ _ => rebinds_addPair) (fun _ _ _ => addPair_cons_cons)
      (fun _ => rebinds_bindOnPath) hu
  give := by
    rintro given t t' name h hname hnone v
    exact h.give hname hnone v

/-- Where pairs give paths and the others are carried on, all of them are, and in the end each path
is given that they give. -/
theorem Supplies.carry {R : (String → Option Value) → Table → Table → Prop}
    (h : Supplies front pairs paths) (hR : Carries front R) (hfront : front.length + 1 < pathLimit)
    (hrel : R given t t') (hfree : ∀ name ∈ names, (paths name).isSome → given name = none)
    (hu : Table.addWritten depth (additions front pairs) t = some u) :
    ∃ given' u', Table.addWritten depth pairs t' = some u' ∧ R given' u u' ∧
      ∀ name ∈ names, given' name = (given name).or ((paths name).map .text) := by
  induction pairs generalizing paths given t t' with
  | nil =>
    cases hu
    exact ⟨given, t', rfl, hrel, fun name hname => by rw [h.nil hname, Option.map_none,
      Option.or_none]⟩
  | cons pair pairs ih =>
    by_cases hgives : gives front pair = true
    · obtain ⟨name, path, hname, hkeys, hpath, hquoted, hrest⟩ := h.of_gives hgives
      have hnone : given name = none := hfree name hname (by simp [hpath])
      obtain ⟨w, hw, hrel'⟩ := hR.give hrel hname hnone (.text path)
      have hread : pair.read? depth = some (front ++ [name], .text path) :=
        Pair.read?_eq_some_iff.2
          ⟨readValue_of_isQuoted hquoted, by simpa [hkeys] using hfront, hkeys.symm⟩
      rw [additions_cons_of_gives hgives] at hu
      obtain ⟨given', u', hu', hend, hgiven'⟩ := ih hrest hrel' (fun other hother hsome => by
        by_cases heq : other = name
        · subst heq
          simp at hsome
        · rw [Function.update_of_ne heq] at hsome ⊢
          exact hfree other hother hsome) hu
      refine ⟨given', u', ?_, hend, fun other hother => ?_⟩
      · rw [addWritten_cons, Pair.addTo_eq_some_iff.2 ⟨_, _, hread, hw⟩]
        exact hu'
      · rw [hgiven' other hother]
        by_cases heq : other = name
        · subst heq
          rw [Function.update_self, Function.update_self, hnone, hpath]
          rfl
        · rw [Function.update_of_ne heq, Function.update_of_ne heq]
    · obtain ⟨hapart, hrest⟩ := h.of_not_gives hgives
      rw [additions_cons_of_not_gives hgives, addWritten_cons, Option.bind_eq_some_iff] at hu
      obtain ⟨w, hw, hu⟩ := hu
      obtain ⟨w', hw', hrel'⟩ := Pair.addTo_keeps (fun v => hR.apart hrel hapart) hw
      obtain ⟨given', u', hu', hend⟩ := ih hrest hrel' hfree hu
      exact ⟨given', u', by rw [addWritten_cons, hw', Option.bind_some, hu'], hend⟩

/-! ## Reading the settings -/

/-- The entries of a table that has the paths give them. -/
theorem ofEntries?_of_given
    (h : ∀ name ∈ names, table.get? name = (settings.path? name).map .text) :
    ofEntries? table.entries = some settings := by
  have hpath : ∀ name ∈ names, pathAt? table.entries name = some (settings.path? name) := by
    intro name hname
    have hget : table.entries.lookup name = _ := h name hname
    rw [pathAt?, hget]
    cases settings.path? name <;> rfl
  rw [ofEntries?, hpath "config" (by decide), hpath "report" (by decide),
    hpath "workspace" (by decide)]
  rfl

theorem parse?_of_value {s : List Char} (hparse : Toml.parse? s = some table)
    (hget : table.get? "paths" = some v) (h : ofValue? v = some settings) :
    Settings.parse? s = some settings := by
  rw [Settings.parse?, hparse, Option.bind_eq_bind, Option.bind_some, hget]
  exact h

/-- The settings are read in the table inside, or they are empty where there is none. -/
theorem parse?_of_gainsInside {s : List Char} (hparse : Toml.parse? s = some t')
    (h : GainsInside way "paths" (· ∈ names) given t t')
    (hgiven : ∀ name ∈ names, given name = (settings.path? name).map .text) :
    Settings.parse? s = some settings := by
  obtain ⟨inner, inner', -, hinner', hgains⟩ := h.inside
  have hentries : ofEntries? inner'.entries = some settings :=
    ofEntries?_of_given fun name hname => (hgains.given name hname).trans (hgiven name hname)
  rcases hinner' with ⟨hnone, rfl⟩ | ⟨hsome, -⟩
  · rw [Settings.parse?, hparse, Option.bind_eq_bind, Option.bind_some, hnone]
    exact hentries
  · exact parse?_of_value hparse hsome hentries

/-! ## The table under its header -/

/-- A header defines the table with the paths where it defines it without them. -/
theorem Supplies.define (h : Supplies [] pairs paths)
    (hinside : GainsInside .header "paths" (· ∈ names) (fun _ => none) t t)
    (hu : Section.addTo ⟨.table ["paths"], additions [] pairs⟩ t = some u) :
    ∃ given u', Section.addTo ⟨.table ["paths"], pairs⟩ t = some u' ∧
      GainsInside .header "paths" (· ∈ names) given u u' ∧
      ∀ name ∈ names, given name = (paths name).map .text := by
  obtain ⟨entries, w, hentries, hw, rfl⟩ := addTo_table_iff.1 hu
  have hnothing : Gains (· ∈ names) (fun _ => none) ⟨.defined, entries⟩ ⟨.defined, entries⟩ := by
    obtain ⟨inner, _, hinner, -, hgains⟩ := hinside.inside
    rw [← hinner.entries_eq hentries]
    exact .nothing hgains.fresh
  obtain ⟨given, w', hw', ⟨-, -, hgains⟩, hgiven⟩ := h.carry carries_gains (by decide)
    ⟨by nofun, by nofun, hnothing⟩ (fun _ _ _ => rfl) hw
  refine ⟨given, _, addTo_table_iff.2 ⟨entries, w', hentries, hw', rfl⟩,
    ⟨hinside.agrees.set _ _, w, w', .set trivial, .set trivial, hgains⟩, fun name hname => ?_⟩
  rw [hgiven name hname, Option.none_or]

/-! ## All ways to write settings -/

theorem Supplies.parse?_of_table {s : List Char} {top : List Pair} {before after : List Section}
    (hpairs : Supplies [] pairs settings.path?)
    (hs : Document.IsText ⟨top, before ++ ⟨.table ["paths"], pairs⟩ :: after⟩ s)
    (htop : ∀ pair ∈ top, IsElsewhere pair.keys)
    (hsections : ∀ part ∈ before ++ after, IsApart ["paths"] part.heading.keys)
    (hvalid : Document.IsValid
      ⟨top, before ++ ⟨.table ["paths"], additions [] pairs⟩ :: after⟩) :
    Settings.parse? s = some settings := by
  obtain ⟨t, u, ht, hu⟩ := Document.exists_tables hvalid
  rw [addParts_append, Option.bind_eq_some_iff] at hu
  obtain ⟨t₁, ht₁, hu⟩ := hu
  rw [addParts_cons, Option.bind_eq_some_iff] at hu
  obtain ⟨t₂, ht₂, hu⟩ := hu
  rw [List.forall_mem_append] at hsections
  -- Up to the header the two tables are one.
  obtain ⟨_, ht', hholds⟩ := Holds.empty.addWritten htop ht
  cases ht.symm.trans ht'
  obtain ⟨_, ht₁', hbefore⟩ :=
    gainsInside_addParts (.nothing hholds.agrees.left hholds.fresh) hsections.1 ht₁
  cases ht₁.symm.trans ht₁'
  obtain ⟨given, t₂', ht₂', hinside, hgiven⟩ := hpairs.define hbefore ht₂
  obtain ⟨u', hu', hafter⟩ := gainsInside_addParts hinside hsections.2 hu
  refine parse?_of_gainsInside (parse?_of_isText hs ?_) hafter hgiven
  rw [Document.table?, ht, Option.bind_eq_bind, Option.bind_some, addParts_append, ht₁,
    Option.bind_some, addParts_cons, ht₂', Option.bind_some, hu']

theorem Supplies.parse?_of_dotted {s : List Char} (hpairs : Supplies ["paths"] pairs settings.path?)
    (hs : Document.IsText ⟨pairs, sections⟩ s)
    (hsections : ∀ part ∈ sections, IsApart ["paths"] part.heading.keys)
    (hvalid : Document.IsValid ⟨additions ["paths"] pairs, sections⟩) :
    Settings.parse? s = some settings := by
  obtain ⟨t, u, ht, hu⟩ := Document.exists_tables hvalid
  obtain ⟨given, t', ht', hinside, hgiven⟩ := hpairs.carry carries_gainsInside (by decide)
    (.nothing (by nofun) rfl) (fun _ _ _ => rfl) ht
  obtain ⟨u', hu', hafter⟩ := gainsInside_addParts hinside.header hsections hu
  refine parse?_of_gainsInside (parse?_of_isText hs ?_) hafter fun name hname => by
    rw [hgiven name hname, Option.none_or]
  rw [Document.table?, ht']
  exact hu'

/-- A value for all paths at once may stand among pairs that are elsewhere. -/
theorem parse?_of_held {s s' : List Char} {before after : List Pair}
    (hs : Document.IsText ⟨before ++ ⟨["paths"], s'⟩ :: after, sections⟩ s)
    (hread : readValue maxDepth s' = some (v, [])) (hsettings : ofValue? v = some settings)
    (haround : ∀ pair ∈ before ++ after, IsElsewhere pair.keys)
    (hsections : ∀ part ∈ sections, IsElsewhere part.heading.keys)
    (hvalid : Document.IsValid ⟨before ++ after, sections⟩) :
    Settings.parse? s = some settings := by
  obtain ⟨t, u, ht, hu⟩ := Document.exists_tables hvalid
  rw [addWritten_append, Option.bind_eq_some_iff] at ht
  obtain ⟨t₀, ht₀, ht⟩ := ht
  rw [List.forall_mem_append] at haround
  obtain ⟨t₀', ht₀', hbefore⟩ := Holds.empty.addWritten haround.1 ht₀
  have hlength : ["paths"].length < pathLimit := by decide
  have hheld : Pair.addTo maxDepth ⟨["paths"], s'⟩ t₀' = some (t₀'.set "paths" v) :=
    Pair.addTo_eq_some_iff.2 ⟨_, v, Pair.read?_eq_some_iff.2 ⟨hread, hlength, rfl⟩,
      (addPair_singleton hbefore.agrees.right).trans (bind_of_none hbefore.held)⟩
  have hholds : Holds (some v) t₀ (t₀'.set "paths" v) :=
    ⟨hbefore.agrees.set_right v, hbefore.fresh, get?_set_self⟩
  obtain ⟨t', ht', hafter⟩ := hholds.addWritten haround.2 ht
  obtain ⟨u', hu', hend⟩ := hafter.addParts hsections hu
  refine parse?_of_value (parse?_of_isText hs ?_) hend.held hsettings
  rw [Document.table?, addWritten_append, ht₀', Option.bind_some, addWritten_cons, hheld,
    Option.bind_some, ht']
  exact hu'

/-- A table in braces gives the paths that its pairs give. -/
theorem Supplies.exists_closed {s : List Char} (h : Supplies [] pairs settings.path?)
    (hbraced : IsBraced s pairs)
    (hadditions : ∃ table,
      Table.addWritten depth (additions [] pairs) (.empty .defined) = some table) :
    ∃ v, readValue (depth + 1) s = some (v, []) ∧ ofValue? v = some settings := by
  obtain ⟨plain, hplain⟩ := hadditions
  obtain ⟨given, table, htable, ⟨-, -, hgains⟩, hgiven⟩ := h.carry carries_gains (by decide)
    ⟨by nofun, by nofun, .nothing fun _ _ => rfl⟩ (fun _ _ _ => rfl) hplain
  obtain ⟨values, hvalues, hadd⟩ := addWritten_eq_some_iff.1 htable
  refine ⟨_, readValue_of_isBraced hbraced hvalues hadd, ofEntries?_of_given fun name hname => ?_⟩
  rw [hgains.given name hname, hgiven name hname, Option.none_or]

/-- A list gives the paths that it begins with. -/
theorem exists_list {s c r w : List Char} {more : List (List Char)} {config report workspace : Path}
    (hbracketed : IsBracketed s (c :: r :: w :: more)) (hconfig : IsQuoted c config)
    (hreport : IsQuoted r report) (hworkspace : IsQuoted w workspace)
    (hmore : ∀ item ∈ more, IsValueText depth item) :
    ∃ v, readValue (depth + 1) s = some (v, []) ∧
      ofValue? v = some ⟨some config, some report, some workspace⟩ := by
  obtain ⟨values, hvalues⟩ := exists_values hmore
  exact ⟨_, readValue_of_isBracketed hbracketed (.cons (readValue_of_isQuoted hconfig)
    (.cons (readValue_of_isQuoted hreport) (.cons (readValue_of_isQuoted hworkspace) hvalues))),
    rfl⟩

/-- Any text can be written in double quotes; values are read as such, and pairs and documents that
have values and define nothing twice are valid; and whatever way settings are written in, they are
read as what the texts in double quotes stand for. -/
theorem parse?_of_isSpelledBy : (∀ text, ∃ s, IsQuoted s text) ∧
    (∀ {depth s}, IsValue depth s → IsValueText depth s) ∧
      (∀ {depth pairs}, AreOrderly depth pairs →
        ∃ table, Table.addWritten depth pairs (.empty .defined) = some table) ∧
        (∀ {document : Document}, document.IsOrderly → document.IsValid) ∧
          ∀ {s document settings}, Document.IsText document s → IsSpelledBy settings document →
            Settings.parse? s = some settings := by
  refine ⟨exists_isQuoted, isValueText_of_isValue, AreOrderly.exists_addWritten,
    Document.isValid_of_isOrderly, fun {s document settings} hs h => ?_⟩
  cases h with
  | table hpairs htop hsections hvalid => exact hpairs.parse?_of_table hs htop hsections hvalid
  | dotted hpairs hsections hvalid => exact hpairs.parse?_of_dotted hs hsections hvalid
  | braces hbraced hpairs hadditions haround hsections hvalid =>
    obtain ⟨v, hread, hv⟩ := hpairs.exists_closed hbraced hadditions
    exact parse?_of_held hs hread hv haround hsections hvalid
  | list hbracketed hconfig hreport hworkspace hmore haround hsections hvalid =>
    obtain ⟨v, hread, hv⟩ := exists_list hbracketed hconfig hreport hworkspace hmore
    exact parse?_of_held hs hread hv haround hsections hvalid

/-- An array of tables with a table in each of them. -/
def writtenEnd : List Char :=
  "[[other]]\nreport=3\n[other.inner]\n[[other]]\n[other.inner]".toList

/-- A document with a comment, escapes in a path and a key that has the name of a path elsewhere. -/
def written : List Char :=
  ("title = 1 # first\n\n[paths]\nreport = \"r\\\"\\u00E9\"\nmore.config = [2]\r\n" ++
    "config=\"c\"\n").toList ++ writtenEnd

/-- The pairs under the header of the paths. -/
def writtenPairs : List Pair :=
  [⟨["report"], "\"r\\\"\\u00E9\"".toList⟩, ⟨["more", "config"], "[2]".toList⟩,
    ⟨["config"], "\"c\"".toList⟩]

/-- The sections behind the paths. -/
def writtenSections : List Section :=
  [⟨.arrayItem ["other"], [⟨["report"], ['3']⟩]⟩, ⟨.table ["other", "inner"], []⟩,
    ⟨.arrayItem ["other"], []⟩, ⟨.table ["other", "inner"], []⟩]

/-- What the lines of the document say. -/
def writtenDocument : Document :=
  ⟨[⟨["title"], ['1']⟩], ⟨.table ["paths"], writtenPairs⟩ :: writtenSections⟩

theorem supplies_writtenPairs :
    Supplies [] writtenPairs (path? ⟨some "c", some "r\"é", none⟩) := by
  have hreport : IsQuoted "\"r\\\"\\u00E9\"".toList "r\"é" := by
    have hspells : Spells ['r', '\\', '"', '\\', 'u', '0', '0', 'E', '9'] ['r', '"', 'é'] :=
      .plain ⟨rfl, by decide, by decide⟩ (.escape (e := ['"']) (.letter (by decide))
        (.escape (e := ['u', '0', '0', 'E', '9']) (.short rfl (by decide)) .nil))
    exact ⟨_, hspells, rfl⟩
  have hconfig : IsQuoted "\"c\"".toList "c" :=
    ⟨['c'], .plain ⟨rfl, by decide, by decide⟩ .nil, rfl⟩
  refine ⟨?_, by decide⟩
  intro name hname
  simp only [names, List.mem_cons, List.not_mem_nil, or_false] at hname
  rcases hname with rfl | rfl | rfl
  · exact .cons hconfig .nil
  · exact .cons hreport .nil
  · exact .nil

private theorem isPath_bare (key : String) (after : List Char)
    (h : key.toList ≠ [] ∧ key.toList.all isBare = true) (hafter : IsBlank after) :
    IsPath (key.toList ++ after) [key] := by
  have hkey : IsKey key.toList key := by simpa using IsKey.bare h.1 (List.all_eq_true.1 h.2)
  exact .last isBlank_nil hkey hafter

private theorem isPath_bare_cons (key : String) {rest : List Char} {keys : List String}
    (h : key.toList ≠ [] ∧ key.toList.all isBare = true) (hrest : IsPath rest keys) :
    IsPath (key.toList ++ '.' :: rest) (key :: keys) := by
  have hkey : IsKey key.toList key := by simpa using IsKey.bare h.1 (List.all_eq_true.1 h.2)
  exact .cons isBlank_nil hkey isBlank_nil hrest

private theorem isLine_filled {s margin : List Char} {line : Line} (h : IsLineText s line)
    (hmargin : IsMargin margin) : IsLine (s ++ margin) (some line) :=
  .filled isBlank_nil h hmargin

theorem areLines_writtenEnd :
    AreLines writtenEnd (writtenSections.flatMap Section.lines) := by
  have hother : IsLineText "[[other]]".toList (.heading (.arrayItem ["other"])) :=
    .arrayItem (isPath_bare "other" [] (by decide) isBlank_nil)
  have hreport : IsLineText "report=3".toList (.pair ⟨["report"], ['3']⟩) :=
    .pair ⟨_, _, isPath_bare "report" [] (by decide) isBlank_nil, isBlank_nil, rfl⟩
  have hinner : IsLineText "[other.inner]".toList (.heading (.table ["other", "inner"])) :=
    .table (isPath_bare_cons "other" (by decide) (isPath_bare "inner" [] (by decide) isBlank_nil))
  exact .cons (isLine_filled hother isMargin_nil) (.inl rfl)
    (.cons (isLine_filled hreport isMargin_nil) (.inl rfl)
      (.cons (isLine_filled hinner isMargin_nil) (.inl rfl)
        (.cons (isLine_filled hother isMargin_nil) (.inl rfl)
          (.last (isLine_filled hinner isMargin_nil)))))

theorem isText_writtenDocument : writtenDocument.IsText written := by
  have hspace : IsBlank [' '] := by simp [IsBlank, isSpace]
  have hcomment : IsMargin " # first".toList :=
    ⟨[' '], _, hspace, .inr ⟨" first".toList, List.all_eq_true.1 rfl, rfl⟩, rfl⟩
  have htitle : IsLineText "title = 1".toList (.pair ⟨["title"], ['1']⟩) :=
    .pair ⟨_, _, isPath_bare "title" [' '] (by decide) hspace, hspace, rfl⟩
  have hpaths : IsLineText "[paths]".toList (.heading (.table ["paths"])) :=
    .table (isPath_bare "paths" [] (by decide) isBlank_nil)
  have hreport : IsLineText "report = \"r\\\"\\u00E9\"".toList
      (.pair ⟨["report"], "\"r\\\"\\u00E9\"".toList⟩) :=
    .pair ⟨_, _, isPath_bare "report" [' '] (by decide) hspace, hspace, rfl⟩
  have hmore : IsLineText "more.config = [2]".toList (.pair ⟨["more", "config"], "[2]".toList⟩) :=
    .pair ⟨_, _, isPath_bare_cons "more" (by decide)
      (isPath_bare "config" [' '] (by decide) hspace), hspace, rfl⟩
  have hconfig : IsLineText "config=\"c\"".toList (.pair ⟨["config"], "\"c\"".toList⟩) :=
    .pair ⟨_, _, isPath_bare "config" [] (by decide) isBlank_nil, isBlank_nil, rfl⟩
  exact .cons (isLine_filled htitle hcomment) (.inl rfl) (.cons (.empty isMargin_nil) (.inl rfl)
    (.cons (isLine_filled hpaths isMargin_nil) (.inl rfl)
      (.cons (isLine_filled hreport isMargin_nil) (.inl rfl)
        (.cons (isLine_filled hmore isMargin_nil) (.inr rfl)
          (.cons (isLine_filled hconfig isMargin_nil) (.inl rfl) areLines_writtenEnd)))))

/-- What is left of the document without the paths defines nothing twice: the second table of the
array hides the table in the first one. -/
theorem isOrderly_unpathed : Document.IsOrderly ⟨[⟨["title"], ['1']⟩],
    ⟨.table ["paths"], [⟨["more", "config"], "[2]".toList⟩]⟩ :: writtenSections⟩ := by
  have hnumber : ∀ {depth c n}, Text.digitIn? 10 c = some n → Text.ofDigits 10 [n] ≤ maxInteger →
      IsValue depth [c] :=
    fun h hle => .number (IsNumber.decimal (s := [_]) .missing ⟨.last h, fun _ => rfl⟩ hle)
  have hitem : AreItems "2".toList ["2".toList] :=
    @AreItems.last [] ['2'] [] (.blank isBlank_nil) (.blank isBlank_nil)
  have hlist : IsValue maxDepth "[2]".toList :=
    .list ⟨_, hitem, rfl⟩ (List.forall_mem_singleton.2 (hnumber rfl (by decide)))
  have hone : ∀ {keys value}, HasFitLength keys → IsValue maxDepth value →
      AreOrderly maxDepth [⟨keys, value⟩] := fun hkeys hvalue =>
    ⟨⟨List.forall_mem_singleton.2 hkeys, List.pairwise_singleton _ _⟩,
      List.forall_mem_singleton.2 hvalue⟩
  have hnothing : AreOrderly maxDepth [] := ⟨⟨nofun, .nil⟩, nofun⟩
  refine ⟨hone (by decide) (hnumber rfl (by decide)), ?_, by decide, ?_, by decide⟩
  · simp only [writtenSections, List.forall_mem_cons]
    exact ⟨hone (by decide) hlist, hone (by decide) (hnumber rfl (by decide)), hnothing, hnothing,
      hnothing, nofun⟩
  · refine .cons nofun (.cons ?_ (.cons ?_ (.cons ?_ (.cons ?_ .nil))))
    · exact List.forall_mem_singleton.2 (.inl (.apart (by decide)))
    · exact List.forall_mem_cons.2 ⟨.inl (.below (List.cons_ne_nil "inner" []) rfl (by decide)),
        List.forall_mem_singleton.2 (.inl (.apart (by decide)))⟩
    · exact List.forall_mem_cons.2 ⟨.inr (by decide), List.forall_mem_cons.2 ⟨.inr (by decide),
        List.forall_mem_singleton.2 (.inl (.apart (by decide)))⟩⟩
    · exact List.forall_mem_cons.2 ⟨.inl (.below (List.cons_ne_nil "inner" []) rfl (by decide)),
        List.forall_mem_singleton.2 (.inl (.apart (by decide)))⟩

theorem parse?_written : writtenDocument.IsText written ∧
    IsSpelledBy ⟨some "c", some "r\"é", none⟩ writtenDocument ∧
    Settings.parse? written = some ⟨some "c", some "r\"é", none⟩ := by
  have hspelled : IsSpelledBy ⟨some "c", some "r\"é", none⟩ writtenDocument :=
    @IsSpelledBy.table _ [⟨["title"], ['1']⟩] [] writtenPairs writtenSections
      supplies_writtenPairs (by decide)
      (by decide) (parse?_of_isSpelledBy.2.2.2.1 isOrderly_unpathed)
  exact ⟨isText_writtenDocument, hspelled,
    parse?_of_isSpelledBy.2.2.2.2 isText_writtenDocument hspelled⟩

/-! ## Any settings can be written -/

/-- For any names there are pairs that give their paths, and no others. -/
theorem exists_pairs (front : List String) (paths : String → Option Path) {l : List String}
    (hl : l.Nodup) : ∃ pairs : List Pair,
      (∀ pair ∈ pairs, ∃ name ∈ l, pair.keys = front ++ [name]) ∧
        ∀ name ∈ l, List.Forall₂ (fun pair path => IsQuoted pair.value path)
          (pairs.filter fun pair => pair.keys == front ++ [name]) (paths name).toList := by
  induction l with
  | nil => exact ⟨[], nofun, nofun⟩
  | cons name l ih =>
    rw [List.nodup_cons] at hl
    obtain ⟨pairs, hkeys, hpairs⟩ := ih hl.2
    have hfilter : pairs.filter (fun pair => pair.keys == front ++ [name]) = [] := by
      rw [List.filter_eq_nil_iff]
      intro pair hpair heq
      obtain ⟨other, hother, hkeys⟩ := hkeys pair hpair
      obtain rfl : other = name := by simpa [hkeys] using heq
      exact hl.1 hother
    cases hpath : paths name with
    | none =>
      refine ⟨pairs, fun pair hpair => ?_, List.forall_mem_cons.2 ⟨?_, hpairs⟩⟩
      · obtain ⟨other, hother, hkeys⟩ := hkeys pair hpair
        exact ⟨other, List.mem_cons_of_mem name hother, hkeys⟩
      · rw [hfilter, hpath]
        exact .nil
    | some path =>
      obtain ⟨s, hs⟩ := exists_isQuoted path
      refine ⟨⟨front ++ [name], s⟩ :: pairs, List.forall_mem_cons.2
        ⟨⟨name, List.mem_cons_self, rfl⟩, fun pair hpair => ?_⟩,
        List.forall_mem_cons.2 ⟨?_, fun other hother => ?_⟩⟩
      · obtain ⟨other, hother, hkeys⟩ := hkeys pair hpair
        exact ⟨other, List.mem_cons_of_mem name hother, hkeys⟩
      · rw [List.filter_cons_of_pos (by simp), hfilter, hpath]
        exact .cons hs .nil
      · have hne : name ≠ other := by
          rintro rfl
          exact hl.1 hother
        rw [List.filter_cons_of_neg (by simpa using hne)]
        exact hpairs other hother

/-- Any settings can be written as a table under its header. -/
theorem exists_isSpelledBy (settings : Settings) :
    ∃ s document, Document.IsText document s ∧ IsSpelledBy settings document := by
  obtain ⟨pairs, hkeys, hpairs⟩ := exists_pairs [] settings.path? (l := names) (by decide)
  have hnone : additions [] pairs = [] := by
    rw [additions, List.filter_eq_nil_iff]
    intro pair hpair
    simpa using gives_iff.2 (hkeys pair hpair)
  have hspelled : IsSpelledBy settings ⟨[], [⟨.table ["paths"], pairs⟩]⟩ := by
    refine @IsSpelledBy.table settings [] [] pairs [] ⟨hpairs, ?_⟩ nofun nofun ?_
    · rw [hnone]
      exact nofun
    · rw [hnone]
      decide +kernel
  have hlines : Document.lines ⟨[], [⟨.table ["paths"], pairs⟩]⟩ =
      .heading (.table ["paths"]) :: pairs.map .pair := by
    simp [Document.lines, Section.lines]
  obtain ⟨s, hs⟩ : ∃ s, Document.IsText ⟨[], [⟨.table ["paths"], pairs⟩]⟩ s := by
    refine Document.exists_isText ?_
    rw [hlines, List.forall_mem_cons, List.forall_mem_map]
    refine ⟨List.cons_ne_nil _ _, fun pair hpair => ?_⟩
    obtain ⟨name, -, hname⟩ := hkeys pair hpair
    rw [Line.keys, hname]
    exact List.cons_ne_nil _ _
  exact ⟨s, _, hs, hspelled⟩

end CaseReport.Settings
