import Mathlib.Data.List.Forall2
import CaseReport.Settings
import CaseReport.Proofs.Toml.Grammar

/-!
# How settings are written

The paths may stand under a header, behind keys with dots, in braces or in brackets. Among them and
around them a document may hold what it likes, as long as it is a valid document without them and
binds nothing that they bind.
-/

namespace CaseReport.Settings

open Toml

/-! ## Pairs that give paths -/

/-- The keys under which settings give paths. -/
def names : List String := ["config", "report", "workspace"]

/-- The path that settings give under a key. -/
def path? (settings : Settings) : String → Option Path
  | "config" => settings.config
  | "report" => settings.report
  | "workspace" => settings.workspace
  | _ => none

/-- Whether a pair is meant to give a path, where the paths are in the table of the front keys. -/
def gives (front : List String) (pair : Pair) : Bool :=
  names.any fun name => pair.keys == front ++ [name]

/-- The pairs that are not meant to give a path. -/
def additions (front : List String) (pairs : List Pair) : List Pair :=
  pairs.filter fun pair => !gives front pair

/-- Keys that do not begin with those of a path, and that those of a path do not begin with. -/
def IsApart (front keys : List String) : Prop :=
  ∀ name ∈ names, AreApart keys (front ++ [name])

instance (front keys : List String) : Decidable (IsApart front keys) :=
  inferInstanceAs (Decidable (∀ name ∈ names, AreApart keys (front ++ [name])))

/-- Pairs that give paths, in any order: each of them once and in double quotes, and the others not
at all. There may be more pairs among them. -/
structure Supplies (front : List String) (pairs : List Pair) (paths : String → Option Path) :
    Prop where
  given : ∀ name ∈ names, List.Forall₂ (fun pair path => IsQuoted pair.value path)
    (pairs.filter fun pair => pair.keys == front ++ [name]) (paths name).toList
  apart : ∀ pair ∈ additions front pairs, IsApart front pair.keys

/-- Keys that do not lead into the table of the paths. -/
def IsElsewhere (keys : List String) : Prop :=
  keys.head? ≠ some "paths"

instance (keys : List String) : Decidable (IsElsewhere keys) :=
  inferInstanceAs (Decidable (keys.head? ≠ some "paths"))

/-! ## Documents that give paths -/

/-- The ways to write settings. What is left of the document without the paths has to be valid. -/
inductive IsSpelledBy : Settings → Document → Prop where
  /-- A table under its header. -/
  | table {settings top before pairs after}
      (hpairs : Supplies [] pairs settings.path?)
      (htop : ∀ pair ∈ top, IsElsewhere pair.keys)
      (hsections : ∀ part ∈ before ++ after, IsApart ["paths"] part.heading.keys)
      (hvalid : Document.IsValid
        ⟨top, before ++ ⟨.table ["paths"], additions [] pairs⟩ :: after⟩) :
      IsSpelledBy settings ⟨top, before ++ ⟨.table ["paths"], pairs⟩ :: after⟩
  /-- Keys with dots, ahead of the first header. -/
  | dotted {settings pairs sections}
      (hpairs : Supplies ["paths"] pairs settings.path?)
      (hsections : ∀ part ∈ sections, IsApart ["paths"] part.heading.keys)
      (hvalid : Document.IsValid ⟨additions ["paths"] pairs, sections⟩) :
      IsSpelledBy settings ⟨pairs, sections⟩
  /-- A table in braces. -/
  | braces {settings before s pairs after sections}
      (hbraced : IsBraced s pairs)
      (hpairs : Supplies [] pairs settings.path?)
      (hadditions : ∃ table,
        Table.addWritten (maxDepth - 1) (additions [] pairs) (.empty .defined) = some table)
      (haround : ∀ pair ∈ before ++ after, IsElsewhere pair.keys)
      (hsections : ∀ part ∈ sections, IsElsewhere part.heading.keys)
      (hvalid : Document.IsValid ⟨before ++ after, sections⟩) :
      IsSpelledBy settings ⟨before ++ ⟨["paths"], s⟩ :: after, sections⟩
  /-- A list that begins with the paths. -/
  | list {config report workspace before s c r w more after sections}
      (hbracketed : IsBracketed s (c :: r :: w :: more))
      (hconfig : IsQuoted c config) (hreport : IsQuoted r report)
      (hworkspace : IsQuoted w workspace)
      (hmore : ∀ item ∈ more, IsValueText (maxDepth - 1) item)
      (haround : ∀ pair ∈ before ++ after, IsElsewhere pair.keys)
      (hsections : ∀ part ∈ sections, IsElsewhere part.heading.keys)
      (hvalid : Document.IsValid ⟨before ++ after, sections⟩) :
      IsSpelledBy ⟨some config, some report, some workspace⟩
        ⟨before ++ ⟨["paths"], s⟩ :: after, sections⟩

end CaseReport.Settings
