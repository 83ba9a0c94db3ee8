import Mathlib.Control.Monad.Basic
import CaseReport.Proofs.Reconciliation.Fresh
import CaseReport.Proofs.Run.Steps

/-!
# The inputs of a run

A run writes only its report, and always at the same entry. So it judges by the log as it was when
the run began, and leaves the log and the configuration as they were, provided the paths of these do
not lead to the report. Nothing compares the paths: a log that is the report mentions every case.
-/

namespace CaseReport

/-- A written report, read as a log, mentions every identifier that is on one of its lines. -/
theorem ExecutionLog.mentions_of_content {report : Report} {identifier : String}
    (hline : identifier ∈ report.identifiers) (hbreak : Text.hasBreak identifier.toList = false) :
    (ofBytes report.content).mentions identifier = true := by
  obtain ⟨entry, hentry, rfl⟩ := List.mem_map.1 hline
  obtain ⟨front, back, hentries⟩ := List.append_of_mem hentry
  have hkept := Text.withoutBreaks_eq_self hbreak
  have htext : (ofBytes report.content).text = Text.withoutBreaks report.render := by
    rw [ofBytes, Report.content, Text.Utf8.decodeLossy_encode]
  rw [mentions_iff, htext, Report.render, hentries, List.flatMap_append, List.flatMap_cons,
    Entry.render, ← hkept]
  simp only [Text.withoutBreaks, List.filter_append, List.append_assoc, List.filter_filter,
    Bool.and_self]
  exact ⟨_, _, List.append_assoc _ _ _⟩

open Report Reconciliation Host Action ExecutionLog

namespace Run

variable {host host₁ host₂ : Host} {locations : Locations} {log path : Path} {cases : Cases}
  {outcome : Outcome} {place : Location} {bytes : List UInt8} {mode : Nat}

/-- A report that was started has an entry of its own, and a file elsewhere is left alone. What
paths lead to, if not to the report, is elsewhere when it was a file before, and so it is with what
they led to. -/
theorem Prepared.exists_entry {fs fs' : FileSystem} (h : Prepared fs locations (.ok cases) fs') :
    ∃ entry, WritesAt fs' locations.report entry ∧
      (∀ place bytes mode, place ≠ entry → fs.node? place = some (.file bytes mode) →
        fs'.node? place = some (.file bytes mode)) ∧
      ∀ path place bytes mode, fs'.sameFile path locations.report = false →
        (∀ node, fs'.find path = .ok (place, node) → fs.node? place = some (.file bytes mode) →
          place ≠ entry) ∧
        (fs.find path = .ok (place, .file bytes mode) → place ≠ entry ∧
          ∀ found, fs'.find path = .ok found → found = (place, .file bytes mode)) := by
  cases h with
  | prepared hcases hpart hreplaced =>
    obtain ⟨entry, hat, hframe, hother⟩ := hreplaced.exists_entry
    refine ⟨entry, hat, ?_, ?_⟩
    · intro place bytes mode hne hnode
      rw [hframe place hne]
      exact hpart.node? hnode
    · intro path place bytes mode hapart
      obtain ⟨hthere, hled⟩ := hother path place bytes mode hapart
      refine ⟨?_, fun hpath => hled (FileSystem.find_of_isPartOf hpart hpath)⟩
      exact fun node hfind hnode => hthere node hfind (hpart.node? hnode)

/-- If the log is the report, every case that is judged passes. -/
theorem pass_of_shared_log (hprepare : (prepare locations).perform host = (.ok cases, host₁))
    (hreconcile : (reconcile cases locations.report log).perform host₁ = (.ok outcome, host₂))
    (hshared : host₁.files.sameFile log locations.report = true) :
    ∀ result ∈ outcome.results, result.status = .pass := by
  obtain ⟨-, hprepared⟩ := yields_prepare.of_perform hprepare
  obtain ⟨-, text, htext, -, hpass⟩ := (yields_reconcile _ _ _).of_perform hreconcile
  obtain ⟨bytes, hread, rfl⟩ := ofFile_eq_ok_iff.1 htext
  cases hprepared with
  | prepared hcases hpart hreplaced =>
    have hcontent := hreplaced.eq_of_read (FileSystem.read_of_sameFile hshared hread)
    obtain ⟨_, hparse⟩ := Cases.exists_parse_of_ofFile hcases
    intro result hresult
    have hmem := mem_identifiers_of_mem_judged (hpass.mem_of_mem_results hresult)
    have hbreak := Cases.hasBreak_of_mem (Cases.firstBroken?_of_parse hparse) hmem
    rw [← identifiers_ofCases] at hmem
    rw [hpass.status_eq hresult, hcontent, verdict, mentions_of_content hmem hbreak]
    rfl

end Run

end CaseReport
