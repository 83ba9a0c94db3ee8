import CaseReport.ExecutionLog
import CaseReport.Proofs.Report.RoundTrip

/-!
# The cases that are judged, and the marks they leave

A log decides which expected cases are judged: every setup case up to the first one it does not
mention, and the end-to-end cases only if it mentions every setup case.
-/

namespace CaseReport

namespace ExecutionLog

variable (log : ExecutionLog)

/-- The first of some identifiers that the log does not mention. -/
def missing? (identifiers : List String) : Option String :=
  identifiers.find? fun identifier => !log.mentions identifier

/-- The identifiers up to and including the first one that the log does not mention. -/
def upToMissing (identifiers : List String) : List String :=
  identifiers.takeWhile log.mentions ++ (log.missing? identifiers).toList

/-- The cases that are judged, in order. -/
def judged (cases : Cases) : List (Group × String) :=
  (log.upToMissing cases.setup).map (Prod.mk .setup) ++
    if (log.missing? cases.setup).isSome then [] else cases.e2e.map (Prod.mk .e2e)

/-- The identifiers of the cases that are judged. -/
def evaluated (cases : Cases) : List String :=
  (log.judged cases).map Prod.snd

variable {log} {identifier : String} {identifiers : List String} {cases : Cases}

theorem verdict_eq_fail_iff : log.verdict identifier = .fail ↔ log.mentions identifier = false := by
  rw [verdict]
  cases log.mentions identifier <;> simp

theorem missing?_cons_of_mentions (h : log.mentions identifier = true) :
    log.missing? (identifier :: identifiers) = log.missing? identifiers := by
  simp [missing?, h]

theorem missing?_cons_of_not_mentions (h : log.mentions identifier = false) :
    log.missing? (identifier :: identifiers) = some identifier := by
  simp [missing?, h]

theorem missing?_eq_none_iff : log.missing? identifiers = none ↔
    ∀ identifier ∈ identifiers, log.mentions identifier = true := by
  simp [missing?]

theorem upToMissing_cons_of_mentions (h : log.mentions identifier = true) :
    log.upToMissing (identifier :: identifiers) = identifier :: log.upToMissing identifiers := by
  simp [upToMissing, missing?_cons_of_mentions h, h]

theorem upToMissing_cons_of_not_mentions (h : log.mentions identifier = false) :
    log.upToMissing (identifier :: identifiers) = [identifier] := by
  simp [upToMissing, missing?_cons_of_not_mentions h, h]

/-- The first identifier that is missing, by what stands before it. -/
theorem upToMissing_append {front back : List String} {missing : String}
    (h : identifiers = front ++ missing :: back)
    (hfront : ∀ identifier ∈ front, log.mentions identifier = true)
    (hmissing : log.mentions missing = false) :
    log.missing? identifiers = some missing ∧ log.upToMissing identifiers = front ++ [missing] := by
  subst h
  induction front with
  | nil => exact ⟨missing?_cons_of_not_mentions hmissing, upToMissing_cons_of_not_mentions hmissing⟩
  | cons identifier front ih =>
    rw [List.forall_mem_cons] at hfront
    obtain ⟨hfirst, htake⟩ := ih hfront.2
    rw [List.cons_append, missing?_cons_of_mentions hfront.1, upToMissing_cons_of_mentions hfront.1,
      htake]
    exact ⟨hfirst, rfl⟩

theorem evaluated_eq : log.evaluated cases = log.upToMissing cases.setup ++
    if (log.missing? cases.setup).isSome then [] else cases.e2e := by
  rw [evaluated, judged, List.map_append]
  split <;> simp [Function.comp_def]

theorem mem_identifiers_of_mem_judged {case : Group × String} (h : case ∈ log.judged cases) :
    case.2 ∈ cases.identifiers := by
  have hmem : case.2 ∈ log.evaluated cases := List.mem_map_of_mem h
  rw [evaluated_eq, List.mem_append] at hmem
  rw [Cases.identifiers, List.mem_append]
  rcases hmem with hsetup | he2e
  · rw [upToMissing, List.mem_append] at hsetup
    rcases hsetup with hfound | hmissing
    · exact .inl (List.takeWhile_subset _ hfound)
    · exact .inl (List.mem_of_find?_eq_some (Option.mem_toList.1 hmissing))
  · split at he2e
    · cases he2e
    · exact .inr he2e

end ExecutionLog

namespace Report

/-- The report in which every line of one of these identifiers has the verdict of a log. -/
def marked (report : Report) (log : ExecutionLog) (identifiers : List String) : Report :=
  ⟨report.entries.map fun entry =>
    if entry.identifier ∈ identifiers then { entry with status := log.verdict entry.identifier }
    else entry⟩

variable {report : Report} {log : ExecutionLog} {identifier : String} {identifiers : List String}

theorem marked_of_disjoint (h : ∀ identifier ∈ identifiers, identifier ∉ report.identifiers) :
    report.marked log identifiers = report := by
  have hmap : ∀ entry ∈ report.entries, entry.identifier ∉ identifiers := by
    intro entry hentry hmem
    exact h _ hmem (List.mem_map_of_mem hentry)
  rw [marked, List.map_congr_left fun entry hentry => if_neg (hmap entry hentry), List.map_id']

@[simp] theorem marked_nil : report.marked log [] = report :=
  marked_of_disjoint fun _ hmem => absurd hmem List.not_mem_nil

/-- Marking one identifier after the other is marking them at once. -/
theorem marked_setStatus : (report.setStatus identifier (log.verdict identifier)).marked log
    identifiers = report.marked log (identifier :: identifiers) := by
  simp only [marked, setStatus, List.map_map]
  congr 1
  apply List.map_congr_left
  intro entry _
  by_cases hentry : entry.identifier = identifier
  · simp [Entry.setStatus, hentry]
  · simp [Entry.setStatus, hentry]

@[simp] theorem identifiers_marked :
    (report.marked log identifiers).identifiers = report.identifiers := by
  simp only [marked, Report.identifiers, List.map_map]
  apply List.map_congr_left
  intro entry _
  simp only [Function.comp_apply]
  split <;> rfl

theorem FitsLines.marked (h : report.FitsLines) : (report.marked log identifiers).FitsLines := by
  rw [FitsLines, identifiers_marked]
  exact h

end Report

end CaseReport
