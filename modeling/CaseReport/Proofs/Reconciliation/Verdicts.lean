import Mathlib.Control.Monad.Basic
import Mathlib.Data.List.TakeWhile
import CaseReport.Proofs.Reconciliation.ClosedForm

/-!
# What a reconciliation judges and prints

The files decide which verdicts are recorded. The verdicts themselves, the cases they are given on
and everything that is printed on the way come from the log and the expected cases alone.
-/

namespace CaseReport

namespace ExecutionLog

/-- What a log has to say on a case. -/
def judgement (log : ExecutionLog) (case : Group × String) : String × Group × Status :=
  (case.2, case.1, log.verdict case.2)

variable {log : ExecutionLog} {cases : Cases} {missing : String}

theorem verdict_of_mentions {identifier : String} (h : log.mentions identifier = true) :
    log.verdict identifier = .pass := by
  rw [verdict, h]
  rfl

theorem judged_of_found (h : log.missing? cases.setup = none) :
    log.judged cases = cases.grouped := by
  have hfound := missing?_eq_none_iff.1 h
  have hall : cases.setup.takeWhile log.mentions = cases.setup :=
    List.takeWhile_eq_self_iff.2 hfound
  simp [judged, upToMissing, h, hall, Cases.grouped]

theorem judged_of_missing (h : log.missing? cases.setup = some missing) :
    log.judged cases =
      (cases.setup.takeWhile log.mentions).map (Prod.mk .setup) ++ [(.setup, missing)] := by
  simp [judged, upToMissing, h]

theorem judged_of_append {front back : List String}
    (hsetup : cases.setup = front ++ missing :: back)
    (hfront : ∀ identifier ∈ front, log.mentions identifier = true)
    (hmissing : log.mentions missing = false) :
    log.judged cases = (front ++ [missing]).map (Prod.mk .setup) := by
  obtain ⟨hfirst, htake⟩ := upToMissing_append hsetup hfront hmissing
  rw [judged, hfirst, htake]
  exact List.append_nil _

theorem mentions_of_missing (h : log.missing? cases.setup = some missing) :
    log.mentions missing = false := by
  have hmissing := List.find?_some h
  simpa using hmissing

end ExecutionLog

namespace CaseResult

/-- A result without what became of recording it. -/
def judgement (result : CaseResult) : String × Group × Status :=
  (result.identifier, result.group, result.status)

end CaseResult

namespace Host

/-- What is printed from one host to the other is these lines. -/
def Prints (host : Host) (lines : List Console.Line) (host' : Host) : Prop :=
  host'.printed = host.printed ++ lines

variable {host host' host'' : Host} {lines lines' : List Console.Line}

theorem Prints.trans (h : host.Prints lines host') (h' : host'.Prints lines' host'') :
    host.Prints (lines ++ lines') host'' := by
  rw [Prints, h', h, List.append_assoc]

theorem Silently.prints_nil (h : host.Silently host') : host.Prints [] host' :=
  h.printed.trans (List.append_nil _).symm

theorem Silently.prints (h : host.Silently host') (h' : host'.Prints lines host'') :
    host.Prints lines host'' := by
  rw [Prints, h', h.printed]

end Host

namespace Reconciliation

open Host Report Action ExecutionLog Console

/-- The lines ahead of a group of cases. -/
def headingLines (heading : String) : List Line :=
  [[], [styled .cyan heading]]

/-- The lines of cases that are judged by the log, in their order. -/
def verdictLines (log : ExecutionLog) (identifiers : List String) : List Line :=
  identifiers.map fun identifier => verdictLine identifier (log.verdict identifier)

/-- The lines of the setup cases, which end at the first one that is missing. -/
def setupLines (log : ExecutionLog) (identifiers : List String) : List Line :=
  verdictLines log (log.upToMissing identifiers) ++
    if (log.missing? identifiers).isSome then [abortLine] else []

/-- The lines of a whole reconciliation. -/
def judgedLines (log : ExecutionLog) (cases : Cases) : List Line :=
  headingLines "Setup:" ++ setupLines log cases.setup ++
    if (log.missing? cases.setup).isSome then []
    else headingLines "E2E:" ++ verdictLines log cases.e2e

variable {report path : Path} {log : ExecutionLog} {group : Group} {identifier : String}
  {host host' host₁ : Host} {expected : Cases} {outcome : Outcome}

theorem Calls.map_judgement {cases : List (Group × String)} {results : List CaseResult}
    (h : Calls report log host cases results host') :
    results.map CaseResult.judgement = cases.map log.judgement := by
  induction h with
  | nil => rfl
  | told _ ih => exact ih
  | call _ _ ih =>
    rw [List.map_cons, List.map_cons, ih]
    rfl

theorem prints_mark : (mark report log group identifier).Yields host fun result host' =>
    result.status = log.verdict identifier ∧
      host.Prints [verdictLine identifier (log.verdict identifier)] host' := by
  rw [mark]
  refine Work.yields_print_bind ?_
  simp only [record, bind_assoc]
  refine (Work.yields_run yields_updateStatus).bind ?_
  rintro update host₁ ⟨hsilent, -⟩
  cases update with
  | ok => exact ⟨rfl, hsilent.printed⟩
  | error fault => exact ⟨rfl, hsilent.printed⟩

theorem prints_mapM_mark (identifiers : List String) :
    Work.Yields (identifiers.mapM (mark report log group)) host fun _ host' =>
      host.Prints (verdictLines log identifiers) host' := by
  induction identifiers generalizing host with
  | nil => exact (List.append_nil _).symm
  | cons identifier identifiers ih =>
    rw [List.mapM_cons]
    refine prints_mark.bind ?_
    rintro result host₁ ⟨-, hfirst⟩
    refine ih.bind ?_
    intro results host₂ hrest
    exact hfirst.trans hrest

theorem prints_markSetup (identifiers : List String) :
    (markSetup report log identifiers).Yields host fun outcome host' =>
      outcome.missingSetup = log.missing? identifiers ∧
        host.Prints (setupLines log identifiers) host' := by
  induction identifiers generalizing host with
  | nil => exact ⟨rfl, (List.append_nil _).symm⟩
  | cons identifier identifiers ih =>
    rw [markSetup]
    refine prints_mark.bind ?_
    rintro result host₁ ⟨hstatus, hfirst⟩
    rw [hstatus]
    cases hmentions : log.mentions identifier with
    | false =>
      have hmissing : log.verdict identifier = .fail := verdict_eq_fail_iff.2 hmentions
      have habort : host₁.Prints [abortLine]
          { host₁ with printed := host₁.printed ++ [abortLine] } := rfl
      rw [if_pos hmissing, setupLines, upToMissing_cons_of_not_mentions hmentions,
        missing?_cons_of_not_mentions hmentions]
      exact ⟨rfl, hfirst.trans habort⟩
    | true =>
      have hfound : log.verdict identifier ≠ .fail := by
        rw [verdict_of_mentions hmentions]
        decide
      rw [if_neg hfound, setupLines, upToMissing_cons_of_mentions hmentions,
        missing?_cons_of_mentions hmentions]
      refine ih.bind ?_
      rintro outcome host₂ ⟨hmissing, hrest⟩
      exact ⟨hmissing, hfirst.trans hrest⟩

theorem prints_markAll : (markAll report log expected).Yields host fun _ host' =>
    host.Prints (judgedLines log expected) host' := by
  simp only [markAll, printHeading, bind_assoc]
  refine Work.yields_print_bind (Work.yields_print_bind ?_)
  have hheading : host.Prints (headingLines "Setup:")
      { host with printed := host.printed ++ [[]] ++ [[styled .cyan "Setup:"]] } :=
    List.append_assoc ..
  refine (prints_markSetup expected.setup).bind ?_
  rintro outcome host₁ ⟨hmissing, hsetup⟩
  rw [judgedLines, hmissing]
  split
  · rw [List.append_nil]
    exact hheading.trans hsetup
  · refine Work.yields_print_bind (Work.yields_print_bind ?_)
    have hheading' : host₁.Prints (headingLines "E2E:")
        { host₁ with printed := host₁.printed ++ [[]] ++ [[styled .cyan "E2E:"]] } :=
      List.append_assoc ..
    refine (prints_mapM_mark expected.e2e).bind ?_
    intro results host₂ he2e
    exact (hheading.trans hsetup).trans (hheading'.trans he2e)

theorem prints_reconcile (expected : Cases) (report : Path)
    (hload : (ExecutionLog.load path).perform host = (.ok log, host₁)) :
    host.Prints (judgedLines log expected) ((reconcile expected report path).perform host).2 := by
  have hanswered := (ExecutionLog.reads_load path).of_perform hload
  have hprints : (markAll report log expected).Yields
      (host₁.tell [.logLoaded path log.size]) _ := prints_markAll
  rw [reconcile, perform_bind, hload]
  refine hanswered.silently.prints ?_
  exact hprints

/-! ## Outcomes by their judgements -/

/-- The outcome has the judgements of a log on the cases that the log has it judge. -/
structure JudgedBy (log : ExecutionLog) (expected : Cases) (outcome : Outcome) : Prop where
  judgements : outcome.results.map CaseResult.judgement =
    (log.judged expected).map log.judgement
  missing : outcome.missingSetup = log.missing? expected.setup

namespace JudgedBy

variable {other : Outcome}

theorem countP_eq (h : JudgedBy log expected outcome) (status : Status) :
    outcome.results.countP (fun result => result.status = status) =
      ((log.judged expected).map log.judgement).countP fun judgement => judgement.2.2 = status := by
  rw [← h.judgements, List.countP_map]
  rfl

theorem passed_eq (h : JudgedBy log expected outcome) (h' : JudgedBy log expected other) :
    outcome.passed = other.passed :=
  (h.countP_eq .pass).trans (h'.countP_eq .pass).symm

theorem failed_eq (h : JudgedBy log expected outcome) (h' : JudgedBy log expected other) :
    outcome.failed = other.failed :=
  (h.countP_eq .fail).trans (h'.countP_eq .fail).symm

theorem verdict_eq (h : JudgedBy log expected outcome) (h' : JudgedBy log expected other) :
    outcome.verdict = other.verdict := by
  rw [Outcome.verdict, Outcome.verdict, h.missing, h'.missing]

/-- Every case that is judged has passed or failed. -/
theorem passed_add_failed (h : JudgedBy log expected outcome) :
    outcome.passed + outcome.failed = outcome.results.length := by
  rw [Outcome.passed, Outcome.failed, List.length_eq_countP_add_countP
    (fun result => decide (result.status = .pass))]
  congr 1
  apply List.countP_congr
  intro result hresult
  have hjudgement : result.judgement ∈ (log.judged expected).map log.judgement := by
    rw [← h.judgements]
    exact List.mem_map_of_mem hresult
  obtain ⟨case, -, hcase⟩ := List.mem_map.1 hjudgement
  have hstatus : log.verdict case.2 = result.status := congrArg (fun j => j.2.2) hcase
  have hna := verdict_ne_na log case.2
  rw [hstatus] at hna
  cases hs : result.status with
  | na => exact absurd hs hna
  | pass => simp
  | fail => simp

/-- A setup case is missing exactly if the last case that was judged is a setup case that failed. -/
theorem missingSetup_eq_some_iff (h : JudgedBy log expected outcome) :
    outcome.missingSetup = some identifier ↔ ∃ result, outcome.results.getLast? = some result ∧
      result.group = .setup ∧ result.status = .fail ∧ result.identifier = identifier := by
  have hlast : outcome.results.getLast?.map CaseResult.judgement =
      (log.judged expected).getLast?.map log.judgement := by
    rw [← List.getLast?_map, h.judgements, List.getLast?_map]
  rw [h.missing]
  constructor
  · intro hmissing
    rw [judged_of_missing hmissing, List.getLast?_append, List.getLast?_singleton] at hlast
    obtain ⟨result, hresult, hjudgement⟩ := Option.map_eq_some_iff.1 hlast
    have hfail : log.verdict identifier = .fail :=
      verdict_eq_fail_iff.2 (mentions_of_missing hmissing)
    obtain ⟨hidentifier, hgroup, hstatus⟩ : result.identifier = identifier ∧
        result.group = .setup ∧ result.status = log.verdict identifier := by
      simpa [CaseResult.judgement, ExecutionLog.judgement] using hjudgement
    exact ⟨result, hresult, hgroup, hstatus.trans hfail, hidentifier⟩
  · rintro ⟨result, hresult, hgroup, hstatus, rfl⟩
    rw [hresult] at hlast
    cases hmissing : log.missing? expected.setup with
    | some missing =>
      rw [judged_of_missing hmissing, List.getLast?_append, List.getLast?_singleton] at hlast
      have hidentifier : result.identifier = missing := by
        simpa [CaseResult.judgement, ExecutionLog.judgement] using
          congrArg (Option.map Prod.fst) hlast
      rw [hidentifier]
    | none =>
      -- No setup case is missing, so a case that failed is no setup case.
      rw [judged_of_found hmissing] at hlast
      obtain ⟨case, hcase, hjudgement⟩ := Option.map_eq_some_iff.1 hlast.symm
      have hmem := List.mem_of_getLast? hcase
      obtain ⟨hidentifier, hgroup', hstatus'⟩ : case.2 = result.identifier ∧
          case.1 = result.group ∧ log.verdict case.2 = result.status := by
        simpa [CaseResult.judgement, ExecutionLog.judgement] using hjudgement
      rw [Cases.grouped, List.mem_append, List.mem_map, List.mem_map] at hmem
      rcases hmem with ⟨setup, hsetup, rfl⟩ | ⟨e2e, -, rfl⟩
      · have hfound := missing?_eq_none_iff.1 hmissing setup hsetup
        have hpass := (verdict_of_mentions hfound).symm.trans (hstatus'.trans hstatus)
        cases hpass
      · cases hgroup'.trans hgroup

end JudgedBy

theorem judgedBy_reconcile (expected : Cases) (report : Path)
    (hload : (ExecutionLog.load path).perform host = (.ok log, host₁)) :
    ∃ outcome host', (reconcile expected report path).perform host = (.ok outcome, host') ∧
      JudgedBy log expected outcome ∧ host.Prints (judgedLines log expected) host' := by
  obtain ⟨outcome, host', hperform, hmissing, hcalls⟩ := perform_reconcile expected report hload
  have hprints := prints_reconcile expected report hload
  rw [hperform] at hprints
  exact ⟨outcome, host', hperform, ⟨hcalls.map_judgement, hmissing⟩, hprints⟩

/-- Two reconciliations with the same log judge the same cases alike and print the same, whatever
their reports hold and whichever of their requests are refused. Setup cases are judged in order up
to the first one that the log does not mention, and the end-to-end cases if there is none. -/
theorem reconcile_judges_by_log {host host' : Host} {path path' : Path} (expected : Cases)
    (report report' : Path) (hload : ((ExecutionLog.load path).perform host).1 = .ok log)
    (hload' : ((ExecutionLog.load path').perform host').1 = .ok log) :
    ∃ outcome final outcome' final',
      (reconcile expected report path).perform host = (.ok outcome, final) ∧
      (reconcile expected report' path').perform host' = (.ok outcome', final') ∧
      outcome.results.map CaseResult.judgement = outcome'.results.map CaseResult.judgement ∧
      outcome.missingSetup = outcome'.missingSetup ∧ outcome.passed = outcome'.passed ∧
      outcome.failed = outcome'.failed ∧ outcome.verdict = outcome'.verdict ∧
      (∃ lines, host.Prints lines final ∧ host'.Prints lines final') ∧
      ((∀ identifier ∈ expected.setup, log.mentions identifier = true) →
        outcome.results.map CaseResult.judgement = expected.grouped.map log.judgement) ∧
      (∀ front missing back, expected.setup = front ++ missing :: back →
        (∀ identifier ∈ front, log.mentions identifier = true) → log.mentions missing = false →
        outcome.results.map CaseResult.judgement =
          front.map (fun identifier => (identifier, .setup, .pass)) ++ [(missing, .setup, .fail)]) ∧
      (∀ identifier, outcome.missingSetup = some identifier ↔
        ∃ result, outcome.results.getLast? = some result ∧ result.group = .setup ∧
          result.status = .fail ∧ result.identifier = identifier) ∧
      outcome.passed + outcome.failed = outcome.results.length := by
  obtain ⟨outcome, final, hperform, hjudged, hprints⟩ :=
    judgedBy_reconcile expected report (Prod.ext hload rfl)
  obtain ⟨outcome', final', hperform', hjudged', hprints'⟩ :=
    judgedBy_reconcile expected report' (Prod.ext hload' rfl)
  refine ⟨outcome, final, outcome', final', hperform, hperform',
    hjudged.judgements.trans hjudged'.judgements.symm, hjudged.missing.trans hjudged'.missing.symm,
    hjudged.passed_eq hjudged', hjudged.failed_eq hjudged', hjudged.verdict_eq hjudged',
    ⟨_, hprints, hprints'⟩, ?_, ?_, fun _ => hjudged.missingSetup_eq_some_iff,
    hjudged.passed_add_failed⟩
  · intro hfound
    rw [hjudged.judgements, judged_of_found (missing?_eq_none_iff.2 hfound)]
  · intro front missing back hsetup hfront hmissing
    have hfail : log.verdict missing = .fail := verdict_eq_fail_iff.2 hmissing
    rw [hjudged.judgements, judged_of_append hsetup hfront hmissing, List.map_map,
      List.map_append, List.map_singleton, Function.comp_apply, judgement, hfail]
    congr 1
    apply List.map_congr_left
    intro identifier hidentifier
    rw [Function.comp_apply, judgement, verdict_of_mentions (hfront identifier hidentifier)]

/-- The log of the host of two cases, without anything else. -/
def logAlone : Host where
  files := { nodes := [(["log"], .file brokenLog 0o644)] }

theorem reconcile_logAlone :
    ∃ outcome final outcome' final',
      (reconcile ⟨["x: PASS", "b", "b"], ["z"]⟩ "report" "log").perform twoCases =
        (.ok outcome, final) ∧
      (reconcile ⟨["x: PASS", "b", "b"], ["z"]⟩ "report" "log").perform logAlone =
        (.ok outcome', final') ∧
      outcome.unrecorded = [] ∧ outcome'.unrecorded.length = 2 ∧
      (∃ lines, twoCases.Prints lines final ∧ logAlone.Prints lines final') ∧
      outcome'.results.map CaseResult.judgement =
        [("x: PASS", .setup, .pass), ("b", .setup, .fail)] := by
  have hload : ((ExecutionLog.load "log").perform twoCases).1 = .ok (ofBytes brokenLog) := by
    decide +kernel
  have hload' : ((ExecutionLog.load "log").perform logAlone).1 = .ok (ofBytes brokenLog) := by
    decide +kernel
  obtain ⟨outcome, final, outcome', final', hperform, hperform', hsame, -, -, -, -, hprints, -,
    hmissing, -, -⟩ :=
    reconcile_judges_by_log ⟨["x: PASS", "b", "b"], ["z"]⟩ "report" "report" hload hload'
  have hunrecorded : ((reconcile ⟨["x: PASS", "b", "b"], ["z"]⟩ "report" "log").perform
      twoCases).1.map Outcome.unrecorded = .ok [] := by decide +kernel
  have hunrecorded' : ((reconcile ⟨["x: PASS", "b", "b"], ["z"]⟩ "report" "log").perform
      logAlone).1.map (fun outcome => outcome.unrecorded.length) = .ok 2 := by decide +kernel
  rw [hperform] at hunrecorded
  rw [hperform'] at hunrecorded'
  refine ⟨outcome, final, outcome', final', hperform, hperform', Except.ok.inj hunrecorded,
    Except.ok.inj hunrecorded', hprints, ?_⟩
  exact hsame.symm.trans
    (hmissing ["x: PASS"] "b" ["b"] rfl (by decide +kernel) (by decide +kernel))

end Reconciliation

end CaseReport
