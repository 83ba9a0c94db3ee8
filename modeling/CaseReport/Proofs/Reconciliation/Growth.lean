import Mathlib.Control.Monad.Basic
import Mathlib.Data.List.Basic
import CaseReport.Proofs.Reconciliation.SetupFailure
import CaseReport.Proofs.Reconciliation.Verdicts

/-!
# Reconciling with a longer log

A log mentions everything that a part of it mentions. So with the longer log at least the cases are
judged that are judged with the part, and what has passed has still passed. A case that failed may
pass now, and cases that were not judged may be judged either way.
-/

namespace CaseReport

namespace ExecutionLog

/-- The log mentions whatever the other one does. -/
def MentionsAll (log' log : ExecutionLog) : Prop :=
  ∀ identifier, log.mentions identifier = true → log'.mentions identifier = true

theorem mentionsAll_of_infix {log log' : ExecutionLog} (h : log.text <:+: log'.text) :
    log'.MentionsAll log := by
  intro identifier hmentions
  rw [mentions_iff] at hmentions ⊢
  exact hmentions.trans h

namespace MentionsAll

variable {log log' : ExecutionLog} {identifiers : List String} {identifier : String} {cases : Cases}

theorem missing?_eq_none (h : log'.MentionsAll log) (hnone : log.missing? identifiers = none) :
    log'.missing? identifiers = none := by
  rw [missing?_eq_none_iff] at hnone ⊢
  exact fun identifier hmem => h identifier (hnone identifier hmem)

theorem upToMissing_prefix (h : log'.MentionsAll log) :
    log.upToMissing identifiers <+: log'.upToMissing identifiers := by
  induction identifiers with
  | nil => exact List.prefix_refl _
  | cons identifier identifiers ih =>
    cases hmentions : log.mentions identifier with
    | true =>
      rw [upToMissing_cons_of_mentions hmentions,
        upToMissing_cons_of_mentions (h identifier hmentions), List.prefix_cons_inj]
      exact ih
    | false =>
      rw [upToMissing_cons_of_not_mentions hmentions]
      cases hmentions' : log'.mentions identifier with
      | true =>
        rw [upToMissing_cons_of_mentions hmentions', List.prefix_cons_inj]
        exact List.nil_prefix
      | false => exact ⟨[], (upToMissing_cons_of_not_mentions hmentions').symm⟩

theorem judged_prefix (h : log'.MentionsAll log) : log.judged cases <+: log'.judged cases := by
  cases hmissing : log.missing? cases.setup with
  | none =>
    refine ⟨[], ?_⟩
    rw [List.append_nil, judged_of_found hmissing, judged_of_found (h.missing?_eq_none hmissing)]
  | some missing =>
    -- Only setup cases are judged, and with the longer log they are still the first ones.
    have hsetup : (log.upToMissing cases.setup).map (Prod.mk Group.setup) <+:
        (log'.upToMissing cases.setup).map (Prod.mk Group.setup) := h.upToMissing_prefix.map _
    rw [judged, hmissing, Option.isSome_some, if_pos rfl, List.append_nil, judged]
    exact hsetup.trans (List.prefix_append _ _)

theorem mem_evaluated (h : log'.MentionsAll log) (hmem : identifier ∈ log.evaluated cases) :
    identifier ∈ log'.evaluated cases :=
  (h.judged_prefix.map Prod.snd).subset hmem

theorem verdict_eq_pass (h : log'.MentionsAll log) (hpass : log.verdict identifier = .pass) :
    log'.verdict identifier = .pass := by
  cases hmentions : log.mentions identifier with
  | true => exact verdict_of_mentions (h identifier hmentions)
  | false => cases hpass.symm.trans (verdict_eq_fail_iff.2 hmentions)

end MentionsAll

end ExecutionLog

/-- What is on a line with the one log, and what is on it with the longer one. -/
theorem Report.statusAt?_of_mentionsAll {log log' : ExecutionLog} {cases : Cases} {i : Nat}
    {status : Status} (h : log'.MentionsAll log)
    (hi : ((ofCases cases).marked log (log.evaluated cases)).statusAt? i = some status) :
    ∃ status', ((ofCases cases).marked log' (log'.evaluated cases)).statusAt? i = some status' ∧
      (status = .pass → status' = .pass) ∧ (status ≠ .na → status' ≠ .na) := by
  cases hline : cases.identifiers[i]? with
  | none => simp [statusAt?, marked_ofCases, hline] at hi
  | some identifier =>
    rw [statusAt?_marked_ofCases hline, Option.some.injEq] at hi
    refine ⟨_, statusAt?_marked_ofCases hline, ?_⟩
    rw [← hi]
    by_cases hmem : identifier ∈ log.evaluated cases
    · rw [if_pos hmem, if_pos (h.mem_evaluated hmem)]
      exact ⟨h.verdict_eq_pass, fun _ => ExecutionLog.verdict_ne_na _ _⟩
    · rw [if_neg hmem]
      constructor
      · rintro ⟨⟩
      · exact fun hna => absurd rfl hna

namespace Reconciliation

open Host Report Action ExecutionLog

/-- The report of some cases has just been started and can be read, and the log can be loaded. -/
structure Starts (host : Host) (report path : Path) (cases : Cases) (log : ExecutionLog)
    (host₁ : Host) : Prop where
  plan : host.refusals = []
  started : ∃ started, (start report cases).perform host = (.ok started, host₁)
  read : ∃ content, host₁.files.read report = .ok content
  loaded : ∃ host₂, (ExecutionLog.load path).perform host₁ = (.ok log, host₂)

variable {host host' host₁ host₁' : Host} {text : List Char} {expected : Cases}
  {report report' path path' : Path} {log log' : ExecutionLog}

theorem Starts.reconciles (h : Starts host report path expected log host₁)
    (hbroken : expected.firstBroken? = none) :
    ∃ outcome host₂, (reconcile expected report path).perform host₁ = (.ok outcome, host₂) ∧
      JudgedBy log expected outcome ∧
      Report.ofFile host₂.files report =
        .ok ((ofCases expected).marked log (log.evaluated expected)) := by
  obtain ⟨started, hstart⟩ := h.started
  obtain ⟨content, hread⟩ := h.read
  obtain ⟨host', hload⟩ := h.loaded
  obtain ⟨hsilent, rfl, hpath⟩ := read_of_start hstart hread
  have hlog := ((ExecutionLog.reads_load path).of_perform hload).sound log rfl
  obtain ⟨outcome, host₂, hperform, -, -, hfinal⟩ :=
    reconcile_ofCases (hsilent.refusals_eq_nil h.plan) hpath hbroken hread hlog
  obtain ⟨outcome', _, hperform', hjudged, -⟩ := judgedBy_reconcile expected report hload
  obtain rfl : outcome = outcome' :=
    Except.ok.inj (congrArg Prod.fst (hperform.symm.trans hperform'))
  exact ⟨outcome, host₂, hperform, hjudged,
    ofFile_of_read (fitsLines_ofCases hbroken).marked hfinal⟩

theorem map_identifier_eq {outcome : Outcome} (h : JudgedBy log expected outcome) :
    outcome.results.map CaseResult.identifier = log.evaluated expected := by
  have hfirst := congrArg (List.map Prod.fst) h.judgements
  rw [List.map_map, List.map_map] at hfirst
  exact hfirst

/-- Two complete runs with the same cases, where the one log is part of the other. With the longer
log at least as many cases are judged, in the same order. A line that passed has still passed, and
one that was judged has still been judged. If no setup case was missing, none is now. -/
theorem reconcile_of_longer_log (haccepted : Cases.parse text = .ok expected)
    (h : Starts host report path expected log host₁)
    (h' : Starts host' report' path' expected log' host₁') (hpart : log.text <:+: log'.text) :
    ∃ outcome outcome' host₂ host₂' final final',
      (reconcile expected report path).perform host₁ = (.ok outcome, host₂) ∧
      (reconcile expected report' path').perform host₁' = (.ok outcome', host₂') ∧
      Report.ofFile host₂.files report = .ok final ∧
      Report.ofFile host₂'.files report' = .ok final' ∧
      final.identifiers = expected.identifiers ∧ final'.identifiers = expected.identifiers ∧
      outcome.results.length ≤ outcome'.results.length ∧
      outcome.results.map CaseResult.identifier <+: outcome'.results.map CaseResult.identifier ∧
      (∀ i status, final.statusAt? i = some status → ∃ status', final'.statusAt? i = some status' ∧
        (status = .pass → status' = .pass) ∧ (status ≠ .na → status' ≠ .na)) ∧
      (outcome.missingSetup = none → outcome'.missingSetup = none) := by
  have hall := mentionsAll_of_infix hpart
  have hbroken := Cases.firstBroken?_of_parse haccepted
  obtain ⟨outcome, host₂, hperform, hjudged, hfinal⟩ := h.reconciles hbroken
  obtain ⟨outcome', host₂', hperform', hjudged', hfinal'⟩ := h'.reconciles hbroken
  have hprefix : outcome.results.map CaseResult.identifier <+:
      outcome'.results.map CaseResult.identifier := by
    rw [map_identifier_eq hjudged, map_identifier_eq hjudged']
    exact hall.judged_prefix.map Prod.snd
  refine ⟨outcome, outcome', host₂, host₂', _, _, hperform, hperform', hfinal, hfinal', ?_, ?_, ?_,
    hprefix, fun i status hi => statusAt?_of_mentionsAll hall hi, ?_⟩
  · rw [identifiers_marked, identifiers_ofCases]
  · rw [identifiers_marked, identifiers_ofCases]
  · have hlength := hprefix.length_le
    rwa [List.length_map, List.length_map] at hlength
  · rw [hjudged.missing, hjudged'.missing]
    exact hall.missing?_eq_none

/-- The host with the log of one mention, continued in front and behind. -/
def twoMentions : Host where
  files := { nodes := [(["log"], .file (Text.Utf8.encode "b a\n.\n".toList) 0o644)] }

/-- With the part a setup case is missing, and with the longer log the last case is judged too. -/
theorem reconcile_of_twoMentions :
    ∃ outcome outcome' host₁ host₁' host₂ host₂' final final',
      (reconcile ⟨["a", "b"], ["a", "c"]⟩ "report" "log").perform host₁ = (.ok outcome, host₂) ∧
      (reconcile ⟨["a", "b"], ["a", "c"]⟩ "report" "log").perform host₁' = (.ok outcome', host₂') ∧
      Report.ofFile host₂.files "report" = .ok final ∧
      Report.ofFile host₂'.files "report" = .ok final' ∧
      outcome.missingSetup = some "b" ∧ outcome.results.length ≤ outcome'.results.length ∧
      final'.statusAt? 0 = some .pass ∧ final'.statusAt? 1 ≠ some .na ∧
      final'.statusAt? 2 = some .pass := by
  have haccepted : Cases.parse "[[\"a\",\"b\"],[\"a\",\"c\"]]".toList =
      .ok ⟨["a", "b"], ["a", "c"]⟩ := by decide +kernel
  have hstarts : Starts oneMention "report" "log" ⟨["a", "b"], ["a", "c"]⟩
      (ofBytes (Text.Utf8.encode "a\n".toList))
      ((start "report" ⟨["a", "b"], ["a", "c"]⟩).perform oneMention).2 :=
    ⟨rfl, ⟨ofCases ⟨["a", "b"], ["a", "c"]⟩, perform_eq (by decide +kernel)⟩,
      ⟨(ofCases ⟨["a", "b"], ["a", "c"]⟩).content, by decide +kernel⟩,
      ⟨_, perform_eq (by decide +kernel)⟩⟩
  have hstarts' : Starts twoMentions "report" "log" ⟨["a", "b"], ["a", "c"]⟩
      (ofBytes (Text.Utf8.encode "b a\n.\n".toList))
      ((start "report" ⟨["a", "b"], ["a", "c"]⟩).perform twoMentions).2 :=
    ⟨rfl, ⟨ofCases ⟨["a", "b"], ["a", "c"]⟩, perform_eq (by decide +kernel)⟩,
      ⟨(ofCases ⟨["a", "b"], ["a", "c"]⟩).content, by decide +kernel⟩,
      ⟨_, perform_eq (by decide +kernel)⟩⟩
  have hpart : (ofBytes (Text.Utf8.encode "a\n".toList)).text <:+:
      (ofBytes (Text.Utf8.encode "b a\n.\n".toList)).text :=
    ⟨['b', ' '], ['.'], by decide +kernel⟩
  obtain ⟨outcome, outcome', host₂, host₂', final, final', hperform, hperform', hfinal, hfinal', -,
    -, hlength, -, hlines, -⟩ := reconcile_of_longer_log haccepted hstarts hstarts' hpart
  have hmissing : ((reconcile ⟨["a", "b"], ["a", "c"]⟩ "report" "log").perform
      ((start "report" ⟨["a", "b"], ["a", "c"]⟩).perform oneMention).2).1.map
        Outcome.missingSetup = .ok (some "b") := by decide +kernel
  have hreport : Report.ofFile ((reconcile ⟨["a", "b"], ["a", "c"]⟩ "report" "log").perform
      ((start "report" ⟨["a", "b"], ["a", "c"]⟩).perform oneMention).2).2.files "report" =
        .ok ⟨[⟨"a", .pass⟩, ⟨"b", .fail⟩, ⟨"a", .pass⟩, ⟨"c", .na⟩]⟩ := by decide +kernel
  rw [hperform] at hmissing hreport
  obtain rfl := Except.ok.inj (hfinal.symm.trans hreport)
  refine ⟨outcome, outcome', _, _, host₂, host₂', _, final', hperform, hperform', hfinal, hfinal',
    Except.ok.inj hmissing, hlength, ?_, ?_, ?_⟩
  · obtain ⟨status, hstatus, hpass, -⟩ := hlines 0 .pass rfl
    rw [hstatus, hpass rfl]
  · obtain ⟨status, hstatus, -, hjudged⟩ := hlines 1 .fail rfl
    rw [hstatus, ne_eq, Option.some.injEq]
    exact hjudged (by decide)
  · obtain ⟨status, hstatus, hpass, -⟩ := hlines 2 .pass rfl
    rw [hstatus, hpass rfl]

end Reconciliation

end CaseReport
