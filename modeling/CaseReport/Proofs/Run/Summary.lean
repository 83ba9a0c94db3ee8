import Mathlib.Control.Monad.Basic
import CaseReport.Proofs.Reconciliation.SetupFailure
import CaseReport.Proofs.Report.Assignment
import CaseReport.Proofs.Run.Conclusion
import CaseReport.Proofs.Run.EndToEnd

/-!
# The numbers of the summary

The summary counts the lines of the report on disk, the outcome counts the results of the judged
cases. The two tallies agree when every case is judged, even if an identifier stands on several
lines. When a setup case is missing, the lines up to it are the ones that are judged, provided that
no identifier stands on a second line.
-/

namespace CaseReport

namespace Report

variable {report : Report} {cases : Cases} {log : ExecutionLog} {identifiers : List String}

/-- The statuses of a report, in the order of its lines. -/
def statuses (report : Report) : List Status :=
  report.entries.map Entry.status

theorem counts_of_eq_count (status : Status) :
    report.counts.of status = report.statuses.count status := by
  rw [counts_of, statuses, List.count_eq_countP, List.countP_map]
  rfl

theorem statuses_marked_ofCases : ((ofCases cases).marked log identifiers).statuses =
    cases.identifiers.map fun identifier =>
      if identifier ∈ identifiers then log.verdict identifier else .na := by
  rw [marked_ofCases, statuses, List.map_map]
  rfl

theorem total_counts_marked_ofCases :
    ((ofCases cases).marked log identifiers).counts.total = cases.size := by
  rw [total_counts, marked_ofCases, List.length_map, Cases.length_identifiers]

/-- Every line has its verdict if no setup case is missing. -/
theorem statuses_of_found (hfound : log.missing? cases.setup = none) :
    ((ofCases cases).marked log (log.evaluated cases)).statuses =
      cases.identifiers.map log.verdict := by
  rw [statuses_marked_ofCases, ExecutionLog.evaluated, ExecutionLog.judged_of_found hfound,
    Cases.map_snd_grouped]
  apply List.map_congr_left
  intro identifier hmem
  rw [if_pos hmem]

private theorem map_eq_of_getElem? {α β : Type} {l : List α} {k : Nat} {a : α} (f : α → β)
    (h : l[k]? = some a) : l.map f = (l.take k).map f ++ f a :: (l.drop (k + 1)).map f := by
  obtain ⟨hlt, rfl⟩ := List.getElem?_eq_some_iff.1 h
  rw [← List.map_cons, ← List.map_append, List.getElem_cons_drop, List.take_append_drop]

private theorem not_mem_take_of_mem_drop {l : List String} {n : Nat} (hnodup : l.Nodup)
    {identifier : String} (h : identifier ∈ l.drop n) : identifier ∉ l.take n := by
  rw [← List.take_append_drop n l, List.nodup_append] at hnodup
  exact fun htake => hnodup.2.2 identifier htake identifier h rfl

/-- The lines up to a missing setup case have their verdicts and the others have none, if no
identifier is on two lines. -/
theorem statuses_of_missing {k : Nat} {missing : String} (hk : cases.setup[k]? = some missing)
    (hbefore : ∀ identifier ∈ cases.setup.take k, log.mentions identifier = true)
    (hmissing : log.mentions missing = false) (hnodup : cases.identifiers.Nodup) :
    ((ofCases cases).marked log (log.evaluated cases)).statuses =
      List.replicate k .pass ++ .fail :: List.replicate (cases.size - k - 1) .na := by
  obtain ⟨hlt, -⟩ := List.getElem?_eq_some_iff.1 hk
  have hline : cases.identifiers[k]? = some missing := (List.getElem?_append_left hlt).trans hk
  have hfront : cases.identifiers.take k = cases.setup.take k :=
    List.take_append_of_le_length (Nat.le_of_lt hlt)
  have hlength : (cases.identifiers.take k).length = k := by
    rw [hfront, List.length_take, Nat.min_eq_left (Nat.le_of_lt hlt)]
  rw [statuses_marked_ofCases, ExecutionLog.evaluated_eq_take hk hbefore hmissing,
    map_eq_of_getElem? _ hline]
  congr 1
  · rw [List.eq_replicate_iff, List.length_map]
    refine ⟨hlength, ?_⟩
    intro status hstatus
    obtain ⟨identifier, hmem, rfl⟩ := List.mem_map.1 hstatus
    rw [if_pos ((List.take_prefix_take_left (Nat.le_succ k)).subset hmem)]
    exact ExecutionLog.verdict_of_mentions (hbefore identifier (hfront ▸ hmem))
  congr 1
  · rw [if_pos (List.mem_of_getElem? ((List.getElem?_take_of_lt (Nat.lt_succ_self k)).trans hline))]
    exact ExecutionLog.verdict_eq_fail_iff.2 hmissing
  · rw [List.eq_replicate_iff, List.length_map, List.length_drop, Cases.length_identifiers,
      Nat.sub_sub]
    refine ⟨rfl, ?_⟩
    intro status hstatus
    obtain ⟨identifier, hmem, rfl⟩ := List.mem_map.1 hstatus
    exact if_neg (not_mem_take_of_mem_drop hnodup hmem)

end Report

open Report Reconciliation Host Action ExecutionLog Console

namespace Run

variable {host host₁ : Host} {locations : Locations} {cases : Cases} {log : Path}
  {text : ExecutionLog} {outcome : Outcome} {bytes content : List UInt8}

theorem judgedBy_of_reconcile {host₂ : Host}
    (hlog : ExecutionLog.ofFile host₁.files log = .ok text)
    (hreconcile : (reconcile cases locations.report log).perform host₁ = (.ok outcome, host₂)) :
    JudgedBy text cases outcome := by
  rcases hload : (ExecutionLog.load log).perform host₁ with ⟨fault | text', host'⟩
  · rw [reconcile, perform_bind, hload] at hreconcile
    cases hreconcile
  · have hsound := ((ExecutionLog.reads_load log).of_perform hload).sound text' rfl
    obtain rfl := Except.ok.inj (hlog.symm.trans hsound)
    obtain ⟨outcome', _, hperform, hjudged, -⟩ := judgedBy_reconcile cases locations.report hload
    cases hperform.symm.trans hreconcile
    exact hjudged

/-- If no setup case is missing the outcome has a result for each line of the report. -/
theorem counts_of_found (h : JudgedBy text cases outcome)
    (hfound : text.missing? cases.setup = none) :
    let counts := ((ofCases cases).marked text (text.evaluated cases)).counts
    counts.pass = outcome.passed ∧ counts.fail = outcome.failed ∧ counts.na = 0 := by
  intro counts
  have hcount : ∀ status, counts.of status = (cases.identifiers.map text.verdict).count status :=
    fun status => by rw [counts_of_eq_count, statuses_of_found hfound]
  have hresults : ∀ status, (cases.identifiers.map text.verdict).count status =
      outcome.results.countP fun result => result.status = status := by
    intro status
    rw [h.countP_eq, judged_of_found hfound, List.count_eq_countP, ← Cases.map_snd_grouped,
      List.map_map, List.countP_map, List.countP_map]
    rfl
  refine ⟨(hcount .pass).trans (hresults .pass), (hcount .fail).trans (hresults .fail),
    (hcount .na).trans (List.count_eq_zero.2 ?_)⟩
  intro hmem
  obtain ⟨identifier, -, hna⟩ := List.mem_map.1 hmem
  exact verdict_ne_na text identifier hna

theorem counts_of_missing {k : Nat} {missing : String} (hk : cases.setup[k]? = some missing)
    (hbefore : ∀ identifier ∈ cases.setup.take k, text.mentions identifier = true)
    (hmissing : text.mentions missing = false) (hnodup : cases.identifiers.Nodup) :
    let counts := ((ofCases cases).marked text (text.evaluated cases)).counts
    counts.pass = k ∧ counts.fail = 1 ∧ counts.na = cases.size - k - 1 := by
  intro counts
  have hcount : ∀ status, counts.of status = (List.replicate k Status.pass ++
      Status.fail :: List.replicate (cases.size - k - 1) Status.na).count status :=
    fun status => by rw [counts_of_eq_count, statuses_of_missing hk hbefore hmissing hnodup]
  refine ⟨(hcount .pass).trans ?_, (hcount .fail).trans ?_, (hcount .na).trans ?_⟩
  · simp [List.count_replicate]
  · simp [List.count_replicate]
  · simp [List.count_replicate]

/-- The numbers that a run prints at its end, of the report as it is on disk, are numbers of all
expected cases. If no setup case is missing they are those of the outcome, also when identifiers are
repeated. If one is missing and no identifier is repeated, the cases before it have passed, it has
failed, and the cases after it have not been run. -/
theorem summary_counts_outcome (hplan : host.refusals = [])
    (hprepare : (prepare locations).perform host = (.ok cases, host₁))
    (hreport : host₁.files.read locations.report = .ok content)
    (hlog : host₁.files.read log = .ok bytes) :
    ∃ outcome host₂ loaded host',
      (reconcile cases locations.report log).perform host₁ = (.ok outcome, host₂) ∧
      ((Report.load locations.report).perform host₂).1 = .ok loaded ∧
      (withPaths locations log).perform host = (outcome.verdict, host') ∧
      host₂.Prints [[], countsLine loaded.counts, [plain ("Report: " ++ locations.report)]] host' ∧
      loaded.counts.total = cases.size ∧
      (outcome.missingSetup = none → loaded.counts.pass = outcome.passed ∧
        loaded.counts.fail = outcome.failed ∧ loaded.counts.na = 0) ∧
      ∀ k missing, cases.setup[k]? = some missing →
        (∀ identifier ∈ cases.setup.take k, (ofBytes bytes).mentions identifier = true) →
        (ofBytes bytes).mentions missing = false → cases.identifiers.Nodup →
          loaded.counts.pass = k ∧ loaded.counts.fail = 1 ∧
            loaded.counts.na = cases.size - k - 1 := by
  obtain ⟨hsilent, rfl, hpath, hbroken⟩ := read_of_prepare hprepare hreport
  have hofFile := ofFile_eq_ok_iff.2 ⟨bytes, hlog, rfl⟩
  have hplan₁ := hsilent.refusals_eq_nil hplan
  obtain ⟨outcome, host₂, hreconcile, hmissing, hfaults, hread⟩ :=
    reconcile_ofCases hplan₁ hpath hbroken hreport hofFile
  have hjudged := judgedBy_of_reconcile hofFile hreconcile
  obtain ⟨honward, -⟩ := (yields_reconcile _ _ _).of_perform hreconcile
  have hplan₂ := honward.refusals_eq_nil hplan₁
  have hloaded := ofFile_of_read (fitsLines_ofCases hbroken).marked hread
  have hprints := prints_withPaths hplan₂ hprepare hreconcile
  obtain ⟨host', hrun, -, -⟩ := perform_withPaths hprepare hreconcile
  have hrecorded : outcome.results.filterMap CaseResult.fault = [] :=
    List.filterMap_eq_nil_iff.2 hfaults
  have hload : (Report.load locations.report).Reads host₂ _ := Report.reads_load locations.report
  rw [hrun, hloaded, summaryLines, hrecorded] at hprints
  refine ⟨outcome, host₂, _, host', hreconcile, (hload.exact hplan₂).trans hloaded, hrun, hprints,
    total_counts_marked_ofCases, ?_, ?_⟩
  · intro hnone
    exact counts_of_found hjudged (hmissing.symm.trans hnone)
  · intro k missing hk hbefore hmentions hnodup
    exact counts_of_missing hk hbefore hmentions hnodup

/-- A host with a configuration, with a log that mentions one case, and without a report. -/
def oneMentionOf (config : String) : Host where
  files := oneMention.files.insert ["config"]
    (.file (Text.Utf8.encode config.toList) 0o644)

/-- The case that the log mentions is expected twice. -/
def repeatedCase : Host := oneMentionOf "[[\"a\"],[\"b\",\"a\"]]"

/-- The log does not mention the second setup case. -/
def missingCase : Host := oneMentionOf "[[\"a\",\"b\"],[\"c\"]]"

/-- A case that is expected twice is counted twice. Where the second setup case is missing, the case
after it is not run. -/
theorem summary_counts_oneMention :
    (∃ host₂ host' : Host,
      (withPaths ⟨"config", "report"⟩ "log").perform repeatedCase = (.ok (), host') ∧
      host₂.Prints [[], countsLine ⟨0, 2, 1⟩, [plain "Report: report"]] host') ∧
    ∃ (outcome : Outcome) (host₂ host' : Host),
      (withPaths ⟨"config", "report"⟩ "log").perform missingCase = (outcome.verdict, host') ∧
      host₂.Prints [[], countsLine ⟨1, 1, 1⟩, [plain "Report: report"]] host' := by
  constructor
  · have hprepare : (prepare ⟨"config", "report"⟩).perform repeatedCase =
        (.ok ⟨["a"], ["b", "a"]⟩, ((prepare ⟨"config", "report"⟩).perform repeatedCase).2) := by
      decide +kernel
    have hreport : ((prepare ⟨"config", "report"⟩).perform repeatedCase).2.files.read "report" =
        .ok (ofCases ⟨["a"], ["b", "a"]⟩).content := by decide +kernel
    have hlog : ((prepare ⟨"config", "report"⟩).perform repeatedCase).2.files.read "log" =
        .ok (Text.Utf8.encode "a\n".toList) := by decide +kernel
    have houtcome : ((reconcile ⟨["a"], ["b", "a"]⟩ "report" "log").perform
        ((prepare ⟨"config", "report"⟩).perform repeatedCase).2).1 =
          .ok ⟨[⟨"a", .setup, .pass, none⟩, ⟨"b", .e2e, .fail, none⟩, ⟨"a", .e2e, .pass, none⟩],
            none⟩ := by decide +kernel
    obtain ⟨outcome, host₂, loaded, host', hreconcile, -, hrun, hprints, -, hfound, -⟩ :=
      summary_counts_outcome rfl hprepare hreport hlog
    rw [hreconcile] at houtcome
    cases houtcome
    obtain ⟨hpass, hfail, hna⟩ := hfound rfl
    refine ⟨host₂, host', hrun, ?_⟩
    have hcounts : loaded.counts = ⟨0, 2, 1⟩ := by
      rw [Counts.mk.injEq]
      exact ⟨hna, hpass, hfail⟩
    rwa [hcounts] at hprints
  · have hprepare : (prepare ⟨"config", "report"⟩).perform missingCase =
        (.ok ⟨["a", "b"], ["c"]⟩, ((prepare ⟨"config", "report"⟩).perform missingCase).2) := by
      decide +kernel
    have hreport : ((prepare ⟨"config", "report"⟩).perform missingCase).2.files.read "report" =
        .ok (ofCases ⟨["a", "b"], ["c"]⟩).content := by decide +kernel
    have hlog : ((prepare ⟨"config", "report"⟩).perform missingCase).2.files.read "log" =
        .ok (Text.Utf8.encode "a\n".toList) := by decide +kernel
    obtain ⟨outcome, host₂, loaded, host', -, -, hrun, hprints, -, -, hmissing⟩ :=
      summary_counts_outcome rfl hprepare hreport hlog
    obtain ⟨hpass, hfail, hna⟩ :=
      hmissing 1 "b" rfl (by decide +kernel) (by decide +kernel) (by decide)
    refine ⟨outcome, host₂, host', hrun, ?_⟩
    have hcounts : loaded.counts = ⟨1, 1, 1⟩ := by
      rw [Counts.mk.injEq]
      exact ⟨hna, hpass, hfail⟩
    rwa [hcounts] at hprints

end Run

end CaseReport
