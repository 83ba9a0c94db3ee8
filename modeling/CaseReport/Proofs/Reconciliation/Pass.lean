import CaseReport.Reconciliation
import CaseReport.Proofs.Reconciliation.Judged
import CaseReport.Proofs.Report.Updating

/-!
# The pass of a reconciliation over the judged cases

A reconciliation calls one update of the report file for each judged case, in order. The verdicts
and the choice of the cases come from the log alone; the files only decide which updates go wrong.
-/

namespace CaseReport

namespace ExecutionLog

open Host Action

/-- The log in the file that a path leads to. -/
def ofFile (fs : FileSystem) (path : Path) : Except FileFault ExecutionLog := do
  let bytes ← (fs.read path).mapError fun fault => .unreadable path (.system fault)
  return ofBytes bytes

theorem ofFile_eq_ok_iff {fs : FileSystem} {path : Path} {log : ExecutionLog} :
    ofFile fs path = .ok log ↔ ∃ bytes, fs.read path = .ok bytes ∧ log = ofBytes bytes := by
  rw [ofFile, mapError_bind_eq_ok_iff]
  simp [pure, Except.pure, eq_comm]

theorem reads_load (path : Path) {host : Host} :
    (load path).Reads host (ofFile host.files path) := by
  rw [load, ofFile]
  exact Reads.bind reads_query.adapt fun _ _ _ => reads_pure

theorem failsOnly_load {path : Path} :
    (load path).FailsOnly fun fault => ∃ cause, fault = .unreadable path (.system cause) := by
  rw [load]
  exact (failsOnly_adapt fun cause => ⟨cause, rfl⟩).bind fun _ => .of_ok fun _ => ⟨_, rfl⟩

end ExecutionLog

namespace Reconciliation

open Host Report Action ExecutionLog

/-- What went wrong in an update. -/
def faultOf : Except UpdateFault Unit → Option UpdateFault
  | .ok () => none
  | .error fault => some fault

/-! ## The calls -/

/-- Updates with the verdicts of a log, called one after the other, one for each case, lead from one
host to another and end as the results say. Between them lines are printed and diagnostics told. -/
inductive Calls (path : Path) (log : ExecutionLog) :
    Host → List (Group × String) → List CaseResult → Host → Prop where
  | nil {host} : Calls path log host [] [] host
  | told {host host' : Host} {printed diagnosed cases results}
      (rest : Calls path log { host with printed, diagnosed } cases results host') :
      Calls path log host cases results host'
  | call {host host₁ host₂ group identifier update cases results}
      (hcall : (updateStatus path identifier (log.verdict identifier)).perform host =
        (update, host₁))
      (rest : Calls path log host₁ cases results host₂) :
      Calls path log host ((group, identifier) :: cases)
        (⟨identifier, group, log.verdict identifier, faultOf update⟩ :: results) host₂

theorem Calls.append {path : Path} {log : ExecutionLog} {host host' host'' : Host}
    {cases cases' : List (Group × String)} {results results' : List CaseResult}
    (h : Calls path log host cases results host')
    (h' : Calls path log host' cases' results' host'') :
    Calls path log host (cases ++ cases') (results ++ results') host'' := by
  induction h with
  | nil => exact h'
  | told _ ih => exact .told (ih h')
  | call hcall _ ih => exact .call hcall (ih h')

/-- After any number of calls there is a host from which the others go on. -/
theorem Calls.split {path : Path} {log : ExecutionLog} {host host' : Host}
    {cases : List (Group × String)} {results : List CaseResult}
    (h : Calls path log host cases results host') (n : Nat) :
    ∃ middle, Calls path log host (cases.take n) (results.take n) middle ∧
      Calls path log middle (cases.drop n) (results.drop n) host' := by
  induction h generalizing n with
  | nil =>
    rw [List.take_nil, List.take_nil, List.drop_nil, List.drop_nil]
    exact ⟨_, .nil, .nil⟩
  | told _ ih =>
    obtain ⟨middle, hfront, hback⟩ := ih n
    exact ⟨middle, .told hfront, hback⟩
  | call hcall hrest ih =>
    cases n with
    | zero => exact ⟨_, .nil, .call hcall hrest⟩
    | succ n =>
      obtain ⟨middle, hfront, hback⟩ := ih n
      exact ⟨middle, .call hcall hfront, hback⟩

section

variable {report : Path} {log : ExecutionLog} {group : Group} {identifier : String} {host : Host}

/-- One step of the pass. -/
theorem yields_mark : (mark report log group identifier).Yields host fun result host' =>
    result.status = log.verdict identifier ∧
      Calls report log host [(group, identifier)] [result] host' := by
  rw [mark]
  refine Work.yields_print_bind ?_
  simp only [record, bind_assoc]
  generalize host.printed ++ [_] = printed
  have hcall : Work.Yields (updateStatus report identifier (log.verdict identifier)).run
      { host with printed } fun update host₁ =>
        (updateStatus report identifier (log.verdict identifier)).perform { host with printed } =
          (update, host₁) := Work.yields_run rfl
  refine hcall.bind ?_
  intro update host₁ hperform
  cases update with
  | ok => exact ⟨rfl, .told (.call hperform (.told .nil))⟩
  | error fault => exact ⟨rfl, .told (.call hperform (.told .nil))⟩

theorem yields_mapM_mark (identifiers : List String) :
    Work.Yields (identifiers.mapM (mark report log group)) host fun results host' =>
      Calls report log host (identifiers.map (Prod.mk group)) results host' := by
  induction identifiers generalizing host with
  | nil => exact .nil
  | cons identifier identifiers ih =>
    rw [List.mapM_cons]
    refine yields_mark.bind ?_
    rintro result host₁ ⟨-, hcall⟩
    refine ih.bind ?_
    intro results host₂ hcalls
    exact hcall.append hcalls

theorem yields_markSetup (identifiers : List String) :
    (markSetup report log identifiers).Yields host fun outcome host' =>
      outcome.missingSetup = log.missing? identifiers ∧
        Calls report log host ((log.upToMissing identifiers).map (Prod.mk .setup)) outcome.results
          host' := by
  induction identifiers generalizing host with
  | nil => exact ⟨rfl, .nil⟩
  | cons identifier identifiers ih =>
    rw [markSetup]
    refine yields_mark.bind ?_
    rintro result host₁ ⟨hstatus, hcall⟩
    rw [hstatus]
    cases hmentions : log.mentions identifier with
    | false =>
      rw [if_pos (verdict_eq_fail_iff.2 hmentions), upToMissing_cons_of_not_mentions hmentions,
        missing?_cons_of_not_mentions hmentions]
      exact ⟨rfl, hcall.append (.told .nil)⟩
    | true =>
      have hfound : log.verdict identifier ≠ .fail := by
        rw [ne_eq, verdict_eq_fail_iff, hmentions]
        decide
      rw [if_neg hfound, upToMissing_cons_of_mentions hmentions,
        missing?_cons_of_mentions hmentions]
      refine ih.bind ?_
      rintro outcome host₂ ⟨hmissing, hcalls⟩
      exact ⟨hmissing, hcall.append hcalls⟩

theorem yields_markAll (cases : Cases) : (markAll report log cases).Yields host fun outcome host' =>
    outcome.missingSetup = log.missing? cases.setup ∧
      Calls report log host (log.judged cases) outcome.results host' := by
  simp only [markAll, printHeading, bind_assoc]
  refine Work.yields_print_bind (Work.yields_print_bind ((yields_markSetup cases.setup).bind ?_))
  rintro outcome host₁ ⟨hmissing, hcalls⟩
  rw [judged, hmissing]
  split
  · rw [List.append_nil]
    exact ⟨hmissing, .told hcalls⟩
  · refine Work.yields_print_bind (Work.yields_print_bind ((yields_mapM_mark cases.e2e).bind ?_))
    intro results host₂ hcalls'
    exact ⟨rfl, .told (hcalls.append (.told hcalls'))⟩

/-- A reconciliation that could read the log makes its calls. -/
theorem perform_reconcile (cases : Cases) (report : Path) {path : Path} {host₁ : Host}
    (hload : (ExecutionLog.load path).perform host = (.ok log, host₁)) :
    ∃ outcome host', (reconcile cases report path).perform host = (.ok outcome, host') ∧
      outcome.missingSetup = log.missing? cases.setup ∧
      Calls report log host₁ (log.judged cases) outcome.results host' := by
  rw [reconcile, perform_bind, hload]
  simp only [perform_bind, perform_diagnose, perform_lift]
  obtain ⟨hmissing, hcalls⟩ := yields_markAll cases
  exact ⟨_, _, rfl, hmissing, .told hcalls⟩

end

/-! ## What the calls leave behind -/

/-- Updates with the verdicts of a log, one for each case, lead from one file system to another and
have these results. -/
inductive Pass (plan : List (Option SystemFault)) (path : Path) (log : ExecutionLog) :
    FileSystem → List (Group × String) → List CaseResult → FileSystem → Prop where
  | nil {fs} : Pass plan path log fs [] [] fs
  | cons {fs fs' fs'' group identifier update cases results}
      (updated : Updated plan fs path identifier (log.verdict identifier) update fs')
      (rest : Pass plan path log fs' cases results fs'') :
    Pass plan path log fs ((group, identifier) :: cases)
      (⟨identifier, group, log.verdict identifier, faultOf update⟩ :: results) fs''

namespace Pass

variable {plan plan' : List (Option SystemFault)} {path : Path} {log : ExecutionLog}
  {fs fs' : FileSystem} {cases : List (Group × String)} {results : List CaseResult}

theorem mono (hplan : plan = [] → plan' = []) (h : Pass plan' path log fs cases results fs') :
    Pass plan path log fs cases results fs' := by
  induction h with
  | nil => exact .nil
  | cons updated _ ih => exact .cons (updated.mono hplan) ih

theorem map_results (h : Pass plan path log fs cases results fs') :
    results.map (fun result => (result.group, result.identifier)) = cases := by
  induction h with
  | nil => rfl
  | cons _ _ ih => rw [List.map_cons, ih]

theorem mem_of_mem_results (h : Pass plan path log fs cases results fs') {result : CaseResult}
    (hresult : result ∈ results) : (result.group, result.identifier) ∈ cases := by
  rw [← h.map_results]
  exact List.mem_map_of_mem hresult

theorem status_eq (h : Pass plan path log fs cases results fs') {result : CaseResult}
    (hresult : result ∈ results) : result.status = log.verdict result.identifier := by
  induction h with
  | nil => cases hresult
  | cons _ _ ih =>
    rcases List.mem_cons.1 hresult with rfl | hresult
    · rfl
    · exact ih hresult

/-- The pass changes nothing but the entry of the report. -/
theorem frame {entry place : Location} (h : Pass plan path log fs cases results fs')
    (hat : WritesAt fs path entry) (hne : place ≠ entry) : fs'.node? place = fs.node? place := by
  induction h with
  | nil => rfl
  | cons updated _ ih =>
    rcases updated.kept_or_replaced with ⟨-, rfl⟩ | ⟨-, _, -, -, hreplaced⟩
    · exact ih hat
    · obtain ⟨hat', hframe⟩ := hreplaced.frame hat
      exact (ih hat').trans (hframe place hne)

end Pass

variable {host host' : Host}

theorem Calls.pass {report : Path} {log : ExecutionLog} {cases : List (Group × String)}
    {results : List CaseResult} (h : Calls report log host cases results host') :
    host.Onward host' ∧ Pass host.refusals report log host.files cases results host'.files := by
  induction h with
  | nil => exact ⟨.refl _, .nil⟩
  | told _ ih => exact ih
  | call hcall _ ih =>
    obtain ⟨hsilent, hupdated⟩ := yields_updateStatus.of_perform hcall
    exact ⟨hsilent.onward.trans ih.1, .cons hupdated (ih.2.mono hsilent.refusals_eq_nil)⟩

/-- What a whole reconciliation ends in. -/
theorem yields_reconcile (cases : Cases) (report path : Path) :
    (reconcile cases report path).Yields host fun result host' =>
      host.Onward host' ∧
        match result with
        | .error fault => host'.files = host.files ∧
          (host.refusals = [] → ExecutionLog.ofFile host.files path = .error fault)
        | .ok outcome => ∃ log, ExecutionLog.ofFile host.files path = .ok log ∧
          outcome.missingSetup = log.missing? cases.setup ∧
          Pass host.refusals report log host.files (log.judged cases) outcome.results
            host'.files := by
  rcases hload : (ExecutionLog.load path).perform host with ⟨fault | log, host₁⟩
  · have hanswered := (ExecutionLog.reads_load path).of_perform hload
    rw [Yields, reconcile, perform_bind, hload]
    exact ⟨hanswered.silently.onward, hanswered.files, fun hplan => (hanswered.exact hplan).symm⟩
  · have hanswered := (ExecutionLog.reads_load path).of_perform hload
    obtain ⟨outcome, host', hperform, hmissing, hcalls⟩ := perform_reconcile cases report hload
    obtain ⟨honward, hpass⟩ := hcalls.pass
    have hpass' := hpass.mono hanswered.silently.refusals_eq_nil
    rw [hanswered.files] at hpass'
    rw [Yields, hperform]
    exact ⟨hanswered.silently.onward.trans honward, log, hanswered.sound log rfl, hmissing, hpass'⟩

end Reconciliation

end CaseReport
