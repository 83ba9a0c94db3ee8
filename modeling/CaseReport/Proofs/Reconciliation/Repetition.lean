import Mathlib.Control.Monad.Basic
import CaseReport.Proofs.Reconciliation.Fresh

/-!
# Reconciling twice

Whether a verdict can be recorded depends on which lines the report has, and marking a line leaves
its identifier alone. So a second reconciliation with the same log meets the same faults as the
first one, and the marks that it leaves are there already.
-/

namespace CaseReport

namespace Report

open FileSystem

variable {fs fs' : FileSystem} {path other : Path} {content : List UInt8}

theorem marked_marked {report : Report} {log : ExecutionLog} {identifiers : List String} :
    (report.marked log identifiers).marked log identifiers = report.marked log identifiers := by
  simp only [marked, List.map_map]
  congr 1
  apply List.map_congr_left
  intro entry _
  by_cases hentry : entry.identifier ∈ identifiers
  · simp [hentry]
  · simp [hentry]

/-- A file that a path leads to, if it is not the report, is still there after the report was
replaced, and it is not the report then either. -/
theorem Replaced.find_apart {place : Location} {bytes old : List UInt8} {mode : Nat}
    (h : Replaced fs path content fs') (hread : fs.read path = .ok old)
    (hother : fs.find other = .ok (place, .file bytes mode))
    (hapart : fs.sameFile other path = false) :
    fs'.find other = .ok (place, .file bytes mode) ∧ fs'.sameFile other path = false := by
  obtain ⟨place', mode', hpath⟩ := read_eq_ok_iff.1 hread
  have hne : place ≠ place' := by
    rintro rfl
    cases hapart.symm.trans (sameFile_of_find hother hpath)
  cases h with
  | @intro _ _ newMode entry placeable _ _ entered unoccupied =>
    obtain ⟨hne', hother'⟩ : place ≠ entry ∧
        (fs.insert entry (.file content newMode)).find other = .ok (place, .file bytes mode) :=
      find_insert_elsewhere hpath entered placeable.unslashed hother hne
    refine ⟨hother', ?_⟩
    rw [sameFile, hother',
      find_insert_entry hpath (by simp) entered placeable.unslashed unoccupied]
    exact beq_eq_false_iff_ne.2 hne'

end Report

namespace Reconciliation

open Host Report Action ExecutionLog

/-- What is wrong with recording a verdict on an identifier, by what the report file is read as. -/
def faultIn (found : Except FileFault Report) (identifier : String) : Option UpdateFault :=
  match found with
  | .error fault => some ⟨identifier, .file fault⟩
  | .ok report => if identifier ∈ report.identifiers then none else some ⟨identifier, .noLine⟩

/-- The result of a case that is judged by a log. -/
def resultIn (log : ExecutionLog) (found : Except FileFault Report) (case : Group × String) :
    CaseResult :=
  ⟨case.2, case.1, log.verdict case.2, faultIn found case.2⟩

variable {path other : Path} {log : ExecutionLog} {fs fs' fs'' : FileSystem} {old report : Report}
  {cases : List (Group × String)} {results results' : List CaseResult}

/-- Only the identifiers of a report matter. -/
theorem resultIn_congr (h : report.identifiers = old.identifiers) :
    resultIn log (.ok report) = resultIn log (.ok old) := by
  funext case
  simp only [resultIn, faultIn, h]

/-- A report file with a line for one of the judged cases. -/
def Covers (fs : FileSystem) (path : Path) (cases : List (Group × String)) (old : Report) : Prop :=
  Report.ofFile fs path = .ok old ∧ ∃ identifier ∈ cases.map Prod.snd, identifier ∈ old.identifiers

namespace Pass

/-- If no write fails, the results of a pass are a matter of the report that it starts from. -/
theorem results_eq (h : Pass [] path log fs cases results fs')
    (hwritten : ∀ result ∈ results, ¬WriteFailed result.fault) :
    results = cases.map (resultIn log (Report.ofFile fs path)) := by
  induction h with
  | nil => rfl
  | @cons fs fs₁ fs₂ group identifier update cases results updated rest ih =>
    rw [List.forall_mem_cons] at hwritten
    rw [List.map_cons, ih hwritten.2]
    cases updated with
    | refused hplan => exact absurd rfl hplan
    | unread hreport => rw [resultIn, hreport, faultIn, faultOf]
    | noLine hreport hline => rw [resultIn, hreport, faultIn, if_neg hline, faultOf]
    | unwritten => exact absurd ⟨_, _, _, rfl⟩ hwritten.1
    | written hreport hline hreplaced =>
      obtain ⟨_, hread⟩ := exists_read_of_ofFile hreport
      have hreport' := ofFile_of_read ((fitsLines_of_ofFile hreport).setStatus _ _)
        (hreplaced.read_eq_ok hread)
      rw [hreport', hreport, resultIn_congr (identifiers_setStatus _ _ _), resultIn, faultIn,
        if_pos hline, faultOf]

/-- A pass that finds no line for its cases writes nothing. -/
theorem of_not_covers (h : Pass [] path log fs cases results fs')
    (hnone : ∀ old, ¬Covers fs path cases old) :
    (∀ result ∈ results, ¬WriteFailed result.fault) ∧ fs' = fs := by
  induction h with
  | nil => exact ⟨fun _ hresult => absurd hresult List.not_mem_nil, rfl⟩
  | @cons fs fs₁ fs₂ group identifier update cases results updated rest ih =>
    have hfirst : ∀ {old : Report}, Report.ofFile fs path = .ok old →
        identifier ∉ old.identifiers := fun hreport hline =>
      hnone _ ⟨hreport, identifier, List.mem_cons_self, hline⟩
    have hrest : ∀ old, ¬Covers fs path cases old := fun old ⟨hreport, other, hmem, hline⟩ =>
      hnone old ⟨hreport, other, List.mem_cons_of_mem _ hmem, hline⟩
    rw [List.forall_mem_cons]
    cases updated with
    | refused hplan => exact absurd rfl hplan
    | unread hreport =>
      obtain ⟨hwritten, hfiles⟩ := ih hrest
      refine ⟨⟨?_, hwritten⟩, hfiles⟩
      rintro ⟨_, _, _, hfault⟩
      cases hfault
      exact ofFile_ne_unwritable hreport
    | noLine =>
      obtain ⟨hwritten, hfiles⟩ := ih hrest
      refine ⟨⟨?_, hwritten⟩, hfiles⟩
      rintro ⟨_, _, _, hfault⟩
      cases hfault
    | unwritten hreport hline => exact absurd hline (hfirst hreport)
    | written hreport hline => exact absurd hline (hfirst hreport)

/-- A report was put in its place if there is a line for one of the cases and no write failed. -/
theorem placeable (h : Pass [] path log fs cases results fs') (hcovers : Covers fs path cases old)
    (hwritten : ∀ result ∈ results, ¬WriteFailed result.fault) : Placeable fs path := by
  induction h with
  | nil =>
    obtain ⟨-, _, hmem, -⟩ := hcovers
    exact absurd hmem List.not_mem_nil
  | @cons fs fs₁ fs₂ group identifier update cases results updated rest ih =>
    rw [List.forall_mem_cons] at hwritten
    obtain ⟨hreport, other, hmem, hline⟩ := hcovers
    cases updated with
    | refused hplan => exact absurd rfl hplan
    | unread herror => cases hreport.symm.trans herror
    | noLine hok hnone =>
      obtain rfl := Except.ok.inj (hreport.symm.trans hok)
      rcases List.mem_cons.1 hmem with rfl | hmem
      · exact absurd hline hnone
      · exact ih ⟨hreport, other, hmem, hline⟩ hwritten.2
    | unwritten => exact absurd ⟨_, _, _, rfl⟩ hwritten.1
    | written _ _ hreplaced => exact hreplaced.placeable

theorem workingDirectory {plan : List (Option SystemFault)}
    (h : Pass plan path log fs cases results fs') :
    fs'.workingDirectory = fs.workingDirectory := by
  induction h with
  | nil => rfl
  | cons updated _ ih => exact ih.trans updated.workingDirectory

/-- A second pass has the results of the first one and leaves the report as it is. -/
theorem again (h : Pass [] path log fs cases results fs')
    (hwritten : ∀ result ∈ results, ¬WriteFailed result.fault)
    (h' : Pass [] path log fs' cases results' fs'') :
    results' = results ∧ fs''.read path = fs'.read path := by
  rw [h.results_eq hwritten]
  by_cases hcovers : ∃ old, Covers fs path cases old
  · obtain ⟨old, hcovers⟩ := hcovers
    have hpath := (h.placeable hcovers hwritten).congr h.workingDirectory
    obtain ⟨hreport, identifier, hmem, hline⟩ := hcovers
    obtain ⟨-, hfiles⟩ := h.of_ofFile_eq_ok hreport hwritten
    rcases hfiles with ⟨hnone, -⟩ | ⟨-, hread⟩
    · exact absurd hline (hnone identifier hmem)
    -- The second pass starts from the report that the first one has left, with the same lines.
    · have hfits : (old.marked log (cases.map Prod.snd)).FitsLines :=
        (fitsLines_of_ofFile hreport).marked
      have hread' := h'.read_eq hpath hfits hread
      rw [marked_marked] at hread'
      rw [h'.results_eq (h'.not_writeFailed hpath), ofFile_of_read hfits hread, hreport,
        resultIn_congr identifiers_marked]
      exact ⟨rfl, hread'.trans hread.symm⟩
  · rw [not_exists] at hcovers
    obtain ⟨-, rfl⟩ := h.of_not_covers hcovers
    obtain ⟨hwritten', rfl⟩ := h'.of_not_covers hcovers
    exact ⟨h'.results_eq hwritten', rfl⟩

/-- A file that a path leads to, if it is not the report, is still there after the pass. -/
theorem find_apart {plan : List (Option SystemFault)} {place : Location} {bytes : List UInt8}
    {mode : Nat} (h : Pass plan path log fs cases results fs')
    (hother : fs.find other = .ok (place, .file bytes mode))
    (hapart : fs.sameFile other path = false) :
    fs'.find other = .ok (place, .file bytes mode) := by
  induction h with
  | nil => exact hother
  | cons updated _ ih =>
    rcases updated.kept_or_replaced with ⟨-, rfl⟩ | ⟨-, old, hreport, -, hreplaced⟩
    · exact ih hother hapart
    · obtain ⟨_, hread⟩ := exists_read_of_ofFile hreport
      obtain ⟨hother', hapart'⟩ := hreplaced.find_apart hread hother hapart
      exact ih hother' hapart'

theorem ofFile_log_eq {plan : List (Option SystemFault)} {text : ExecutionLog}
    (h : Pass plan path log fs cases results fs') (hlog : ExecutionLog.ofFile fs other = .ok text)
    (hapart : fs.sameFile other path = false) : ExecutionLog.ofFile fs' other = .ok text := by
  obtain ⟨bytes, hread, rfl⟩ := ofFile_eq_ok_iff.1 hlog
  obtain ⟨place, mode, hfind⟩ := FileSystem.read_eq_ok_iff.1 hread
  have hfind' := h.find_apart hfind hapart
  exact ofFile_eq_ok_iff.2 ⟨bytes, FileSystem.read_eq_ok_iff.2 ⟨place, mode, hfind'⟩, rfl⟩

end Pass

/-- A second reconciliation, of what the first one left and with the same log, ends in the very same
way and leaves the report file as it is. The first one may have had any report file, or none, but
no write failed in it. None fails if the path lets a file be put in its place. -/
theorem reconcile_again {host host₁ : Host} {result : Except FileFault Outcome}
    (expected : Cases) (report path : Path) (hplan : host.refusals = [])
    (hapart : host.files.sameFile path report = false)
    (hfirst : (reconcile expected report path).perform host = (result, host₁)) :
    (Placeable host.files report → ∀ outcome, result = .ok outcome →
      ∀ judged ∈ outcome.results, ¬WriteFailed judged.fault) ∧
    ((∀ outcome, result = .ok outcome → ∀ judged ∈ outcome.results, ¬WriteFailed judged.fault) →
      ∃ host₂, (reconcile expected report path).perform host₁ = (result, host₂) ∧
        host₂.files.read report = host₁.files.read report) := by
  rcases hsecond : (reconcile expected report path).perform host₁ with ⟨result', host₂⟩
  obtain ⟨honward, hend⟩ := (yields_reconcile _ _ _).of_perform hfirst
  obtain ⟨-, hend'⟩ := (yields_reconcile _ _ _).of_perform hsecond
  have hplan₁ := honward.refusals_eq_nil hplan
  refine ⟨?_, fun hwritten => ?_⟩
  · rintro hpath outcome rfl
    obtain ⟨_, -, -, hpass⟩ := hend
    rw [hplan] at hpass
    exact hpass.not_writeFailed hpath
  suffices hsame : result' = result ∧ host₂.files.read report = host₁.files.read report by
    exact ⟨host₂, by rw [hsame.1], hsame.2⟩
  cases result with
  | error fault =>
    obtain ⟨hfiles, hfault⟩ := hend
    rw [hfiles] at hend'
    cases result' with
    | error fault' =>
      have hfault' := hend'.2 hplan₁
      refine ⟨by rw [Except.error.inj ((hfault hplan).symm.trans hfault')], ?_⟩
      rw [hend'.1, hfiles]
    | ok outcome' =>
      obtain ⟨log, hlog, -⟩ := hend'
      cases (hfault hplan).symm.trans hlog
  | ok outcome =>
    obtain ⟨log, hlog, hmissing, hpass⟩ := hend
    have hlog₁ := hpass.ofFile_log_eq hlog hapart
    cases result' with
    | error fault' => cases hlog₁.symm.trans (hend'.2 hplan₁)
    | ok outcome' =>
      obtain ⟨log', hlog', hmissing', hpass'⟩ := hend'
      obtain rfl := Except.ok.inj (hlog₁.symm.trans hlog')
      rw [hplan] at hpass
      rw [hplan₁] at hpass'
      obtain ⟨hresults, hread⟩ := hpass.again (hwritten outcome rfl) hpass'
      have houtcome : outcome' = outcome :=
        congrArg₂ Outcome.mk hresults (hmissing'.trans hmissing.symm)
      exact ⟨by rw [houtcome], hread⟩

/-- The report lacks a line for the last case here, and is written for the others. -/
theorem reconcile_twoCases_again :
    ∃ outcome host₁ host₂,
      (reconcile ⟨["x: PASS"], ["b", "c"]⟩ "report" "log").perform twoCases = (.ok outcome, host₁) ∧
      (reconcile ⟨["x: PASS"], ["b", "c"]⟩ "report" "log").perform host₁ = (.ok outcome, host₂) ∧
      outcome.results.map CaseResult.fault = [none, none, some ⟨"c", .noLine⟩] ∧
      host₁.files.read "report" ≠ twoCases.files.read "report" ∧
      host₂.files.read "report" = host₁.files.read "report" := by
  have hfirst : (reconcile ⟨["x: PASS"], ["b", "c"]⟩ "report" "log").perform twoCases =
      (.ok ⟨[⟨"x: PASS", .setup, .pass, none⟩, ⟨"b", .e2e, .fail, none⟩,
          ⟨"c", .e2e, .fail, some ⟨"c", .noLine⟩⟩], none⟩,
        ((reconcile ⟨["x: PASS"], ["b", "c"]⟩ "report" "log").perform twoCases).2) :=
    perform_eq (by decide +kernel)
  have hapart : twoCases.files.sameFile "log" "report" = false := by decide +kernel
  have hpath : Placeable twoCases.files "report" :=
    ⟨⟨"report", by decide +kernel⟩, by decide +kernel, by decide +kernel⟩
  obtain ⟨hwritten, hagain⟩ := reconcile_again _ _ _ rfl hapart hfirst
  obtain ⟨host₂, hsecond, hread⟩ := hagain (hwritten hpath)
  refine ⟨_, _, host₂, hfirst, hsecond, rfl, ?_, hread⟩
  decide +kernel

end Reconciliation

end CaseReport
