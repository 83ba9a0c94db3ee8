import Mathlib.Control.Monad.Basic
import CaseReport.Proofs.Reconciliation.Fresh
import CaseReport.Proofs.Report.Starting

/-!
# A missing setup case, line by line

After a setup case is missing nothing more is judged. A report is marked by identifier, however, so
a later line is marked all the same if its identifier was judged before.
-/

namespace CaseReport

namespace ExecutionLog

variable {log : ExecutionLog} {missing : String}

/-- The setup cases that are judged, by the position of the first one that is missing. -/
theorem upToMissing_eq_take {identifiers : List String} {k : Nat}
    (hk : identifiers[k]? = some missing)
    (hbefore : ∀ identifier ∈ identifiers.take k, log.mentions identifier = true)
    (hmissing : log.mentions missing = false) :
    log.missing? identifiers = some missing ∧
      log.upToMissing identifiers = identifiers.take (k + 1) := by
  obtain ⟨hlt, hget⟩ := List.getElem?_eq_some_iff.1 hk
  have hcut : identifiers = identifiers.take k ++ missing :: identifiers.drop (k + 1) := by
    rw [← hget, List.getElem_cons_drop, List.take_append_drop]
  have hfront : identifiers.take (k + 1) = identifiers.take k ++ [missing] := by
    rw [← hget, List.take_append_getElem]
  rw [hfront]
  exact upToMissing_append hcut hbefore hmissing

theorem evaluated_eq_take {cases : Cases} {k : Nat} (hk : cases.setup[k]? = some missing)
    (hbefore : ∀ identifier ∈ cases.setup.take k, log.mentions identifier = true)
    (hmissing : log.mentions missing = false) :
    log.evaluated cases = cases.identifiers.take (k + 1) := by
  obtain ⟨hfirst, htake⟩ := upToMissing_eq_take hk hbefore hmissing
  obtain ⟨hlt, -⟩ := List.getElem?_eq_some_iff.1 hk
  rw [evaluated_eq, hfirst, htake, Cases.identifiers, List.take_append_of_le_length hlt]
  exact List.append_nil _

end ExecutionLog

namespace Report

/-- The status on the line at a position. -/
def statusAt? (report : Report) (i : Nat) : Option Status :=
  report.entries[i]?.map Entry.status

theorem statusAt?_marked_ofCases {cases : Cases} {log : ExecutionLog} {identifiers : List String}
    {i : Nat} {identifier : String} (hi : cases.identifiers[i]? = some identifier) :
    ((ofCases cases).marked log identifiers).statusAt? i =
      some (if identifier ∈ identifiers then log.verdict identifier else .na) := by
  rw [statusAt?, marked_ofCases, List.getElem?_map, hi]
  rfl

end Report

namespace Reconciliation

open Host Report Action ExecutionLog

variable {host host₁ : Host} {text : List Char} {expected : Cases} {started : Report}
  {report log : Path} {bytes content : List UInt8} {k : Nat} {missing : String}

private theorem mem_take_of_getElem? {identifiers : List String} {i n : Nat} {identifier : String}
    (h : identifiers[i]? = some identifier) (hi : i < n) : identifier ∈ identifiers.take n :=
  List.mem_of_getElem? ((List.getElem?_take_of_lt hi).trans h)

/-- In a report that was started and then reconciled, the lines up to the first missing setup case
have their verdicts. A line after it is still unjudged exactly if its identifier is not on one of
those lines. -/
theorem lines_of_setup_failure (hplan : host.refusals = [])
    (haccepted : Cases.parse text = .ok expected)
    (hstart : (start report expected).perform host = (.ok started, host₁))
    (hreport : host₁.files.read report = .ok content)
    (hlog : host₁.files.read log = .ok bytes) (hk : expected.setup[k]? = some missing)
    (hbefore : ∀ identifier ∈ expected.setup.take k, (ofBytes bytes).mentions identifier = true)
    (hmissing : (ofBytes bytes).mentions missing = false) :
    ∃ outcome host₂ final,
      (reconcile expected report log).perform host₁ = (.ok outcome, host₂) ∧
      Report.ofFile host₂.files report = .ok final ∧ final.identifiers = expected.identifiers ∧
      (∀ i < k, final.statusAt? i = some .pass) ∧ final.statusAt? k = some .fail ∧
      ∀ i, k < i → ∀ identifier, expected.identifiers[i]? = some identifier →
        (final.statusAt? i = some .na ↔ identifier ∉ expected.identifiers.take (k + 1)) := by
  have hbroken := Cases.firstBroken?_of_parse haccepted
  obtain ⟨hsilent, rfl, hpath⟩ := read_of_start hstart hreport
  obtain ⟨outcome, host₂, hreconcile, -, -, hread⟩ := reconcile_ofCases
    (hsilent.refusals_eq_nil hplan) hpath hbroken hreport
    (ofFile_eq_ok_iff.2 ⟨bytes, hlog, rfl⟩)
  rw [evaluated_eq_take hk hbefore hmissing] at hread
  have hline : ∀ i < expected.setup.length, expected.identifiers[i]? = expected.setup[i]? :=
    fun i hi => List.getElem?_append_left hi
  obtain ⟨hlt, -⟩ := List.getElem?_eq_some_iff.1 hk
  refine ⟨outcome, host₂, _, hreconcile,
    ofFile_of_read (fitsLines_ofCases hbroken).marked hread, ?_, ?_, ?_, ?_⟩
  · rw [identifiers_marked, identifiers_ofCases]
  · intro i hi
    obtain ⟨identifier, hidentifier⟩ : ∃ identifier, expected.setup[i]? = some identifier :=
      ⟨_, List.getElem?_eq_getElem (Nat.lt_trans hi hlt)⟩
    have hfound := hbefore _ (mem_take_of_getElem? hidentifier hi)
    have hi' := (hline i (Nat.lt_trans hi hlt)).trans hidentifier
    rw [statusAt?_marked_ofCases hi', if_pos (mem_take_of_getElem? hi' (Nat.lt_succ_of_lt hi)),
      verdict, hfound]
    rfl
  · have hk' := (hline k hlt).trans hk
    rw [statusAt?_marked_ofCases hk', if_pos (mem_take_of_getElem? hk' (Nat.lt_succ_self k)),
      verdict_eq_fail_iff.2 hmissing]
  · intro i _ identifier hi
    rw [statusAt?_marked_ofCases hi]
    split
    · next hmem => simp [hmem, verdict_ne_na]
    · next hmem => simp [hmem]

/-- A host with a log that mentions one case, and no report. -/
def oneMention : Host where
  files := { nodes := [(["log"], .file (Text.Utf8.encode "a\n".toList) 0o644)] }

/-- The second setup case is missing here, and yet the end-to-end case is marked, because it has the
identifier of the first setup case. -/
theorem lines_of_repeated_case :
    ∃ host₁ outcome host₂ final,
      (reconcile ⟨["a", "b"], ["a"]⟩ "report" "log").perform host₁ = (.ok outcome, host₂) ∧
      Report.ofFile host₂.files "report" = .ok final ∧ final.statusAt? 1 = some .fail ∧
      final.statusAt? 2 ≠ some .na := by
  have hstart : (start "report" ⟨["a", "b"], ["a"]⟩).perform oneMention =
      (.ok (ofCases ⟨["a", "b"], ["a"]⟩),
        ((start "report" ⟨["a", "b"], ["a"]⟩).perform oneMention).2) := by decide +kernel
  have haccepted : Cases.parse "[[\"a\",\"b\"],[\"a\"]]".toList = .ok ⟨["a", "b"], ["a"]⟩ := by
    decide +kernel
  have hreport : ((start "report" ⟨["a", "b"], ["a"]⟩).perform oneMention).2.files.read "report" =
      .ok (ofCases ⟨["a", "b"], ["a"]⟩).content := by decide +kernel
  have hlog : ((start "report" ⟨["a", "b"], ["a"]⟩).perform oneMention).2.files.read "log" =
      .ok (Text.Utf8.encode "a\n".toList) := by decide +kernel
  have hbefore : ∀ identifier ∈ ["a", "b"].take 1,
      (ofBytes (Text.Utf8.encode "a\n".toList)).mentions identifier = true := by decide +kernel
  have hmissing : (ofBytes (Text.Utf8.encode "a\n".toList)).mentions "b" = false := by
    decide +kernel
  obtain ⟨outcome, host₂, final, hreconcile, hfinal, -, -, hfail, hlater⟩ :=
    lines_of_setup_failure rfl haccepted hstart hreport hlog rfl hbefore hmissing
  refine ⟨_, outcome, host₂, final, hreconcile, hfinal, hfail, ?_⟩
  rw [ne_eq, hlater 2 (by decide) "a" rfl]
  decide +kernel

end Reconciliation

end CaseReport
