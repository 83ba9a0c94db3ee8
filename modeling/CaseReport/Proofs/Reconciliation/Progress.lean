import Mathlib.Control.Monad.Basic
import Mathlib.Data.List.Basic
import CaseReport.Proofs.Reconciliation.SetupFailure
import CaseReport.Proofs.Report.Stages

/-!
# A reconciliation, moment by moment

At every moment of an update the report can be read as what it was before or as what it is after it.
A line that several judged cases share is marked by each of their updates. The verdict is a matter
of the identifier alone, so that only the first of them changes the line.
-/

namespace CaseReport

namespace Report

open Host Action

variable {host : Host} {fs fs' : FileSystem} {path : Path} {report : Report} {identifier : String}
  {status : Status}

theorem ofFile_of_untouched (h : Untouched fs path fs') : ofFile fs' path = ofFile fs path := by
  rw [ofFile, ofFile, FileSystem.readText, FileSystem.readText, h.read]

/-- In the moments of an update the report is what it was before, and then what it is after. -/
theorem yields_updateStatus_moments : (updateStatus path identifier status).Yields host
    fun _ host' => ∃ before after, host.Passes (before ++ after) host' ∧
      (∀ files ∈ before, ofFile files path = ofFile host.files path) ∧
      ∀ files ∈ after, ofFile files path = ofFile host'.files path := by
  have hload : (load path).Yields host (Answered host (ofFile host.files path)) := reads_load path
  rw [updateStatus]
  refine hload.adapt_bind ?_ ?_
  · intro report host₁ hanswered
    obtain ⟨moments, hpasses, hsame⟩ := hanswered.unmoved
    have hbefore : ∀ files ∈ moments, ofFile files path = ofFile host.files path :=
      fun files hmem => by rw [hsame files hmem]
    rw [assign_eq]
    dsimp only
    split
    · exact yields_throw_bind ⟨moments, [], by simpa using hpasses, hbefore, by simp⟩
    · refine yields_write_moments.adapted.mono ?_
      rintro _ host₂ ⟨_, -, before, after, hpasses', hpending, hafter⟩
      refine ⟨moments ++ before, after, ?_, ?_, fun files hmem => by rw [(hafter files hmem).2]⟩
      · rw [List.append_assoc]
        exact hpasses.trans hpasses'
      · intro files hmem
        rcases List.mem_append.1 hmem with hmem | hmem
        · exact hbefore files hmem
        · -- The report was just read, so that no empty file is made for it.
          rcases hpending files hmem with huntouched | ⟨made, hmade, -⟩
          · rw [ofFile_of_untouched huntouched, hanswered.files]
          · obtain ⟨bytes, hread⟩ := exists_read_of_ofFile (hanswered.sound _ rfl)
            rw [← hanswered.files] at hread
            cases (holds_of_read hread).symm.trans (exists_file_of_made? hmade).1
  · intro fault host₁ hanswered
    obtain ⟨moments, hpasses, hsame⟩ := hanswered.unmoved
    refine ⟨moments, [], by simpa using hpasses, ?_, by simp⟩
    exact fun files hmem => by rw [hsame files hmem]

theorem statusAt?_setStatus {i : Nat} {other : String}
    (hi : report.identifiers[i]? = some identifier) :
    (report.setStatus other status).statusAt? i =
      if identifier = other then some status else report.statusAt? i := by
  rw [identifiers, List.getElem?_map] at hi
  obtain ⟨entry, hentry, rfl⟩ := Option.map_eq_some_iff.1 hi
  simp only [statusAt?, setStatus, List.getElem?_map, hentry, Option.map_some, Entry.setStatus]
  split <;> rfl

end Report

namespace Reconciliation

open Host Report Action ExecutionLog

variable {host host' host₁ host₂ : Host} {text : List Char} {expected : Cases}
  {started old : Report} {report path : Path} {log : ExecutionLog} {content : List UInt8}
  {cases : List (Group × String)} {results : List CaseResult}

/-- An identifier is among the first ones exactly if its first position is. -/
private theorem mem_take_iff_of_le_length {identifiers : List String} {identifier : String}
    {n : Nat}
    (h : n ≤ identifiers.length) :
    identifier ∈ identifiers.take n ↔ ¬n ≤ identifiers.idxOf identifier := by
  rw [Nat.not_le]
  by_cases hmem : identifier ∈ identifiers
  · exact List.mem_take_iff_idxOf_lt hmem
  · rw [List.idxOf_eq_length hmem]
    constructor
    · exact fun htake => absurd (List.mem_of_mem_take htake) hmem
    · exact fun hlt => absurd h (Nat.not_le.2 hlt)

theorem Calls.passes (h : Calls report log host cases results host') :
    ∃ moments, host.Passes moments host' := by
  induction h with
  | nil => exact ⟨[], .refl _⟩
  | told _ ih =>
    obtain ⟨moments, hpasses⟩ := ih
    exact ⟨moments, hpasses.history, hpasses.last⟩
  | call hcall _ ih =>
    obtain ⟨before, after, hpasses, -⟩ := yields_updateStatus_moments.of_perform hcall
    obtain ⟨moments, hpasses'⟩ := ih
    exact ⟨_, hpasses.trans hpasses'⟩

/-- After some calls the lines of their identifiers have their verdicts. -/
theorem Calls.ofFile_eq (hplan : host.refusals = []) (hpath : Placeable host.files report)
    (hbroken : expected.firstBroken? = none)
    (hreport : host.files.read report = .ok (ofCases expected).content)
    (h : Calls report log host cases results host₁) :
    Report.ofFile host₁.files report =
      .ok ((ofCases expected).marked log (cases.map Prod.snd)) := by
  obtain ⟨-, hpass⟩ := h.pass
  rw [hplan] at hpass
  have hfits := fitsLines_ofCases hbroken
  exact ofFile_of_read hfits.marked (hpass.read_eq hpath hfits hreport)

/-- The report can be read at every moment of some calls, and has the same lines in the same order.
A line stays what it was up to some moment, and from then on it has the verdict of the log. -/
theorem Calls.moments (hplan : host.refusals = []) (hpath : Placeable host.files report)
    (hreport : Report.ofFile host.files report = .ok old)
    (h : Calls report log host cases results host') :
    ∃ (moments : List FileSystem) (contents : List Report), host.Passes moments host' ∧
      moments.map (Report.ofFile · report) = contents.map .ok ∧
      (∀ now ∈ contents, now.identifiers = old.identifiers) ∧
      ∀ (i : Nat) identifier, old.identifiers[i]? = some identifier → ∃ waiting judged,
        contents.map (·.statusAt? i) = List.replicate waiting (old.statusAt? i) ++
          List.replicate judged (some (log.verdict identifier)) := by
  induction h generalizing old with
  | nil => exact ⟨[], [], .refl _, rfl, by simp, fun _ _ _ => ⟨0, 0, rfl⟩⟩
  | told _ ih =>
    obtain ⟨moments, contents, hpasses, hend⟩ := ih hplan hpath hreport
    exact ⟨moments, contents, ⟨hpasses.history, hpasses.last⟩, hend⟩
  | @call host host₁ host₂ group other update cases results hcall rest ih =>
    obtain ⟨before, after, hpasses, hbefore, hafter⟩ :=
      yields_updateStatus_moments.of_perform hcall
    obtain ⟨hsilent, hupdated⟩ := yields_updateStatus.of_perform hcall
    rw [hplan] at hupdated
    obtain ⟨hreport₁, -⟩ := hupdated.of_ofFile_eq_ok hreport fun _ => hupdated.ne_unwritable hpath
    obtain ⟨moments, contents, hpasses', hcontents, hlines, hmoves⟩ :=
      ih (hsilent.refusals_eq_nil hplan) (hpath.congr hupdated.workingDirectory) hreport₁
    rw [hreport] at hbefore
    rw [hreport₁] at hafter
    refine ⟨before ++ after ++ moments, .replicate before.length old ++
      .replicate after.length (old.setStatus other (log.verdict other)) ++ contents,
      hpasses.trans hpasses', ?_, ?_, ?_⟩
    · simp only [List.map_append, List.map_replicate, hcontents]
      rw [List.map_eq_replicate_iff.2 hbefore, List.map_eq_replicate_iff.2 hafter]
    · simp only [identifiers_setStatus] at hlines
      simp only [List.mem_append, List.mem_replicate]
      rintro now ((⟨-, rfl⟩ | ⟨-, rfl⟩) | hmem)
      · rfl
      · exact identifiers_setStatus ..
      · exact hlines now hmem
    · intro i identifier hi
      have hi' := hi
      rw [← identifiers_setStatus old other (log.verdict other)] at hi'
      obtain ⟨waiting, judged, hstatuses⟩ := hmoves i identifier hi'
      simp only [List.map_append, List.map_replicate, hstatuses, statusAt?_setStatus hi]
      split
      · next heq =>
        -- The line has its verdict from this update on.
        subst heq
        refine ⟨before.length, after.length + (waiting + judged), ?_⟩
        rw [List.append_assoc, ← List.replicate_add, ← List.replicate_add]
      · refine ⟨before.length + after.length + waiting, judged, ?_⟩
        rw [← List.append_assoc, ← List.replicate_add, ← List.replicate_add]

theorem statusAt?_ofCases {i : Nat} {identifier : String}
    (hi : expected.identifiers[i]? = some identifier) :
    (ofCases expected).statusAt? i = some .na := by
  rw [statusAt?, ofCases, List.getElem?_map, hi]
  rfl

private theorem ne_zero_iff_of_getLast? {α : Type} {a b c : α} {n m : Nat} (hne : a ≠ b)
    (h : (List.replicate (n + 1) a ++ List.replicate m b).getLast? = some c) :
    m ≠ 0 ↔ c = b := by
  rw [List.getLast?_append, List.getLast?_replicate, List.getLast?_replicate] at h
  cases m with
  | zero =>
    obtain rfl : a = c := by simpa using h
    simp [hne]
  | succ m =>
    obtain rfl : b = c := by simpa using h
    simp

/-- While the cases are judged on a report that was just started, it can be read at every moment. A
line is unjudged up to some moment, and from then on it has the verdict of the log, if its
identifier is judged at all. -/
theorem Calls.moments_ofCases (hplan : host.refusals = []) (hpath : Placeable host.files report)
    (hbroken : expected.firstBroken? = none)
    (hreport : host.files.read report = .ok (ofCases expected).content)
    (h : Calls report log host (log.judged expected) results host') :
    ∃ (moments : List FileSystem) (contents : List Report), host.Passes moments host' ∧
      (host.files :: moments).map (Report.ofFile · report) = contents.map .ok ∧
      (∀ now ∈ contents, now.identifiers = expected.identifiers) ∧
      ∀ (i : Nat) identifier, expected.identifiers[i]? = some identifier → ∃ waiting judged,
        contents.map (·.statusAt? i) = List.replicate (waiting + 1) (some .na) ++
            List.replicate judged (some (log.verdict identifier)) ∧
          (judged ≠ 0 ↔ identifier ∈ log.evaluated expected) := by
  have hstarted := ofFile_of_read (fitsLines_ofCases hbroken) hreport
  obtain ⟨moments, contents, hpasses, hcontents, hlines, hmoves⟩ :=
    h.moments hplan hpath hstarted
  have hread : (host.files :: moments).map (Report.ofFile · report) =
      (ofCases expected :: contents).map .ok := by
    rw [List.map_cons, List.map_cons, hstarted, hcontents]
  refine ⟨moments, ofCases expected :: contents, hpasses, hread, ?_, ?_⟩
  · simp only [identifiers_ofCases] at hlines
    simpa [identifiers_ofCases] using hlines
  · intro i identifier hi
    obtain ⟨waiting, judged, hstatuses⟩ := hmoves i identifier (by rwa [identifiers_ofCases])
    have hline : (ofCases expected :: contents).map (·.statusAt? i) =
        List.replicate (waiting + 1) (some .na) ++
          List.replicate judged (some (log.verdict identifier)) := by
      rw [List.map_cons, hstatuses, statusAt?_ofCases hi, List.replicate_succ, List.cons_append]
    refine ⟨waiting, judged, hline, ?_⟩
    -- Whether the line was judged shows at the end.
    have hlast := congrArg List.getLast? hread
    rw [List.getLast?_map, hpasses.last, Option.map_some,
      h.ofFile_eq hplan hpath hbroken hreport, List.getLast?_map] at hlast
    obtain ⟨final, hfinal, heq⟩ := Option.map_eq_some_iff.1 hlast.symm
    obtain rfl := Except.ok.inj heq
    have hend := congrArg List.getLast? hline
    rw [List.getLast?_map, hfinal, Option.map_some, statusAt?_marked_ofCases hi] at hend
    have hne : some Status.na ≠ some (log.verdict identifier) :=
      fun h => verdict_ne_na _ _ (Option.some.inj h).symm
    rw [ne_zero_iff_of_getLast? hne hend.symm, ← evaluated]
    split
    · next hmem => simp [hmem]
    · next hmem => simp [hmem, hne]

/-- Between two calls the lines of the identifiers so far are judged, and the others are not. -/
theorem Calls.between (hplan : host.refusals = []) (hpath : Placeable host.files report)
    (hbroken : expected.firstBroken? = none)
    (hreport : host.files.read report = .ok (ofCases expected).content)
    (h : Calls report log host (log.judged expected) results host') {n : Nat}
    (hn : n ≤ (log.judged expected).length) :
    ∃ middle seen later now,
      Calls report log host ((log.judged expected).take n) (results.take n) middle ∧
      Calls report log middle ((log.judged expected).drop n) (results.drop n) host' ∧
      host.Passes seen middle ∧ middle.Passes later host' ∧
      Report.ofFile middle.files report = .ok now ∧ now.identifiers = expected.identifiers ∧
      ∀ (i : Nat) identifier, expected.identifiers[i]? = some identifier →
        now.statusAt? i =
          some (if n ≤ (log.evaluated expected).idxOf identifier then .na
            else log.verdict identifier) := by
  -- The calls so far mark the lines of the first identifiers, in one stroke as it were.
  obtain ⟨middle, hfront, hback⟩ := h.split n
  have hnow := hfront.ofFile_eq hplan hpath hbroken hreport
  rw [List.map_take] at hnow
  obtain ⟨seen, hseen⟩ := hfront.passes
  obtain ⟨later, hlater⟩ := hback.passes
  refine ⟨middle, seen, later, _, hfront, hback, hseen, hlater, hnow, ?_, ?_⟩
  · rw [identifiers_marked, identifiers_ofCases]
  · intro i identifier hi
    have hn' : n ≤ (log.evaluated expected).length := by
      rw [evaluated, List.length_map]
      exact hn
    rw [statusAt?_marked_ofCases hi, ← evaluated]
    simp only [mem_take_iff_of_le_length hn', ite_not]

/-- While a report that was just started is reconciled, it can be read at every moment, and has the
same lines in the same order. A line is unjudged up to some moment, and from then on it has the
verdict of the log, if its identifier is judged at all. In particular, after any number of calls the
lines of their identifiers are judged and the others are not. -/
theorem reconcile_moves_once (hplan : host.refusals = [])
    (haccepted : Cases.parse text = .ok expected)
    (hstart : (start report expected).perform host = (.ok started, host₁))
    (hreport : host₁.files.read report = .ok content)
    (hload : (ExecutionLog.load path).perform host₁ = (.ok log, host₂)) :
    Report.ofFile host₁.files report = .ok (ofCases expected) ∧
    ∃ outcome host' moments, ∃ contents : List Report,
      (reconcile expected report path).perform host₁ = (.ok outcome, host') ∧
      host₁.Passes moments host' ∧
      (host₁.files :: moments).map (Report.ofFile · report) = contents.map .ok ∧
      (∀ now ∈ contents, now.identifiers = expected.identifiers) ∧
      (∀ (i : Nat) identifier, expected.identifiers[i]? = some identifier → ∃ waiting judged,
        contents.map (·.statusAt? i) = List.replicate waiting (some .na) ++
            List.replicate judged (some (log.verdict identifier)) ∧
          (judged ≠ 0 ↔ identifier ∈ log.evaluated expected)) ∧
      ∀ n ≤ (log.judged expected).length, ∃ middle seen later now,
        Calls report log host₂ ((log.judged expected).take n) (outcome.results.take n) middle ∧
        Calls report log middle ((log.judged expected).drop n) (outcome.results.drop n) host' ∧
        host₁.Passes seen middle ∧ middle.Passes later host' ∧ moments = seen ++ later ∧
        Report.ofFile middle.files report = .ok now ∧ now.identifiers = expected.identifiers ∧
        ∀ (i : Nat) identifier, expected.identifiers[i]? = some identifier →
          now.statusAt? i =
            some (if n ≤ (log.evaluated expected).idxOf identifier then .na
              else log.verdict identifier) := by
  have hbroken := Cases.firstBroken?_of_parse haccepted
  obtain ⟨hsilent, rfl, hpath⟩ := read_of_start hstart hreport
  have hanswered := (ExecutionLog.reads_load path).of_perform hload
  have hplan₂ := hanswered.silently.refusals_eq_nil (hsilent.refusals_eq_nil hplan)
  have hstarted := ofFile_of_read (fitsLines_ofCases hbroken) hreport
  obtain ⟨outcome, host', hperform, -, hcalls⟩ := perform_reconcile expected report hload
  obtain ⟨loading, hloading, hsame⟩ := hanswered.unmoved
  rw [← hanswered.files] at hpath hreport hsame
  obtain ⟨moments, contents, hpasses, hcontents, hlines, hmoves⟩ :=
    hcalls.moments_ofCases hplan₂ hpath hbroken hreport
  refine ⟨hstarted, outcome, host', loading ++ moments,
    .replicate loading.length (ofCases expected) ++ contents, hperform, hloading.trans hpasses,
    ?_, ?_, ?_, ?_⟩
  · -- Nothing changes while the log is read.
    rw [← hanswered.files] at hstarted ⊢
    rw [List.eq_replicate_of_mem hsame, ← List.cons_append, ← List.replicate_succ,
      List.replicate_succ', List.append_assoc, List.singleton_append, List.map_append, hcontents,
      List.map_append, List.map_replicate, List.map_replicate, hstarted, List.length_replicate]
  · intro now hmem
    rcases List.mem_append.1 hmem with hmem | hmem
    · rw [(List.mem_replicate.1 hmem).2, identifiers_ofCases]
    · exact hlines now hmem
  · intro i identifier hi
    obtain ⟨waiting, judged, hstatuses, hsome⟩ := hmoves i identifier hi
    refine ⟨loading.length + (waiting + 1), judged, ?_, hsome⟩
    rw [List.map_append, List.map_replicate, hstatuses, statusAt?_ofCases hi,
      ← List.append_assoc, ← List.replicate_add]
  · intro n hn
    obtain ⟨middle, seen, later, now, hfront, hback, hseen, hlater, hnow⟩ :=
      hcalls.between hplan₂ hpath hbroken hreport hn
    refine ⟨middle, loading ++ seen, later, now, hfront, hback, hloading.trans hseen, hlater, ?_,
      hnow⟩
    rw [hpasses.unique (hseen.trans hlater), List.append_assoc]

/-- The first and the last case share an identifier here. The first call marks both lines, and the
last call changes nothing any more. -/
theorem reconcile_moves_repeated_once :
    ∃ host₁ outcome host' moments middle seen later now, ∃ contents : List Report,
      (start "report" ⟨["a"], ["b", "a"]⟩).perform oneMention =
        (.ok (ofCases ⟨["a"], ["b", "a"]⟩), host₁) ∧
      (reconcile ⟨["a"], ["b", "a"]⟩ "report" "log").perform host₁ = (.ok outcome, host') ∧
      host₁.Passes moments host' ∧
      (host₁.files :: moments).map (Report.ofFile · "report") = contents.map .ok ∧
      (∃ waiting judged, judged ≠ 0 ∧ contents.map (·.statusAt? 2) =
        List.replicate waiting (some .na) ++ List.replicate judged (some .pass)) ∧
      host₁.Passes seen middle ∧ moments = seen ++ later ∧
      Report.ofFile middle.files "report" = .ok now ∧
      now.statusAt? 0 = some .pass ∧ now.statusAt? 1 = some .na ∧ now.statusAt? 2 = some .pass := by
  have hstart : (start "report" ⟨["a"], ["b", "a"]⟩).perform oneMention =
      (.ok (ofCases ⟨["a"], ["b", "a"]⟩),
        ((start "report" ⟨["a"], ["b", "a"]⟩).perform oneMention).2) :=
    perform_eq (by decide +kernel)
  have haccepted : Cases.parse "[[\"a\"],[\"b\",\"a\"]]".toList = .ok ⟨["a"], ["b", "a"]⟩ := by
    decide +kernel
  have hreport :
      ((start "report" ⟨["a"], ["b", "a"]⟩).perform oneMention).2.files.read "report" =
        .ok (ofCases ⟨["a"], ["b", "a"]⟩).content := by decide +kernel
  have hload : (ExecutionLog.load "log").perform
      ((start "report" ⟨["a"], ["b", "a"]⟩).perform oneMention).2 =
        (.ok (ofBytes (Text.Utf8.encode "a\n".toList)), ((ExecutionLog.load "log").perform
          ((start "report" ⟨["a"], ["b", "a"]⟩).perform oneMention).2).2) :=
    perform_eq (by decide +kernel)
  have hjudged : (ofBytes (Text.Utf8.encode "a\n".toList)).judged ⟨["a"], ["b", "a"]⟩ =
      [(.setup, "a"), (.e2e, "b"), (.e2e, "a")] := by decide +kernel
  have hpass : (ofBytes (Text.Utf8.encode "a\n".toList)).verdict "a" = .pass := by decide +kernel
  obtain ⟨-, outcome, host', moments, contents, hreconcile, hpasses, hread, -, hmoves, hsteps⟩ :=
    reconcile_moves_once rfl haccepted hstart hreport hload
  obtain ⟨waiting, judged, hstatuses, hsome⟩ := hmoves 2 "a" rfl
  rw [hpass] at hstatuses
  obtain ⟨middle, seen, later, now, -, -, hseen, -, hcut, hnow, -, hlines⟩ :=
    hsteps 1 (by rw [hjudged]; decide)
  refine ⟨_, outcome, host', moments, middle, seen, later, now, contents, hstart, hreconcile,
    hpasses, hread, ⟨waiting, judged, hsome.2 ?_, hstatuses⟩, hseen, hcut, hnow, ?_, ?_, ?_⟩
  · decide +kernel
  · rw [hlines 0 "a" rfl]
    decide +kernel
  · rw [hlines 1 "b" rfl]
    decide +kernel
  · rw [hlines 2 "a" rfl]
    decide +kernel

end Reconciliation

end CaseReport
