import CaseReport.Proofs.Run.Conclusion

/-!
# Running again

A run that accepts its configuration and can start its report forgets what was in the report before,
also if that was no report at all. So it makes no difference whether the report was there, and a
second run leaves the report as the first one did. A run that refuses its configuration has not come
to the report and leaves it alone.
-/

namespace CaseReport

open FileSystem

variable {fs fs' : FileSystem}

theorem Cases.ofFile_congr {path : Path} (h : fs'.find path = fs.find path) :
    ofFile fs' path = ofFile fs path := by
  simp only [ofFile, FileSystem.readText, FileSystem.read, h]

theorem ExecutionLog.ofFile_congr {path : Path} (h : fs'.read path = fs.read path) :
    ofFile fs' path = ofFile fs path := by
  rw [ofFile, ofFile, h]

/-- A configuration that is accepted, and is not at a place, is a file elsewhere. -/
theorem Cases.exists_find_apart {path : Path} {cases : Cases} {place : Location}
    (h : ofFile fs path = .ok cases) (hplace : fs.resolve .follow path ≠ .ok place) :
    ∃ place' bytes mode, fs.find path = .ok (place', .file bytes mode) ∧ place' ≠ place := by
  obtain ⟨text, htext, -⟩ := mapError_bind_eq_ok_iff.1 h
  obtain ⟨bytes, hread, -⟩ := mapError_bind_eq_ok_iff.1 htext
  obtain ⟨place', mode, hfind⟩ := read_eq_ok_iff.1 hread
  obtain ⟨hadmits, hleads, -⟩ := find_eq_ok_iff.1 hfind
  refine ⟨place', bytes, mode, hfind, ?_⟩
  rintro rfl
  exact hplace (resolve_eq_ok_iff.2 ⟨hadmits, hleads⟩)

namespace Report

variable {started started' : FileSystem} {path other : Path} {place entry : Location}
  {content : List UInt8} {mode : Nat}

namespace Filed

/-- Once the report was written in files that differ in it, a path that did not lead to the report
is read alike. -/
theorem read_eq (hready : Ready fs path place) (hdiffer : DifferAt place fs fs')
    (h : Filed fs path place content (.ok ()) started)
    (h' : Filed fs' path place content (.ok ()) started')
    (hother : fs.resolve .follow other ≠ .ok place) : started'.read other = started.read other := by
  obtain ⟨files, entry, mode, hfiles, hfile, hentry, rfl, hne, -⟩ := h.exists_entry hready
  obtain ⟨files', entry', mode', hfiles', hfile', hentry', rfl, -⟩ :=
    h'.exists_entry (hready.of_differAt hdiffer)
  have hboth := (hfiles.symm.trans hdiffer).trans hfiles'
  have halike := hboth.alike hfile hfile'
  obtain rfl := Except.ok.inj ((halike.resolveEntry_eq path hentry).symm.trans hentry')
  refine (halike.insert hne).read_eq ?_
  intro location hlocation
  by_cases hat : location = entry
  · subst hat
    exact .inr ⟨content, mode, mode', node?_insert_self _ _ hne, node?_insert_self _ _ hne⟩
  · rw [node?_insert_of_ne _ _ hat, node?_insert_of_ne _ _ hat]
    refine .inl (hboth.node? location ?_)
    -- What leads to the place of the report now, but not to its entry, led there before.
    rintro rfl
    obtain ⟨hadmits, hleads⟩ := resolve_eq_ok_iff.1 hlocation
    exact hother (hfiles.symm.resolve (resolve_eq_ok_iff.2 ⟨hadmits, hleads.of_insert hne hat⟩))

theorem ready (h : Filed fs path place content (.ok ()) started) (hready : Ready fs path place)
    (hentry : started.resolveEntry .busy path = .ok entry) : Ready started path entry := by
  obtain ⟨files, entry', mode, -, -, -, -, -, hthere, hentered⟩ := h.exists_entry hready
  obtain rfl := Except.ok.inj (hentered.symm.trans hentry)
  exact hthere

/-- A file that a path leads to, if it is not the report, is still there. -/
theorem find_elsewhere (h : Filed fs path place content (.ok ()) started)
    (hready : Ready fs path place) (hentry : started.resolveEntry .busy path = .ok entry)
    {place' : Location} {bytes : List UInt8}
    (hfind : fs.find other = .ok (place', .file bytes mode)) (hne : place' ≠ place) :
    place' ≠ entry ∧ started.find other = .ok (place', .file bytes mode) := by
  obtain ⟨files, entry', mode', hdiffer, ⟨old, oldMode, hfile⟩, hentered, rfl, -, -, hentry'⟩ :=
    h.exists_entry hready
  obtain rfl := Except.ok.inj (hentry'.symm.trans hentry)
  have hthere := hready.of_differAt hdiffer
  exact find_insert_elsewhere (hthere.find_eq hfile) hentered hthere.unslashed
    (hdiffer.find hfind hne) hne

/-- A report that was written, changed in its file and written again: every path is read as it was
after the first time. -/
theorem read_again {final : FileSystem} (h : Filed fs path place content (.ok ()) started)
    (hready : Ready fs path place) (hentry : started.resolveEntry .busy path = .ok entry)
    (hdiffer : DifferAt entry started final) (hfile : final.HasFile entry)
    (h' : Filed final path entry content (.ok ()) started') :
    started'.read other = started.read other := by
  obtain ⟨files, entry', mode, -, -, -, hstarted, hne, hthere, hentered⟩ := h.exists_entry hready
  obtain rfl := Except.ok.inj (hentered.symm.trans hentry)
  have hnode : started.node? entry' = some (.file content mode) :=
    hstarted ▸ node?_insert_self files _ hne
  obtain ⟨files', entry, mode', hfiles, hfile', hentry', rfl, -⟩ :=
    h'.exists_entry (hthere.of_differAt hdiffer)
  have hboth := hdiffer.trans hfiles
  have halike := hboth.alike ⟨content, mode, hnode⟩ hfile'
  obtain rfl := Except.ok.inj ((halike.resolveEntry_eq path hentered).symm.trans hentry')
  refine (halike.trans (.of_insert hfile')).read_eq ?_
  intro location _
  by_cases hat : location = entry'
  · subst hat
    exact .inr ⟨content, mode, mode', hnode, node?_insert_self _ _ hne⟩
  · rw [node?_insert_of_ne _ _ hat]
    exact .inl (hboth.node? location hat)

end Filed

end Report

namespace Run

open Report Reconciliation Host Action ExecutionLog

variable {locations : Locations} {log : Path} {place entry : Location} {final final' : FileSystem}
  {result result' : Except Fault Unit} {printed printed' : List Console.Line}

namespace Ran

theorem same (hready : Ready fs locations.report place) (hdiffer : DifferAt place fs fs')
    (hconfig : fs'.find locations.config = fs.find locations.config)
    (hlog : fs.resolve .follow log ≠ .ok place)
    (h : Ran fs locations log place result printed final)
    (h' : Ran fs' locations log place result' printed' final') :
    result' = result ∧ printed' = printed ∧
      ((∃ cases, Cases.ofFile fs locations.config = .ok cases) →
        room fs locations.report = .ok () → ∃ content, final.read locations.report = .ok content ∧
          final'.read locations.report = .ok content) := by
  have hsame := Cases.ofFile_congr hconfig
  have hroom := room_congr hdiffer.workingDirectory locations.report
  cases h with
  | unconfigured hcases =>
    obtain ⟨rfl, rfl, -⟩ := h'.of_unconfigured (hsame.trans hcases)
    refine ⟨rfl, rfl, ?_⟩
    rintro ⟨cases, hok⟩
    cases hok.symm.trans hcases
  | cramped hcases hfiled =>
    obtain ⟨rfl, rfl, -⟩ := h'.of_cramped (hsame.trans hcases) (hroom.trans hfiled.room_eq)
    refine ⟨rfl, rfl, ?_⟩
    rintro - hok
    cases hok.symm.trans hfiled.room_eq
  | concluded hcases hfiled hconclude _ _ _ hread =>
    obtain ⟨started', hfiled', hend⟩ := h'.of_room (hsame.trans hcases)
      (hroom.trans hfiled.room_eq)
    rw [← ExecutionLog.ofFile_congr (Filed.read_eq hready hdiffer hfiled hfiled' hlog)] at hconclude
    obtain ⟨rfl, rfl, hread'⟩ := hend hconclude
    exact ⟨rfl, rfl, fun _ _ => ⟨_, hread, hread'⟩⟩

/-- A second run from the files that the first one left. -/
theorem again (hready : Ready fs locations.report place)
    (hconfig : fs.resolve .follow locations.config ≠ .ok place)
    (h : Ran fs locations log place result printed final) :
    ∃ place', Ready final locations.report place' ∧ ∀ result' printed' final',
      Ran final locations log place' result' printed' final' →
        result' = result ∧ printed' = printed ∧
          final'.read locations.report = final.read locations.report := by
  cases h with
  | unconfigured hcases =>
    refine ⟨place, hready, ?_⟩
    intro result' printed' final' h'
    obtain ⟨rfl, rfl, rfl⟩ := h'.of_unconfigured hcases
    exact ⟨rfl, rfl, rfl⟩
  | cramped hcases hfiled =>
    obtain ⟨place', bytes, mode, hfind, hne⟩ := Cases.exists_find_apart hcases hconfig
    cases hfiled with
    | cramped hroom hdiffer hfile =>
      have hsame := Cases.ofFile_congr ((hdiffer.find hfind hne).trans hfind.symm)
      refine ⟨place, hready.of_differAt hdiffer, ?_⟩
      intro result' printed' final' h'
      obtain ⟨rfl, rfl, hkept⟩ := h'.of_cramped (hsame.trans hcases)
        ((room_congr hdiffer.workingDirectory _).trans hroom)
      exact ⟨rfl, rfl, by rw [hkept hfile]⟩
  | concluded hcases hfiled hconclude hentry hdiffer hfile hread =>
    obtain ⟨place', bytes, mode, hfind, hne⟩ := Cases.exists_find_apart hcases hconfig
    obtain ⟨hne', hfind'⟩ := hfiled.find_elsewhere hready hentry hfind hne
    have hsame := Cases.ofFile_congr ((hdiffer.find hfind' hne').trans hfind.symm)
    refine ⟨_, (hfiled.ready hready hentry).of_differAt hdiffer, ?_⟩
    intro result' printed' final' h'
    have hroom := room_congr (hdiffer.workingDirectory.trans hfiled.workingDirectory)
      locations.report
    obtain ⟨started', hfiled', hend⟩ := h'.of_room (hsame.trans hcases)
      (hroom.trans hfiled.room_eq)
    rw [← ExecutionLog.ofFile_congr (hfiled.read_again hready hentry hdiffer hfile hfiled')]
      at hconclude
    obtain ⟨rfl, rfl, hread'⟩ := hend hconclude
    exact ⟨rfl, rfl, hread'.trans hread.symm⟩

end Ran

variable {host host' : Host}

/-- Two runs with the same configuration and log, from files that differ in the report: they end in
the same and print the same, and if the report is started in one, it is started in the other too and
holds the same in the end. If the configuration is refused, the files are left as they are. A second
run from what the first one left ends in the same, prints the same, and leaves what the report
holds. -/
theorem withPaths_forgets_report (locations : Locations) (log : Path)
    (hplan : host.refusals = []) (hplan' : host'.refusals = [])
    (hready : Ready host.files locations.report place)
    (hdiffer : DifferAt place host.files host'.files)
    (hfound : host'.files.find locations.config = host.files.find locations.config)
    (hconfig : host.files.resolve .follow locations.config ≠ .ok place)
    (hlog : host.files.resolve .follow log ≠ .ok place) :
    ∃ result printed final final',
      (withPaths locations log).perform host = (result, final) ∧
      (withPaths locations log).perform host' = (result, final') ∧
      host.Prints printed final ∧ host'.Prints printed final' ∧
      ((prepare locations).perform host').1 = ((prepare locations).perform host).1 ∧
      (∀ cases, ((prepare locations).perform host).1 = .ok cases → ∃ content,
        final.files.read locations.report = .ok content ∧
          final'.files.read locations.report = .ok content) ∧
      (∀ fault, ((Cases.load locations.config).perform host).1 = .error fault →
        final.files = host.files ∧ final'.files = host'.files) ∧
      ∃ again, (withPaths locations log).perform final = (result, again) ∧
        final.Prints printed again ∧
        again.files.read locations.report = final.files.read locations.report := by
  rcases hrun : (withPaths locations log).perform host with ⟨result, final⟩
  rcases hrun' : (withPaths locations log).perform host' with ⟨result', final'⟩
  obtain ⟨hleft, printed, hprints, hran⟩ := (yields_withPaths hready hplan).of_perform hrun
  obtain ⟨-, printed', hprints', hran'⟩ :=
    (yields_withPaths (hready.of_differAt hdiffer) hplan').of_perform hrun'
  obtain ⟨rfl, rfl, hcontent⟩ := hran.same hready hdiffer hfound hlog hran'
  obtain ⟨-, hbegun⟩ := yields_prepare_of_ready hready hplan
  obtain ⟨-, hbegun'⟩ := yields_prepare_of_ready (hready.of_differAt hdiffer) hplan'
  refine ⟨result', printed', final, final', rfl, rfl, hprints, hprints', ?_, ?_, ?_, ?_⟩
  · rw [hbegun.result_eq, hbegun'.result_eq, Cases.ofFile_congr hfound,
      room_congr hdiffer.workingDirectory]
  · intro cases hprepare
    rw [hprepare] at hbegun
    generalize ((prepare locations).perform host).2.files = fs at hbegun
    cases hbegun with
    | begun hcases hfiled => exact hcontent ⟨cases, hcases⟩ hfiled.room_eq
  · intro fault hload
    have hcases := ((Cases.reads_load _).of_perform (Prod.ext hload rfl)).exact hplan
    obtain ⟨-, -, hfiles⟩ := hran.of_unconfigured hcases.symm
    obtain ⟨-, -, hfiles'⟩ :=
      hran'.of_unconfigured ((Cases.ofFile_congr hfound).trans hcases.symm)
    exact ⟨hfiles, hfiles'⟩
  · obtain ⟨place', hready', hagain⟩ := hran.again hready hconfig
    rcases hrun'' : (withPaths locations log).perform final with ⟨result, again⟩
    obtain ⟨-, printed, hprints'', hran''⟩ := (yields_withPaths hready' hleft).of_perform hrun''
    obtain ⟨rfl, rfl, hread⟩ := hagain _ _ _ hran''
    exact ⟨again, rfl, hprints'', hread⟩

/-- The host of two cases without its report. -/
def twoCasesUnreported : Host :=
  { twoCases with files := twoCases.files.erase ["report"] }

theorem withPaths_forgets_twoCases :
    ∃ final final',
      (withPaths ⟨"config", "report"⟩ "log").perform twoCasesUnreported = (.ok (), final) ∧
      (withPaths ⟨"config", "report"⟩ "log").perform twoCases = (.ok (), final') ∧
      final.files.read "report" = .ok (Text.Utf8.encode "x: PASS: PASS\nb: FAIL\n".toList) ∧
      final'.files.read "report" = final.files.read "report" ∧
      ((withPaths ⟨"config", "report"⟩ "log").perform final).2.files.read "report" =
        final.files.read "report" := by
  have hready : Ready twoCasesUnreported.files "report" ["report"] := by
    refine ⟨⟨"report", by decide +kernel⟩, by decide +kernel, ?_⟩
    intro node hnode
    rw [twoCasesUnreported, node?_erase_self _ (List.cons_ne_nil _ _)] at hnode
    cases hnode
  have hdiffer : DifferAt ["report"] twoCasesUnreported.files twoCases.files := by
    refine ⟨rfl, fun location hne => (node?_erase_of_ne _ hne).symm, hready.fileAtMost, ?_⟩
    exact HasFile.fileAtMost ⟨_, _, rfl⟩
  have hfound : twoCases.files.find "config" = twoCasesUnreported.files.find "config" := by
    decide +kernel
  have hconfig : twoCasesUnreported.files.resolve .follow "config" ≠ .ok ["report"] := by
    decide +kernel
  have hlog : twoCasesUnreported.files.resolve .follow "log" ≠ .ok ["report"] := by
    decide +kernel
  have hprepare : ((prepare ⟨"config", "report"⟩).perform twoCasesUnreported).1 =
      .ok ⟨["x: PASS"], ["b"]⟩ := by decide +kernel
  have hresult : ((withPaths ⟨"config", "report"⟩ "log").perform twoCasesUnreported).1 =
      .ok () := by decide +kernel
  have hread : ((withPaths ⟨"config", "report"⟩ "log").perform twoCasesUnreported).2.files.read
      "report" = .ok (Text.Utf8.encode "x: PASS: PASS\nb: FAIL\n".toList) := by decide +kernel
  obtain ⟨result, printed, final, final', hrun, hrun', -, -, -, hstarted, -, again, hrun'', -,
    hagain⟩ := withPaths_forgets_report ⟨"config", "report"⟩ "log" rfl rfl hready hdiffer hfound
      hconfig hlog
  obtain ⟨content, hcontent, hcontent'⟩ := hstarted _ hprepare
  rw [hrun] at hresult hread
  obtain rfl : result = .ok () := hresult
  refine ⟨final, final', hrun, hrun', hread, hcontent'.trans hcontent.symm, ?_⟩
  rw [hrun'']
  exact hagain

/-- A host with a configuration that lacks a list, and with a report. -/
def misconfigured : Host where
  files := { nodes := [
    (["config"], .file (Text.Utf8.encode "\x7b\"setup\": [\"a\"]\x7d".toList) 0o644),
    (["report"], .file (Text.Utf8.encode "x: NA\n".toList) 0o644),
    (["log"], .file brokenLog 0o644)] }

/-- The same host with another report. -/
def misconfiguredElse : Host where
  files := misconfigured.files.insert ["report"]
    (.file (Text.Utf8.encode "y: PASS\n".toList) 0o644)

/-- A run that refuses its configuration leaves the one report as it was, and the other one. -/
theorem withPaths_keeps_misconfigured :
    Ready misconfigured.files "report" ["report"] ∧
    DifferAt ["report"] misconfigured.files misconfiguredElse.files ∧
    misconfigured.files.resolve .follow "config" = .ok ["config"] ∧
    misconfigured.files.resolve .follow "log" = .ok ["log"] ∧
    ((withPaths ⟨"config", "report"⟩ "log").perform misconfiguredElse).1 =
      ((withPaths ⟨"config", "report"⟩ "log").perform misconfigured).1 ∧
    ((withPaths ⟨"config", "report"⟩ "log").perform misconfiguredElse).2.files.read "report" =
      .ok (Text.Utf8.encode "y: PASS\n".toList) ∧
    ((withPaths ⟨"config", "report"⟩ "log").perform misconfigured).2.files.read "report" =
      .ok (Text.Utf8.encode "x: NA\n".toList) := by
  have hfile : FileAtMost misconfigured.files ["report"] := HasFile.fileAtMost ⟨_, _, rfl⟩
  have hready : Ready misconfigured.files "report" ["report"] :=
    ⟨⟨"report", by decide +kernel⟩, by decide +kernel, hfile⟩
  exact ⟨hready, .of_insert hfile, by decide +kernel, by decide +kernel, by decide +kernel,
    by decide +kernel, by decide +kernel⟩

end Run

end CaseReport
