import CaseReport.Proofs.Host.Reads
import CaseReport.Proofs.Report.Replacement
import CaseReport.Proofs.Report.RoundTrip

/-!
# Updating a report in its file

An update reads the report from its file, changes the lines of one identifier, and writes the whole
report back. Either all of that happens or the files are what they were.
-/

namespace CaseReport

namespace Report

open Host FileSystem Path Action

variable {path : Path} {host : Host} {fs : FileSystem} {report : Report} {identifier : String}
  {status : Status}

/-- The report in the file that a path leads to. -/
def ofFile (fs : FileSystem) (path : Path) : Except FileFault Report := do
  let text ← (fs.readText path).mapError (.unreadable path)
  match parse text with
  | .error bad => .error (.malformed bad)
  | .ok report => .ok report

theorem exists_text_of_ofFile (h : ofFile fs path = .ok report) :
    ∃ text, fs.readText path = .ok text ∧ parse text = .ok report := by
  obtain ⟨text, htext, hreport⟩ := mapError_bind_eq_ok_iff.1 h
  refine ⟨text, htext, ?_⟩
  split at hreport
  · cases hreport
  · next hparse => rw [hparse, Except.ok.inj hreport]

theorem exists_read_of_ofFile (h : ofFile fs path = .ok report) :
    ∃ bytes, fs.read path = .ok bytes := by
  obtain ⟨text, htext, -⟩ := exists_text_of_ofFile h
  obtain ⟨bytes, hread, -⟩ := mapError_bind_eq_ok_iff.1 htext
  exact ⟨bytes, hread⟩

theorem fitsLines_of_ofFile (h : ofFile fs path = .ok report) : report.FitsLines := by
  obtain ⟨_, -, hparse⟩ := exists_text_of_ofFile h
  exact fitsLines_of_parse hparse

/-- The file of a report that was written down holds that report. -/
theorem ofFile_of_read (hfits : report.FitsLines) (hread : fs.read path = .ok report.content) :
    ofFile fs path = .ok report := by
  have htext : fs.readText path = .ok report.render :=
    mapError_bind_eq_ok_iff.2 ⟨report.content, hread, by simp [content]⟩
  exact mapError_bind_eq_ok_iff.2 ⟨report.render, htext, by rw [parse_render hfits]⟩

theorem holds_of_read {bytes : List UInt8} (h : fs.read path = .ok bytes) :
    fs.holds path = true := by
  obtain ⟨place, mode, hfind⟩ := read_eq_ok_iff.1 h
  simp [holds, hfind]

theorem ofFile_ne_unwritable {fs : FileSystem} {path path' : Path} {cause : WriteCause} :
    ofFile fs path ≠ .error (.unwritable path' cause) := by
  intro h
  rcases mapError_bind_eq_error_iff.1 h with ⟨_, -, hcause⟩ | ⟨text, -, hparse⟩
  · cases hcause
  · split at hparse
    · cases hparse
    · cases hparse

theorem occurrences_eq_zero_iff :
    report.occurrences identifier = 0 ↔ identifier ∉ report.identifiers := by
  simp [occurrences, identifiers, List.countP_eq_zero]

theorem setStatus_of_not_mem (h : identifier ∉ report.identifiers) :
    report.setStatus identifier status = report := by
  have hmap : report.entries.map (Entry.setStatus identifier status) = report.entries.map id := by
    apply List.map_congr_left
    intro entry hentry
    have hne : entry.identifier ≠ identifier := by
      rintro rfl
      exact h (List.mem_map_of_mem hentry)
    exact if_neg hne
  rw [setStatus, hmap, List.map_id]

theorem reads_load (path : Path) : (load path).Reads host (ofFile host.files path) := by
  rw [load, ofFile]
  refine Reads.bind (reads_readText path).adapt ?_
  intro text host' _
  cases parse text with
  | error bad => exact reads_throw
  | ok report => exact reads_pure

theorem yields_write : (report.write path).Yields host fun result host' =>
    ∃ stored, result = stored.mapError (.unwritable path) ∧ host.Silently host' ∧
      Stored host.refusals host.files path report.content stored host'.files := by
  rw [write]
  refine yields_store.adapted.bind ?_ ?_
  · rintro ⟨⟩ host' ⟨stored, hresult, hsilent, hstored⟩
    exact yields_diagnose ⟨stored, hresult, ⟨hsilent.printed, hsilent.onward⟩, hstored⟩
  · rintro fault host' ⟨stored, hresult, hsilent, hstored⟩
    exact ⟨stored, hresult, hsilent, hstored⟩

/-- What an update ends in, and the files after it. -/
inductive Updated (plan : List (Option SystemFault)) (fs : FileSystem) (path : Path)
    (identifier : String) (status : Status) : Except UpdateFault Unit → FileSystem → Prop where
  /-- A request was refused by plan. -/
  | refused {fault} (hplan : plan ≠ []) : Updated plan fs path identifier status (.error fault) fs
  /-- There is no report to read. -/
  | unread {fault} (hreport : ofFile fs path = .error fault) :
    Updated plan fs path identifier status (.error ⟨identifier, .file fault⟩) fs
  /-- The identifier is on no line. -/
  | noLine {old : Report} (hreport : ofFile fs path = .ok old)
      (hline : identifier ∉ old.identifiers) :
    Updated plan fs path identifier status (.error ⟨identifier, .noLine⟩) fs
  /-- The file system does not let the report be replaced. -/
  | unwritten {old : Report} {cause} (hreport : ofFile fs path = .ok old)
      (hline : identifier ∈ old.identifiers)
      (hfixed : ∀ fs', ¬Replaced fs path (old.setStatus identifier status).content fs') :
    Updated plan fs path identifier status (.error ⟨identifier, .file (.unwritable path cause)⟩) fs
  | written {old : Report} {fs'} (hreport : ofFile fs path = .ok old)
      (hline : identifier ∈ old.identifiers)
      (hreplaced : Replaced fs path (old.setStatus identifier status).content fs') :
    Updated plan fs path identifier status (.ok ()) fs'

theorem Updated.mono {plan plan' : List (Option SystemFault)} {update : Except UpdateFault Unit}
    {fs' : FileSystem} (hplan : plan = [] → plan' = [])
    (h : Updated plan' fs path identifier status update fs') :
    Updated plan fs path identifier status update fs' := by
  cases h with
  | refused hrefused => exact .refused fun hnil => hrefused (hplan hnil)
  | unread hreport => exact .unread hreport
  | noLine hreport hline => exact .noLine hreport hline
  | unwritten hreport hline hfixed => exact .unwritten hreport hline hfixed
  | written hreport hline hreplaced => exact .written hreport hline hreplaced

/-- An update that goes wrong leaves the files as they are, and one that does not replaces the
report that it read. -/
theorem Updated.kept_or_replaced {plan : List (Option SystemFault)}
    {update : Except UpdateFault Unit} {fs' : FileSystem}
    (h : Updated plan fs path identifier status update fs') :
    (∃ fault, update = .error fault) ∧ fs' = fs ∨
      update = .ok () ∧ ∃ old, ofFile fs path = .ok old ∧ identifier ∈ old.identifiers ∧
        Replaced fs path (old.setStatus identifier status).content fs' := by
  cases h with
  | refused => exact .inl ⟨⟨_, rfl⟩, rfl⟩
  | unread => exact .inl ⟨⟨_, rfl⟩, rfl⟩
  | noLine => exact .inl ⟨⟨_, rfl⟩, rfl⟩
  | unwritten => exact .inl ⟨⟨_, rfl⟩, rfl⟩
  | written hreport hline hreplaced => exact .inr ⟨rfl, _, hreport, hline, hreplaced⟩

theorem Updated.workingDirectory {plan : List (Option SystemFault)}
    {update : Except UpdateFault Unit} {fs' : FileSystem}
    (h : Updated plan fs path identifier status update fs') :
    fs'.workingDirectory = fs.workingDirectory := by
  rcases h.kept_or_replaced with ⟨-, rfl⟩ | ⟨-, _, -, -, hreplaced⟩
  · rfl
  · exact hreplaced.workingDirectory

/-- If the path lets a file be put in its place, no update fails in writing. -/
theorem Updated.ne_unwritable {update : Except UpdateFault Unit} {fs' : FileSystem}
    {identifier' : String} {path' : Path} {cause : WriteCause}
    (h : Updated [] fs path identifier status update fs') (hpath : Placeable fs path) :
    update ≠ .error ⟨identifier', .file (.unwritable path' cause)⟩ := by
  rintro rfl
  cases h with
  | refused hplan => exact hplan rfl
  | unread herror => exact ofFile_ne_unwritable herror
  | unwritten hreport hline hfixed =>
    obtain ⟨bytes, hread⟩ := exists_read_of_ofFile hreport
    obtain ⟨fs', hreplaced⟩ := Replaced.exists_of_read hpath hread _
    exact hfixed fs' hreplaced

/-- An update that is not refused and does not fail in writing leaves the report as `setStatus`
does. It goes wrong only if the identifier is on no line; otherwise the report is written down. -/
theorem Updated.of_ofFile_eq_ok {update : Except UpdateFault Unit} {fs' : FileSystem}
    {old : Report} (h : Updated [] fs path identifier status update fs')
    (hreport : ofFile fs path = .ok old)
    (hwritten : ∀ cause, update ≠ .error ⟨identifier, .file (.unwritable path cause)⟩) :
    ofFile fs' path = .ok (old.setStatus identifier status) ∧
      (update = .ok () ∧ identifier ∈ old.identifiers ∧
          fs'.read path = .ok (old.setStatus identifier status).content ∨
        update = .error ⟨identifier, .noLine⟩ ∧ identifier ∉ old.identifiers ∧ fs' = fs) := by
  cases h with
  | refused hplan => exact absurd rfl hplan
  | unread herror => cases hreport.symm.trans herror
  | noLine hok hline =>
    obtain rfl := Except.ok.inj (hreport.symm.trans hok)
    rw [setStatus_of_not_mem hline]
    exact ⟨hreport, .inr ⟨rfl, hline, rfl⟩⟩
  | unwritten => exact absurd rfl (hwritten _)
  | written hok hline hreplaced =>
    obtain rfl := Except.ok.inj (hreport.symm.trans hok)
    obtain ⟨_, hread⟩ := exists_read_of_ofFile hreport
    have hread' := hreplaced.read_eq_ok hread
    exact ⟨ofFile_of_read ((fitsLines_of_ofFile hreport).setStatus _ _) hread',
      .inl ⟨rfl, hline, hread'⟩⟩

/-- The report was just read, so that its file need not be made before it is replaced. -/
private theorem Stored.updated {plan plan' : List (Option SystemFault)} {old : Report}
    {stored : Except WriteCause Unit} {fs' : FileSystem}
    (h : Stored plan' fs path (old.setStatus identifier status).content stored fs')
    (hplan : plan = [] → plan' = []) (hreport : ofFile fs path = .ok old)
    (hline : identifier ∈ old.identifiers) :
    Updated plan fs path identifier status
      ((stored.mapError (.unwritable path)).mapError fun fault => ⟨identifier, .file fault⟩)
      fs' := by
  obtain ⟨_, hread⟩ := exists_read_of_ofFile hreport
  have hholds := holds_of_read hread
  cases h with
  | kept hfiles hfixed =>
    have hsame : fs' = fs := by
      rcases hfiles with rfl | hensured
      · rfl
      · exact hensured.eq_of_holds hholds
    rw [hsame]
    by_cases hrefused : plan = []
    · exact .unwritten hreport hline (hfixed (hplan hrefused) hholds)
    · exact .refused hrefused
  | replaced hensured hreplaced =>
    rw [hensured.eq_of_holds hholds] at hreplaced
    exact .written hreport hline hreplaced

theorem yields_updateStatus :
    (updateStatus path identifier status).Yields host fun result host' =>
      host.Silently host' ∧
        Updated host.refusals host.files path identifier status result host'.files := by
  have hload : (load path).Yields host (Answered host (ofFile host.files path)) := reads_load path
  rw [updateStatus]
  refine hload.adapt_bind ?_ ?_
  · intro report host₁ hanswered
    have hreport := hanswered.sound _ rfl
    rw [assign_eq]
    dsimp only
    split
    · next hnone =>
      refine yields_throw_bind ⟨hanswered.silently, ?_⟩
      rw [hanswered.files]
      exact .noLine hreport (occurrences_eq_zero_iff.1 hnone)
    · next hsome =>
      have hline : identifier ∈ report.identifiers := by
        apply Classical.byContradiction
        intro hline
        exact hsome (occurrences_eq_zero_iff.2 hline)
      refine yields_write.adapted.mono ?_
      rintro _ host₂ ⟨_, rfl, stored, rfl, hsilent, hstored⟩
      rw [hanswered.files] at hstored
      refine ⟨hanswered.silently.trans hsilent, ?_⟩
      exact hstored.updated hanswered.silently.refusals_eq_nil hreport hline
  · intro fault host' hanswered
    refine ⟨hanswered.silently, ?_⟩
    rw [hanswered.files]
    by_cases hplan : host.refusals = []
    · exact .unread (hanswered.exact hplan).symm
    · exact .refused hplan

end Report

end CaseReport
