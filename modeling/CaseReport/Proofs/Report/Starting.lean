import CaseReport.Proofs.Report.Updating

/-!
# Starting a report

Starting makes the directories that are missing on the way to the report, and writes the report of
unjudged cases. Up to the moment when the written report takes its place files are only added.
-/

namespace CaseReport

namespace Host

variable {host host' host'' : Host}

/-- From one host to another files were only added, and nothing was printed. -/
structure Grows (host host' : Host) : Prop where
  silently : host.Silently host'
  isPartOf : host.files.IsPartOf host'.files

theorem Grows.refl (host : Host) : host.Grows host :=
  ⟨.refl host, .refl host.files⟩

theorem Grows.trans (h : host.Grows host') (h' : host'.Grows host'') : host.Grows host'' :=
  ⟨h.silently.trans h'.silently, h.isPartOf.trans h'.isPartOf⟩

theorem Grows.served {files : FileSystem} (h : host.files.IsPartOf files) :
    host.Grows (host.served files) :=
  ⟨(Silently.refl host).served files, h⟩

end Host

namespace FileSystem

variable {fs fs' : FileSystem} {path : Path}

/-- A directory is only made where nothing is. -/
theorem isPartOf_of_makeDirectory (h : fs.makeDirectory path = .ok fs') : fs.IsPartOf fs' := by
  rw [makeDirectory] at h
  cases hentry : fs.resolveEntry .alreadyExists path with
  | error fault =>
    rw [hentry] at h
    cases h
  | ok entry =>
    rw [hentry] at h
    simp only [bind, Except.bind] at h
    split at h
    · next hvacant =>
      obtain rfl := Except.ok.inj h
      exact isPartOf_insert hvacant
    · cases h

end FileSystem

namespace Report

open Host FileSystem Action

variable {path : Path} {host : Host} {cases : Cases}

theorem yields_makeDirectory : (change fun files => files.makeDirectory path).Yields host
    fun _ host' => host.Grows host' := by
  refine yields_change ?_ ?_
  · exact fun _ _ => .served (.refl _)
  · exact fun _ hmade => .served (isPartOf_of_makeDirectory hmade)

theorem yields_ensureDirectory :
    (ensureDirectory path).Yields host fun _ host' => host.Grows host' := by
  rw [ensureDirectory]
  refine yields_makeDirectory.tryCatch (fun _ _ h => h) ?_
  intro fault host' hgrows
  refine yields_look_bind ?_
  split
  · exact yields_pure hgrows
  · exact yields_throw hgrows

theorem yields_makeDirectories (path : Path) (host : Host) :
    (makeDirectories path).Yields host fun _ host' => host.Grows host' := by
  induction hlength : path.toList.length using Nat.strongRecOn generalizing path host with
  | _ n ih =>
    rw [makeDirectories]
    split
    · exact yields_pure (.refl host)
    · next parent hparent =>
      refine yields_makeDirectory.tryCatch (fun _ _ h => h) ?_
      intro fault host₁ hgrows
      split
      · have hshorter := Path.parent?_length hparent
        rw [hlength] at hshorter
        refine (ih _ hshorter parent host₁ rfl).bind ?_ ?_
        · rintro ⟨⟩ host₂ hgrows'
          exact yields_ensureDirectory.mono fun _ _ h => (hgrows.trans hgrows').trans h
        · exact fun _ _ hgrows' => hgrows.trans hgrows'
      · refine yields_look_bind ?_
        split
        · exact yields_pure hgrows
        · exact yields_throw hgrows

theorem perform_diagnose_all (expected : List (Group × String)) (host : Host) :
    perform (expected.forM fun (group, identifier) => diagnose (.caseExpected group identifier) :
      Action FileFault Unit) host =
        (.ok (), host.tell (expected.map fun (group, identifier) =>
          .caseExpected group identifier)) := by
  induction expected generalizing host with
  | nil => simp [Host.tell]
  | cons case expected ih =>
    refine (ih (host.tell [.caseExpected case.1 case.2])).trans ?_
    simp [Host.tell]

/-- What is told about the cases when a report is started. -/
def expectations (cases : Cases) : List Diagnostic :=
  cases.grouped.map fun (group, identifier) => .caseExpected group identifier

/-- Once the directories are there, the cases are told and the report is written. -/
theorem perform_announce (path : Path) (cases : Cases) (host : Host) :
    Action.perform (do
      cases.grouped.forM fun (group, identifier) => diagnose (.caseExpected group identifier)
      (ofCases cases).write path
      return ofCases cases) host =
        ((((ofCases cases).write path).perform (host.tell (expectations cases))).1.map
            fun _ => ofCases cases,
          (((ofCases cases).write path).perform (host.tell (expectations cases))).2) := by
  rw [perform_bind, perform_diagnose_all]
  dsimp only
  rw [perform_bind, ← expectations]
  rcases ((ofCases cases).write path).perform _ with ⟨_ | _, _⟩ <;> rfl

/-- What starting a report does first: it makes the directories that are missing on the way. -/
def makeWay (path : Path) : Action SystemFault Unit := do
  if let some directory := path.parentDirectory? then
    unless ← look fun files => files.holds directory do makeDirectories directory

theorem yields_makeWay (path : Path) (host : Host) :
    (makeWay path).Yields host fun _ host' => host.Grows host' := by
  rw [makeWay]
  split
  · next directory _ =>
    refine yields_look_bind ?_
    split
    · exact yields_pure (.refl host)
    · exact yields_makeDirectories directory host
  · exact yields_pure (.refl host)

/-- Starting a report is making way for it, telling the cases, and writing. -/
theorem perform_start (path : Path) (cases : Cases) (host : Host) :
    (start path cases).perform host =
      match (makeWay path).perform host with
      | (.error fault, host₁) => (.error (.unwritable path (.system fault)), host₁)
      | (.ok (), host₁) =>
        ((((ofCases cases).write path).perform (host₁.tell (expectations cases))).1.map
            fun _ => ofCases cases,
          (((ofCases cases).write path).perform (host₁.tell (expectations cases))).2) := by
  rw [start, makeWay]
  cases path.parentDirectory? with
  | none => exact perform_announce path cases host
  | some directory =>
    dsimp only
    rw [perform_bind, perform_look, perform_bind, perform_look]
    dsimp only
    split
    · exact perform_announce path cases host
    · rw [perform_bind, perform_adapt]
      rcases (makeDirectories directory).perform host with ⟨fault | ⟨⟩, host₁⟩
      · rfl
      · exact perform_announce path cases host₁

/-- What starting a report ends in, and the files after it. -/
inductive Started (fs : FileSystem) (path : Path) (cases : Cases) :
    Except FileFault Report → FileSystem → Prop where
  /-- Files may have been added by then. -/
  | failed {fault fs'} (hpart : fs.IsPartOf fs') : Started fs path cases (.error fault) fs'
  | started {files fs'} (hpart : fs.IsPartOf files)
      (hreplaced : Replaced files path (ofCases cases).content fs') :
    Started fs path cases (.ok (ofCases cases)) fs'

theorem yields_start : (start path cases).Yields host fun result host' =>
    host.Silently host' ∧ Started host.files path cases result host'.files := by
  have hway := yields_makeWay path host
  rw [Yields, perform_start]
  rcases hmade : (makeWay path).perform host with ⟨fault | ⟨⟩, host₁⟩
  · have hgrows := hway.of_perform hmade
    exact ⟨hgrows.silently, .failed hgrows.isPartOf⟩
  · have hgrows := hway.of_perform hmade
    rcases hwrite : ((ofCases cases).write path).perform (host₁.tell (expectations cases)) with
      ⟨result, host'⟩
    obtain ⟨stored, rfl, hsilent, hstored⟩ := yields_write.of_perform hwrite
    dsimp only
    rw [hwrite]
    refine ⟨hgrows.silently.trans ⟨hsilent.printed, hsilent.onward⟩, ?_⟩
    cases hstored with
    | kept hkept =>
      refine .failed (hgrows.isPartOf.trans ?_)
      rcases hkept with heq | hensured
      · rw [heq]
        exact .refl _
      · exact hensured.isPartOf
    | replaced hensured hreplaced =>
      exact .started (hgrows.isPartOf.trans hensured.isPartOf) hreplaced

/-- What was started can be read as the report of the cases, if it can be read at all. -/
theorem read_of_start {host₁ : Host} {started : Report} {content : List UInt8}
    (hstart : (start path cases).perform host = (.ok started, host₁))
    (hread : host₁.files.read path = .ok content) :
    host.Silently host₁ ∧ content = (ofCases cases).content ∧ Placeable host₁.files path := by
  obtain ⟨hsilent, hstarted⟩ := yields_start.of_perform hstart
  cases hstarted with
  | started _ hreplaced =>
    exact ⟨hsilent, hreplaced.eq_of_read hread,
      hreplaced.placeable.congr hreplaced.workingDirectory⟩

theorem failsOnly_start :
    (start path cases).FailsOnly fun fault => ∃ cause, fault = .unwritable path cause := by
  have hwrite : ∀ report : Report,
      (report.write path).FailsOnly fun fault => ∃ cause, fault = .unwritable path cause := by
    intro report
    rw [write]
    exact (failsOnly_adapt fun cause => ⟨cause, rfl⟩).bind fun _ => .of_ok fun _ => ⟨_, rfl⟩
  have hannounce : FailsOnly (do
      cases.grouped.forM fun (group, identifier) => diagnose (.caseExpected group identifier)
      (ofCases cases).write path
      return ofCases cases : Action FileFault Report)
      fun fault => ∃ cause, fault = .unwritable path cause := by
    refine FailsOnly.bind (.of_ok fun host => ⟨(), ?_⟩) fun _ => ?_
    · rw [perform_diagnose_all]
    · exact (hwrite _).bind fun _ => .of_ok fun _ => ⟨_, rfl⟩
  rw [start]
  split
  · next directory _ =>
    refine FailsOnly.bind (.of_ok fun _ => ⟨_, rfl⟩) fun present => ?_
    split
    · exact hannounce
    · exact (failsOnly_adapt fun cause => ⟨.system cause, rfl⟩).bind fun _ => hannounce
  · exact hannounce

end Report

end CaseReport
