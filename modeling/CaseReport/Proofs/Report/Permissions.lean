import Mathlib.Control.Monad.Basic
import CaseReport.Fault
import CaseReport.Proofs.Report.Starting

/-!
# The permissions of a report

Every rewrite puts a file in the place of the report that was made with other permissions. Still the
report keeps the permission bits that it had, through any rewrites and however they end. A report
that was not there gets those of a new file, unless a file comes to light by the directories that
are made on the way to it.
-/

namespace CaseReport

namespace FileSystem

variable {fs fs' : FileSystem} {path : Path} {mode : Nat}

/-- A path leads to a file with these permission bits. -/
def HasMode (fs : FileSystem) (path : Path) (mode : Nat) : Prop :=
  ∃ place content, fs.find path = .ok (place, .file content mode)

theorem HasMode.mode_eq (h : fs.HasMode path mode) : fs.mode path = .ok mode := by
  obtain ⟨place, content, hfind⟩ := h
  simp [FileSystem.mode, hfind, bind, Except.bind]

theorem HasMode.of_isPartOf (hpart : fs.IsPartOf fs') (h : fs.HasMode path mode) :
    fs'.HasMode path mode := by
  obtain ⟨place, content, hfind⟩ := h
  exact ⟨place, content, find_of_isPartOf hpart hfind⟩

end FileSystem

namespace Report

open Host FileSystem Action

/-- A call that rewrites the file of a report. -/
inductive Rewrite where
  | start (cases : Cases)
  | write (report : Report)
  | update (identifier : String) (status : Status)
  deriving Repr, DecidableEq

/-- Carries out a rewrite. -/
def Rewrite.act (path : Path) : Rewrite → Action Fault Unit
  | start cases => (fun _ => ()) <$> ExceptT.adapt .file (Report.start path cases)
  | write report => ExceptT.adapt .file (report.write path)
  | update identifier status => ExceptT.adapt .update (updateStatus path identifier status)

/-- Rewrites of one file, one after the other, whatever they end in. -/
def rewriteAll (path : Path) (rewrites : List Rewrite) : Work (List (Except Fault Unit)) :=
  rewrites.mapM fun rewrite => (rewrite.act path).run

/-- A path that led nowhere leads somewhere by the directories that are made on the way. -/
def Uncovers (path : Path) (host : Host) : Prop :=
  host.files.holds path = false ∧ ((makeWay path).perform host).2.files.holds path = true

instance (path : Path) (host : Host) : Decidable (Uncovers path host) :=
  inferInstanceAs (Decidable (_ ∧ _))

variable {path : Path} {fs fs' : FileSystem} {content : List UInt8} {mode : Nat} {host host' : Host}
  {plan : List (Option SystemFault)} {stored : Except WriteCause Unit} {rewrite : Rewrite}
  {rewrites : List Rewrite} {results : List (Except Fault Unit)}

theorem Replaced.hasMode (h : Replaced fs path content fs') (hmode : fs.HasMode path mode) :
    fs'.HasMode path mode := by
  obtain ⟨place, old, hfind⟩ := id hmode
  have hread := read_eq_ok_iff.2 ⟨place, mode, hfind⟩
  obtain ⟨entry, -, -, -, hfound⟩ := h.entry_of_read hread hmode.mode_eq
  exact ⟨entry, content, hfound⟩

theorem Stored.hasMode (h : Stored plan fs path content stored fs') (hmode : fs.HasMode path mode) :
    fs'.HasMode path mode := by
  cases h with
  | kept hfiles =>
    rcases hfiles with rfl | hensured
    · exact hmode
    · exact hmode.of_isPartOf hensured.isPartOf
  | replaced hensured hreplaced => exact hreplaced.hasMode (hmode.of_isPartOf hensured.isPartOf)

theorem Ensured.hasMode (h : Ensured fs path fs') (hvacant : fs.holds path = false) :
    fs'.HasMode path fs.newFileMode := by
  cases h with
  | there hholds => cases hvacant.symm.trans hholds
  | made _ hcreate =>
    obtain ⟨place, -, -, hfind⟩ := insert_of_create hvacant hcreate
    exact ⟨place, [], hfind⟩

/-- Where nothing was there is nothing after a writing that failed, or there is a new file. -/
theorem Stored.vacant_or_hasMode (h : Stored plan fs path content stored fs')
    (hvacant : fs.holds path = false) :
    (∃ fault, stored = .error fault) ∧ fs'.holds path = false ∧ fs'.umask = fs.umask ∨
      fs'.HasMode path fs.newFileMode := by
  cases h with
  | kept hfiles =>
    rcases hfiles with rfl | hensured
    · exact .inl ⟨⟨_, rfl⟩, hvacant, rfl⟩
    · exact .inr (hensured.hasMode hvacant)
  | replaced hensured hreplaced => exact .inr (hreplaced.hasMode (hensured.hasMode hvacant))

/-! ## One rewrite -/

theorem yields_act_of_hasMode (hmode : host.files.HasMode path mode) :
    (rewrite.act path).Yields host fun _ host' => host'.files.HasMode path mode := by
  cases rewrite with
  | start cases =>
    refine Yields.map (yields_start.adapted.mono ?_)
    rintro _ host' ⟨result, -, -, hstarted⟩
    cases hstarted with
    | failed hpart => exact hmode.of_isPartOf hpart
    | started hpart hreplaced => exact hreplaced.hasMode (hmode.of_isPartOf hpart)
  | write report =>
    refine yields_write.adapted.mono ?_
    rintro _ host' ⟨_, -, stored, -, -, hstored⟩
    exact hstored.hasMode hmode
  | update identifier status =>
    refine yields_updateStatus.adapted.mono ?_
    rintro _ host' ⟨result, -, -, hupdated⟩
    rcases hupdated.kept_or_replaced with ⟨-, hfiles⟩ | ⟨-, old, -, -, hreplaced⟩
    · rw [hfiles]
      exact hmode
    · exact hreplaced.hasMode hmode

theorem yields_act_of_vacant (hvacant : host.files.holds path = false)
    (hcovered : ∀ cases, rewrite = .start cases → ¬Uncovers path host) :
    (rewrite.act path).Yields host fun result host' =>
      (∃ fault, result = .error fault) ∧ host'.files.holds path = false ∧
          host'.files.umask = host.files.umask ∨
        host'.files.HasMode path host.files.newFileMode := by
  cases rewrite with
  | start cases =>
    have hway : ((makeWay path).perform host).2.files.holds path = false := by
      have hnot := hcovered cases rfl
      rw [Uncovers] at hnot
      simpa [hvacant] using hnot
    have hgrows := yields_makeWay path host
    refine Yields.map (Yields.adapt ?_)
    rw [Yields, perform_start]
    rcases hmade : (makeWay path).perform host with ⟨fault | ⟨⟩, host₁⟩ <;> rw [hmade] at hway
    · exact .inl ⟨⟨_, rfl⟩, hway, (hgrows.of_perform hmade).isPartOf.umask⟩
    · have humask := (hgrows.of_perform hmade).isPartOf.umask
      rcases hwrite : ((ofCases cases).write path).perform (host₁.tell (expectations cases)) with
        ⟨result, host'⟩
      obtain ⟨stored, rfl, -, hstored⟩ := yields_write.of_perform hwrite
      dsimp only
      rw [hwrite, ← newFileMode_congr humask]
      refine (hstored.vacant_or_hasMode hway).imp_left ?_
      rintro ⟨⟨fault, rfl⟩, hholds, humask'⟩
      exact ⟨⟨_, rfl⟩, hholds, humask'.trans humask⟩
  | write report =>
    refine yields_write.adapted.mono ?_
    rintro _ host' ⟨_, rfl, stored, rfl, -, hstored⟩
    refine (hstored.vacant_or_hasMode hvacant).imp_left ?_
    rintro ⟨⟨fault, rfl⟩, hend⟩
    exact ⟨⟨_, rfl⟩, hend⟩
  | update identifier status =>
    refine yields_updateStatus.adapted.mono ?_
    rintro _ host' ⟨result, rfl, -, hupdated⟩
    rcases hupdated.kept_or_replaced with ⟨⟨fault, rfl⟩, hfiles⟩ | ⟨-, old, hreport, -, -⟩
    · rw [hfiles]
      exact .inl ⟨⟨_, rfl⟩, hvacant, rfl⟩
    · obtain ⟨bytes, hread⟩ := exists_read_of_ofFile hreport
      cases hvacant.symm.trans (holds_of_read hread)

/-! ## Any rewrites -/

theorem run_rewriteAll_cons {host₁ host₂ : Host} {result : Except Fault Unit}
    (hfirst : (rewrite.act path).perform host = (result, host₁))
    (hrest : (rewriteAll path rewrites).run host₁ = (results, host₂)) :
    (rewriteAll path (rewrite :: rewrites)).run host = (result :: results, host₂) :=
  Work.run_mapM_cons hfirst hrest

theorem rewriteAll_of_hasMode (hmode : host.files.HasMode path mode)
    (hrun : (rewriteAll path rewrites).run host = (results, host')) :
    host'.files.HasMode path mode := by
  induction rewrites generalizing host results with
  | nil =>
    cases hrun
    exact hmode
  | cons rewrite rewrites ih =>
    rcases hfirst : (rewrite.act path).perform host with ⟨result, host₁⟩
    rcases hrest : (rewriteAll path rewrites).run host₁ with ⟨results', host₂⟩
    cases (run_rewriteAll_cons hfirst hrest).symm.trans hrun
    exact ih ((yields_act_of_hasMode hmode).of_perform hfirst) hrest

theorem rewriteAll_of_vacant (hvacant : host.files.holds path = false)
    (hcovered : ∀ front cases back, rewrites = front ++ .start cases :: back →
      ¬Uncovers path ((rewriteAll path front).run host).2)
    (hrun : (rewriteAll path rewrites).run host = (results, host')) :
    .ok () ∉ results ∧ host'.files.holds path = false ∨
      host'.files.HasMode path host.files.newFileMode := by
  induction rewrites generalizing host results with
  | nil =>
    cases hrun
    exact .inl ⟨List.not_mem_nil, hvacant⟩
  | cons rewrite rewrites ih =>
    rcases hfirst : (rewrite.act path).perform host with ⟨result, host₁⟩
    rcases hrest : (rewriteAll path rewrites).run host₁ with ⟨results', host₂⟩
    cases (run_rewriteAll_cons hfirst hrest).symm.trans hrun
    have hcovered₁ : ∀ cases, rewrite = .start cases → ¬Uncovers path host := by
      rintro cases rfl
      exact hcovered [] cases rewrites rfl
    rcases (yields_act_of_vacant hvacant hcovered₁).of_perform hfirst with
      ⟨⟨fault, rfl⟩, hvacant₁, humask⟩ | hmode
    · rw [← newFileMode_congr humask]
      refine (ih hvacant₁ ?_ hrest).imp_left ?_
      · rintro front cases back rfl
        have hfront := hcovered (rewrite :: front) cases back rfl
        rwa [run_rewriteAll_cons hfirst rfl] at hfront
      · rintro ⟨hnone, hholds⟩
        exact ⟨by simp [hnone], hholds⟩
    · exact .inr (rewriteAll_of_hasMode hmode hrest)

/-- Rewrites of a report, however they end, never change its permission bits. A report that was not
there has those of a new file, whatever the mask of the process is, once a rewrite has succeeded,
and also if it is there without that. The exception is a file that comes to light by the directories
that are made on the way to it. -/
theorem rewriteAll_keeps_mode (hrun : (rewriteAll path rewrites).run host = (results, host')) :
    (∀ mode, host.files.HasMode path mode → host'.files.HasMode path mode) ∧
    (host.files.holds path = false →
      (∀ front cases back, rewrites = front ++ .start cases :: back →
        ¬Uncovers path ((rewriteAll path front).run host).2) →
      (.ok () ∈ results ∨ host'.files.holds path = true) →
        host'.files.HasMode path host.files.newFileMode) := by
  refine ⟨fun _ hmode => rewriteAll_of_hasMode hmode hrun, ?_⟩
  intro hvacant hcovered hmade
  refine (rewriteAll_of_vacant hvacant hcovered hrun).resolve_left ?_
  rintro ⟨hnone, hholds⟩
  rcases hmade with hmem | hholds'
  · exact hnone hmem
  · cases hholds.symm.trans hholds'

/-- A host with a link to a report that has unusual permissions, and with a plan that refuses the
first temporary file. -/
def guardedReport : Host where
  files := { nodes := [(["report"], .link "old"), (["old"], .file [] 0o4750)] }
  refusals := [none, some .noSpace]

/-- A host without files, with a mask that lets the group read new files and keeps others out. -/
def cautious : Host where
  files := { umask := 0o037 }

/-- A report, started again after it was refused. -/
def restarted : List Rewrite :=
  [.start ⟨["a"], []⟩, .start ⟨["a"], []⟩, .update "b" .pass, .update "a" .pass]

/-- The report that takes the place of the link has the permissions of the file behind it. A report
in a directory that is still to be made has those of a new file. -/
theorem rewriteAll_restarted :
    (∃ host', (rewriteAll "report" restarted).run guardedReport =
        ([.error (.file (.unwritable "report" (.temporary "/./.tmpxxxxxx" .noSpace))), .ok (),
          .error (.update ⟨"b", .noLine⟩), .ok ()], host') ∧
      host'.files.HasMode "report" 0o4750) ∧
    ∃ host', (rewriteAll "d/report" [.start ⟨["a"], []⟩, .update "a" .pass]).run cautious =
        ([.ok (), .ok ()], host') ∧
      host'.files.HasMode "d/report" 0o640 := by
  constructor
  · have hresults : ((rewriteAll "report" restarted).run guardedReport).1 =
        [.error (.file (.unwritable "report" (.temporary "/./.tmpxxxxxx" .noSpace))), .ok (),
          .error (.update ⟨"b", .noLine⟩), .ok ()] := by decide +kernel
    have hrun := Work.run_eq hresults
    have hold : guardedReport.files.HasMode "report" 0o4750 := ⟨["old"], [], by decide +kernel⟩
    exact ⟨_, hrun, (rewriteAll_keeps_mode hrun).1 _ hold⟩
  · have hresults : ((rewriteAll "d/report" [.start ⟨["a"], []⟩, .update "a" .pass]).run
        cautious).1 = [.ok (), .ok ()] := by decide +kernel
    have hrun := Work.run_eq hresults
    have hmode : cautious.files.newFileMode = 0o640 := by decide
    rw [← hmode]
    refine ⟨_, hrun, (rewriteAll_keeps_mode hrun).2 (by decide +kernel) ?_
      (.inl List.mem_cons_self)⟩
    intro front cases back heq
    rcases front with _ | ⟨_, _ | ⟨_, front⟩⟩ <;> simp at heq
    decide +kernel

/-- A host with a report that a path leads to once there is a directory to go up from. -/
def hiddenReport : Host where
  files := { nodes := [(["f"], .file (Text.Utf8.encode "x: NA\n".toList) 0o640)] }

/-- The path leads nowhere before the report is started, and afterwards the report has permissions
that no new file has. -/
theorem rewriteAll_uncovers_hiddenReport :
    hiddenReport.files.holds "d/../f" = false ∧
    ∃ host', (rewriteAll "d/../f" [.start ⟨[], ["a"]⟩]).run hiddenReport = ([.ok ()], host') ∧
      host'.files.mode "d/../f" = .ok 0o640 ∧ 0o640 ≠ hiddenReport.files.newFileMode := by
  have hresults : ((rewriteAll "d/../f" [.start ⟨[], ["a"]⟩]).run hiddenReport).1 = [.ok ()] := by
    decide +kernel
  have hmode : ((rewriteAll "d/../f" [.start ⟨[], ["a"]⟩]).run hiddenReport).2.files.mode "d/../f" =
      .ok 0o640 := by decide +kernel
  exact ⟨by decide +kernel, _, Work.run_eq hresults, hmode, by decide⟩

end Report

end CaseReport
