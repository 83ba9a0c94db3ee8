import Mathlib.Control.Monad.Basic
import CaseReport.Proofs.Report.Starting

/-!
# Writing a report, stage by stage

Writing makes one request after the other, and between any two of them the report can be looked at.
At every stage the path leads to what it led to before, or the new report has taken its place. The
exception is a report that is not there yet: an empty file is made for it first, and that file stays
when a later request is refused.
-/

namespace CaseReport

namespace Report

open Host FileSystem Path Action

/-- How far the writing of a report has come. -/
inductive Stage where
  | begun
  /-- There is something to be replaced. -/
  | ensured
  /-- The mode of what is to be replaced is known. -/
  | inspected (mode : Nat)
  | prepared (temporary : Location) (mode : Nat)
  | filled (temporary : Location) (mode : Nat)
  | flushed (temporary : Location) (mode : Nat)
  | permitted (temporary : Location)
  | placed
  deriving Repr, DecidableEq

namespace Stage

/-- The temporary file that is there at a stage. -/
def temporary? : Stage → Option Location
  | .prepared temporary _ => some temporary
  | .filled temporary _ => some temporary
  | .flushed temporary _ => some temporary
  | .permitted temporary => some temporary
  | _ => none

/-- The host without the temporary file of a stage. -/
def clear (stage : Stage) (host : Host) : Host :=
  stage.temporary?.elim host fun temporary => host.settle (host.files.erase temporary)

/-- Goes on to the next stage of a writing that began on a host, with one request at most. -/
def next (host : Host) (path : Path) (content : List UInt8) : Stage → Action WriteCause Stage
  | .begun => (fun _ => .ensured) <$> ExceptT.adapt .system (ensureFile path)
  | .ensured => .inspected <$> ExceptT.adapt .system (query fun files => files.mode path)
  | .inspected mode =>
    (.prepared · mode) <$> ExceptT.adapt (.temporary (host.files.temporaryPath path.directory))
      (request fun files => files.createTemporary path.directory)
  | .prepared temporary mode =>
    (fun _ => .filled temporary mode) <$>
      ExceptT.adapt (.temporary (host.files.temporaryPath path.directory))
        (change fun files => files.setContent temporary content)
  | .filled temporary mode =>
    (fun _ => .flushed temporary mode) <$>
      ExceptT.adapt (.temporary (host.files.temporaryPath path.directory)) flush
  | .flushed temporary mode =>
    (fun _ => .permitted temporary) <$>
      ExceptT.adapt .system (change fun files => files.setMode temporary mode)
  | .permitted temporary =>
    (fun _ => .placed) <$> ExceptT.adapt .system (change fun files => files.rename temporary path)
  | .placed => pure .placed

end Stage

/-- From a host writing comes to a stage, and to the host at that point. -/
inductive Reaches (path : Path) (content : List UInt8) (host : Host) : Stage → Host → Prop where
  | begun : Reaches path content host .begun host
  | next {stage stage' host₁ host₂} (h : Reaches path content host stage host₁)
      (hnext : (stage.next host path content).perform host₁ = (.ok stage', host₂)) :
      Reaches path content host stage' host₂

/-- Writing comes to its last stage, or a request is refused at some stage and the temporary file
is taken away. -/
inductive Ends (path : Path) (content : List UInt8) (host : Host) :
    Except WriteCause Unit → Host → Prop where
  | placed {host'} (h : Reaches path content host .placed host') :
      Ends path content host (.ok ()) host'
  | stopped {stage host₁ host₂ fault} (h : Reaches path content host stage host₁)
      (hstop : (stage.next host path content).perform host₁ = (.error fault, host₂)) :
      Ends path content host (.error fault) (stage.clear host₂)

variable {path : Path} {content : List UInt8} {host host₁ : Host} {stage : Stage}
  {fs fs' files : FileSystem}

/-- The request at a stage leads to the next one, or it is the one that stops the writing. -/
private theorem Reaches.yields {α : Type} {f : α → Stage} {action : Action WriteCause α}
    (h : Reaches path content host stage host₁)
    (hnext : stage.next host path content = f <$> action) :
    action.Yields host₁ fun result host₂ =>
      match result with
      | .ok a => Reaches path content host (f a) host₂
      | .error fault => (stage.next host path content).perform host₁ = (.error fault, host₂) := by
  have hperform := perform_map f action host₁
  rw [← hnext] at hperform
  rw [Yields]
  rcases hp : action.perform host₁ with ⟨fault | a, host₂⟩ <;> rw [hp] at hperform
  · exact hperform
  · exact h.next hperform

private theorem yields_replace_ends {temporary : Location} {mode : Nat}
    (h : Reaches path content host (.prepared temporary mode) host₁) :
    (replace path (host.files.temporaryPath path.directory) temporary content mode).Yields host₁
      fun result host' =>
        match result with
        | .ok () => Reaches path content host .placed host'
        | .error fault => ∃ stage host₂, Reaches path content host stage host₂ ∧
            stage.temporary? = some temporary ∧
            (stage.next host path content).perform host₂ = (.error fault, host') := by
  rw [replace]
  refine (h.yields rfl).bind ?_ fun _ _ hstop => ⟨_, _, h, rfl, hstop⟩
  intro _ host₂ hfilled
  refine (hfilled.yields rfl).bind ?_ fun _ _ hstop => ⟨_, _, hfilled, rfl, hstop⟩
  intro _ host₃ hflushed
  refine (hflushed.yields rfl).bind ?_ fun _ _ hstop => ⟨_, _, hflushed, rfl, hstop⟩
  intro _ host₄ hpermitted
  refine (hpermitted.yields rfl).mono ?_
  rintro (fault | ⟨⟩) host' hend
  · exact ⟨_, _, hpermitted, rfl, hend⟩
  · exact hend

/-- Writing goes through the stages. -/
theorem yields_store_ends : (store path content).Yields host (Ends path content host) := by
  rw [store]
  refine yields_look_bind ((Reaches.begun.yields rfl).bind ?_
    fun _ _ hstop => .stopped .begun hstop)
  intro _ host₁ hensured
  rw [swap]
  refine (hensured.yields rfl).bind ?_ fun _ _ hstop => .stopped hensured hstop
  intro mode host₂ hinspected
  refine (hinspected.yields rfl).bind ?_ fun _ _ hstop => .stopped hinspected hstop
  intro temporary host₃ hprepared
  refine (yields_replace_ends hprepared).tryCatch (fun _ _ hplaced => .placed hplaced) ?_
  rintro fault host₄ ⟨stage, host₅, hstage, htemporary, hstop⟩
  refine yields_adjust_bind (yields_throw ?_)
  have hends := Ends.stopped hstage hstop
  rw [Stage.clear, htemporary] at hends
  exact hends

/-! ## The files at each stage -/

/-- The files with an empty file for the report. It is made if nothing is there and the system, by
plan or not, does not refuse it. -/
def made? (host : Host) (path : Path) : Option FileSystem :=
  if host.files.holds path || host.refusals.head?.join.isSome then none
  else (host.files.create path).toOption

/-- The files in which the report is to be replaced. -/
def groundwork (host : Host) (path : Path) : FileSystem :=
  (made? host path).getD host.files

theorem files_ensureFile : ((ensureFile path).perform host).2.files = groundwork host path := by
  rw [ensureFile, perform_bind, perform_look, groundwork, made?]
  dsimp only
  cases host.files.holds path with
  | true => rfl
  | false =>
    change ((change fun files => files.create path).perform host).2.files = _
    rw [change, perform_request]
    rcases host.refusals with _ | ⟨_ | fault, refusals⟩ <;> cases host.files.create path <;> rfl

/-- An empty file was only made where nothing was. -/
theorem exists_file_of_made? (h : made? host path = some files) :
    host.files.holds path = false ∧ files.read path = .ok [] := by
  rw [made?] at h
  split at h
  · cases h
  · next hnot =>
    have hholds : host.files.holds path = false := by
      rw [Bool.or_eq_true, not_or] at hnot
      exact Bool.eq_false_iff.2 hnot.1
    cases hcreate : host.files.create path with
    | error fault =>
      rw [hcreate] at h
      cases h
    | ok made =>
      rw [hcreate] at h
      cases h
      obtain ⟨place, -, -, hfind⟩ := insert_of_create hholds hcreate
      exact ⟨hholds, read_eq_ok_iff.2 ⟨place, _, hfind⟩⟩

/-- A temporary file at this location can be put in the place of the report, which has this mode. -/
structure Fits (fs : FileSystem) (path : Path) (temporary : Location) (mode : Nat) : Prop where
  vacant : fs.node? temporary = none
  moded : fs.mode path = .ok mode
  room : room fs path = .ok ()

/-- What the host is at a stage. -/
def Stage.Invariant (host : Host) (path : Path) (content : List UInt8) : Stage → Host → Prop
  | .begun, host₁ => host₁ = host
  | .ensured, host₁ => host₁.files = groundwork host path
  | .inspected mode, host₁ =>
    host₁.files = groundwork host path ∧ (groundwork host path).mode path = .ok mode
  | .prepared temporary mode, host₁ => Fits (groundwork host path) path temporary mode ∧
      host₁.files = (groundwork host path).insert temporary
        (.file [] (groundwork host path).temporaryMode)
  | .filled temporary mode, host₁ => Fits (groundwork host path) path temporary mode ∧
      host₁.files = (groundwork host path).insert temporary
        (.file content (groundwork host path).temporaryMode)
  | .flushed temporary mode, host₁ => Fits (groundwork host path) path temporary mode ∧
      host₁.files = (groundwork host path).insert temporary
        (.file content (groundwork host path).temporaryMode)
  | .permitted temporary, host₁ => ∃ mode, Fits (groundwork host path) path temporary mode ∧
      host₁.files = (groundwork host path).insert temporary (.file content mode)
  | .placed, host₁ => Replaced (groundwork host path) path content host₁.files

theorem Fits.ne_nil {temporary : Location} {mode : Nat} (h : Fits fs path temporary mode) :
    temporary ≠ [] := by
  rintro rfl
  cases h.vacant

private theorem yields_change_map {ask : FileSystem → Except SystemFault FileSystem}
    {f : Unit → Stage} {g : SystemFault → WriteCause} {post : Stage → Host → Prop}
    (h : ∀ files, ask host₁.files = .ok files → post (f ()) (host₁.served files)) :
    Yields (f <$> ExceptT.adapt g (change ask) : Action WriteCause Stage) host₁
      fun result host₂ => ∀ stage', result = .ok stage' → post stage' host₂ := by
  refine Yields.map (Yields.adapt (yields_change ?_ ?_))
  · rintro _ _ _ ⟨⟩
  · rintro files hask _ ⟨⟩
    exact h files hask

/-- One request keeps to what the host is at each stage. -/
theorem Stage.Invariant.next (h : stage.Invariant host path content host₁) :
    (stage.next host path content).Yields host₁ fun result host₂ =>
      ∀ stage', result = .ok stage' → stage'.Invariant host path content host₂ := by
  cases stage with
  | begun =>
    obtain rfl : host₁ = host := h
    have hfiles : (ensureFile path).Yields host₁ fun _ host₂ =>
        host₂.files = groundwork host₁ path := files_ensureFile
    refine Yields.map (Yields.adapt (hfiles.mono ?_))
    rintro (_ | ⟨⟩) host₂ hfiles _ ⟨⟩
    exact hfiles
  | ensured =>
    have hfiles : host₁.files = groundwork host path := h
    refine Yields.map (Yields.adapt (yields_query ?_ ?_))
    · rintro _ _ _ ⟨⟩
    · rintro mode hmode _ ⟨⟩
      rw [hfiles] at hmode
      exact ⟨hfiles, hmode⟩
  | inspected mode =>
    obtain ⟨hfiles, hmode⟩ := h
    refine Yields.map (Yields.adapt (yields_request ?_ ?_))
    · rintro _ _ _ ⟨⟩
    · rintro temporary files hmade _ ⟨⟩
      obtain ⟨hroom, parent, _, -, htemporary, rfl⟩ := createTemporary_eq_ok_iff.1 hmade
      rw [hfiles] at hroom htemporary
      refine ⟨⟨?_, hmode, room_eq_ok_iff.2 hroom⟩, by rw [files_served, hfiles]⟩
      rw [htemporary]
      exact node?_freshName _ _
  | prepared temporary mode =>
    obtain ⟨hfits, hfiles⟩ := h
    refine yields_change_map fun files hset => ?_
    rw [hfiles, setContent_insert hfits.ne_nil] at hset
    exact ⟨hfits, (Except.ok.inj hset).symm⟩
  | filled temporary mode =>
    refine yields_change_map fun files hsame => ?_
    obtain rfl := Except.ok.inj hsame
    exact h
  | flushed temporary mode =>
    obtain ⟨hfits, hfiles⟩ := h
    refine yields_change_map fun files hset => ?_
    rw [hfiles, setMode_insert hfits.ne_nil] at hset
    exact ⟨mode, hfits, (Except.ok.inj hset).symm⟩
  | permitted temporary =>
    obtain ⟨mode, hfits, hfiles⟩ := h
    refine yields_change_map fun files hrename => ?_
    rw [hfiles] at hrename
    exact replaced_of_rename hfits.vacant hfits.moded hfits.room hrename
  | placed =>
    rintro _ ⟨⟩
    exact h

theorem Reaches.invariant (h : Reaches path content host stage host₁) :
    stage.Invariant host path content host₁ := by
  induction h with
  | begun => rfl
  | next _ hnext ih => exact ih.next.of_perform hnext _ rfl

/-- As far as a path is concerned nothing has changed: everything is still there, and the path leads
to the same thing or fails in the same way. -/
structure Untouched (fs : FileSystem) (path : Path) (fs' : FileSystem) : Prop where
  isPartOf : fs.IsPartOf fs'
  find : fs'.find path = fs.find path

theorem Untouched.refl (fs : FileSystem) (path : Path) : Untouched fs path fs :=
  ⟨.refl fs, rfl⟩

theorem Untouched.read (h : Untouched fs path fs') : fs'.read path = fs.read path := by
  rw [FileSystem.read, FileSystem.read, h.find]

/-- A temporary file is not noticed at the path of the report. -/
theorem Fits.untouched {temporary : Location} {mode : Nat} (h : Fits fs path temporary mode)
    (newcomer : Node) : Untouched fs path (fs.insert temporary newcomer) := by
  have hpart : fs.IsPartOf (fs.insert temporary newcomer) := isPartOf_insert h.vacant
  obtain ⟨place, node, hfind⟩ := find_of_mode h.moded
  refine ⟨hpart, ?_⟩
  rw [hfind]
  exact find_of_isPartOf hpart hfind

theorem Stage.Invariant.untouched_or_replaced (h : stage.Invariant host path content host₁) :
    host₁ = host ∨ Untouched (groundwork host path) path host₁.files ∨
      stage = .placed ∧ Replaced (groundwork host path) path content host₁.files := by
  cases stage with
  | begun => exact .inl h
  | ensured =>
    have hfiles : host₁.files = groundwork host path := h
    rw [hfiles]
    exact .inr (.inl (.refl _ _))
  | inspected mode =>
    rw [h.1]
    exact .inr (.inl (.refl _ _))
  | prepared temporary mode =>
    rw [h.2]
    exact .inr (.inl (h.1.untouched _))
  | filled temporary mode =>
    rw [h.2]
    exact .inr (.inl (h.1.untouched _))
  | flushed temporary mode =>
    rw [h.2]
    exact .inr (.inl (h.1.untouched _))
  | permitted temporary =>
    obtain ⟨mode, hfits, hfiles⟩ := h
    rw [hfiles]
    exact .inr (.inl (hfits.untouched _))
  | placed => exact .inr (.inr ⟨rfl, h⟩)

/-- Before the report is placed, its path leads to what it led to at first, or to the empty file
that was made. -/
def Pending (host : Host) (path : Path) (files : FileSystem) : Prop :=
  Untouched host.files path files ∨
    ∃ made, made? host path = some made ∧ Untouched made path files

theorem pending_of_untouched (h : Untouched (groundwork host path) path files) :
    Pending host path files := by
  cases hmade : made? host path with
  | none =>
    rw [groundwork, hmade] at h
    exact .inl h
  | some made =>
    rw [groundwork, hmade] at h
    exact .inr ⟨made, hmade, h⟩

theorem Reaches.pending_or_placed (h : Reaches path content host stage host₁) :
    Pending host path host₁.files ∨
      stage = .placed ∧ Replaced (groundwork host path) path content host₁.files := by
  rcases h.invariant.untouched_or_replaced with rfl | huntouched | hreplaced
  · exact .inl (.inl (.refl _ _))
  · exact .inl (pending_of_untouched huntouched)
  · exact .inr hreplaced

/-! ## The end of the writing -/

/-- When writing fails only the empty file is left, if one was made. -/
theorem yields_store_groundwork : (store path content).Yields host fun result host' =>
    ∀ fault, result = .error fault → host'.files = groundwork host path := by
  have hensured : (ensureFile path).Yields host fun _ host₁ =>
      host₁.files = groundwork host path := files_ensureFile
  rw [store]
  refine yields_look_bind (hensured.adapt_bind ?_ fun _ _ hfiles _ _ => hfiles)
  intro _ host₁ hfiles
  refine yields_swap.mono ?_
  rintro _ host₂ ⟨-, hswap⟩ fault rfl
  exact hswap.1.trans hfiles

/-! ## Every moment of the writing -/

private theorem yields_map_served {α : Type} {f : α → Stage} {g : SystemFault → WriteCause}
    {action : Action SystemFault α}
    (h : action.Yields host₁ fun result host₂ => ∃ files, host₂ = host₁.served files ∧
      ∀ fault, result = .error fault → files = host₁.files) :
    Yields (f <$> ExceptT.adapt g action : Action WriteCause Stage) host₁
      fun result host₂ => ∃ files, host₂ = host₁.served files ∧
        ∀ fault, result = .error fault → files = host₁.files := by
  refine Yields.map (Yields.adapt (h.mono ?_))
  rintro (cause | a) host₂ ⟨files, rfl, hsame⟩
  · exact ⟨files, rfl, fun _ _ => hsame _ rfl⟩
  · refine ⟨files, rfl, ?_⟩
    rintro _ ⟨⟩

/-- A stage makes one request, and the files are the same if it is refused; or there is nothing to
be done. -/
theorem Stage.yields_next : (stage.next host path content).Yields host₁ fun result host₂ =>
    host₂ = host₁ ∧ (∃ stage', result = .ok stage') ∨
      stage ≠ .placed ∧ ∃ files, host₂ = host₁.served files ∧
        ∀ fault, result = .error fault → files = host₁.files := by
  cases stage with
  | begun =>
    cases hholds : host₁.files.holds path with
    | true =>
      have hthere : (ensureFile path).perform host₁ = (.ok (), host₁) := by
        rw [ensureFile, perform_bind, perform_look, hholds]
        rfl
      rw [Yields, Stage.next, perform_map, perform_adapt, hthere]
      exact .inl ⟨rfl, _, rfl⟩
    | false =>
      have hmade : (ensureFile path).Yields host₁ fun result host₂ =>
          ∃ files, host₂ = host₁.served files ∧
            ∀ fault, result = .error fault → files = host₁.files := by
        rw [ensureFile]
        refine yields_look_bind ?_
        rw [hholds, if_neg Bool.false_ne_true]
        exact yields_request_served
      exact .mono (yields_map_served hmade) fun _ _ h => .inr ⟨by simp, h⟩
  | placed => exact yields_pure (.inl ⟨rfl, _, rfl⟩)
  | ensured | inspected | prepared | filled | flushed | permitted =>
    exact .mono (yields_map_served yields_request_served) fun _ _ h => .inr ⟨by simp, h⟩

/-- The temporary file is taken away in one go, if there is one. -/
theorem Stage.passes_clear (stage : Stage) (host : Host) :
    ∃ moments, host.Passes moments (stage.clear host) ∧
      ∀ files ∈ moments, files = (stage.clear host).files := by
  rw [Stage.clear]
  cases stage.temporary? with
  | none => exact ⟨[], .refl host, by simp⟩
  | some temporary =>
    refine ⟨_, passes_settle host _, ?_⟩
    exact fun files hmem => List.mem_singleton.1 hmem

/-- Up to a stage the report is pending at every moment, but for the last one if it is placed. -/
theorem Reaches.moments (h : Reaches path content host stage host₁) :
    ∃ before after, host.Passes (before ++ after) host₁ ∧
      (∀ files ∈ before, Pending host path files) ∧
      ∀ files ∈ after, stage = .placed ∧ files = host₁.files := by
  induction h with
  | begun => exact ⟨[], [], .refl host, by simp, by simp⟩
  | @next stage stage' host₁ host₂ h hnext ih =>
    obtain ⟨before, after, hpasses, hbefore, hafter⟩ := ih
    rcases Stage.yields_next.of_perform hnext with ⟨rfl, -⟩ | ⟨hstage, files, rfl, -⟩
    · refine ⟨before, after, hpasses, hbefore, ?_⟩
      intro files hmem
      obtain ⟨rfl, hfiles⟩ := hafter files hmem
      cases hnext
      exact ⟨rfl, hfiles⟩
    · obtain rfl : after = [] :=
        List.eq_nil_iff_forall_not_mem.2 fun files hmem => hstage (hafter files hmem).1
      have hpasses' := hpasses.trans (passes_served host₁ files)
      rw [List.append_nil] at hpasses'
      rcases (h.next hnext).pending_or_placed with hpending | ⟨hplaced, -⟩
      · refine ⟨before ++ [files], [], by simpa using hpasses', ?_, by simp⟩
        simpa [or_imp, forall_and] using ⟨hbefore, hpending⟩
      · exact ⟨before, [files], hpasses', hbefore, by simp [hplaced]⟩

/-- While a report is written it is pending at every moment, but for the last one if the writing
succeeds. -/
theorem yields_store_moments : (store path content).Yields host fun result host' =>
    ∃ before after, host.Passes (before ++ after) host' ∧
      (∀ files ∈ before, Pending host path files) ∧
      ∀ files ∈ after, result = .ok () ∧ files = host'.files := by
  rcases hstore : (store path content).perform host with ⟨result, host'⟩
  have hends := yields_store_ends.of_perform hstore
  have hground := yields_store_groundwork.of_perform hstore
  rw [Yields, hstore]
  cases hends with
  | placed h =>
    obtain ⟨before, after, hpasses, hbefore, hafter⟩ := h.moments
    exact ⟨before, after, hpasses, hbefore, fun files hmem => ⟨rfl, (hafter files hmem).2⟩⟩
  | @stopped stage host₁ host₂ fault h hstop =>
    obtain ⟨before, after, hpasses, hbefore, hafter⟩ := h.moments
    rcases Stage.yields_next.of_perform hstop with ⟨-, _, hok⟩ | ⟨hstage, files, rfl, hsame⟩
    · cases hok
    obtain rfl := hsame _ rfl
    obtain rfl : after = [] :=
      List.eq_nil_iff_forall_not_mem.2 fun files hmem => hstage (hafter files hmem).1
    have hpending := h.pending_or_placed.resolve_right fun hplaced => hstage hplaced.1
    obtain ⟨cleared, hpasses', hsame'⟩ := stage.passes_clear (host₁.served host₁.files)
    refine ⟨before ++ [host₁.files] ++ cleared, [], ?_, ?_, by simp⟩
    · rw [List.append_nil] at hpasses ⊢
      exact (hpasses.trans (passes_served _ _)).trans hpasses'
    · intro files hmem
      rcases List.mem_append.1 hmem with hmem | hmem
      · rcases List.mem_append.1 hmem with hmem | hmem
        · exact hbefore files hmem
        · rw [List.mem_singleton.1 hmem]
          exact hpending
      · rw [hsame' files hmem, hground _ rfl]
        exact pending_of_untouched (.refl _ _)

/-- What writing a report ends in, and where it stops. -/
theorem yields_write_ends {report : Report} : (report.write path).Yields host fun result host' =>
    match result with
    | .ok () => ∃ host₁, Reaches path report.content host .placed host₁ ∧ host'.files = host₁.files
    | .error fault => host'.files = groundwork host path ∧
      ∃ stage host₁ cause host₂, Reaches path report.content host stage host₁ ∧
        (stage.next host path report.content).perform host₁ = (.error cause, host₂) ∧
        fault = .unwritable path cause := by
  rcases hstore : (store path report.content).perform host with ⟨result, host₁⟩
  have hends := yields_store_ends.of_perform hstore
  have hfiles := yields_store_groundwork.of_perform hstore
  rw [Yields, write, perform_bind, perform_adapt, hstore]
  cases hends with
  | placed hplaced => exact ⟨_, hplaced, rfl⟩
  | stopped hstage hstop => exact ⟨hfiles _ rfl, _, _, _, _, hstage, hstop, rfl⟩

theorem yields_write_moments {report : Report} : (report.write path).Yields host
    fun result host' => ∃ before after, host.Passes (before ++ after) host' ∧
      (∀ files ∈ before, Pending host path files) ∧
      ∀ files ∈ after, result = .ok () ∧ files = host'.files := by
  rw [write]
  refine yields_store_moments.adapt_bind ?_ ?_
  · rintro ⟨⟩ host₁ ⟨before, after, hpasses, hbefore, hafter⟩
    refine yields_diagnose ⟨before, after, ⟨hpasses.history, hpasses.last⟩, hbefore, ?_⟩
    exact fun files hmem => ⟨rfl, (hafter files hmem).2⟩
  · rintro fault host₁ ⟨before, after, hpasses, hbefore, hafter⟩
    refine ⟨before, after, hpasses, hbefore, ?_⟩
    intro files hmem
    cases (hafter files hmem).1

/-- In a directory that is there, starting a report is writing the report of unjudged cases. -/
theorem perform_start_of_holds (cases : Cases)
    (hdirectory : ∀ directory, path.parentDirectory? = some directory →
      host.files.holds directory = true) :
    ∃ told, (start path cases).perform host =
      ((((ofCases cases).write path).perform (host.tell told)).1.map fun _ => ofCases cases,
        (((ofCases cases).write path).perform (host.tell told)).2) := by
  have hway : (makeWay path).perform host = (.ok (), host) := by
    rw [makeWay]
    split
    · next directory hparent =>
      rw [perform_bind, perform_look]
      dsimp only
      rw [if_pos (hdirectory directory hparent)]
      rfl
    · rfl
  rw [perform_start, hway]
  exact ⟨_, rfl⟩

/-- At every stage of writing a report, the path is as it was before, or the last stage has come and
the new report is in its place; and a writing that fails leaves the files as they were. The
exception is a report that is not there, if the system lets its file be made: then the path leads to
an empty file before it leads to the report, and a writing that fails leaves the empty file. There
is no moment of the writing at which it is different. Starting a report in a directory that is there
is such a writing. -/
theorem write_all_or_empty (report : Report) (path : Path) (host : Host) (expected : Cases) :
    (∀ made, made? host path = some made →
      host.files.holds path = false ∧ made.read path = .ok []) ∧
    (∀ stage host₁, Reaches path report.content host stage host₁ →
      Untouched host.files path host₁.files ∨
      (∃ made, made? host path = some made ∧ Untouched made path host₁.files) ∨
      stage = .placed ∧
        Replaced ((made? host path).getD host.files) path report.content host₁.files) ∧
    ((report.write path).Yields host fun result host' =>
      match result with
      | .ok () =>
        ∃ host₁, Reaches path report.content host .placed host₁ ∧ host'.files = host₁.files
      | .error fault => host'.files = (made? host path).getD host.files ∧
        ∃ stage host₁ cause host₂, Reaches path report.content host stage host₁ ∧
          (stage.next host path report.content).perform host₁ = (.error cause, host₂) ∧
          fault = .unwritable path cause) ∧
    ((report.write path).Yields host fun result host' =>
      ∃ before after, host.Passes (before ++ after) host' ∧
        (∀ files ∈ before, Untouched host.files path files ∨
          ∃ made, made? host path = some made ∧ Untouched made path files) ∧
        ∀ files ∈ after, result = .ok () ∧
          Replaced ((made? host path).getD host.files) path report.content files) ∧
    ((∀ directory, path.parentDirectory? = some directory →
      host.files.holds directory = true) →
      ∃ told, (start path expected).perform host =
          ((((ofCases expected).write path).perform (host.tell told)).1.map fun _ =>
            ofCases expected, (((ofCases expected).write path).perform (host.tell told)).2) ∧
        ∀ fault host', (start path expected).perform host = (.error fault, host') →
          host'.files = (made? host path).getD host.files) := by
  refine ⟨fun made hmade => exists_file_of_made? hmade, ?_, yields_write_ends, ?_, ?_⟩
  · exact fun stage host₁ hstage => or_assoc.1 hstage.pending_or_placed
  · rcases hwrite : (report.write path).perform host with ⟨result, host'⟩
    have hends := yields_write_ends.of_perform hwrite
    obtain ⟨before, after, hpasses, hbefore, hafter⟩ := yields_write_moments.of_perform hwrite
    rw [Yields, hwrite]
    refine ⟨before, after, hpasses, hbefore, ?_⟩
    intro files hmem
    obtain ⟨rfl, rfl⟩ := hafter files hmem
    obtain ⟨host₁, hplaced, hfiles⟩ := hends
    rw [hfiles]
    exact ⟨rfl, hplaced.invariant⟩
  · intro hdirectory
    obtain ⟨told, hperform⟩ := perform_start_of_holds expected hdirectory
    refine ⟨told, hperform, ?_⟩
    intro fault host' hfault
    rcases hwrite : ((ofCases expected).write path).perform (host.tell told) with
      ⟨fault' | ⟨⟩, host₁⟩ <;> rw [hwrite] at hperform <;> cases hperform.symm.trans hfault
    exact (yields_write_ends.of_perform hwrite).1

/-- A host without a report, and with a plan that refuses the temporary file. -/
def fullDisk : Host where
  files := {}
  refusals := [none, none, some .noSpace]

/-- There was no report, and now there is one without a case. -/
theorem write_fullDisk :
    fullDisk.files.holds "report" = false ∧
    (∃ host₁, Reaches "report" (ofCases ⟨["a"], []⟩).content fullDisk .ensured host₁ ∧
      Report.ofFile host₁.files "report" = .ok ⟨[]⟩) ∧
    ∃ host', (start "report" ⟨["a"], []⟩).perform fullDisk =
        (.error (.unwritable "report" (.temporary "/./.tmpxxxxxx" .noSpace)), host') ∧
      Report.ofFile host'.files "report" = .ok ⟨[]⟩ := by
  obtain ⟨hempty, hstages, -, -, hstart⟩ :=
    write_all_or_empty (ofCases ⟨["a"], []⟩) "report" fullDisk ⟨["a"], []⟩
  have hmade : made? fullDisk "report" =
      some (fullDisk.files.insert ["report"] (.file [] 0o644)) := by decide +kernel
  obtain ⟨hvacant, hread⟩ := hempty _ hmade
  have hensured : Reaches "report" (ofCases ⟨["a"], []⟩).content fullDisk .ensured
      (fullDisk.served (fullDisk.files.insert ["report"] (.file [] 0o644))) :=
    Reaches.begun.next (by decide +kernel)
  have hdirectory : ∀ directory, Path.parentDirectory? "report" = some directory →
      fullDisk.files.holds directory = true := by
    have hnone : Path.parentDirectory? "report" = none := by decide +kernel
    simp [hnone]
  have hrun : (start "report" ⟨["a"], []⟩).perform fullDisk =
      (.error (.unwritable "report" (.temporary "/./.tmpxxxxxx" .noSpace)),
        ((start "report" ⟨["a"], []⟩).perform fullDisk).2) := by decide +kernel
  obtain ⟨told, -, hfailed⟩ := hstart hdirectory
  refine ⟨hvacant, ⟨_, hensured, ?_⟩, _, hrun, ?_⟩
  · rcases hstages _ _ hensured with huntouched | ⟨made, hmade', huntouched⟩ | ⟨hplaced, -⟩
    · exact absurd huntouched.find (by decide +kernel)
    · obtain rfl := Option.some.inj (hmade.symm.trans hmade')
      exact ofFile_of_read (by simp [FitsLines, identifiers]) (huntouched.read.trans hread)
    · cases hplaced
  · rw [hfailed _ _ hrun, hmade]
    exact ofFile_of_read (by simp [FitsLines, identifiers]) hread

end Report

end CaseReport
