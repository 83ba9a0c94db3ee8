import CaseReport.Host

/-!
# What actions end in

A condition on the end of an action is shown along its parts: one rule for each way of putting
actions together, and one for each kind of request. A request takes one item of the plan of
refusals; it is refused and changes nothing, or it is carried out as the file system has it. When
nothing is refused by plan, only the file system itself refuses requests. The moments of an action
are the files after each of its requests.
-/

namespace CaseReport

namespace Host

@[simp] theorem files_served (host : Host) (files : FileSystem) :
    (host.served files).files = files := rfl

@[simp] theorem refusals_served (host : Host) (files : FileSystem) :
    (host.served files).refusals = host.refusals.tail := rfl

/-- The host after some more diagnostics. -/
def tell (host : Host) (diagnostics : List Diagnostic) : Host :=
  { host with diagnosed := host.diagnosed ++ diagnostics }

@[simp] theorem files_tell (host : Host) (diagnostics : List Diagnostic) :
    (host.tell diagnostics).files = host.files := rfl

@[simp] theorem refusals_tell (host : Host) (diagnostics : List Diagnostic) :
    (host.tell diagnostics).refusals = host.refusals := rfl

@[simp] theorem printed_tell (host : Host) (diagnostics : List Diagnostic) :
    (host.tell diagnostics).printed = host.printed := rfl

/-- From one host to another the plan was only used up from its front. -/
def Onward (host host' : Host) : Prop :=
  ∃ n, host'.refusals = host.refusals.drop n

/-- From one host to another the files were these, one after the other. -/
structure Passes (host : Host) (moments : List FileSystem) (host' : Host) : Prop where
  history : host'.history = host.history ++ moments
  last : (host.files :: moments).getLast? = some host'.files

/-- From one host to another the files were the same at every moment. -/
def Unmoved (host host' : Host) : Prop :=
  ∃ moments, host.Passes moments host' ∧ ∀ files ∈ moments, files = host.files

/-- From one host to another nothing was printed, and the plan was only used up from its front. -/
structure Silently (host host' : Host) : Prop where
  printed : host'.printed = host.printed
  onward : host.Onward host'

variable {host host' host'' : Host}

theorem Onward.refl (host : Host) : host.Onward host :=
  ⟨0, rfl⟩

theorem Onward.trans (h : host.Onward host') (h' : host'.Onward host'') : host.Onward host'' := by
  obtain ⟨n, hn⟩ := h
  obtain ⟨m, hm⟩ := h'
  refine ⟨n + m, ?_⟩
  rw [hm, hn, List.drop_drop]

theorem Onward.refusals_eq_nil (h : host.Onward host') (hplan : host.refusals = []) :
    host'.refusals = [] := by
  obtain ⟨n, hn⟩ := h
  rw [hn, hplan, List.drop_nil]

theorem Passes.refl (host : Host) : host.Passes [] host :=
  ⟨(List.append_nil _).symm, rfl⟩

theorem Passes.trans {moments moments' : List FileSystem} (h : host.Passes moments host')
    (h' : host'.Passes moments' host'') : host.Passes (moments ++ moments') host'' := by
  refine ⟨?_, ?_⟩
  · rw [h'.history, h.history, List.append_assoc]
  · calc (host.files :: (moments ++ moments')).getLast?
        = moments'.getLast?.or (host.files :: moments).getLast? := by
          rw [← List.cons_append, List.getLast?_append]
      _ = moments'.getLast?.or (some host'.files) := by rw [h.last]
      _ = (host'.files :: moments').getLast? := by
          rw [List.getLast?_cons]
          cases moments'.getLast? <;> rfl
      _ = some host''.files := h'.last

theorem passes_settle (host : Host) (files : FileSystem) :
    host.Passes [files] (host.settle files) :=
  ⟨rfl, rfl⟩

theorem passes_served (host : Host) (files : FileSystem) :
    host.Passes [files] (host.served files) :=
  ⟨rfl, rfl⟩

theorem Passes.unique {moments moments' : List FileSystem} (h : host.Passes moments host')
    (h' : host.Passes moments' host') : moments = moments' :=
  List.append_cancel_left (h.history.symm.trans h'.history)

theorem Passes.mem {moments : List FileSystem} (h : host.Passes moments host') :
    host'.files = host.files ∨ host'.files ∈ moments := by
  rcases List.mem_cons.1 (List.mem_of_getLast? h.last) with hfirst | hmem
  · exact .inl hfirst
  · exact .inr hmem

theorem Unmoved.refl (host : Host) : host.Unmoved host :=
  ⟨[], .refl host, fun _ h => absurd h List.not_mem_nil⟩

theorem Unmoved.files (h : host.Unmoved host') : host'.files = host.files := by
  obtain ⟨moments, hpasses, hsame⟩ := h
  exact hpasses.mem.elim id (hsame _)

theorem Unmoved.trans (h : host.Unmoved host') (h' : host'.Unmoved host'') :
    host.Unmoved host'' := by
  have hfiles := h.files
  obtain ⟨moments, hpasses, hsame⟩ := h
  obtain ⟨moments', hpasses', hsame'⟩ := h'
  refine ⟨_, hpasses.trans hpasses', ?_⟩
  intro files hmem
  rcases List.mem_append.1 hmem with hmem | hmem
  · exact hsame files hmem
  · exact (hsame' files hmem).trans hfiles

theorem unmoved_served (host : Host) : host.Unmoved (host.served host.files) :=
  ⟨_, passes_served host _, fun _ h => List.mem_singleton.1 h⟩

theorem Silently.refl (host : Host) : host.Silently host :=
  ⟨rfl, .refl host⟩

theorem Silently.trans (h : host.Silently host') (h' : host'.Silently host'') :
    host.Silently host'' :=
  ⟨h'.printed.trans h.printed, h.onward.trans h'.onward⟩

theorem Silently.served (h : host.Silently host') (files : FileSystem) :
    host.Silently (host'.served files) :=
  h.trans ⟨rfl, 1, List.drop_one.symm⟩

theorem Silently.refusals_eq_nil (h : host.Silently host') (hplan : host.refusals = []) :
    host'.refusals = [] :=
  h.onward.refusals_eq_nil hplan

end Host

namespace Action

open Host

variable {α β ε ε' : Type} {host : Host} {post : Except ε α → Host → Prop}

/-- From this host the action ends in a result and a host that meet the condition. -/
def Yields (action : Action ε α) (host : Host) (post : Except ε α → Host → Prop) : Prop :=
  post (action.perform host).1 (action.perform host).2

theorem Yields.mono {post' : Except ε α → Host → Prop} {action : Action ε α}
    (h : action.Yields host post) (himp : ∀ result host', post result host' → post' result host') :
    action.Yields host post' :=
  himp _ _ h

theorem Yields.of_perform {action : Action ε α} {result : Except ε α} {host' : Host}
    (h : action.Yields host post) (hperform : action.perform host = (result, host')) :
    post result host' := by
  rw [Yields, hperform] at h
  exact h

theorem perform_eq {action : Action ε α} {result : Except ε α}
    (h : (action.perform host).1 = result) :
    action.perform host = (result, (action.perform host).2) :=
  Prod.ext h rfl

theorem yields_pure {a : α} (h : post (.ok a) host) : (pure a : Action ε α).Yields host post := h

theorem yields_throw {fault : ε} (h : post (.error fault) host) :
    (throw fault : Action ε α).Yields host post := h

theorem yields_throw_bind {fault : ε} {next : β → Action ε α} (h : post (.error fault) host) :
    ((throw fault : Action ε β) >>= next).Yields host post := h

theorem Yields.bind {middle : Except ε β → Host → Prop} {action : Action ε β}
    {next : β → Action ε α} (h : action.Yields host middle)
    (hok : ∀ b host', middle (.ok b) host' → (next b).Yields host' post)
    (herror : ∀ fault host', middle (.error fault) host' → post (.error fault) host') :
    (action >>= next).Yields host post := by
  rw [Yields, perform_bind]
  rw [Yields] at h
  rcases hp : action.perform host with ⟨fault | b, host'⟩ <;> rw [hp] at h
  · exact herror fault host' h
  · exact hok b host' h

theorem Yields.map {post : Except ε β → Host → Prop} {f : α → β} {action : Action ε α}
    (h : action.Yields host fun result host' => post (result.map f) host') :
    Yields (f <$> action) host post := by
  rw [Yields, perform_map]
  exact h

theorem Yields.tryCatch {middle : Except ε α → Host → Prop} {action : Action ε α}
    {handle : ε → Action ε α} (h : action.Yields host middle)
    (hok : ∀ a host', middle (.ok a) host' → post (.ok a) host')
    (herror : ∀ fault host', middle (.error fault) host' → (handle fault).Yields host' post) :
    (tryCatch action handle).Yields host post := by
  rw [Yields, perform_tryCatch]
  rw [Yields] at h
  rcases hp : action.perform host with ⟨fault | a, host'⟩ <;> rw [hp] at h
  · exact herror fault host' h
  · exact hok a host' h

theorem Yields.adapt {post : Except ε' α → Host → Prop} {f : ε → ε'} {action : Action ε α}
    (h : action.Yields host fun result host' => post (result.mapError f) host') :
    Yields (ExceptT.adapt f action : Action ε' α) host post := h

theorem Yields.adapted {f : ε → ε'} {action : Action ε α} (h : action.Yields host post) :
    Yields (ExceptT.adapt f action : Action ε' α) host fun result host' =>
      ∃ inner, result = inner.mapError f ∧ post inner host' :=
  ⟨_, rfl, h⟩

theorem Yields.adapt_bind {middle : Except ε' β → Host → Prop} {f : ε' → ε} {action : Action ε' β}
    {next : β → Action ε α} (h : action.Yields host middle)
    (hok : ∀ b host', middle (.ok b) host' → (next b).Yields host' post)
    (herror : ∀ fault host', middle (.error fault) host' → post (.error (f fault)) host') :
    Yields (ExceptT.adapt f action >>= next : Action ε α) host post := by
  refine h.adapted.bind ?_ ?_
  · rintro b host' ⟨_ | b', hinner, hmiddle⟩ <;> cases hinner
    exact hok _ _ hmiddle
  · rintro fault host' ⟨fault' | _, hinner, hmiddle⟩ <;> cases hinner
    exact herror _ _ hmiddle

theorem yields_diagnose {diagnostic : Diagnostic} {post : Except ε Unit → Host → Prop}
    (h : post (.ok ()) { host with diagnosed := host.diagnosed ++ [diagnostic] }) :
    (diagnose diagnostic : Action ε Unit).Yields host post := h

theorem yields_look_bind {view : FileSystem → β} {next : β → Action ε α}
    (h : (next (view host.files)).Yields host post) :
    ((look view : Action ε β) >>= next).Yields host post := h

theorem yields_adjust_bind {edit : FileSystem → FileSystem} {next : Unit → Action ε α}
    (h : (next ()).Yields (host.settle (edit host.files)) post) :
    ((adjust edit : Action ε Unit) >>= next).Yields host post := h

theorem yields_request {ask : FileSystem → Except SystemFault (α × FileSystem)}
    {post : Except SystemFault α → Host → Prop}
    (herror : ∀ fault, (host.refusals = [] → ask host.files = .error fault) →
      post (.error fault) (host.served host.files))
    (hok : ∀ answer files, ask host.files = .ok (answer, files) →
      post (.ok answer) (host.served files)) :
    (request ask).Yields host post := by
  rw [Yields, perform_request]
  cases hplan : host.refusals.head?.join with
  | some fault =>
    refine herror fault fun hnil => ?_
    rw [hnil] at hplan
    cases hplan
  | none =>
    cases hask : ask host.files with
    | error fault => exact herror fault fun _ => hask
    | ok answer => exact hok answer.1 answer.2 hask

/-- A request is one moment, and the files are the same then if it is refused. -/
theorem yields_request_served {ask : FileSystem → Except SystemFault (α × FileSystem)} :
    (request ask).Yields host fun result host' => ∃ files, host' = host.served files ∧
      ∀ fault, result = .error fault → files = host.files := by
  refine yields_request ?_ ?_
  · exact fun _ _ => ⟨_, rfl, fun _ _ => rfl⟩
  · refine fun _ _ _ => ⟨_, rfl, ?_⟩
    rintro _ ⟨⟩

private theorem map_eq_error {x : Except ε α} {f : α → β} {fault : ε}
    (h : x.map f = .error fault) : x = .error fault := by
  cases x with
  | error fault' => simpa [Except.map] using h
  | ok a => cases h

private theorem map_eq_ok {x : Except ε α} {f : α → β} {b : β} (h : x.map f = .ok b) :
    ∃ a, x = .ok a ∧ f a = b := by
  cases x with
  | error fault => cases h
  | ok a => exact ⟨a, rfl, by simpa [Except.map] using h⟩

theorem yields_query {ask : FileSystem → Except SystemFault α}
    {post : Except SystemFault α → Host → Prop}
    (herror : ∀ fault, (host.refusals = [] → ask host.files = .error fault) →
      post (.error fault) (host.served host.files))
    (hok : ∀ answer, ask host.files = .ok answer → post (.ok answer) (host.served host.files)) :
    (query ask).Yields host post := by
  refine yields_request ?_ ?_
  · exact fun fault hask => herror fault fun hplan => map_eq_error (hask hplan)
  · intro answer files hask
    obtain ⟨_, ha, heq⟩ := map_eq_ok hask
    cases heq
    exact hok _ ha

theorem yields_change {ask : FileSystem → Except SystemFault FileSystem}
    {post : Except SystemFault Unit → Host → Prop}
    (herror : ∀ fault, (host.refusals = [] → ask host.files = .error fault) →
      post (.error fault) (host.served host.files))
    (hok : ∀ files, ask host.files = .ok files → post (.ok ()) (host.served files)) :
    (change ask).Yields host post := by
  refine yields_request ?_ ?_
  · exact fun fault hask => herror fault fun hplan => map_eq_error (hask hplan)
  · intro _ files hask
    obtain ⟨_, ha, heq⟩ := map_eq_ok hask
    cases heq
    exact hok _ ha

section

variable {f : SystemFault → ε}

theorem yields_request_bind {ask : FileSystem → Except SystemFault (β × FileSystem)}
    {next : β → Action ε α}
    (herror : ∀ fault, (host.refusals = [] → ask host.files = .error fault) →
      post (.error (f fault)) (host.served host.files))
    (hok : ∀ answer files, ask host.files = .ok (answer, files) →
      (next answer).Yields (host.served files) post) :
    Yields (ExceptT.adapt f (request ask) >>= next : Action ε α) host post := by
  have hask : (request ask).Yields host fun result host' => match result with
      | .ok b => (next b).Yields host' post
      | .error fault => post (.error (f fault)) host' := yields_request herror hok
  exact hask.adapt_bind (fun _ _ h => h) fun _ _ h => h

theorem yields_query_bind {ask : FileSystem → Except SystemFault β} {next : β → Action ε α}
    (herror : ∀ fault, (host.refusals = [] → ask host.files = .error fault) →
      post (.error (f fault)) (host.served host.files))
    (hok : ∀ answer, ask host.files = .ok answer →
      (next answer).Yields (host.served host.files) post) :
    Yields (ExceptT.adapt f (query ask) >>= next : Action ε α) host post := by
  refine yields_request_bind ?_ ?_
  · exact fun fault hask => herror fault fun hplan => map_eq_error (hask hplan)
  · intro answer files hask
    obtain ⟨_, ha, heq⟩ := map_eq_ok hask
    cases heq
    exact hok _ ha

theorem yields_change_bind {ask : FileSystem → Except SystemFault FileSystem}
    {next : Unit → Action ε α}
    (herror : ∀ fault, (host.refusals = [] → ask host.files = .error fault) →
      post (.error (f fault)) (host.served host.files))
    (hok : ∀ files, ask host.files = .ok files → (next ()).Yields (host.served files) post) :
    Yields (ExceptT.adapt f (change ask) >>= next : Action ε α) host post := by
  refine yields_request_bind ?_ ?_
  · exact fun fault hask => herror fault fun hplan => map_eq_error (hask hplan)
  · intro _ files hask
    obtain ⟨_, ha, heq⟩ := map_eq_ok hask
    cases heq
    exact hok _ ha

end

/-! ## Which faults an action can end in -/

/-- From any host the action ends in a result, or in a fault that meets the condition. -/
def FailsOnly (action : Action ε α) (allowed : ε → Prop) : Prop :=
  ∀ host, action.Yields host fun result _ => ∀ fault, result = .error fault → allowed fault

section

variable {action : Action ε α} {allowed : ε → Prop} {fault : ε} {host' : Host}

theorem FailsOnly.allows (h : action.FailsOnly allowed)
    (hperform : action.perform host = (.error fault, host')) : allowed fault :=
  (h host).of_perform hperform fault rfl

theorem FailsOnly.of_ok (h : ∀ host, ∃ a, (action.perform host).1 = .ok a) :
    action.FailsOnly allowed := by
  intro host fault hfault
  obtain ⟨a, ha⟩ := h host
  rw [ha] at hfault
  cases hfault

theorem failsOnly_throw (h : allowed fault) : (throw fault : Action ε α).FailsOnly allowed := by
  rintro host _ ⟨⟩
  exact h

theorem failsOnly_adapt {inner : Action ε' α} {f : ε' → ε} (h : ∀ fault, allowed (f fault)) :
    FailsOnly (ExceptT.adapt f inner : Action ε α) allowed := by
  intro host
  have hinner : inner.Yields host fun _ _ => True := trivial
  refine hinner.adapted.mono ?_
  rintro result host' ⟨ended, rfl, -⟩ fault hfault
  cases ended with
  | ok => cases hfault
  | error cause =>
    cases hfault
    exact h cause

theorem FailsOnly.bind {next : α → Action ε β} (h : action.FailsOnly allowed)
    (hnext : ∀ a, (next a).FailsOnly allowed) : (action >>= next).FailsOnly allowed := by
  intro host
  refine Yields.bind (h host) (fun a host' _ => hnext a host') ?_
  rintro fault host' hfault _ ⟨⟩
  exact hfault fault rfl

end

end Action

namespace Work

open Host

variable {α β : Type} {host : Host} {post : α → Host → Prop}

/-- From this host the work ends in a result and a host that meet the condition. -/
def Yields (work : Work α) (host : Host) (post : α → Host → Prop) : Prop :=
  post (work.run host).1 (work.run host).2

theorem Yields.bind {middle : β → Host → Prop} {work : Work β} {next : β → Work α}
    (h : work.Yields host middle)
    (hnext : ∀ b host', middle b host' → (next b).Yields host' post) :
    (work >>= next).Yields host post :=
  hnext _ _ h

theorem yields_print_bind {line : Console.Line} {next : Unit → Work α}
    (h : (next ()).Yields { host with printed := host.printed ++ [line] } post) :
    ((print line : Work Unit) >>= next).Yields host post := h

theorem yields_run {ε : Type} {action : Action ε α} {post : Except ε α → Host → Prop}
    (h : action.Yields host post) : Work.Yields action.run host post := h

theorem run_eq {work : Work α} {a : α} (h : (work.run host).1 = a) :
    work.run host = (a, (work.run host).2) :=
  Prod.ext h rfl

theorem run_mapM_cons {β : Type} {step : α → Work β} {a : α} {l : List α} {b : β} {bs : List β}
    {host₁ host₂ : Host} (hfirst : (step a).run host = (b, host₁))
    (hrest : (l.mapM step).run host₁ = (bs, host₂)) :
    ((a :: l).mapM step).run host = (b :: bs, host₂) := by
  rw [List.mapM_cons, StateT.run_bind, hfirst]
  change StateT.run (l.mapM step >>= fun bs => pure (b :: bs)) host₁ = (b :: bs, host₂)
  rw [StateT.run_bind, hrest]
  rfl

end Work

end CaseReport
