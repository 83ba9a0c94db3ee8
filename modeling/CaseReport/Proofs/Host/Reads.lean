import CaseReport.Proofs.Host.Yields

/-!
# Actions that only read

Such an action leaves the files as they are, at every moment of it. Its answer depends on the files
alone, unless a request is refused by plan, and then it is a fault or still that answer.
-/

namespace CaseReport

section

variable {α β ε ε' : Type} {x : Except ε α} {f : ε → ε'} {next : α → Except ε' β}

theorem mapError_bind_eq_ok_iff {b : β} :
    (x.mapError f >>= next) = .ok b ↔ ∃ a, x = .ok a ∧ next a = .ok b := by
  cases x with
  | error fault =>
    constructor
    · rintro ⟨⟩
    · rintro ⟨a, ⟨⟩, -⟩
  | ok a =>
    constructor
    · exact fun h => ⟨a, rfl, h⟩
    · rintro ⟨_, ⟨⟩, h⟩
      exact h

theorem mapError_bind_eq_error_iff {fault' : ε'} :
    (x.mapError f >>= next) = .error fault' ↔
      (∃ fault, x = .error fault ∧ f fault = fault') ∨ ∃ a, x = .ok a ∧ next a = .error fault' := by
  cases x with
  | error fault =>
    constructor
    · exact fun h => .inl ⟨fault, rfl, Except.error.inj h⟩
    · rintro (⟨_, ⟨⟩, rfl⟩ | ⟨_, ⟨⟩, -⟩)
      rfl
  | ok a =>
    constructor
    · exact fun h => .inr ⟨a, rfl, h⟩
    · rintro (⟨_, ⟨⟩, -⟩ | ⟨_, ⟨⟩, h⟩)
      exact h

end

/-- The text of the file that a path leads to. -/
def FileSystem.readText (fs : FileSystem) (path : Path) : Except ReadCause (List Char) := do
  let content ← (fs.read path).mapError .system
  match Text.Utf8.decode? content with
  | none => .error .notUtf8
  | some text => .ok text

namespace Action

open Host

variable {α β ε ε' : Type} {host : Host} {answer : Except ε α}

/-- An action has ended in this answer, or in a fault because something was refused by plan. -/
structure Answered (host : Host) (answer result : Except ε α) (host' : Host) : Prop where
  silently : host.Silently host'
  unmoved : host.Unmoved host'
  exact : host.refusals = [] → result = answer
  sound : ∀ a, result = .ok a → answer = .ok a

theorem Answered.files {result : Except ε α} {host' : Host}
    (h : Answered host answer result host') : host'.files = host.files :=
  h.unmoved.files

/-- From this host the action gives this answer and changes no file. -/
def Reads (action : Action ε α) (host : Host) (answer : Except ε α) : Prop :=
  action.Yields host (Answered host answer)

theorem reads_pure {a : α} : (pure a : Action ε α).Reads host (.ok a) :=
  yields_pure ⟨.refl host, .refl host, fun _ => rfl, fun _ h => h⟩

theorem reads_throw {fault : ε} : (throw fault : Action ε α).Reads host (.error fault) :=
  yields_throw ⟨.refl host, .refl host, fun _ => rfl, fun _ h => h⟩

theorem reads_query {ask : FileSystem → Except SystemFault α} :
    (query ask).Reads host (ask host.files) := by
  refine yields_query ?_ ?_
  · intro fault hask
    refine ⟨(Silently.refl host).served _, unmoved_served host, fun hplan => (hask hplan).symm, ?_⟩
    rintro a ⟨⟩
  · intro a hask
    rw [hask]
    exact ⟨(Silently.refl host).served _, unmoved_served host, fun _ => rfl, fun _ h => h⟩

theorem Reads.adapt {action : Action ε α} {f : ε → ε'} (h : action.Reads host answer) :
    Reads (ExceptT.adapt f action : Action ε' α) host (answer.mapError f) := by
  refine Yields.adapt (Yields.mono h ?_)
  intro result host' hanswered
  refine ⟨hanswered.silently, hanswered.unmoved, fun hplan => by rw [hanswered.exact hplan], ?_⟩
  intro a ha
  cases result with
  | error fault => cases ha
  | ok a' =>
    cases ha
    rw [hanswered.sound a rfl]
    rfl

theorem Reads.bind {answer : Except ε β} {next : β → Action ε α} {action : Action ε β}
    {continuation : β → Except ε α} (h : action.Reads host answer)
    (hnext : ∀ b host', host'.files = host.files → (next b).Reads host' (continuation b)) :
    (action >>= next).Reads host (answer >>= continuation) := by
  refine Yields.bind h ?_ ?_
  · intro b host' hanswered
    refine (hnext b host' hanswered.files).mono ?_
    intro result host'' hanswered'
    rw [hanswered.sound b rfl]
    exact ⟨hanswered.silently.trans hanswered'.silently,
      hanswered.unmoved.trans hanswered'.unmoved,
      fun hplan => hanswered'.exact (hanswered.silently.refusals_eq_nil hplan), hanswered'.sound⟩
  · intro fault host' hanswered
    refine ⟨hanswered.silently, hanswered.unmoved, ?_, ?_⟩
    · intro hplan
      rw [← hanswered.exact hplan]
      rfl
    · rintro a ⟨⟩

theorem reads_readText (path : Path) :
    (Host.readText path).Reads host (host.files.readText path) := by
  rw [Host.readText, FileSystem.readText]
  refine Reads.bind reads_query.adapt ?_
  intro content host' _
  cases Text.Utf8.decode? content with
  | none => exact reads_throw
  | some text => exact reads_pure

end Action

end CaseReport
