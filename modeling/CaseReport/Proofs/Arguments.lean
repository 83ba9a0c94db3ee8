import CaseReport.Arguments

/-!
# Spelling a command line

A command line is a list of arguments in any order, each spelled in one of the ways it may be, and
perhaps a log behind the separator. Reading the words of such a line gives its log and the values of
its options, unless an option has more than one value.
-/

namespace CaseReport

/-- The name of an option. -/
def PathOption.name : PathOption → String
  | .config => "config"
  | .report => "report"

namespace Arguments

/-! ## Command lines -/

/-- An argument of a command line. -/
inductive Argument where
  | log (value : String)
  /-- An option with its value in the same word, behind an equals sign. -/
  | attached (option : PathOption) (value : String)
  /-- An option with its value in the next word. -/
  | separate (option : PathOption) (value : String)
  deriving Repr, DecidableEq

/-- A word that looks like an option. -/
def StartsWithDash (value : String) : Prop :=
  value.toList.head? = some '-'

instance (value : String) : Decidable (StartsWithDash value) :=
  inferInstanceAs (Decidable (_ = _))

namespace Argument

/-- The words of an argument. -/
def words : Argument → List String
  | .log value => [value]
  | .attached option value => ["--" ++ option.name ++ "=" ++ value]
  | .separate option value => ["--" ++ option.name, value]

/-- No value is empty, and one that is a word of its own does not look like an option. -/
def WellSpelled : Argument → Prop
  | .log value => value ≠ "" ∧ ¬StartsWithDash value
  | .attached _ value => value ≠ ""
  | .separate _ value => value ≠ "" ∧ ¬StartsWithDash value

instance : DecidablePred WellSpelled
  | .log _ => inferInstanceAs (Decidable (_ ∧ _))
  | .attached _ _ => inferInstanceAs (Decidable (_ ≠ _))
  | .separate _ _ => inferInstanceAs (Decidable (_ ∧ _))

/-- The log, if the argument is one. -/
def log? : Argument → Option String
  | .log value => some value
  | _ => none

/-- The value that an argument gives to an option. -/
def valueFor? (option : PathOption) : Argument → Option String
  | .log _ => none
  | .attached other value => if other = option then some value else none
  | .separate other value => if other = option then some value else none

end Argument

/-- A command line. -/
structure CommandLine where
  arguments : List Argument
  /-- The log, if it is behind the separator. -/
  behind : Option String := none
  deriving Repr, DecidableEq

namespace CommandLine

/-- The words of what is behind the arguments. -/
def tail : Option String → List String
  | none => []
  | some log => ["--", log]

/-- The words of a command line. -/
def words (line : CommandLine) : List String :=
  line.arguments.flatMap Argument.words ++ tail line.behind

/-- Every log that a command line names. -/
def logs (line : CommandLine) : List String :=
  line.arguments.filterMap Argument.log? ++ line.behind.toList

/-- Every value that a command line gives to an option. -/
def valuesOf (line : CommandLine) (option : PathOption) : List String :=
  line.arguments.filterMap (Argument.valueFor? option)

/-- A log behind the separator may look like an option. -/
structure WellSpelled (line : CommandLine) : Prop where
  arguments : ∀ argument ∈ line.arguments, argument.WellSpelled
  behind : ∀ log ∈ line.behind, log ≠ ""

end CommandLine

/-! ## Words -/

theorem word_of_option (option : PathOption) :
    Word.of ("--" ++ option.name).toList = .long option.name.toList none := by
  cases option <;> decide

theorem word_of_attached (option : PathOption) (value : String) :
    Word.of ("--" ++ option.name ++ "=" ++ value).toList =
      .long option.name.toList (some value.toList) := by
  rw [String.toList_append]
  cases option <;> rfl

theorem word_of_value {value : String} (h : ¬StartsWithDash value) :
    Word.of value.toList = .value := by
  unfold Word.of
  split
  · next hs => exact absurd (by rw [StartsWithDash, hs]; rfl) h
  · next hs => exact absurd (by rw [StartsWithDash, hs]; rfl) h
  · next hs => exact absurd (by rw [StartsWithDash, hs]; rfl) h
  · rfl

theorem optionNamed?_name (option : PathOption) :
    optionNamed? option.name.toList = some option := by
  cases option <;> decide

/-! ## What is settled -/

namespace Progress

variable {p q q' : Progress} {option other : PathOption} {value log : String} {argument : Argument}
  {arguments : List Argument} {behind : Option String}

/-- The progress with a value for an option. -/
def give (p : Progress) (value : String) : PathOption → Progress
  | .config => { p with config := some value }
  | .report => { p with report := some value }

@[simp] theorem log_give : (p.give value option).log = p.log := by
  cases option <;> rfl

@[simp] theorem pending_give : (p.give value option).pending = p.pending := by
  cases option <;> rfl

theorem valueOf_give : (p.give value option).valueOf other =
    if option = other then some value else p.valueOf other := by
  cases option <;> cases other <;> rfl

theorem assign_of_isSome (h : (p.valueOf option).isSome = true) :
    p.assign option value = .error .repeatedOption := by
  unfold assign
  rw [if_pos h]

theorem assign_eq_ok_iff : p.assign option value = .ok q ↔
    p.valueOf option = none ∧ value ≠ "" ∧ q = p.give value option := by
  unfold assign
  cases hvalue : p.valueOf option with
  | some _ => simp
  | none =>
    by_cases hempty : value = ""
    · simp [hempty]
    · rw [if_neg (by simp), if_neg (by simpa using hempty)]
      cases option with
      | config => simpa [hempty, give] using eq_comm
      | report => simpa [hempty, give] using eq_comm

theorem isSome_of_assign_error {fault : ArgumentFault} (hvalue : value ≠ "")
    (h : p.assign option value = .error fault) : (p.valueOf option).isSome = true := by
  cases hsome : p.valueOf option with
  | some _ => rfl
  | none => cases h.symm.trans (assign_eq_ok_iff.2 ⟨hsome, hvalue, rfl⟩)

theorem pending_of_settle (h : p.settle = .ok q) : q.pending = .nothing := by
  rw [settle] at h
  split at h
  · next hpending =>
    cases h
    exact hpending
  · split at h
    · cases h
    · cases h
      rfl
  · cases h
  · obtain ⟨-, -, rfl⟩ := assign_eq_ok_iff.1 h
    rw [pending_give]

theorem settle_of_pending (h : p.pending = .nothing) : p.settle = .ok p := by
  rw [settle, h]

theorem settle_log (hvalue : value ≠ "") : ({ p with pending := .log value } : Progress).settle =
    .ok { p with log := some value, pending := .nothing } := by
  rw [settle]
  simp [hvalue]

theorem settle_optionValue (h : p.pending = .nothing) :
    ({ p with pending := .optionValue option value } : Progress).settle =
      p.assign option value := by
  have hsame : ({ p with pending := .nothing } : Progress) = p := by rw [← h]
  rw [settle, hsame]

theorem hasLog_of_settle (h : p.settle = .ok q) : p.hasLog = q.log.isSome := by
  rw [settle] at h
  split at h
  · next hpending =>
    cases h
    rw [hasLog, hpending, Bool.or_false]
  · next hpending =>
    split at h
    · cases h
    · cases h
      rw [hasLog, hpending, Bool.or_true]
      rfl
  · cases h
  · next hpending =>
    obtain ⟨-, -, rfl⟩ := assign_eq_ok_iff.1 h
    rw [hasLog, hpending, Bool.or_false, log_give]

theorem takeLog_of_settle (h : p.settle = .ok q) (hlog : q.log = none) (value : String) :
    p.takeLog value = .ok { q with pending := .log value } := by
  have hfree : p.hasLog = false := by rw [hasLog_of_settle h, hlog, Option.isSome_none]
  rw [takeLog, hfree, h]
  rfl

theorem takeValue_of_settle (h : p.settle = .ok q) (value : String) :
    p.takeValue value = p.takeLog value := by
  rw [takeValue]
  split
  · next hpending =>
    rw [settle, hpending] at h
    cases h
  · rfl

/-- What an argument does when everything in front of it is settled. -/
def after (q : Progress) : Argument → Except ArgumentFault Progress
  | .log value => .ok { q with log := some value }
  | .attached option value => q.assign option value
  | .separate option value => q.assign option value

/-- The values of an option, settled or to come. -/
def given (q : Progress) (arguments : List Argument) (option : PathOption) : List String :=
  (q.valueOf option).toList ++ arguments.filterMap (Argument.valueFor? option)

/-- The logs, settled or to come. -/
def named (q : Progress) (arguments : List Argument) (behind : Option String) : List String :=
  q.log.toList ++ (arguments.filterMap Argument.log? ++ behind.toList)

/-- A log that is to come is the first one. -/
theorem log_eq_none_of_named (hlogs : q.named arguments behind = [log])
    (hmore : arguments.filterMap Argument.log? ++ behind.toList ≠ []) : q.log = none := by
  cases hlog : q.log with
  | none => rfl
  | some other =>
    rw [named, hlog, Option.toList_some, List.singleton_append, List.cons.injEq] at hlogs
    exact absurd hlogs.2 hmore

/-- An option that has a value is given another one. -/
theorem one_lt_length_given (hsome : (q.valueOf option).isSome = true)
    (hargument : argument.valueFor? option = some value) :
    1 < (q.given (argument :: arguments) option).length := by
  obtain ⟨first, hfirst⟩ := Option.isSome_iff_exists.1 hsome
  rw [given, hfirst, List.filterMap_cons_some hargument]
  simp

theorem given_of_assign (h : q.assign option value = .ok q')
    (hargument : ∀ other, argument.valueFor? other = if option = other then some value else none) :
    q'.given arguments = q.given (argument :: arguments) := by
  obtain ⟨hnone, -, rfl⟩ := assign_eq_ok_iff.1 h
  funext other
  rw [given, given, valueOf_give, List.filterMap_cons, hargument]
  by_cases hother : option = other
  · rw [if_pos hother, if_pos hother, ← hother, hnone]
    rfl
  · rw [if_neg hother, if_neg hother]

/-- Nothing that is given is lost. -/
theorem given_after (h : q.after argument = .ok q') :
    q'.given arguments = q.given (argument :: arguments) := by
  cases argument with
  | log value =>
    cases h
    rfl
  | attached option value => exact given_of_assign h fun _ => rfl
  | separate option value => exact given_of_assign h fun _ => rfl

theorem named_after (h : q.after argument = .ok q')
    (hlogs : q.named (argument :: arguments) behind = [log]) :
    q'.named arguments behind = [log] := by
  cases argument with
  | log value =>
    cases h
    cases hlog : q.log with
    | none => simpa [named, hlog, Argument.log?] using hlogs
    | some other => simp [named, hlog, Argument.log?] at hlogs
  | attached option value =>
    obtain ⟨-, -, rfl⟩ := assign_eq_ok_iff.1 h
    rw [named, List.filterMap_cons_none rfl] at hlogs
    rw [named, log_give]
    exact hlogs
  | separate option value =>
    obtain ⟨-, -, rfl⟩ := assign_eq_ok_iff.1 h
    rw [named, List.filterMap_cons_none rfl] at hlogs
    rw [named, log_give]
    exact hlogs

end Progress

/-! ## Reading -/

section

variable {p q q' : Progress} {option : PathOption} {value log : String} {argument : Argument}
  {arguments : List Argument} {behind : Option String} {words : List String}

open Progress

theorem readWords_separator (words : List String) :
    readWords p ("--" :: words) = readValues p words := by
  rw [readWords]
  rfl

theorem readWords_value (h : ¬StartsWithDash value) :
    readWords p (value :: words) = (p.takeValue value >>= fun p' => readWords p' words) := by
  rw [readWords, word_of_value h]

theorem readWords_option : readWords p (("--" ++ option.name) :: words) =
    (p.takeOption option none >>= fun p' => readWords p' words) := by
  rw [readWords, word_of_option]
  simp only [optionNamed?_name]

theorem readWords_attached : readWords p (("--" ++ option.name ++ "=" ++ value) :: words) =
    (p.takeOption option (some value.toList) >>= fun p' => readWords p' words) := by
  rw [readWords, word_of_attached]
  simp only [optionNamed?_name]

/-- The value of an option in a word of its own is settled with the next word. -/
theorem readWords_separate (hsettle : p.settle = .ok q) (hvalue : ¬StartsWithDash value) :
    readWords p ((Argument.separate option value).words ++ words) =
      readWords { q with pending := .optionValue option value } words := by
  rw [Argument.words, List.cons_append, readWords_option, takeOption, hsettle]
  exact readWords_value hvalue

/-- An argument that can be settled is read. -/
theorem readWords_argument (hsettle : p.settle = .ok q) (hspelled : argument.WellSpelled)
    (hlogs : q.named (argument :: arguments) behind = [log]) (hafter : q.after argument = .ok q') :
    ∃ p', readWords p (argument.words ++ words) = readWords p' words ∧ p'.settle = .ok q' := by
  have hidle := pending_of_settle hsettle
  cases argument with
  | log value =>
    cases hafter
    have hnone : q.log = none := log_eq_none_of_named hlogs (List.cons_ne_nil _ _)
    refine ⟨{ q with pending := .log value }, ?_, ?_⟩
    · rw [Argument.words, List.singleton_append, readWords_value hspelled.2,
        takeValue_of_settle hsettle, takeLog_of_settle hsettle hnone]
      rfl
    · rw [settle_log hspelled.1, hidle]
  | attached option value =>
    have hassign : q.assign option value = .ok q' := hafter
    refine ⟨q', ?_, settle_of_pending ?_⟩
    · rw [Argument.words, List.singleton_append, readWords_attached, takeOption, hsettle]
      simp only [bind, Except.bind, String.ofList_toList, hassign]
    · obtain ⟨-, -, rfl⟩ := assign_eq_ok_iff.1 hassign
      rw [pending_give, hidle]
  | separate option value =>
    refine ⟨_, readWords_separate hsettle hspelled.2, ?_⟩
    rw [settle_optionValue hidle]
    exact hafter

/-- The value of an option that cannot be settled is told before a log that comes next. -/
theorem takeLog_of_settle_error {fault : ArgumentFault}
    (hpending : p.pending = .optionValue option value) (hsettle : p.settle = .error fault)
    (hlog : p.log = none) (other : String) : p.takeLog other = .error fault := by
  have hfree : p.hasLog = false := by rw [hasLog, hpending, hlog, Option.isSome_none, Bool.or_false]
  rw [takeLog, hfree, hsettle]
  rfl

/-- What cannot be settled ends the reading, whatever comes next. -/
theorem readWords_of_settle_error {fault : ArgumentFault}
    (hpending : p.pending = .optionValue option value) (hsettle : p.settle = .error fault)
    (hspelled : ∀ argument ∈ arguments, argument.WellSpelled)
    (hlogs : p.named arguments behind = [log]) :
    readWords p (arguments.flatMap Argument.words ++ CommandLine.tail behind) = .error fault := by
  cases arguments with
  | nil =>
    cases behind with
    | none =>
      rw [CommandLine.tail, List.flatMap_nil, List.append_nil, readWords, finish, hsettle]
      rfl
    | some last =>
      have hnone : p.log = none := log_eq_none_of_named hlogs (List.cons_ne_nil _ _)
      rw [CommandLine.tail, List.flatMap_nil, List.nil_append, readWords_separator, readValues,
        takeLog_of_settle_error hpending hsettle hnone]
      rfl
  | cons argument arguments =>
    rw [List.forall_mem_cons] at hspelled
    rw [List.flatMap_cons]
    cases argument with
    | log next =>
      have hnone : p.log = none := log_eq_none_of_named hlogs (List.cons_ne_nil _ _)
      have htake : p.takeValue next = p.takeLog next := by rw [takeValue, hpending]
      rw [Argument.words, List.singleton_append, List.cons_append, readWords_value hspelled.1.2,
        htake, takeLog_of_settle_error hpending hsettle hnone]
      rfl
    | attached other next =>
      rw [Argument.words, List.singleton_append, List.cons_append, readWords_attached, takeOption,
        hsettle]
      rfl
    | separate other next =>
      rw [Argument.words, List.cons_append, List.cons_append, readWords_option, takeOption,
        hsettle]
      rfl

/-- An argument that gives a second value to an option is refused. -/
theorem readWords_of_after_error {fault : ArgumentFault} (hsettle : p.settle = .ok q)
    (hspelled : ∀ other ∈ argument :: arguments, other.WellSpelled)
    (hlogs : q.named (argument :: arguments) behind = [log])
    (hafter : q.after argument = .error fault) :
    (∃ option, 1 < (q.given (argument :: arguments) option).length) ∧
      readWords p ((argument :: arguments).flatMap Argument.words ++ CommandLine.tail behind) =
        .error .repeatedOption := by
  rw [List.forall_mem_cons] at hspelled
  rw [List.flatMap_cons, List.append_assoc]
  cases argument with
  | log value => cases hafter
  | attached option value =>
    have hsome := isSome_of_assign_error hspelled.1 hafter
    refine ⟨⟨option, one_lt_length_given hsome (if_pos rfl)⟩, ?_⟩
    rw [Argument.words, List.singleton_append, readWords_attached, takeOption, hsettle]
    simp only [bind, Except.bind, String.ofList_toList, assign_of_isSome hsome]
  | separate option value =>
    have hsome := isSome_of_assign_error hspelled.1.1 hafter
    refine ⟨⟨option, one_lt_length_given hsome (if_pos rfl)⟩, ?_⟩
    -- The second value is only missed when the next word comes.
    rw [readWords_separate hsettle hspelled.1.2]
    refine readWords_of_settle_error rfl ?_ hspelled.2 hlogs
    rw [settle_optionValue (pending_of_settle hsettle)]
    exact assign_of_isSome hsome

/-- Behind the arguments, reading ends with what has been given. -/
theorem readWords_tail (hsettle : p.settle = .ok q) (hbehind : ∀ last ∈ behind, last ≠ "")
    (hlogs : q.named [] behind = [log]) :
    readWords p (CommandLine.tail behind) = .ok (.run ⟨log, q.config, q.report⟩) := by
  cases behind with
  | none =>
    have hlog : q.log = some log := by
      rw [named, List.filterMap_nil, List.nil_append, Option.toList_none, List.append_nil] at hlogs
      exact Option.toList_eq_singleton_iff.1 hlogs
    rw [CommandLine.tail, readWords, finish, hsettle]
    simp only [bind, Except.bind, hlog]
    rfl
  | some last =>
    have hnone : q.log = none := log_eq_none_of_named hlogs (List.cons_ne_nil _ _)
    obtain rfl : last = log := by simpa [named, hnone] using hlogs
    rw [CommandLine.tail, readWords_separator, readValues, takeLog_of_settle hsettle hnone]
    simp only [bind, Except.bind, readValues, finish, settle_log (hbehind last rfl)]
    rfl

/-- Reading the words of a command line whose front is settled. -/
theorem readWords_words (hsettle : p.settle = .ok q)
    (hspelled : ∀ argument ∈ arguments, argument.WellSpelled) (hbehind : ∀ last ∈ behind, last ≠ "")
    (hlogs : q.named arguments behind = [log]) :
    ((∀ option, (q.given arguments option).length ≤ 1) →
      readWords p (arguments.flatMap Argument.words ++ CommandLine.tail behind) =
        .ok (.run ⟨log, (q.given arguments .config).head?, (q.given arguments .report).head?⟩)) ∧
    ((∃ option, 1 < (q.given arguments option).length) →
      readWords p (arguments.flatMap Argument.words ++ CommandLine.tail behind) =
        .error .repeatedOption) := by
  -- Reading an argument settles what was in front of it, so `p` and `q` change with each of them;
  -- the values and logs in `q` together with those that are to come stay the same.
  induction arguments generalizing p q with
  | nil =>
    have hgiven : ∀ option, q.given [] option = (q.valueOf option).toList :=
      fun _ => List.append_nil _
    constructor
    · intro _
      rw [hgiven, hgiven, Option.head?_toList, Option.head?_toList, List.flatMap_nil,
        List.nil_append]
      exact readWords_tail hsettle hbehind hlogs
    · rintro ⟨option, hoption⟩
      rw [hgiven] at hoption
      exact absurd hoption (Nat.not_lt.2 Option.length_toList_le)
  | cons argument arguments ih =>
    cases hafter : q.after argument with
    | error fault =>
      obtain ⟨hrepeated, hread⟩ := readWords_of_after_error hsettle hspelled hlogs hafter
      refine ⟨?_, fun _ => hread⟩
      intro honce
      obtain ⟨option, hoption⟩ := hrepeated
      exact absurd (honce option) (Nat.not_le.2 hoption)
    | ok q' =>
      rw [List.forall_mem_cons] at hspelled
      obtain ⟨p', hread, hsettle'⟩ := readWords_argument hsettle hspelled.1 hlogs hafter
      rw [List.flatMap_cons, List.append_assoc, hread, ← given_after hafter]
      exact ih hsettle' hspelled.2 (named_after hafter hlogs)

end

/-- A command line that names one log, and gives no option twice, is read as that log and the values
of the options, in whichever order and spelling they come. If an option is given twice, wherever it
is, the command line is refused for it. -/
theorem parse_words {line : CommandLine} (h : line.WellSpelled) {log : String}
    (hlog : line.logs = [log]) :
    ((∀ option, (line.valuesOf option).length ≤ 1) → parse line.words =
      .ok (.run ⟨log, (line.valuesOf .config).head?, (line.valuesOf .report).head?⟩)) ∧
    ((∃ option, 1 < (line.valuesOf option).length) →
      parse line.words = .error .repeatedOption) := by
  have hfresh : ({} : Progress).settle = .ok {} := rfl
  have hlogs : ({} : Progress).named line.arguments line.behind = [log] := hlog
  have hgiven : ({} : Progress).given line.arguments = line.valuesOf := by
    funext option
    cases option <;> rfl
  have hread := readWords_words hfresh h.arguments h.behind hlogs
  rw [hgiven] at hread
  exact hread

/-- Values that look like an option or like the separator are read all the same, and an option that
is given once more behind them is noticed. -/
theorem parse_words_confusing :
    parse ["--report=--config=c", "--config", "a=b", "--", "--"] =
        .ok (.run ⟨"--", some "a=b", some "--config=c"⟩) ∧
      parse ["l", "--report=--config=c", "--config", "a=b", "--report", "r"] =
        .error .repeatedOption := by
  constructor
  · have h : CommandLine.WellSpelled
        ⟨[.attached .report "--config=c", .separate .config "a=b"], some "--"⟩ :=
      ⟨by decide, by decide⟩
    exact (parse_words h rfl).1 fun option => by cases option <;> decide
  · have h : CommandLine.WellSpelled
        ⟨[.log "l", .attached .report "--config=c", .separate .config "a=b", .separate .report "r"],
          none⟩ :=
      ⟨by decide, by decide⟩
    exact (parse_words h rfl).2 ⟨.report, by decide⟩

end Arguments

end CaseReport
