import CaseReport.Proofs.Cases.Members
import CaseReport.Proofs.Run.Steps
import CaseReport.Proofs.Text.Lossy

/-!
# Reading case documents

A text is read as the cases that it denotes, and no other text is accepted.
-/

namespace CaseReport.Cases

open Json

variable {first : Bool} {s t rest w gap : List Char} {texts : List String} {group : Group}
  {members : List Member} {expected : Cases}

/-! ## Whole texts -/

theorem endOfList_eq_ok_iff : endOfList s = .ok rest ↔ ∃ w, IsBlank w ∧ s = w ++ ']' :: rest := by
  constructor
  · intro h
    unfold endOfList at h
    split at h
    · cases h
    · next hs =>
      cases h
      exact exists_of_skipSpace hs
    · split at h <;> cases h
    · cases h
  · rintro ⟨w, hw, rfl⟩
    rw [endOfList, skipSpace_eq_cons hw rfl]
    rfl

theorem exists_list_of_nextElement (h : nextElement first s = .ok (true, t))
    (hread : readList t = .ok (texts, rest)) :
    ∃ gap list, IsGap first gap ∧ AreStrings list texts ∧ s = gap ++ (list ++ rest) := by
  obtain ⟨gap, hgap, rfl⟩ := isGap_of_nextElement h
  obtain ⟨w, list, hw, hlist, rfl⟩ := readList_eq_ok_iff.1 hread
  exact ⟨gap ++ w, list, hgap.append hw, hlist, by simp⟩

theorem exists_nextElement {list : List Char} (hgap : IsGap first gap)
    (hlist : AreStrings list texts) (rest : List Char) :
    ∃ t, nextElement first (gap ++ (list ++ rest)) = .ok (true, t) ∧
      readList t = .ok (texts, rest) := by
  have hread := readList_eq_ok_iff.2 ⟨[], list, isBlank_nil, hlist, (rfl : _ = [] ++ (_ ++ rest))⟩
  obtain ⟨items, -, body, -, rfl⟩ := hlist
  exact ⟨_, nextElement_append hgap rfl (by decide), hread⟩

theorem steps_of_readPair (h : readPair s = .ok (expected, rest)) :
    ∃ s₁ s₂ s₃ s₄, nextElement true s = .ok (true, s₁) ∧ readList s₁ = .ok (expected.setup, s₂) ∧
      nextElement false s₂ = .ok (true, s₃) ∧ readList s₃ = .ok (expected.e2e, s₄) ∧
      endOfList s₄ = .ok rest := by
  obtain ⟨⟨more, s₁⟩, hfirst, h⟩ := bind_eq_ok_iff.1 h
  cases more with
  | false => cases h
  | true =>
    obtain ⟨⟨setup, s₂⟩, hsetup, h⟩ := bind_eq_ok_iff.1 h
    obtain ⟨⟨more, s₃⟩, hsecond, h⟩ := bind_eq_ok_iff.1 h
    cases more with
    | false => cases h
    | true =>
      obtain ⟨⟨e2e, s₄⟩, he2e, h⟩ := bind_eq_ok_iff.1 h
      obtain ⟨rest', hend, h⟩ := bind_eq_ok_iff.1 h
      cases h
      exact ⟨s₁, s₂, s₃, s₄, hfirst, hsetup, hsecond, he2e, hend⟩

theorem readPair_eq_ok_iff : readPair s = .ok (expected, rest) ↔
    ∃ setup e2e body, AreStrings setup expected.setup ∧ AreStrings e2e expected.e2e ∧
      AreItems true [setup, e2e] body ∧ s = body ++ ']' :: rest := by
  constructor
  · intro h
    obtain ⟨s₁, s₂, s₃, s₄, hfirst, hsetup, hsecond, he2e, hend⟩ := steps_of_readPair h
    obtain ⟨gap, setup, hgap, hlist, rfl⟩ := exists_list_of_nextElement hfirst hsetup
    obtain ⟨gap', e2e, hgap', hlist', rfl⟩ := exists_list_of_nextElement hsecond he2e
    obtain ⟨w, hw, rfl⟩ := endOfList_eq_ok_iff.1 hend
    exact ⟨setup, e2e, _, hlist, hlist', .cons hgap (.cons hgap' (.nil hw)), by simp⟩
  · rintro ⟨setup, e2e, _, hsetup, he2e, hbody, rfl⟩
    cases hbody with
    | @cons _ gap _ _ _ hgap hbody =>
      cases hbody with
      | @cons _ gap' _ _ w hgap' hbody =>
        cases hbody with
        | nil hw =>
          have hend := endOfList_eq_ok_iff.2 ⟨w, hw, (rfl : w ++ ']' :: rest = _)⟩
          obtain ⟨s₃, hsecond, he2e⟩ := exists_nextElement hgap' he2e (w ++ ']' :: rest)
          obtain ⟨s₁, hfirst, hsetup⟩ :=
            exists_nextElement hgap hsetup (gap' ++ (e2e ++ (w ++ ']' :: rest)))
          simp only [List.append_assoc]
          refine bind_eq_ok_iff.2 ⟨_, hfirst, bind_eq_ok_iff.2 ⟨_, hsetup, bind_eq_ok_iff.2
            ⟨_, hsecond, bind_eq_ok_iff.2 ⟨_, he2e, bind_eq_ok_iff.2 ⟨_, hend, rfl⟩⟩⟩⟩⟩

theorem fills_fresh_iff : Fills (({} : Fields).ofGroup group) members group texts ↔
    Supplies members group texts := by
  cases group <;> exact Iff.rfl

theorem readDocument_eq_ok_iff : readDocument s = .ok (expected, rest) ↔
    ∃ w document, IsBlank w ∧ IsDocument document expected ∧ s = w ++ (document ++ rest) := by
  constructor
  · intro h
    unfold readDocument at h
    split at h
    · cases h
    · next hs =>
      obtain ⟨w, hw, rfl⟩ := exists_of_skipSpace hs
      obtain ⟨setup, e2e, body, hsetup, he2e, hbody, rfl⟩ := readPair_eq_ok_iff.1 h
      exact ⟨w, _, hw, .list ⟨body, hbody, rfl⟩ hsetup he2e,
        by simp⟩
    · next hs =>
      obtain ⟨w, hw, rfl⟩ := exists_of_skipSpace hs
      obtain ⟨members, body, hbody, rfl, hfills, hothers⟩ := readMembers_eq_ok_iff.1 h
      have hgroups := fun group => fills_fresh_iff.1 (hfills group)
      exact ⟨w, _, hw, .object ⟨body, hbody, rfl⟩ hgroups hothers,
        by simp⟩
    · exact absurd h (unexpected_ne_ok _ _ _)
  · rintro ⟨w, document, hw, hdocument, rfl⟩
    cases hdocument with
    | object h hgroups hothers =>
      obtain ⟨body, hbody, rfl⟩ := h
      have hread : readMembers {} true (body ++ '}' :: rest) = .ok (expected, rest) :=
        readMembers_eq_ok_iff.2
          ⟨_, body, hbody, rfl, fun group => fills_fresh_iff.2 (hgroups group), hothers⟩
      rw [List.cons_append, List.append_assoc, readDocument, skipSpace_eq_cons hw rfl]
      exact hread
    | list h hsetup he2e =>
      obtain ⟨body, hbody, rfl⟩ := h
      have hread := readPair_eq_ok_iff.2
        ⟨_, _, body, hsetup, he2e, hbody, (rfl : body ++ ']' :: rest = _)⟩
      rw [List.cons_append, List.append_assoc, readDocument, skipSpace_eq_cons hw rfl]
      exact hread

theorem readWhole_eq_ok_iff : readWhole s = .ok expected ↔ Denotes s expected := by
  constructor
  · intro h
    obtain ⟨⟨cases, rest⟩, hread, hend⟩ := bind_eq_ok_iff.1 h
    obtain ⟨before, document, hbefore, hdocument, rfl⟩ := readDocument_eq_ok_iff.1 hread
    dsimp only at hend
    split at hend
    · next hrest =>
      cases hend
      obtain ⟨after, hafter, rfl⟩ := exists_of_skipSpace hrest
      rw [List.append_nil]
      exact ⟨before, document, after, hbefore, hdocument, hafter, rfl⟩
    · cases hend
  · rintro ⟨before, document, after, hbefore, hdocument, hafter, rfl⟩
    have hread : readDocument (before ++ (document ++ after)) = .ok (expected, after) :=
      readDocument_eq_ok_iff.2 ⟨before, document, hbefore, hdocument, rfl⟩
    refine bind_eq_ok_iff.2 ⟨_, hread, ?_⟩
    simp only [skipSpace_of_isBlank hafter]
    rfl

/-- A text denotes the cases of one configuration at most. -/
theorem Denotes.unique {other : Cases} (h : Denotes s expected) (h' : Denotes s other) :
    expected = other :=
  Except.ok.inj ((readWhole_eq_ok_iff.2 h).symm.trans (readWhole_eq_ok_iff.2 h'))

/-! ## Line breaks -/

/-- An identifier that does not fit on one line. -/
def BreaksLine (identifier : String) : Prop :=
  '\n' ∈ identifier.toList ∨ '\r' ∈ identifier.toList

instance : DecidablePred BreaksLine :=
  fun _ => inferInstanceAs (Decidable (_ ∨ _))

theorem hasBreak_iff {identifier : String} :
    Text.hasBreak identifier.toList = true ↔ BreaksLine identifier := by
  rw [Text.hasBreak, List.any_eq_true, BreaksLine]
  constructor
  · rintro ⟨c, hc, hbreak⟩
    rcases Bool.or_eq_true_iff.1 hbreak with h | h
    · exact .inl (beq_iff_eq.1 h ▸ hc)
    · exact .inr (beq_iff_eq.1 h ▸ hc)
  · rintro (h | h)
    · exact ⟨_, h, rfl⟩
    · exact ⟨_, h, rfl⟩

theorem firstBroken?_eq_none_iff :
    expected.firstBroken? = none ↔ ∀ identifier ∈ expected.identifiers, ¬BreaksLine identifier := by
  simp only [firstBroken?, List.find?_eq_none, hasBreak_iff, ← map_snd_grouped, List.forall_mem_map]

/-- The first identifier that breaks a line, and where it is. -/
theorem firstBroken?_eq_some_iff {identifier : String} :
    expected.firstBroken? = some (group, identifier) ↔ BreaksLine identifier ∧
      ∃ front back, expected.grouped = front ++ (group, identifier) :: back ∧
        ∀ other ∈ front, ¬BreaksLine other.2 := by
  simp only [firstBroken?, List.find?_eq_some_iff_append, hasBreak_iff, Bool.not_eq_true',
    ← Bool.not_eq_true]

/-! ## Loading -/

theorem parse_eq_ok_iff : parse s = .ok expected ↔
    Denotes s expected ∧ ∀ identifier ∈ expected.identifiers, ¬BreaksLine identifier := by
  rw [← readWhole_eq_ok_iff, ← firstBroken?_eq_none_iff]
  constructor
  · intro h
    rw [parse] at h
    split at h
    · cases h
    · next hread =>
      split at h
      · cases h
      · next hnone =>
        cases h
        exact ⟨hread, hnone⟩
  · rintro ⟨hread, hnone⟩
    rw [parse, hread]
    simp only [hnone]

theorem exists_parse_eq_error (h : Denotes s expected)
    (hbreaks : ∃ identifier ∈ expected.identifiers, BreaksLine identifier) :
    ∃ front group identifier back, expected.grouped = front ++ (group, identifier) :: back ∧
      (∀ other ∈ front, ¬BreaksLine other.2) ∧ BreaksLine identifier ∧
      parse s = .error (.lineBreak group identifier) := by
  cases hbroken : expected.firstBroken? with
  | none =>
    obtain ⟨identifier, hidentifier, hbreak⟩ := hbreaks
    exact absurd hbreak (firstBroken?_eq_none_iff.1 hbroken identifier hidentifier)
  | some first =>
    obtain ⟨group, identifier⟩ := first
    obtain ⟨hbreak, front, back, hgrouped, hfront⟩ := firstBroken?_eq_some_iff.1 hbroken
    refine ⟨front, group, identifier, back, hgrouped, hfront, hbreak, ?_⟩
    rw [parse, readWhole_eq_ok_iff.2 h]
    simp only [hbroken]

variable {host : Host} {path : Path} {bytes : List UInt8}

theorem ofFile_of_read {fs : FileSystem} (hread : fs.read path = .ok (Text.Utf8.encode s)) :
    ofFile fs path = (parse s).mapError (.configInvalid path) := by
  have htext : fs.readText path = .ok s := by
    rw [FileSystem.readText, hread]
    simp only [Except.mapError, bind, Except.bind, Text.Utf8.decode?_encode]
  rw [ofFile, htext]
  simp only [Except.mapError, bind, Except.bind]
  split <;> next hparse => rw [hparse]

theorem ofFile_eq_ok_iff {fs : FileSystem} (hread : fs.read path = .ok bytes) :
    ofFile fs path = .ok expected ↔
      ∃ text, Text.Utf8.encode text = bytes ∧ parse text = .ok expected := by
  constructor
  · intro h
    obtain ⟨text, htext, -⟩ := mapError_bind_eq_ok_iff.1 h
    obtain ⟨content, hcontent, hdecode⟩ := mapError_bind_eq_ok_iff.1 htext
    cases hread.symm.trans hcontent
    split at hdecode
    · cases hdecode
    · next hbytes =>
      cases hdecode
      obtain rfl := Text.Utf8.decode?_eq_some_iff.1 hbytes
      rw [ofFile_of_read hread] at h
      refine ⟨text, rfl, ?_⟩
      cases hparse : parse text with
      | error fault =>
        rw [hparse] at h
        cases h
      | ok cases =>
        rw [hparse] at h
        cases h
        rfl
  · rintro ⟨text, rfl, hparse⟩
    rw [ofFile_of_read hread, hparse]
    rfl

/-- A configuration is accepted exactly if its bytes are those of a text that denotes cases, and no
identifier breaks a line. If only the latter fails, the first identifier that does is blamed. -/
theorem load_accepts_documents (hplan : host.refusals = [])
    (hread : host.files.read path = .ok bytes) :
    (∀ cases, ((load path).perform host).1 = .ok cases ↔
      ∃ text, Text.Utf8.encode text = bytes ∧ Denotes text cases ∧
        ∀ identifier ∈ cases.identifiers, ¬BreaksLine identifier) ∧
    ∀ text cases, Text.Utf8.encode text = bytes → Denotes text cases →
      (∃ identifier ∈ cases.identifiers, BreaksLine identifier) →
      ∃ front group identifier back, cases.grouped = front ++ (group, identifier) :: back ∧
        (∀ other ∈ front, ¬BreaksLine other.2) ∧ BreaksLine identifier ∧
        ((load path).perform host).1 =
          .error (.configInvalid path (.lineBreak group identifier)) := by
  have hload : ((load path).perform host).1 = ofFile host.files path :=
    Action.Answered.exact (reads_load path) hplan
  rw [hload]
  constructor
  · intro cases
    rw [ofFile_eq_ok_iff hread]
    simp only [parse_eq_ok_iff]
  · rintro text cases rfl hdenotes hbreaks
    obtain ⟨front, group, identifier, back, hgrouped, hfront, hbreak, hparse⟩ :=
      exists_parse_eq_error hdenotes hbreaks
    refine ⟨front, group, identifier, back, hgrouped, hfront, hbreak, ?_⟩
    rw [ofFile_of_read hread, hparse]
    rfl

/-- A host with a configuration. -/
def configured (config : String) : Host where
  files := { nodes := [
    (["config"], .file (Text.Utf8.encode config.toList) 0o644)] }

/-- A document with an escaped name, a member that is not wanted, and escapes in an identifier. -/
def escaped : String :=
  " \x7b\"e2e\": [ ] , \"x\":[\x7b\"e2e\":[-0.5e+1,\"\\ud800\"]\x7d]," ++
    "\"\\u0073etup\":[\"\\u0061\\/\\ud83d\\ude00\"]\x7d\n"

/-- A document whose second identifier has an escaped line feed, and whose third has a carriage
return. -/
def broken : String :=
  "[[\"a\"],[\"b\\u000a\",\"\\r\"]]"

theorem load_accepts_escaped :
    (∃ text, Text.Utf8.encode text = Text.Utf8.encode escaped.toList ∧
      Denotes text ⟨["a/😀"], []⟩ ∧ ¬BreaksLine "a/😀") ∧
    Denotes broken.toList ⟨["a"], ["b\n", "\r"]⟩ ∧
    ((load "config").perform (configured broken)).1 =
      .error (.configInvalid "config" (.lineBreak .e2e "b\n")) := by
  constructor
  · have hread : (configured escaped).files.read "config" =
        .ok (Text.Utf8.encode escaped.toList) := by decide +kernel
    have hload : ((load "config").perform (configured escaped)).1 = .ok ⟨["a/😀"], []⟩ := by
      decide +kernel
    obtain ⟨text, htext, hdenotes, hfit⟩ := ((load_accepts_documents rfl hread).1 _).1 hload
    exact ⟨text, htext, hdenotes, hfit _ (List.mem_cons_self ..)⟩
  · have hread : (configured broken).files.read "config" =
        .ok (Text.Utf8.encode broken.toList) := by decide +kernel
    have hdenotes : Denotes broken.toList ⟨["a"], ["b\n", "\r"]⟩ :=
      readWhole_eq_ok_iff.1 (by decide +kernel)
    obtain ⟨front, group, identifier, back, hgrouped, hfront, hbreak, herror⟩ :=
      (load_accepts_documents rfl hread).2 _ _ rfl hdenotes ⟨"\r", by decide, by decide⟩
    have hlist : [(Group.setup, "a"), (.e2e, "b\n"), (.e2e, "\r")] =
        front ++ (group, identifier) :: back := hgrouped
    refine ⟨hdenotes, ?_⟩
    rcases front with _ | ⟨first, _ | ⟨second, front⟩⟩
    · cases hlist
      exact absurd hbreak (by decide)
    · cases hlist
      exact herror
    · rw [List.forall_mem_cons, List.forall_mem_cons] at hfront
      obtain ⟨-, rfl, -⟩ : _ = first ∧ (Group.e2e, "b\n") = second ∧ _ := by simpa using hlist
      exact absurd (by decide) hfront.2.1

end CaseReport.Cases
