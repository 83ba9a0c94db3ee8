import Mathlib.Data.List.Forall2
import CaseReport.Cases.Document
import CaseReport.Proofs.Json.Skipping

/-!
# Which texts are case documents

A case document is an object in which the name of each group occurs once, with a list of strings as
its value, or a list of two such lists. It stands for the texts that these strings stand for, in the
order in which the document has them, and whatever else is in the object only has to be JSON.
-/

namespace CaseReport

open Json

/-- The identifiers of a group. -/
def Cases.ofGroup (cases : Cases) : Group → List String
  | .setup => cases.setup
  | .e2e => cases.e2e

theorem Group.name_injective {group other : Group} (h : group.name.toList = other.name.toList) :
    group = other := by
  cases group <;> cases other <;> first | rfl | cases h

namespace Cases

/-! ## Documents -/

/-- A list of strings that stand for texts. -/
def AreStrings (s : List Char) (texts : List String) : Prop :=
  ∃ items, List.Forall₂ IsStringOf items texts ∧ IsEnclosed .list items s

/-- A member of an object: a label that holds a name, and a value. -/
structure Member where
  name : List Char
  label : List Char
  value : List Char
  isLabel : ∃ raw, Spells raw name ∧ IsLabel raw label

/-- The text of a member. -/
def Member.text (member : Member) : List Char :=
  member.label ++ member.value

/-- Whether a member is the list of a group. -/
def Member.isOf (group : Group) (member : Member) : Bool :=
  member.name == group.name.toList

/-- Exactly one member is that of a group, and it holds the identifiers. -/
def Supplies (members : List Member) (group : Group) (identifiers : List String) : Prop :=
  ∃ member, members.filter (Member.isOf group) = [member] ∧ AreStrings member.value identifiers

/-- A text that is a case document and nothing else. -/
inductive IsDocument : List Char → Cases → Prop where
  | object {members s cases} (h : IsEnclosed .object (members.map Member.text) s)
      (hgroups : ∀ group, Supplies members group (cases.ofGroup group))
      (hothers : ∀ member ∈ members, (∀ group, member.isOf group = false) → IsValue member.value) :
      IsDocument s cases
  | list {setup e2e s cases} (h : IsEnclosed .list [setup, e2e] s)
      (hsetup : AreStrings setup cases.setup) (he2e : AreStrings e2e cases.e2e) :
      IsDocument s cases

/-- A text that is a case document between blanks. -/
def Denotes (text : List Char) (cases : Cases) : Prop :=
  ∃ before document after, IsBlank before ∧ IsDocument document cases ∧ IsBlank after ∧
    text = before ++ (document ++ after)

variable {first : Bool} {c : Char} {s t rest w gap : List Char} {text : String}
  {texts : List String}

/-! ## Lists of strings -/

theorem readString_eq_ok_iff : readString s = .ok (text, rest) ↔
    ∃ w item, IsBlank w ∧ IsStringOf item text ∧ s = w ++ (item ++ rest) := by
  constructor
  · intro h
    unfold readString at h
    split at h
    · next hs =>
      obtain ⟨w, hw, rfl⟩ := exists_of_skipSpace hs
      split at h
      · cases h
      · next hbody =>
        cases h
        obtain ⟨raw, hraw, rfl⟩ := stringBody_eq_ok_iff.1 hbody
        refine ⟨w, _, hw, ⟨raw, ?_, rfl⟩, by simp⟩
        rw [String.toList_ofList]
        exact hraw
    · exact absurd h (unexpected_ne_ok _ _ _)
  · rintro ⟨w, _, hw, ⟨raw, hraw, rfl⟩, rfl⟩
    have hbody := stringBody_eq_ok_iff.2 ⟨raw, hraw, (rfl : raw ++ '"' :: rest = _)⟩
    have hs : skipSpace (w ++ ('"' :: (raw ++ ['"']) ++ rest)) = '"' :: (raw ++ '"' :: rest) := by
      rw [List.cons_append, List.append_assoc]
      exact skipSpace_eq_cons hw rfl
    rw [readString, hs]
    simp only [hbody, String.ofList_toList]

theorem isBlank_of_nextElement (h : nextElement first s = .ok (false, rest)) :
    ∃ w, IsBlank w ∧ s = w ++ ']' :: rest := by
  unfold nextElement at h
  split at h
  · cases h
  · next hs =>
    cases h
    exact exists_of_skipSpace hs
  · split at h
    · cases h
    · split at h
      · split at h <;> cases h
      · cases h

theorem isGap_of_nextElement (h : nextElement first s = .ok (true, t)) :
    ∃ gap, IsGap first gap ∧ s = gap ++ t := by
  unfold nextElement at h
  split at h
  · cases h
  · cases h
  · next c s' _ hs =>
    obtain ⟨w, hw, rfl⟩ := exists_of_skipSpace hs
    cases first with
    | true =>
      cases h
      exact ⟨w, .first hw, rfl⟩
    | false =>
      rw [if_neg Bool.false_ne_true] at h
      split at h
      · next hc =>
        split at h
        · cases h
        · cases h
        · obtain ⟨w', hw', hs'⟩ := exists_isBlank_append_skipSpace s'
          cases h
          exact ⟨_, .next hw hw', by rw [hc, List.append_assoc, List.cons_append, ← hs']⟩
      · cases h

theorem nextElement_closing (hw : IsBlank w) :
    nextElement first (w ++ ']' :: rest) = .ok (false, rest) := by
  rw [nextElement, skipSpace_eq_cons hw rfl]
  rfl

theorem nextElement_append (hgap : IsGap first gap) (hspace : isSpace c = false) (hc : c ≠ ']') :
    nextElement first (gap ++ c :: t) = .ok (true, c :: t) := by
  cases hgap with
  | first hw =>
    rw [nextElement, skipSpace_eq_cons hw hspace]
    simp
  | next hbefore hafter =>
    rw [List.append_assoc, List.cons_append, nextElement, skipSpace_eq_cons hbefore rfl]
    simp [skipSpace_eq_cons hafter hspace, hc]

theorem readStrings_end (h : nextElement first s = .ok (false, rest)) :
    readStrings first s = .ok ([], rest) := by
  rw [readStrings]
  split
  · next hn => cases h.symm.trans hn
  · next hn =>
    cases h.symm.trans hn
    rfl
  · next hn => cases h.symm.trans hn

theorem readStrings_more {s' s'' : List Char} (h : nextElement first s = .ok (true, s'))
    (hs : readString s' = .ok (text, s'')) (hr : readStrings false s'' = .ok (texts, rest)) :
    readStrings first s = .ok (text :: texts, rest) := by
  rw [readStrings]
  split
  · next hn => cases h.symm.trans hn
  · next hn => cases h.symm.trans hn
  · next hn =>
    cases h.symm.trans hn
    split
    · next hs' => cases hs.symm.trans hs'
    · next hs' =>
      cases hs.symm.trans hs'
      simp only [hr]

theorem readStrings_eq_ok_iff : readStrings first s = .ok (texts, rest) ↔
    ∃ items body, List.Forall₂ IsStringOf items texts ∧ AreItems first items body ∧
      s = body ++ ']' :: rest := by
  constructor
  · intro h
    fun_induction readStrings first s generalizing texts with
    | case1 => cases h
    | case2 first s rest' hn =>
      cases h
      obtain ⟨w, hw, rfl⟩ := isBlank_of_nextElement hn
      exact ⟨[], w, .nil, .nil hw, rfl⟩
    | case3 => cases h
    | case4 => cases h
    | case5 first s s' hn text s'' hs _ _ texts' rest' _ ih =>
      cases h
      obtain ⟨gap, hgap, rfl⟩ := isGap_of_nextElement hn
      obtain ⟨w, item, hw, hitem, rfl⟩ := readString_eq_ok_iff.1 hs
      obtain ⟨items, body, hitems, hbody, rfl⟩ := ih (by assumption)
      exact ⟨item :: items, _, .cons hitem hitems, .cons (hgap.append hw) hbody, by simp⟩
  · rintro ⟨items, body, hitems, hbody, rfl⟩
    induction hitems generalizing first body with
    | nil =>
      cases hbody with
      | nil hw => exact readStrings_end (nextElement_closing hw)
    | @cons item text items texts hitem _ ih =>
      cases hbody with
      | @cons _ gap _ _ body hgap hbody =>
        have hs : readString (item ++ (body ++ ']' :: rest)) = .ok (text, body ++ ']' :: rest) :=
          readString_eq_ok_iff.2 ⟨[], item, isBlank_nil, hitem, rfl⟩
        obtain ⟨raw, -, rfl⟩ := hitem
        rw [List.append_assoc, List.append_assoc]
        exact readStrings_more (nextElement_append hgap rfl (by decide)) hs (ih _ hbody)

theorem readList_eq_ok_iff : readList s = .ok (texts, rest) ↔
    ∃ w list, IsBlank w ∧ AreStrings list texts ∧ s = w ++ (list ++ rest) := by
  constructor
  · intro h
    unfold readList at h
    split at h
    · cases h
    · next hs =>
      obtain ⟨w, hw, rfl⟩ := exists_of_skipSpace hs
      obtain ⟨items, body, hitems, hbody, rfl⟩ := readStrings_eq_ok_iff.1 h
      exact ⟨w, _, hw, ⟨items, hitems, body, hbody, rfl⟩, by simp⟩
    · exact absurd h (unexpected_ne_ok _ _ _)
  · rintro ⟨w, _, hw, ⟨items, hitems, body, hbody, rfl⟩, rfl⟩
    have hread := readStrings_eq_ok_iff.2
      ⟨items, body, hitems, hbody, (rfl : body ++ ']' :: rest = _)⟩
    rw [readList, List.cons_append, List.append_assoc, skipSpace_eq_cons hw rfl]
    exact hread

end Cases

end CaseReport
