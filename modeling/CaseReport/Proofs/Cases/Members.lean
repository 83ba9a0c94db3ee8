import CaseReport.Proofs.Cases.Grammar

/-!
# Reading the members of an object

Members are read one after the other. A member of a group that has no list yet gives it one, and a
member of no group is passed over, so in the end each group has its list from the only member that
has its name.
-/

namespace CaseReport.Cases

open Json

variable {first : Bool} {s t rest w gap body name : List Char} {texts : List String}
  {fields fields' : Fields} {group : Group} {member : Member} {members : List Member}
  {expected : Cases}

/-! ## Fields -/

/-- The list of a group, as far as it has been read. -/
def Fields.ofGroup (fields : Fields) : Group → Option (List String)
  | .setup => fields.setup
  | .e2e => fields.e2e

/-- The fields with the list of a group. -/
def Fields.fill (fields : Fields) (texts : List String) : Group → Fields
  | .setup => { fields with setup := some texts }
  | .e2e => { fields with e2e := some texts }

theorem Fields.ofGroup_fill (other : Group) : (fields.fill texts group).ofGroup other =
    if group = other then some texts else fields.ofGroup other := by
  cases group <;> cases other <;> rfl

theorem Fields.finish_eq_ok_iff : fields.finish s = .ok (expected, rest) ↔
    s = rest ∧ ∀ group, fields.ofGroup group = some (expected.ofGroup group) := by
  constructor
  · intro h
    unfold Fields.finish at h
    split at h
    · cases h
    · cases h
    · next hsetup he2e =>
      cases h
      refine ⟨rfl, fun group => ?_⟩
      cases group with
      | setup => exact hsetup
      | e2e => exact he2e
  · rintro ⟨rfl, h⟩
    have hsetup : fields.setup = some expected.setup := h .setup
    have he2e : fields.e2e = some expected.e2e := h .e2e
    rw [Fields.finish, hsetup, he2e]

/-- What reading a member makes of the fields. -/
inductive Takes (fields : Fields) (member : Member) : Fields → Prop where
  | group {owner texts} (hname : member.isOf owner = true) (hnew : fields.ofGroup owner = none)
      (hlist : AreStrings member.value texts) : Takes fields member (fields.fill texts owner)
  | other (hname : ∀ group, member.isOf group = false) (hvalue : IsValue member.value) :
      Takes fields member fields

theorem isBlank_of_nextMember (h : nextMember first s = .ok (false, rest)) :
    ∃ w, IsBlank w ∧ s = w ++ '}' :: rest := by
  unfold nextMember at h
  split at h
  · cases h
  · next hs =>
    cases h
    exact exists_of_skipSpace hs
  · split at h
    · split at h <;> cases h
    · split at h
      · split at h <;> cases h
      · cases h

theorem isGap_of_nextMember (h : nextMember first s = .ok (true, t)) :
    ∃ gap, IsGap first gap ∧ s = gap ++ '"' :: t := by
  unfold nextMember at h
  split at h
  · cases h
  · cases h
  · next c s' _ hs =>
    obtain ⟨w, hw, rfl⟩ := exists_of_skipSpace hs
    cases first with
    | true =>
      rw [if_pos rfl] at h
      split at h
      · next hc =>
        cases h
        exact ⟨w, .first hw, by rw [hc]⟩
      · cases h
    | false =>
      rw [if_neg Bool.false_ne_true] at h
      split at h
      · next hc =>
        split at h
        · cases h
        · next hs' =>
          obtain ⟨w', hw', rfl⟩ := exists_of_skipSpace hs'
          cases h
          exact ⟨_, .next hw hw', by rw [hc, List.append_assoc, List.cons_append]⟩
        · cases h
        · cases h
      · cases h

theorem nextMember_closing (hw : IsBlank w) :
    nextMember first (w ++ '}' :: rest) = .ok (false, rest) := by
  rw [nextMember, skipSpace_eq_cons hw rfl]
  rfl

theorem nextMember_append (hgap : IsGap first gap) :
    nextMember first (gap ++ '"' :: t) = .ok (true, t) := by
  cases hgap with
  | first hw =>
    rw [nextMember, skipSpace_eq_cons hw rfl]
    rfl
  | next hbefore hafter =>
    rw [List.append_assoc, List.cons_append, nextMember, skipSpace_eq_cons hbefore rfl]
    have hs := skipSpace_eq_cons (c := '"') (s := t) hafter rfl
    simp [hs]

theorem readMember_group (hname : stringBody s = .ok (group.name.toList, t)) :
    readMember fields s = if (fields.ofGroup group).isSome then
        failAfter (.duplicateField group.name) (behindRepeatedName t)
      else do
        let (texts, rest) ← readList (← colon t)
        return (fields.fill texts group, rest) := by
  rw [readMember, hname]
  cases group with
  | setup => rfl
  | e2e => rfl

theorem readMember_other (hname : stringBody s = .ok (name, t))
    (hother : ∀ group : Group, name ≠ group.name.toList) : readMember fields s = (do
      let rest ← skipValue (← colon t)
      return (fields, rest)) := by
  have hsetup : name ≠ ['s', 'e', 't', 'u', 'p'] := hother .setup
  have he2e : name ≠ ['e', '2', 'e'] := hother .e2e
  simp only [readMember, hname, bind, Except.bind, if_neg hsetup, if_neg he2e]

/-- A member can be told from the parts of its text. -/
theorem exists_member {raw before after : List Char} (hraw : Spells raw name)
    (hbefore : IsBlank before) (hafter : IsBlank after) (v rest : List Char) :
    ∃ member : Member, member.name = name ∧ member.value = v ∧
      '"' :: (raw ++ '"' :: (before ++ ':' :: (after ++ (v ++ rest)))) = member.text ++ rest :=
  ⟨⟨name, _, v, raw, hraw, before, after, hbefore, hafter, rfl⟩, rfl, rfl, by simp [Member.text]⟩

theorem exists_takes_of_readMember (h : readMember fields s = .ok (fields', rest)) :
    ∃ member : Member, '"' :: s = member.text ++ rest ∧ Takes fields member fields' := by
  cases hname : stringBody s with
  | error failure =>
    rw [readMember, hname] at h
    cases h
  | ok reading =>
    obtain ⟨name, t⟩ := reading
    obtain ⟨raw, hraw, rfl⟩ := stringBody_eq_ok_iff.1 hname
    by_cases hgroup : ∃ group : Group, name = group.name.toList
    · obtain ⟨group, rfl⟩ := hgroup
      rw [readMember_group hname] at h
      split at h
      · cases h
      · next hnew =>
        obtain ⟨t', hcolon, h⟩ := bind_eq_ok_iff.1 h
        obtain ⟨⟨texts, rest'⟩, hlist, h⟩ := bind_eq_ok_iff.1 h
        cases h
        obtain ⟨before, hbefore, rfl⟩ := colon_eq_ok_iff.1 hcolon
        obtain ⟨after, list, hafter, hstrings, rfl⟩ := readList_eq_ok_iff.1 hlist
        obtain ⟨member, hmember, rfl, hs⟩ := exists_member hraw hbefore hafter list rest
        refine ⟨member, hs, .group ?_ ?_ hstrings⟩
        · rw [Member.isOf, hmember, beq_self_eq_true]
        · simpa using hnew
    · rw [readMember_other hname (by simpa using hgroup)] at h
      obtain ⟨t', hcolon, h⟩ := bind_eq_ok_iff.1 h
      obtain ⟨rest', hskip, h⟩ := bind_eq_ok_iff.1 h
      cases h
      obtain ⟨before, hbefore, rfl⟩ := colon_eq_ok_iff.1 hcolon
      obtain ⟨after, v, hafter, hv, rfl⟩ := isValue_of_skipValue hskip
      obtain ⟨member, hmember, rfl, hs⟩ := exists_member hraw hbefore hafter v rest
      refine ⟨member, hs, .other (fun group => ?_) hv⟩
      rw [Member.isOf, hmember, beq_eq_false_iff_ne]
      exact fun hname => hgroup ⟨group, hname⟩

theorem readMember_of_takes (h : Takes fields member fields') (hs : '"' :: s = member.text ++ rest)
    (hrest : IsDelimited rest) : readMember fields s = .ok (fields', rest) := by
  obtain ⟨raw, hraw, before, after, hbefore, hafter, hlabel⟩ := member.isLabel
  have hs' : s = raw ++ '"' :: (before ++ ':' :: (after ++ (member.value ++ rest))) := by
    simpa [Member.text, hlabel] using hs
  have hname := stringBody_eq_ok_iff.2 ⟨raw, hraw, hs'⟩
  have hcolon := colon_eq_ok_iff.2
    ⟨before, hbefore, (rfl : before ++ ':' :: (after ++ (member.value ++ rest)) = _)⟩
  cases h with
  | @group owner texts howner hnew hlist =>
    have hread := readList_eq_ok_iff.2 ⟨after, _, hafter, hlist, (rfl : _ ++ (_ ++ rest) = _)⟩
    rw [Member.isOf, beq_iff_eq] at howner
    rw [howner] at hname
    rw [readMember_group hname, hnew, if_neg (by simp)]
    exact bind_eq_ok_iff.2 ⟨_, hcolon, bind_eq_ok_iff.2 ⟨_, hread, rfl⟩⟩
  | other hother hvalue =>
    have hskip := skipValue_append hvalue hafter hrest
    rw [readMember_other hname fun group => by simpa [Member.isOf] using hother group]
    exact bind_eq_ok_iff.2 ⟨_, hcolon, bind_eq_ok_iff.2 ⟨_, hskip, rfl⟩⟩

/-! ## Objects -/

/-- A group gets its list from what has been seen or from exactly one of the members. -/
def Fills (seen : Option (List String)) (members : List Member) (group : Group)
    (texts : List String) : Prop :=
  match seen with
  | none => Supplies members group texts
  | some seen => members.filter (Member.isOf group) = [] ∧ seen = texts

theorem Member.isOf_of_ne {owner : Group} (h : member.isOf owner = true) (hne : owner ≠ group) :
    member.isOf group = false := by
  rw [isOf, beq_iff_eq] at h
  rw [isOf, beq_eq_false_iff_ne, h]
  exact fun hname => hne (Group.name_injective hname)

theorem fills_cons_iff {seen : Option (List String)} (h : member.isOf group = false) :
    Fills seen (member :: members) group texts ↔ Fills seen members group texts := by
  cases seen <;> simp [Fills, Supplies, h]

theorem Takes.fills (h : Takes fields member fields')
    (hfills : Fills (fields'.ofGroup group) members group texts) :
    Fills (fields.ofGroup group) (member :: members) group texts := by
  cases h with
  | @group owner _ howner hnew hlist =>
    rw [Fields.ofGroup_fill] at hfills
    by_cases hgroup : owner = group
    · subst hgroup
      rw [if_pos rfl] at hfills
      obtain ⟨hnone, rfl⟩ := hfills
      rw [hnew]
      exact ⟨member, by rw [List.filter_cons_of_pos howner, hnone], hlist⟩
    · rw [if_neg hgroup] at hfills
      exact (fills_cons_iff (Member.isOf_of_ne howner hgroup)).2 hfills
  | other hother => exact (fills_cons_iff (hother group)).2 hfills

/-- A member that belongs to no group is passed over; any other one is the first of its group, and
the list of the group is taken from it. -/
theorem exists_takes (hvalue : (∀ group, member.isOf group = false) → IsValue member.value)
    (hfills : ∀ group,
      Fills (fields.ofGroup group) (member :: members) group (expected.ofGroup group)) :
    ∃ fields', Takes fields member fields' ∧
      ∀ group, Fills (fields'.ofGroup group) members group (expected.ofGroup group) := by
  by_cases howner : ∃ owner, member.isOf owner = true
  · obtain ⟨owner, howner⟩ := howner
    have hown := hfills owner
    cases hseen : fields.ofGroup owner with
    | some seen =>
      rw [hseen] at hown
      simp [Fills, howner] at hown
    | none =>
      rw [hseen] at hown
      obtain ⟨_, hfilter, hlist⟩ := hown
      rw [List.filter_cons_of_pos howner, List.cons.injEq] at hfilter
      obtain ⟨rfl, hnone⟩ := hfilter
      refine ⟨_, .group howner hseen hlist, fun group => ?_⟩
      rw [Fields.ofGroup_fill]
      by_cases hgroup : owner = group
      · rw [if_pos hgroup, ← hgroup]
        exact ⟨hnone, rfl⟩
      · rw [if_neg hgroup]
        exact (fills_cons_iff (Member.isOf_of_ne howner hgroup)).1 (hfills group)
  · have hother : ∀ group, member.isOf group = false := by simpa using howner
    exact ⟨fields, .other hother (hvalue hother), fun group =>
      (fills_cons_iff (hother group)).1 (hfills group)⟩

theorem Takes.isValue (h : Takes fields member fields')
    (hother : ∀ group, member.isOf group = false) : IsValue member.value := by
  cases h with
  | group howner => cases howner.symm.trans (hother _)
  | other _ hvalue => exact hvalue

theorem Member.exists_text_append (member : Member) (s : List Char) :
    ∃ t, member.text ++ s = '"' :: t := by
  obtain ⟨raw, -, before, after, -, -, hlabel⟩ := member.isLabel
  exact ⟨_, by rw [text, hlabel]; rfl⟩

theorem readMembers_end (h : nextMember first s = .ok (false, rest)) :
    readMembers fields first s = fields.finish rest := by
  rw [readMembers]
  split
  · next hn => cases h.symm.trans hn
  · next hn =>
    cases h.symm.trans hn
    rfl
  · next hn => cases h.symm.trans hn

theorem readMembers_more (h : nextMember first s = .ok (true, t))
    (hm : readMember fields t = .ok (fields', rest)) :
    readMembers fields first s = readMembers fields' false rest := by
  rw [readMembers]
  split
  · next hn => cases h.symm.trans hn
  · next hn => cases h.symm.trans hn
  · next hn =>
    cases h.symm.trans hn
    split
    · next hm' => cases hm.symm.trans hm'
    · next hm' =>
      cases hm.symm.trans hm'
      rfl

theorem readMembers_eq_ok_iff : readMembers fields first s = .ok (expected, rest) ↔
    ∃ members body, AreItems first (members.map Member.text) body ∧ s = body ++ '}' :: rest ∧
      (∀ group, Fills (fields.ofGroup group) members group (expected.ofGroup group)) ∧
      ∀ member ∈ members, (∀ group, member.isOf group = false) → IsValue member.value := by
  constructor
  · intro h
    -- The fields change from member to member, and so does what the remaining ones have to fill.
    fun_induction readMembers fields first s with
    | case1 => cases h
    | case2 fields first s rest' hn =>
      obtain ⟨w, hw, rfl⟩ := isBlank_of_nextMember hn
      obtain ⟨rfl, hfields⟩ := Fields.finish_eq_ok_iff.1 h
      refine ⟨[], w, .nil hw, rfl, fun group => ?_, by simp⟩
      rw [hfields]
      exact ⟨rfl, rfl⟩
    | case3 => cases h
    | case4 fields first s s' hn fields' t hm _ _ ih =>
      obtain ⟨gap, hgap, rfl⟩ := isGap_of_nextMember hn
      obtain ⟨member, hs, htakes⟩ := exists_takes_of_readMember hm
      obtain ⟨members, body, hitems, rfl, hfills, hothers⟩ := ih h
      exact ⟨member :: members, _, .cons hgap hitems, by rw [hs]; simp,
        fun group => htakes.fills (hfills group), List.forall_mem_cons.2 ⟨htakes.isValue, hothers⟩⟩
  · rintro ⟨members, body, hitems, rfl, hfills, hothers⟩
    induction members generalizing fields first body with
    | nil =>
      cases hitems with
      | nil hw =>
        rw [readMembers_end (nextMember_closing hw), Fields.finish_eq_ok_iff]
        refine ⟨rfl, fun group => ?_⟩
        have hgroup := hfills group
        cases hseen : fields.ofGroup group with
        | none => simp [hseen, Fills, Supplies] at hgroup
        | some seen =>
          rw [hseen] at hgroup
          rw [hgroup.2]
    | cons member members ih =>
      rw [List.forall_mem_cons] at hothers
      obtain ⟨fields', htakes, hfills'⟩ := exists_takes hothers.1 hfills
      cases hitems with
      | @cons _ gap _ _ body hgap hitems =>
        obtain ⟨t, ht⟩ := member.exists_text_append (body ++ '}' :: rest)
        have hmember := readMember_of_takes htakes ht.symm (hitems.isDelimited .object rest)
        have hs : gap ++ (member.text ++ body) ++ '}' :: rest = gap ++ '"' :: t := by
          rw [← ht, List.append_assoc, List.append_assoc]
        rw [hs, readMembers_more (nextMember_append hgap) hmember]
        exact ih _ hitems hfills' hothers.2

end CaseReport.Cases
