import CaseReport.Proofs.Json.Lexemes

/-!
# Passing over a value

The machine that passes over a value stops exactly behind a value of the grammar. What is left to
read while brackets are open is the rest of the items of each of them and its end, from the
innermost to the outermost.
-/

namespace CaseReport.Json

variable {bracket : Bracket} {brackets : List Bracket} {first : Bool} {c : Char}
  {s t rest w v gap label body : List Char} {items : List (List Char × List Char)}

/-! ## Names -/

theorem colon_eq_ok_iff : colon s = .ok rest ↔ ∃ w, IsBlank w ∧ s = w ++ ':' :: rest := by
  constructor
  · intro h
    unfold colon at h
    split at h
    · cases h
    · next hs =>
      cases h
      exact exists_of_skipSpace hs
    · cases h
  · rintro ⟨w, hw, rfl⟩
    rw [colon, skipSpace_eq_cons hw rfl]
    rfl

theorem skipName_eq_ok_iff : skipName s = .ok rest ↔ ∃ w raw before, IsBlank w ∧ IsContent raw ∧
    IsBlank before ∧ s = w ++ '"' :: (raw ++ '"' :: (before ++ ':' :: rest)) := by
  constructor
  · intro h
    unfold skipName at h
    split at h
    · cases h
    · next hs =>
      obtain ⟨w, hw, rfl⟩ := exists_of_skipSpace hs
      split at h
      · cases h
      · next hstring =>
        obtain ⟨raw, hraw, rfl⟩ := skipString_eq_ok_iff.1 hstring
        obtain ⟨before, hbefore, rfl⟩ := colon_eq_ok_iff.1 h
        exact ⟨w, raw, before, hw, hraw, hbefore, rfl⟩
    · cases h
  · rintro ⟨w, raw, before, hw, hraw, hbefore, rfl⟩
    have hcolon := colon_eq_ok_iff.2 ⟨before, hbefore, (rfl : before ++ ':' :: rest = _)⟩
    rw [skipName, skipSpace_eq_cons hw rfl]
    simp only [skipString_eq_ok_iff.2 ⟨raw, hraw, rfl⟩]
    exact hcolon

/-- Going on to a value reads the blanks and the label in front of it. Blanks behind may be taken to
either side. -/
theorem exists_label_of_skipToValue (h : skipToValue bracket s = .ok (w ++ t)) (hw : IsBlank w) :
    ∃ w' label, IsBlank w' ∧ bracket.Labels label ∧ s = w' ++ (label ++ t) := by
  cases bracket with
  | list => exact ⟨w, [], hw, rfl, Except.ok.inj h⟩
  | object =>
    obtain ⟨w', raw, before, hw', hraw, hbefore, rfl⟩ := skipName_eq_ok_iff.1 h
    exact ⟨w', _, hw', ⟨raw, hraw, before, w, hbefore, hw, rfl⟩, by simp⟩

theorem skipToValue_append (hw : IsBlank w) (hlabel : bracket.Labels label) (t : List Char) :
    ∃ w', IsBlank w' ∧ skipToValue bracket (w ++ (label ++ t)) = .ok (w' ++ t) := by
  cases bracket with
  | list =>
    cases hlabel
    exact ⟨w, hw, rfl⟩
  | object =>
    obtain ⟨raw, hraw, before, after, hbefore, hafter, rfl⟩ := hlabel
    exact ⟨after, hafter, skipName_eq_ok_iff.2 ⟨w, raw, before, hw, hraw, hbefore, by simp⟩⟩

/-! ## Values without brackets -/

theorem isValue_of_skipScalar (h : skipScalar c s = .ok rest) :
    ∃ v, IsValue v ∧ c :: s = v ++ rest := by
  unfold skipScalar at h
  split at h
  · next hc => exact ⟨_, .literal (.inl rfl), by rw [hc, eq_append_of_literal h]; rfl⟩
  split at h
  · next hc => exact ⟨_, .literal (.inr (.inl rfl)), by rw [hc, eq_append_of_literal h]; rfl⟩
  split at h
  · next hc => exact ⟨_, .literal (.inr (.inr rfl)), by rw [hc, eq_append_of_literal h]; rfl⟩
  split at h
  · next hc =>
    obtain ⟨raw, hraw, rfl⟩ := skipString_eq_ok_iff.1 h
    exact ⟨_, .string hraw, by simp [hc]⟩
  split at h
  · next hc =>
    obtain ⟨magnitude, hmagnitude, rfl⟩ := isMagnitude_of_skipNumber h
    exact ⟨_, .number (.inr ⟨magnitude, hmagnitude, rfl⟩), by rw [hc]; rfl⟩
  split at h
  · obtain ⟨magnitude, hmagnitude, hs⟩ := isMagnitude_of_skipNumber h
    exact ⟨_, .number (.inl hmagnitude), hs⟩
  · cases h

theorem ne_of_isDigit {d : Char} (h : Text.isDigit c = true) (hd : Text.isDigit d = false) :
    c ≠ d := by
  rintro rfl
  cases h.symm.trans hd

theorem isSpace_of_isDigit (h : Text.isDigit c = true) : isSpace c = false := by
  rw [Bool.eq_false_iff, ne_eq, isSpace_iff]
  rintro (rfl | rfl | rfl | rfl) <;> cases h

theorem skipScalar_digit (h : Text.isDigit c = true) : skipScalar c s = skipNumber (c :: s) := by
  have hne {d} := ne_of_isDigit (d := d) h
  rw [skipScalar, if_neg (hne rfl), if_neg (hne rfl), if_neg (hne rfl), if_neg (hne rfl),
    if_neg (hne rfl), if_pos h]

theorem IsMagnitude.exists_cons (h : IsMagnitude v) :
    ∃ c t, v = c :: t ∧ Text.isDigit c = true := by
  obtain ⟨whole, fraction, exponent, rfl | ⟨hwhole, -⟩, -, -, rfl⟩ := h
  · exact ⟨'0', _, rfl, rfl⟩
  · obtain ⟨c, t, rfl, hc⟩ := hwhole.exists_cons
    exact ⟨c, _, rfl, hc⟩

/-- What begins a value is neither a blank nor a closing bracket. -/
theorem IsValue.exists_cons (h : IsValue v) :
    ∃ c t, v = c :: t ∧ isSpace c = false ∧ c ≠ ']' := by
  cases h with
  | literal h =>
    rcases h with rfl | rfl | rfl
    · exact ⟨'n', _, rfl, rfl, by decide⟩
    · exact ⟨'t', _, rfl, rfl, by decide⟩
    · exact ⟨'f', _, rfl, rfl, by decide⟩
  | number h =>
    rcases h with h | ⟨magnitude, -, rfl⟩
    · obtain ⟨c, t, rfl, hc⟩ := h.exists_cons
      exact ⟨c, t, rfl, isSpace_of_isDigit hc, ne_of_isDigit hc rfl⟩
    · exact ⟨'-', _, rfl, rfl, by decide⟩
  | string => exact ⟨'"', _, rfl, rfl, by decide⟩
  | @enclosed bracket _ _ _ _ h =>
    obtain ⟨body, -, rfl⟩ := h
    cases bracket with
    | list => exact ⟨'[', _, rfl, rfl, by decide⟩
    | object => exact ⟨'{', _, rfl, rfl, by decide⟩

/-! ## What is left to read -/

/-- What may stand between brackets behind `first` or further items. -/
def IsBody (bracket : Bracket) (first : Bool) (body : List Char) : Prop :=
  ∃ items : List (List Char × List Char), (∀ item ∈ items, bracket.Labels item.1) ∧
    (∀ item ∈ items, IsValue item.2) ∧ AreItems first (items.map fun item => item.1 ++ item.2) body

theorem isBody_of_isBlank (h : IsBlank w) : IsBody bracket first w :=
  ⟨[], by simp, by simp, .nil h⟩

theorem IsBody.cons (hgap : IsGap first gap) (hlabel : bracket.Labels label) (hv : IsValue v)
    (hbody : IsBody bracket false body) : IsBody bracket first (gap ++ (label ++ (v ++ body))) := by
  obtain ⟨items, hlabels, hvalues, hitems⟩ := hbody
  refine ⟨(label, v) :: items, List.forall_mem_cons.2 ⟨hlabel, hlabels⟩,
    List.forall_mem_cons.2 ⟨hv, hvalues⟩, ?_⟩
  rw [← List.append_assoc label]
  exact .cons hgap hitems

theorem IsBody.isValue (h : IsBody bracket true body) :
    IsValue (bracket.opening :: (body ++ [bracket.closing])) := by
  obtain ⟨items, hlabels, hvalues, hitems⟩ := h
  exact .enclosed hlabels hvalues ⟨body, hitems, rfl⟩

/-- The text ends all brackets, the rest behind it left out. -/
def Closes : List Bracket → List Char → List Char → Prop
  | [], s, rest => s = rest
  | bracket :: brackets, s, rest => ∃ body t, IsBody bracket false body ∧
      s = body ++ bracket.closing :: t ∧ Closes brackets t rest

/-- The text is what the machine waits for, and ends all brackets behind that. -/
def Completes : Wait → List Bracket → List Char → List Char → Prop
  | .value, brackets, s, rest => ∃ w v t, IsBlank w ∧ IsValue v ∧ s = w ++ (v ++ t) ∧
      Closes brackets t rest
  | .first, bracket :: brackets, s, rest => ∃ body t, IsBody bracket true body ∧
      s = body ++ bracket.closing :: t ∧ Closes brackets t rest
  | _, brackets, s, rest => Closes brackets s rest

/-! ## What the machine has read -/

/-- A value in brackets that has been read to its end. -/
theorem Completes.enclosed (h : Completes .first (bracket :: brackets) t rest) (hw : IsBlank w) :
    Completes .value brackets (w ++ bracket.opening :: t) rest := by
  obtain ⟨body, t, hbody, rfl, hcloses⟩ := h
  exact ⟨w, _, t, hw, hbody.isValue, by simp, hcloses⟩

/-- An item in front of what is left between brackets. -/
theorem exists_isBody_of_completes (h : Completes .value (bracket :: brackets) t rest)
    (hskip : skipToValue bracket s = .ok t) :
    ∃ w label v body t', IsBlank w ∧ bracket.Labels label ∧ IsValue v ∧ IsBody bracket false body ∧
      s = w ++ (label ++ (v ++ body)) ++ bracket.closing :: t' ∧ Closes brackets t' rest := by
  obtain ⟨w, v, t, hw, hv, rfl, body, t', hbody, rfl, hcloses⟩ := h
  obtain ⟨w', label, hw', hlabel, rfl⟩ := exists_label_of_skipToValue hskip hw
  exact ⟨w', label, v, body, t', hw', hlabel, hv, hbody, by simp, hcloses⟩

theorem completes_of_skipFrom {wait : Wait} (h : skipFrom wait brackets s = .ok rest) :
    Completes wait brackets s rest := by
  -- Along the steps of the machine: what is left after a step completes the brackets that are open
  -- then, so with what the step has read it completes those that were open before.
  fun_induction skipFrom wait brackets s with
  | case1 => cases h
  | case2 brackets s s' hs _ ih =>
    obtain ⟨w, hw, rfl⟩ := exists_of_skipSpace hs
    exact (ih h).enclosed hw
  | case3 brackets s s' hs _ _ ih =>
    obtain ⟨w, hw, rfl⟩ := exists_of_skipSpace hs
    exact (ih h).enclosed hw
  | case4 => cases h
  | case5 brackets s c s' hs _ _ _ t hscalar _ ih =>
    obtain ⟨w, hw, rfl⟩ := exists_of_skipSpace hs
    obtain ⟨v, hv, hvalue⟩ := isValue_of_skipScalar hscalar
    exact ⟨w, v, t, hw, hv, by rw [hvalue], ih h⟩
  | case6 wait s hwait =>
    cases wait with
    | value => exact absurd rfl hwait
    | first => exact Except.ok.inj h
    | next => exact Except.ok.inj h
  | case7 => cases h
  | case8 bracket brackets s s' hs _ ih =>
    obtain ⟨w, hw, rfl⟩ := exists_of_skipSpace hs
    exact ⟨w, s', isBody_of_isBlank hw, rfl, ih h⟩
  | case9 => cases h
  | case10 bracket brackets s c s' hs _ _ t hskip _ ih =>
    obtain ⟨w, hw, rfl⟩ := exists_of_skipSpace hs
    obtain ⟨w', label, v, body, t', hw', hlabel, hv, hbody, hs', hcloses⟩ :=
      exists_isBody_of_completes (ih h) hskip
    exact ⟨_, t', hbody.cons (.first (hw.append hw')) hlabel hv, by simp [hs'], hcloses⟩
  | case11 => cases h
  | case12 => cases h
  | case13 bracket brackets s s' t hskip _ hs _ ih =>
    obtain ⟨w, hw, rfl⟩ := exists_of_skipSpace hs
    obtain ⟨w', label, v, body, t', hw', hlabel, hv, hbody, rfl, hcloses⟩ :=
      exists_isBody_of_completes (ih h) hskip
    exact ⟨_, t', hbody.cons (.next hw hw') hlabel hv, by simp, hcloses⟩
  | case14 bracket brackets s s' hs _ _ ih =>
    obtain ⟨w, hw, rfl⟩ := exists_of_skipSpace hs
    exact ⟨w, s', isBody_of_isBlank hw, rfl, ih h⟩
  | case15 => cases h

/-! ## What the machine reads -/

theorem skipFrom_value (hs : skipSpace s = c :: t) : skipFrom .value brackets s =
    if c = '[' then skipFrom .first (.list :: brackets) t
    else if c = '{' then skipFrom .first (.object :: brackets) t
    else skipScalar c t >>= skipFrom .next brackets := by
  rw [skipFrom]
  split
  · next h => cases hs.symm.trans h
  · next h =>
    cases hs.symm.trans h
    congr 2
    split <;> next h => simp only [h]; rfl

theorem skipFrom_first (hs : skipSpace s = c :: t) : skipFrom .first (bracket :: brackets) s =
    if c = bracket.closing then skipFrom .next brackets t
    else skipToValue bracket (c :: t) >>= skipFrom .value (bracket :: brackets) := by
  rw [skipFrom]
  split
  · next h => cases hs.symm.trans h
  · next h =>
    cases hs.symm.trans h
    congr 1
    split <;> next h => simp only [h]; rfl

theorem skipFrom_next (hs : skipSpace s = c :: t) : skipFrom .next (bracket :: brackets) s =
    if c = ',' then skipToValue bracket t >>= skipFrom .value (bracket :: brackets)
    else if c = bracket.closing then skipFrom .next brackets t
    else failAt bracket.commaOrEnd (c :: t) := by
  rw [skipFrom]
  split
  · next h => cases hs.symm.trans h
  · next h =>
    cases hs.symm.trans h
    congr 1
    split <;> next h => simp only [h]; rfl

theorem skipFrom_scalar (hw : IsBlank w) (hspace : isSpace c = false) (hlist : c ≠ '[')
    (hobject : c ≠ '{') (hscalar : skipScalar c t = .ok s) :
    skipFrom .value brackets (w ++ c :: t) = skipFrom .next brackets s := by
  rw [skipFrom_value (skipSpace_eq_cons hw hspace), if_neg hlist, if_neg hobject, hscalar]
  rfl

theorem skipFrom_opening (hw : IsBlank w) : skipFrom .value brackets (w ++ bracket.opening :: t) =
    skipFrom .first (bracket :: brackets) t := by
  cases bracket with
  | list => exact skipFrom_value (skipSpace_eq_cons hw rfl)
  | object => exact skipFrom_value (skipSpace_eq_cons hw rfl)

/-- The state in which the machine reads items. -/
def waiting (first : Bool) : Wait :=
  if first then .first else .next

theorem skipFrom_closing (hw : IsBlank w) :
    skipFrom (waiting first) (bracket :: brackets) (w ++ bracket.closing :: t) =
      skipFrom .next brackets t := by
  have hspace : isSpace bracket.closing = false := by cases bracket <;> rfl
  have hcomma : bracket.closing ≠ ',' := by cases bracket <;> decide
  have hs := skipSpace_eq_cons (s := t) hw hspace
  cases first with
  | true => exact (skipFrom_first hs).trans (if_pos rfl)
  | false => exact (skipFrom_next hs).trans ((if_neg hcomma).trans (if_pos rfl))

/-- An item begins neither with a blank nor with what closes its brackets. -/
theorem Bracket.Labels.exists_cons (hlabel : bracket.Labels label) (hv : IsValue v) :
    ∃ c s, label ++ v = c :: s ∧ isSpace c = false ∧ c ≠ bracket.closing := by
  cases bracket with
  | list =>
    cases hlabel
    exact hv.exists_cons
  | object =>
    obtain ⟨raw, -, before, after, -, -, rfl⟩ := hlabel
    exact ⟨'"', _, rfl, rfl, by decide⟩

theorem skipFrom_item (hgap : IsGap first gap) (hlabel : bracket.Labels label) (hv : IsValue v)
    (brackets : List Bracket) (t : List Char) : ∃ w, IsBlank w ∧
      skipFrom (waiting first) (bracket :: brackets) (gap ++ (label ++ (v ++ t))) =
        skipFrom .value (bracket :: brackets) (w ++ (v ++ t)) := by
  cases hgap with
  | first hgap =>
    obtain ⟨c, s, hitem, hspace, hclosing⟩ := hlabel.exists_cons hv
    obtain ⟨w, hw, hskip⟩ := skipToValue_append isBlank_nil hlabel (v ++ t)
    have hs : label ++ (v ++ t) = c :: (s ++ t) := by
      rw [← List.append_assoc, hitem, List.cons_append]
    rw [List.nil_append, hs] at hskip
    refine ⟨w, hw, ?_⟩
    rw [hs]
    refine (skipFrom_first (skipSpace_eq_cons hgap hspace)).trans ?_
    rw [if_neg hclosing, hskip]
    rfl
  | @next before after hbefore hafter =>
    obtain ⟨w, hw, hskip⟩ := skipToValue_append hafter hlabel (v ++ t)
    refine ⟨w, hw, ?_⟩
    rw [List.append_assoc, List.cons_append]
    refine (skipFrom_next (skipSpace_eq_cons hbefore rfl)).trans ?_
    rw [if_pos rfl, hskip]
    rfl

/-- What follows an item may follow a value. -/
theorem AreItems.isDelimited {items : List (List Char)} (h : AreItems false items body)
    (bracket : Bracket) (t : List Char) : IsDelimited (body ++ bracket.closing :: t) := by
  cases h with
  | nil hw =>
    refine .append_of_isBlank hw (isDelimited_cons (.inr (.inr ?_)))
    cases bracket with
    | list => exact .inl rfl
    | object => exact .inr rfl
  | cons hgap _ =>
    cases hgap with
    | next hbefore _ =>
      rw [List.append_assoc, List.append_assoc, List.cons_append]
      exact .append_of_isBlank hbefore (isDelimited_cons (.inr (.inl rfl)))

theorem skipFrom_items (hlabels : ∀ item ∈ items, bracket.Labels item.1)
    (hvalues : ∀ item ∈ items, IsValue item.2)
    (hread : ∀ item ∈ items, ∀ {brackets t w}, IsBlank w → IsDelimited t →
      skipFrom .value brackets (w ++ (item.2 ++ t)) = skipFrom .next brackets t)
    (hitems : AreItems first (items.map fun item => item.1 ++ item.2) body) :
    skipFrom (waiting first) (bracket :: brackets) (body ++ bracket.closing :: t) =
      skipFrom .next brackets t := by
  induction items generalizing first body with
  | nil =>
    cases hitems with
    | nil hw => exact skipFrom_closing hw
  | cons item items ih =>
    rw [List.forall_mem_cons] at hlabels hvalues
    cases hitems with
    | @cons _ gap _ _ body hgap hitems =>
      obtain ⟨w, hw, hitem⟩ := skipFrom_item hgap hlabels.1 hvalues.1 brackets
        (body ++ bracket.closing :: t)
      simp only [List.append_assoc]
      rw [hitem, hread item (List.mem_cons_self ..) hw (hitems.isDelimited bracket t)]
      exact ih hlabels.2 hvalues.2 (fun other h => @hread other (List.mem_cons_of_mem _ h)) hitems

theorem skipFrom_append (hv : IsValue v) (hw : IsBlank w) (ht : IsDelimited t) :
    skipFrom .value brackets (w ++ (v ++ t)) = skipFrom .next brackets t := by
  induction hv generalizing brackets w t with
  | literal h =>
    rcases h with rfl | rfl | rfl
    · exact skipFrom_scalar hw rfl (by decide) (by decide) (literal_append ['u', 'l', 'l'] t)
    · exact skipFrom_scalar hw rfl (by decide) (by decide) (literal_append ['r', 'u', 'e'] t)
    · exact skipFrom_scalar hw rfl (by decide) (by decide) (literal_append ['a', 'l', 's', 'e'] t)
  | number h =>
    rcases h with h | ⟨magnitude, hmagnitude, rfl⟩
    · obtain ⟨c, s, rfl, hc⟩ := h.exists_cons
      have hread := skipNumber_append h ht
      rw [List.cons_append, ← skipScalar_digit hc] at hread
      exact skipFrom_scalar hw (isSpace_of_isDigit hc) (ne_of_isDigit hc rfl)
        (ne_of_isDigit hc rfl) hread
    · exact skipFrom_scalar hw rfl (by decide) (by decide) (skipNumber_append hmagnitude ht)
  | @string raw hraw =>
    have hread := skipString_eq_ok_iff.2 ⟨raw, hraw, (rfl : raw ++ '"' :: t = _)⟩
    rw [List.cons_append, List.append_assoc]
    exact skipFrom_scalar hw rfl (by decide) (by decide) hread
  | enclosed hlabels hvalues h ih =>
    obtain ⟨body, hitems, rfl⟩ := h
    rw [List.cons_append, List.append_assoc, List.singleton_append, skipFrom_opening hw]
    exact skipFrom_items hlabels hvalues (fun item hitem => @ih item hitem) hitems

theorem skipValue_append (hv : IsValue v) (hw : IsBlank w) (ht : IsDelimited t) :
    skipValue (w ++ (v ++ t)) = .ok t := by
  rw [skipValue, skipFrom_append hv hw ht, skipFrom]
  exact Wait.noConfusion

theorem isValue_of_skipValue (h : skipValue s = .ok rest) :
    ∃ w v, IsBlank w ∧ IsValue v ∧ s = w ++ (v ++ rest) := by
  obtain ⟨w, v, t, hw, hv, rfl, ht⟩ := completes_of_skipFrom h
  cases ht
  exact ⟨w, v, hw, hv, rfl⟩

end CaseReport.Json
