import CaseReport.Report

/-!
# Setting the status of an identifier

Setting a status is an assignment to all lines of one identifier: the last one counts, assignments
to two identifiers can be swapped, and the lines of other identifiers are left alone. Looking up
an identifier sees only its first line, and the numbers of a report count all of them.
-/

namespace CaseReport

namespace Counts

/-- The number of entries with a status. -/
def of (counts : Counts) : Status → Nat
  | .na => counts.na
  | .pass => counts.pass
  | .fail => counts.fail

end Counts

namespace Entry

variable {a b : String} {s t : Status} {entry : Entry}

theorem setStatus_of_eq (h : entry.identifier = a) : entry.setStatus a s = ⟨a, s⟩ := by
  rw [setStatus, if_pos h, ← h]

theorem setStatus_of_ne (h : entry.identifier ≠ a) : entry.setStatus a s = entry :=
  if_neg h

@[simp] theorem identifier_setStatus : (entry.setStatus a s).identifier = entry.identifier := by
  rw [setStatus]
  split <;> rfl

theorem setStatus_setStatus : (entry.setStatus a t).setStatus a s = entry.setStatus a s := by
  by_cases h : entry.identifier = a
  · rw [setStatus_of_eq h, setStatus_of_eq h]
    exact setStatus_of_eq rfl
  · rw [setStatus_of_ne h]

theorem setStatus_comm (hne : b ≠ a) :
    (entry.setStatus a s).setStatus b t = (entry.setStatus b t).setStatus a s := by
  by_cases h : entry.identifier = a
  · have hb : entry.identifier ≠ b := fun hb => hne (hb.symm.trans h)
    rw [setStatus_of_eq h, setStatus_of_ne hb, setStatus_of_eq h, setStatus_of_ne (Ne.symm hne)]
  · have ha : (entry.setStatus b t).identifier ≠ a := by rwa [identifier_setStatus]
    rw [setStatus_of_ne h, setStatus_of_ne ha]

end Entry

namespace Report

variable {a b : String} {s t : Status} (report : Report)

/-! ## Lines -/

theorem occurrences_cons (entry : Entry) (entries : List Entry) :
    occurrences ⟨entry :: entries⟩ a =
      occurrences ⟨entries⟩ a + if entry.identifier = a then 1 else 0 := by
  simp [occurrences, List.countP_cons]

theorem occurrences_eq_count : report.occurrences a = report.identifiers.count a := by
  rw [occurrences, identifiers, List.count_eq_countP, List.countP_map]
  rfl

@[simp] theorem occurrences_setStatus :
    (report.setStatus b t).occurrences a = report.occurrences a := by
  rw [occurrences_eq_count, identifiers_setStatus, ← occurrences_eq_count]

theorem setStatus_setStatus :
    (report.setStatus a t).setStatus a s = report.setStatus a s := by
  simp [setStatus, Function.comp_def, Entry.setStatus_setStatus]

theorem setStatus_comm (hne : b ≠ a) :
    (report.setStatus a s).setStatus b t = (report.setStatus b t).setStatus a s := by
  simp [setStatus, Function.comp_def, Entry.setStatus_comm hne]

/-! ## Looking up -/

theorem statusOf?_cons (entry : Entry) (entries : List Entry) :
    statusOf? ⟨entry :: entries⟩ a =
      if entry.identifier = a then some entry.status else statusOf? ⟨entries⟩ a := by
  by_cases h : entry.identifier = a <;> simp [statusOf?, h]

theorem statusOf?_setStatus_self :
    (report.setStatus a s).statusOf? a = if report.occurrences a = 0 then none else some s := by
  obtain ⟨entries⟩ := report
  induction entries with
  | nil => rfl
  | cons entry entries ih =>
    rw [setStatus, List.map_cons, statusOf?_cons, Entry.identifier_setStatus, occurrences_cons]
    by_cases h : entry.identifier = a
    · simp [h, Entry.setStatus_of_eq h]
    · rw [if_neg h, if_neg h, Nat.add_zero]
      exact ih

theorem statusOf?_setStatus_of_ne (hne : b ≠ a) :
    (report.setStatus a s).statusOf? b = report.statusOf? b := by
  obtain ⟨entries⟩ := report
  induction entries with
  | nil => rfl
  | cons entry entries ih =>
    rw [setStatus, List.map_cons, statusOf?_cons, statusOf?_cons, Entry.identifier_setStatus]
    by_cases h : entry.identifier = b
    · have ha : entry.identifier ≠ a := fun ha => hne (h.symm.trans ha)
      rw [if_pos h, if_pos h, Entry.setStatus_of_ne ha]
    · rw [if_neg h, if_neg h]
      exact ih

/-! ## Counting -/

theorem counts_of (status : Status) :
    report.counts.of status = report.entries.countP fun entry => entry.status = status := by
  cases status <;> rfl

/-- Every entry is counted once. -/
theorem total_counts : report.counts.total = report.entries.length := by
  obtain ⟨entries⟩ := report
  induction entries with
  | nil => rfl
  | cons entry entries ih =>
    simp only [Counts.total, counts, List.countP_cons, List.length_cons] at ih ⊢
    cases entry.status <;> simp <;> omega

/-- The lines of an identifier that do not have a status yet are added to its number. -/
theorem counts_of_setStatus_self : (report.setStatus a s).counts.of s =
    report.counts.of s +
      report.entries.countP fun entry => entry.identifier = a ∧ entry.status ≠ s := by
  simp only [counts_of, setStatus]
  induction report.entries with
  | nil => rfl
  | cons entry entries ih =>
    rw [List.map_cons, List.countP_cons, List.countP_cons, List.countP_cons, ih]
    by_cases h : entry.identifier = a
    · by_cases hs : entry.status = s <;> simp [Entry.setStatus_of_eq h, h, hs] <;> omega
    · simp [Entry.setStatus_of_ne h, h]
      omega

/-- The lines of an identifier that had another status are taken from its number. -/
theorem counts_of_setStatus_of_ne (hne : t ≠ s) : (report.setStatus a s).counts.of t +
    report.entries.count ⟨a, t⟩ = report.counts.of t := by
  simp only [counts_of, setStatus]
  induction report.entries with
  | nil => rfl
  | cons entry entries ih =>
    rw [List.map_cons, List.countP_cons, List.countP_cons, List.count_cons, ← ih]
    by_cases h : entry.identifier = a
    · obtain ⟨identifier, status⟩ := entry
      obtain rfl : identifier = a := h
      by_cases ht : status = t <;> simp [Entry.setStatus_of_eq, Ne.symm hne, ht] <;> omega
    · have heq : entry ≠ ⟨a, t⟩ := fun heq => h (congrArg Entry.identifier heq)
      simp [Entry.setStatus_of_ne h, heq]
      omega

/-- Setting a status is an assignment to the lines of one identifier, and it returns how many the
report has for it: no line is moved, added or taken away, and those of other identifiers are what
they were. The first line of the identifier shows the status if there is one. The last of two
assignments to one identifier counts, and assignments to two can be swapped. Every line is counted
once, the number of the status grows by the lines that did not have it, and each other number loses
the lines that had its status. -/
theorem setStatus_assigns (a b : String) (s t : Status) :
    report.assign a s = (report.occurrences a, report.setStatus a s) ∧
    report.occurrences a = report.identifiers.count a ∧
    (∀ c u, (report.setStatus c u).occurrences a = report.occurrences a) ∧
    (report.setStatus a s).identifiers = report.identifiers ∧
    (∀ i : Nat, (report.setStatus a s).entries[i]? = report.entries[i]?.map fun entry : Entry =>
      if entry.identifier = a then { entry with status := s } else entry) ∧
    ((report.setStatus a s).statusOf? a = some s ↔ 0 < report.occurrences a) ∧
    (b ≠ a → (report.setStatus a s).statusOf? b = report.statusOf? b) ∧
    (report.setStatus a t).setStatus a s = report.setStatus a s ∧
    (b ≠ a → (report.setStatus a s).setStatus b t = (report.setStatus b t).setStatus a s) ∧
    report.counts.total = report.entries.length ∧
    (report.setStatus a s).counts.of s = report.counts.of s +
      (report.entries.countP fun entry => entry.identifier = a ∧ entry.status ≠ s) ∧
    ∀ u, u ≠ s → (report.setStatus a s).counts.of u + report.entries.count ⟨a, u⟩ =
      report.counts.of u := by
  refine ⟨report.assign_eq a s, report.occurrences_eq_count,
    fun c u => report.occurrences_setStatus, report.identifiers_setStatus a s, ?_, ?_,
    report.statusOf?_setStatus_of_ne, report.setStatus_setStatus, report.setStatus_comm,
    report.total_counts, report.counts_of_setStatus_self,
    fun u => report.counts_of_setStatus_of_ne⟩
  · intro i
    rw [setStatus, List.getElem?_map]
    rfl
  · rw [statusOf?_setStatus_self, Nat.pos_iff_ne_zero]
    split
    · next hzero => simp [hzero]
    · next hsome => simp [hsome]

/-- A report with two lines of one identifier, which ends another identifier as well. -/
def volumes : Report :=
  ⟨[⟨"volume", .na⟩, ⟨"create-volume", .na⟩, ⟨"volume", .pass⟩]⟩

theorem setStatus_assigns_volumes :
    (volumes.assign "volume" .pass).1 = 2 ∧
    (volumes.setStatus "volume" .pass).statusOf? "create-volume" = some .na ∧
    (volumes.setStatus "volume" .pass).setStatus "create-volume" .fail =
      (volumes.setStatus "create-volume" .fail).setStatus "volume" .pass ∧
    (volumes.setStatus "volume" .pass).counts.of .na = 1 := by
  obtain ⟨hassign, -, -, -, -, -, hother, -, hswap, -, -, hnumber⟩ :=
    volumes.setStatus_assigns "volume" "create-volume" .pass .fail
  refine ⟨?_, ?_, hswap (by decide), ?_⟩
  · rw [hassign]
    decide
  · rw [hother (by decide)]
    decide
  · have hna := hnumber .na (by decide)
    have hbefore : volumes.counts.of .na = 2 := by decide
    have hlost : volumes.entries.count ⟨"volume", .na⟩ = 1 := by decide
    omega

end Report

end CaseReport
