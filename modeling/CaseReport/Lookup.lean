/-!
# Entries without a key

What is found under a key in a list of entries, once the entries of a key have been taken out.
-/

namespace CaseReport

variable {α β : Type} [BEq α] [LawfulBEq α] {a b : α}

theorem lookup_filter_ne {entries : List (α × β)} (h : b ≠ a) :
    (entries.filter fun entry => entry.1 != a).lookup b = entries.lookup b := by
  induction entries with
  | nil => rfl
  | cons entry entries ih =>
    obtain ⟨key, value⟩ := entry
    by_cases ha : key = a
    · have hb : (b == key) = false := by
        rw [ha]
        exact beq_eq_false_iff_ne.2 h
      rw [List.filter_cons_of_neg (by simp [ha]), List.lookup_cons, hb]
      exact ih
    · cases hb : b == key <;> simp [ha, List.lookup_cons, hb, ih]

theorem lookup_filter_self (entries : List (α × β)) (a : α) :
    (entries.filter fun entry => entry.1 != a).lookup a = none := by
  induction entries with
  | nil => rfl
  | cons entry entries ih =>
    obtain ⟨key, value⟩ := entry
    by_cases ha : key = a
    · simp only [ha, bne_self_eq_false, Bool.false_eq_true, not_false_eq_true,
        List.filter_cons_of_neg]
      exact ih
    · have hb : (a == key) = false := beq_eq_false_iff_ne.2 (Ne.symm ha)
      rw [List.filter_cons_of_pos (by simp [ha]), List.lookup_cons, hb]
      exact ih

end CaseReport
