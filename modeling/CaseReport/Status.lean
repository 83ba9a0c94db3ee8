/-!
# Statuses

What a report says about one test case, and the token that says it.
-/

namespace CaseReport

/-- The outcome recorded for a test case. -/
inductive Status where
  /-- Not judged yet. -/
  | na
  | pass
  | fail
  deriving Repr, DecidableEq

namespace Status

/-- The token that stands for a status on a report line. -/
def token : Status → String
  | .na => "NA"
  | .pass => "PASS"
  | .fail => "FAIL"

/-- The status that a token stands for; letter case counts. -/
def ofToken? (token : String) : Option Status :=
  if token = "NA" then some .na
  else if token = "PASS" then some .pass
  else if token = "FAIL" then some .fail
  else none

@[simp] theorem ofToken?_token (s : Status) : ofToken? s.token = some s := by
  cases s <;> decide

theorem ofToken?_eq_some_iff {t : String} {s : Status} : ofToken? t = some s ↔ t = s.token := by
  constructor
  · intro h
    unfold ofToken? at h
    split at h
    · next ht => cases h; exact ht
    · split at h
      · next ht => cases h; exact ht
      · split at h
        · next ht => cases h; exact ht
        · cases h
  · rintro rfl
    exact ofToken?_token s

end Status

end CaseReport
