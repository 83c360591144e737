/-!
# Keys not yet seen

A walk over finitely many keys that never takes a key twice has to end. The keys it has not seen are
its measure: taking a fresh one leaves fewer of them.

Walks along hops and along supertypes are bounded by this measure. It begins with the number of the
keys that a table holds, and a step to a held key that was not seen before makes it smaller.
-/

namespace DocGraph

universe u
variable {κ : Type u} [DecidableEq κ]

/-- The keys that are not among those seen. -/
def unseen (keys seen : List κ) : List κ := keys.filter fun key => !seen.contains key

/-- Seeing a fresh key leaves fewer keys unseen. -/
theorem unseen_length_lt {keys seen : List κ} {key : κ} (held : key ∈ keys)
    (fresh : key ∉ seen) : (unseen keys (seen ++ [key])).length < (unseen keys seen).length := by
  have narrowed : unseen keys (seen ++ [key]) = (unseen keys seen).filter (· ≠ key) := by
    simp only [unseen, List.filter_filter]
    congr 1
    funext candidate
    by_cases same : candidate = key <;> simp [same]
  rw [narrowed, List.length_filter_lt_length_iff_exists]
  exact ⟨key, by simp [unseen, held, fresh], by simp⟩

/-- Seeing a key that is not held leaves no more keys unseen. -/
theorem unseen_length_le (keys seen : List κ) (key : κ) :
    (unseen keys (seen ++ [key])).length ≤ (unseen keys seen).length := by
  by_cases held : key ∈ keys
  · by_cases fresh : key ∈ seen
    · have same : unseen keys (seen ++ [key]) = unseen keys seen := by
        unfold unseen
        congr 1
        funext candidate
        by_cases equal : candidate = key <;> simp [equal, fresh]
      exact Nat.le_of_eq (congrArg List.length same)
    · exact Nat.le_of_lt (unseen_length_lt held fresh)
  · have same : unseen keys (seen ++ [key]) = unseen keys seen := by
      unfold unseen
      apply List.filter_congr
      intro candidate present
      have differs : candidate ≠ key := fun equal => held (equal ▸ present)
      simp [differs]
    exact Nat.le_of_eq (congrArg List.length same)

end DocGraph
