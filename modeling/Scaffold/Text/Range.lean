/-
  Sets of code points given by inclusive ranges.
-/

namespace Scaffold

/-- A set of numbers, as inclusive ranges. -/
abbrev Ranges := List (Nat × Nat)

namespace Ranges

/-- Whether a number lies in one of the ranges. -/
def contains (r : Ranges) (n : Nat) : Bool :=
  r.any fun range => range.1 ≤ n && n ≤ range.2

theorem contains_iff {r : Ranges} {n : Nat} :
    r.contains n = true ↔ ∃ range ∈ r, range.1 ≤ n ∧ n ≤ range.2 := by
  simp [contains, List.any_eq_true]

end Ranges

end Scaffold
