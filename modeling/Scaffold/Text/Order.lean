/-
  The order of sequences: the first unequal pair of items decides, and a sequence comes before each
  longer one that starts with it.
-/
import Scaffold.Text.CodePoint

namespace Scaffold.Text

/-- Whether one sequence comes before another when items are ordered by their ranks. -/
def precedesBy {α : Type} (rank : α → Nat) : List α → List α → Bool
  | _, [] => false
  | [], _ :: _ => true
  | a :: as, b :: bs => rank a < rank b || (rank a == rank b && precedesBy rank as bs)

/-- Whether one string does not come after another, code point by code point. -/
def notAfter (a b : String) : Bool := !precedesBy Char.toNat b.toList a.toList

end Scaffold.Text
