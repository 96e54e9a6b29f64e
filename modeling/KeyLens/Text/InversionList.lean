/-!
# Inversion lists

A set of code points is written as the increasing list of the points where membership changes:
the first entry opens the set, the second closes it, and so on. Membership is decided in one
walk over the list. The sets of characters with a property are those of Unicode 16.
-/

namespace KeyLens.Text

/-- Membership of `code` in the set that `bounds` describes, when the points below the first
bound are inside exactly if `inside` holds. -/
def memberFrom (inside : Bool) : List Nat → Nat → Bool
  | [], _ => inside
  | bound :: rest, code => if code < bound then inside else memberFrom (!inside) rest code

/-- Membership of `code` in the set whose changes are `bounds`. -/
def inInversionList (bounds : List Nat) (code : Nat) : Bool :=
  memberFrom false bounds code

end KeyLens.Text
