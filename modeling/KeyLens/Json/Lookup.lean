import KeyLens.Json.Printer
import KeyLens.Key

/-!
# Looking up a key

The names of a key lead from the members of a document to a value. Every step but the last has to
land on an object.
-/

namespace KeyLens.Json

/-- The value to which a row of names leads from a value. -/
def descend? : Json → List String → Option Json
  | value, [] => some value
  | value, name :: rest => (value.get? name).bind (descend? · rest)

/-- The value that a document whose members are given holds at a key. -/
def lookup? (root : List (String × Json)) (key : Key) : Option Json :=
  descend? (object root) key.segments

/-- What is shown of a value: a text as it is, anything else in one line. -/
def display : Json → String
  | string value => value
  | other => other.compact

/-- Two rows of names lead one after the other. -/
theorem descend?_append (value : Json) (first second : List String) :
    descend? value (first ++ second) = (descend? value first).bind (descend? · second) := by
  induction first generalizing value with
  | nil => rfl
  | cons name rest ih =>
    simp only [List.cons_append, descend?]
    cases value.get? name with
    | none => rfl
    | some next => simpa using ih next

end KeyLens.Json
