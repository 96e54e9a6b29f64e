import KeyLens.Source.Span

/-!
# Nodes

Two kinds of program construct can hold a translation key: calls and markup tags. A node is one of
them with the texts of its parts and the span that it covers.
-/

namespace KeyLens

/-- An attribute of a tag. -/
structure Attribute where
  /-- The name before the equals sign. -/
  name : String
  /-- The string after it; none if the attribute has no value or one that is no plain string. -/
  value : Option String
  deriving Repr, DecidableEq

/-- A call or a tag in a program. -/
inductive Node where
  /-- `callee(arguments)`, with the texts of the parts. -/
  | call (callee : String) (arguments : List String) (span : Span)
  /-- `<name attributes>`. -/
  | tag (name : String) (attributes : List Attribute) (span : Span)
  deriving Repr, DecidableEq

/-- The stretch of text that a node covers. -/
def Node.span : Node → Span
  | .call _ _ span => span
  | .tag _ _ span => span

end KeyLens
