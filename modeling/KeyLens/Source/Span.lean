/-!
# Spans

A span is a stretch of a text between two byte offsets; its end is not part of it.
-/

namespace KeyLens

/-- A stretch of text from the byte `start` up to, and not including, the byte `stop`. -/
structure Span where
  /-- Where the stretch begins. -/
  start : Nat
  /-- The first offset after the stretch. -/
  stop : Nat
  deriving Repr, DecidableEq

namespace Span

/-- The number of bytes; a span that ends before it starts has none. -/
def length (span : Span) : Nat :=
  span.stop - span.start

/-- A span without bytes. -/
def isEmpty (span : Span) : Bool :=
  span.length == 0

/-- Whether the byte at `offset` belongs to the span. -/
def contains (span : Span) (offset : Nat) : Bool :=
  decide (span.start ≤ offset) && decide (offset < span.stop)

/-- An offset is contained when it lies between the two ends. -/
@[simp] theorem contains_iff {span : Span} {offset : Nat} :
    span.contains offset = true ↔ span.start ≤ offset ∧ offset < span.stop := by
  simp [contains]

end Span

end KeyLens
