import KeyLens.Text.ColumnWidth
import KeyLens.Text.Emoji
import KeyLens.Text.Ligature

/-!
# Display width

How many columns of a terminal a text takes. Most characters take their own columns; a line break
of two characters, a ligature and a picture made of several characters take those of one sign.
-/

namespace KeyLens.Text

/-- The columns of the sign that starts with `c`, and the number of characters behind `c` that
belong to it. Of joined pictures only the last one counts. -/
def signColumns (c : Char) (rest : List Char) : Nat × Nat :=
  if c = '\r' ∧ rest.head? = some '\n' then (1, 1)
  else match ligature? c rest with
    | some sign => sign
    | none =>
      match picture? c rest with
      | some count => if isJoined (rest.drop count) then (0, count + 1) else (2, count)
      | none =>
        if hasTextStyle c ∧ rest.head? = some textSelector then (1, 1) else (charColumns c, 0)

/-- The columns of a text. -/
def displayWidth : List Char → Nat
  | [] => 0
  | c :: rest => (signColumns c rest).1 + displayWidth (rest.drop (signColumns c rest).2)
termination_by text => text.length
decreasing_by
  simp only [List.length_drop, List.length_cons]
  omega

/-- Nothing takes no column. -/
@[simp] theorem displayWidth_nil : displayWidth [] = 0 := by
  simp [displayWidth]

end KeyLens.Text
