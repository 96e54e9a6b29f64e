/-!
# Blank characters

The characters that count as white space wherever this library skips or trims: those with the
Unicode property `White_Space`.
-/

namespace KeyLens.Text

/-- A character of the Unicode property `White_Space`. -/
def isBlank (c : Char) : Bool :=
  let code := c.toNat
  (9 ≤ code && code ≤ 13) || code == 0x20 || code == 0x85 || code == 0xA0 || code == 0x1680 ||
    (0x2000 ≤ code && code ≤ 0x200A) || code == 0x2028 || code == 0x2029 || code == 0x202F ||
    code == 0x205F || code == 0x3000

/-- The text after its leading blanks. -/
def skipBlank (text : List Char) : List Char :=
  text.dropWhile isBlank

/-- The text without the characters at its end that satisfy `p`. -/
def trimEndWhile (p : Char → Bool) (text : List Char) : List Char :=
  (text.reverse.dropWhile p).reverse

/-- The text without leading and trailing blanks. -/
def trim (text : List Char) : List Char :=
  trimEndWhile isBlank (skipBlank text)

/-- A text of blanks only, the empty one included. -/
def isBlankText (text : String) : Bool :=
  text.toList.all isBlank

/-- What remains after the leading blanks does not start with one. -/
theorem head?_skipBlank {c : Char} {text rest : List Char} (h : skipBlank text = c :: rest) :
    isBlank c = false := by
  have := List.head?_dropWhile_not isBlank text
  simp only [skipBlank] at h
  simpa [h] using this

end KeyLens.Text
