import KeyLens.Program.Lexeme
import KeyLens.Program.Reference

/-!
# Literal texts

What a quoted text or a template without substitutions stands for. Escapes may spell surrogate
halves; two that form a pair are one character, and a text with a half that stays alone is no
text.
-/

namespace KeyLens.Program

/-- The greatest number of a character. -/
def greatestCode : Nat := 0x10FFFF

/-- A digit below eight. -/
def isOctal (c : Char) : Bool :=
  '0' ≤ c && c ≤ '7'

/-- The number that digits of base sixteen spell, if a character can have it. -/
def codeOf? (digits : List Char) : Option Nat :=
  (numeral? 16 digits).filter (· ≤ greatestCode)

/-- The numbers of the characters that the escape after a backslash stands for, and the text after
it; none if the escape is malformed. A template has no numbers of base eight. -/
def escape? (inTemplate : Bool) : List Char → Option (List Nat × List Char)
  | [] => none
  | '\r' :: '\n' :: rest => some ([], rest)
  | 'x' :: a :: b :: rest => (codeOf? [a, b]).map fun code => ([code], rest)
  | 'u' :: '\x7b' :: rest =>
    (codeOf? (rest.takeWhile (· != '\x7d'))).map fun code =>
      ([code], (rest.dropWhile (· != '\x7d')).drop 1)
  | 'u' :: a :: b :: c :: d :: rest => (codeOf? [a, b, c, d]).map fun code => ([code], rest)
  | c :: rest =>
    if isLineEnd c then some ([], rest)
    else if c = 'n' then some ([10], rest)
    else if c = 't' then some ([9], rest)
    else if c = 'r' then some ([13], rest)
    else if c = 'b' then some ([8], rest)
    else if c = 'v' then some ([11], rest)
    else if c = 'f' then some ([12], rest)
    else if c = 'x' ∨ c = 'u' then none
    else if c = '0' ∧ !(rest.head?.any isOctal) then some ([0], rest)
    else if isOctal c ∧ inTemplate then none
    else if isOctal c then
      let count := if c ≤ '3' then 2 else 1
      let others := (rest.take count).takeWhile isOctal
      (numeral? 8 (c :: others)).map fun code => ([code], rest.drop others.length)
    else some ([c.toNat], rest)

/-- The numbers of the characters that the inside of a literal stands for. A template writes every
line end as a line feed. -/
def codes? (inTemplate : Bool) : Nat → List Char → Option (List Nat)
  | 0, _ => some []
  | _ + 1, [] => some []
  | steps + 1, '\\' :: rest =>
    (escape? inTemplate rest).bind fun (codes, rest) =>
      (codes? inTemplate steps rest).map (codes ++ ·)
  | steps + 1, '\r' :: '\n' :: rest =>
    (codes? inTemplate steps rest).map ((if inTemplate then [10] else [13, 10]) ++ ·)
  | steps + 1, c :: rest =>
    (codes? inTemplate steps rest).map ((if inTemplate ∧ c = '\r' then 10 else c.toNat) :: ·)

/-- Whether all escapes inside of a literal are well formed. -/
def hasGoodEscapes (inTemplate : Bool) (inside : List Char) : Bool :=
  (codes? inTemplate (inside.length + 1) inside).isSome

/-- The number of characters of the quoted text at the start of a text; none if an escape in it is
malformed. -/
def literalLength? (text : List Char) : Option Nat :=
  (quotedLength? text).filter fun count => hasGoodEscapes false ((text.take (count - 1)).drop 1)

/-- The text of a row of character numbers; none if half of a surrogate pair stands alone. -/
def assemble? : List Nat → Option (List Char)
  | [] => some []
  | high :: low :: rest =>
    if 0xD800 ≤ high ∧ high ≤ 0xDBFF ∧ 0xDC00 ≤ low ∧ low ≤ 0xDFFF then
      (assemble? rest).map
        (Char.ofNat ((high - 0xD800) * 1024 + (low - 0xDC00) + 0x10000) :: ·)
    else (charOf? high).bind fun c => (assemble? (low :: rest)).map (c :: ·)
  | [code] => (charOf? code).map ([·])

/-- The text that the inside of a literal stands for. -/
def content? (inTemplate : Bool) (inside : List Char) : Option String :=
  ((codes? inTemplate (inside.length + 1) inside).bind assemble?).map String.ofList

/-- The literal at the start of a text, possibly inside of parentheses: what it stands for, if that
is a text, and the text after it. None if something else stands there. -/
def literalAt? : Nat → List Char → Option (Option String × List Char)
  | 0, _ => none
  | depth + 1, text =>
    let text := skipBlanks text
    match text with
    | [] => none
    | c :: rest =>
      if c = '(' then
        (literalAt? depth rest).bind fun (value, rest) =>
          match skipBlanks rest with
          | ')' :: after => some (value, after)
          | _ => none
      else if c = '\x60' then
        (templateTail rest).bind fun count =>
          match rest.drop count with
          | '\x60' :: after => some (content? true (rest.take count), after)
          | _ => none
      else if c = '"' ∨ c = '\'' then
        (quotedTail c rest).map fun count =>
          (content? false (rest.take (count - 1)), rest.drop count)
      else none

/-- The text that an expression in braces is, given the text after the opening brace. -/
def bracedLiteral? (text : List Char) : Option String :=
  (literalAt? (text.length + 1) text).bind fun (value, rest) =>
    match skipBlanks rest with
    | '\x7d' :: _ => value
    | _ => none

/-- The text of a quoted attribute value, given the text from its opening mark on. -/
def quotedAttribute : List Char → String
  | [] => ""
  | quote :: rest => String.ofList (decodeReferences 0 (rest.takeWhile (· != quote)))

end KeyLens.Program
