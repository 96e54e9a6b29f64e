import KeyLens.Text.Identifier

/-!
# Lexemes

The smallest units of a program: blanks and comments between them, words, marks, numbers, quoted
texts and patterns. Each is measured at the start of a text, in characters.
-/

namespace KeyLens.Program

open KeyLens.Text

/-- A character that ends a line. -/
def isLineEnd (c : Char) : Bool :=
  c == '\n' || c == '\r' || c == '\u2028' || c == '\u2029'

/-- A blank between lexemes other than the end of a line. -/
def isSpacing (c : Char) : Bool :=
  let code := c.toNat
  code == 9 || code == 11 || code == 12 || code == 0x20 || code == 0xA0 || code == 0x1680 ||
    (0x2000 ≤ code && code ≤ 0x200A) || code == 0x202F || code == 0x205F || code == 0x3000 ||
    code == 0xFEFF

/-- Where in the space between two lexemes a place lies. -/
inductive Between where
  /-- Outside of comments. -/
  | outside
  /-- In a comment that ends with its line. -/
  | line
  /-- In a comment that starts with the given text and ends with a mark of its own. -/
  | block (comment : List Char)

/-- The text after the blanks and comments at its start, and whether a line ends among them. A
comment without an end is not passed over: it ends the text. -/
def skipBetween : Between → Bool → List Char → Bool × List Char
  | .block comment, lineEnded, [] => (lineEnded, comment)
  | _, lineEnded, [] => (lineEnded, [])
  | .line, lineEnded, c :: rest =>
    if isLineEnd c then skipBetween .outside true rest else skipBetween .line lineEnded rest
  | .block _, lineEnded, '*' :: '/' :: rest => skipBetween .outside lineEnded rest
  | .block comment, lineEnded, c :: rest =>
    skipBetween (.block comment) (lineEnded || isLineEnd c) rest
  | .outside, lineEnded, '/' :: '/' :: rest => skipBetween .line lineEnded rest
  | .outside, lineEnded, '/' :: '*' :: rest =>
    skipBetween (.block ('/' :: '*' :: rest)) lineEnded rest
  | .outside, lineEnded, '<' :: '!' :: '-' :: '-' :: rest => skipBetween .line lineEnded rest
  | .outside, true, '-' :: '-' :: '>' :: rest => skipBetween .line true rest
  | .outside, lineEnded, c :: rest =>
    if isLineEnd c then skipBetween .outside true rest
    else if isSpacing c then skipBetween .outside lineEnded rest
    else (lineEnded, c :: rest)

/-- The text after the blanks and comments at its start. -/
def skipBlanks (text : List Char) : List Char :=
  (skipBetween .outside false text).2

/-- Whether a line ends among the blanks and comments at the start of a text. -/
def endsLine (text : List Char) : Bool :=
  (skipBetween .outside false text).1

/-- The kinds of lexemes, as far as a reader has to tell them apart by their start. -/
inductive Token where
  /-- A name or a word of the language. -/
  | word (name : String)
  /-- A mark of one or more characters. -/
  | mark (text : String)
  /-- The start of a number. -/
  | number
  /-- The start of a quoted text. -/
  | quoted
  /-- The start of a template. -/
  | template
  /-- The start of a private name. -/
  | privateName
  /-- The end of the text. -/
  | finished
  /-- A character that starts no lexeme. -/
  | strange
  deriving Repr, DecidableEq

/-- The marks, longer ones before their beginnings. -/
def marks : List String := [
  ">>>=", "...", "===", "!==", "**=", "<<=", ">>=", ">>>", "&&=", "||=", "??=",
  "=>", "==", "!=", "<=", ">=", "&&", "||", "??", "?.", "++", "--", "+=", "-=", "*=", "/=", "%=",
  "&=", "|=", "^=", "**", "<<", ">>",
  "\x7b", "\x7d", "(", ")", "[", "]", ";", ",", "<", ">", "+", "-", "*", "/", "%", "&", "|", "^",
  "!", "~", "?", ":", "=", ".", "@"]

/-- Whether a text starts with a mark. The mark `?.` is none before a digit. -/
def startsWithMark (text : List Char) (mark : String) : Bool :=
  mark.toList.isPrefixOf text &&
    !(mark == "?." && ((text.drop 2).head?.map Char.isDigit).getD false)

/-- The number of characters of a name after its first character. A character of a name may be
written as an escape; `inEscape` tells whether an escape in braces is open. -/
def nameTail (inEscape : Bool) : List Char → Nat
  | [] => 0
  | '\\' :: 'u' :: '\x7b' :: rest => 3 + nameTail true rest
  | '\\' :: 'u' :: rest => 2 + nameTail inEscape rest
  | c :: rest =>
    if isNamePart c then 1 + nameTail inEscape rest
    else if inEscape && c == '\x7d' then 1 + nameTail false rest
    else 0

/-- Whether a name starts here. -/
def startsName : List Char → Bool
  | [] => false
  | '\\' :: 'u' :: _ => true
  | c :: _ => isNameStart c

/-- The number of characters of the name at the start of a text; zero without a name. -/
def nameLength (text : List Char) : Nat :=
  if startsName text then
    match text with
    | [] => 0
    | '\\' :: _ => nameTail false text
    | _ :: rest => 1 + nameTail false rest
  else 0

/-- The lexeme at the start of a text. -/
def tokenAt (text : List Char) : Token :=
  match text with
  | [] | '/' :: '*' :: _ => .finished
  | c :: rest =>
    if startsName text then .word (String.ofList (text.take (nameLength text)))
    else if c.isDigit then .number
    else if c == '.' && (rest.head?.map Char.isDigit).getD false then .number
    else if c == '"' || c == '\'' then .quoted
    else if c == '\x60' then .template
    else if c == '#' && startsName rest then .privateName
    else match marks.find? (startsWithMark text) with
      | some mark => .mark mark
      | none => .strange

/-- The number of characters of a quoted text up to its closing mark, which counts too; none if a
line or the text ends before. -/
def quotedTail (quote : Char) : List Char → Option Nat
  | [] => none
  | '\\' :: '\r' :: '\n' :: rest => (quotedTail quote rest).map (· + 3)
  | '\\' :: _ :: rest => (quotedTail quote rest).map (· + 2)
  | c :: rest =>
    if c = quote then some 1
    else if c = '\n' ∨ c = '\r' then none
    else (quotedTail quote rest).map (· + 1)

/-- The number of characters of the quoted text at the start of a text. -/
def quotedLength? : List Char → Option Nat
  | [] => none
  | quote :: rest => (quotedTail quote rest).map (· + 1)

/-- The number of characters of a template up to a substitution or its end, neither of which
counts; none if the text ends before. -/
def templateTail : List Char → Option Nat
  | [] => none
  | '\\' :: _ :: rest => (templateTail rest).map (· + 2)
  | '$' :: '\x7b' :: _ => some 0
  | c :: rest => if c = '\x60' then some 0 else (templateTail rest).map (· + 1)

/-- The number of characters of a pattern up to its closing slash, which counts too. A slash inside
of brackets closes nothing; a pattern ends before its line does. -/
def patternTail (inClass : Bool) : List Char → Option Nat
  | [] => none
  | '\\' :: c :: rest => if isLineEnd c then none else (patternTail inClass rest).map (· + 2)
  | c :: rest =>
    if isLineEnd c then none
    else if c = '/' ∧ !inClass then some 1
    else (patternTail (if c = '[' then true else if c = ']' then false else inClass) rest).map
      (· + 1)

/-- The number of characters of the pattern at the start of a text, with the letters after it. -/
def patternLength? : List Char → Option Nat
  | '/' :: rest =>
    (patternTail false rest).map fun count =>
      count + 1 + ((rest.drop count).takeWhile isNamePart).length
  | _ => none

/-- The number of digits at the start of a text, with the underscores between them. -/
def digitsLength (isDigit : Char → Bool) (text : List Char) : Nat :=
  (text.takeWhile fun c => isDigit c || c == '_').length

/-- The number of characters of an exponent at the start of a text; none if digits are missing. -/
def exponentLength? : List Char → Option Nat
  | [] => some 0
  | c :: rest =>
    if c = 'e' ∨ c = 'E' then
      let sign := match rest with
        | '+' :: _ => 1
        | '-' :: _ => 1
        | _ => 0
      let digits := digitsLength Char.isDigit (rest.drop sign)
      if digits = 0 then none else some (1 + sign + digits)
    else some 0

/-- A digit of either case below sixteen. -/
def isHexDigit (c : Char) : Bool :=
  c.isDigit || ('a' ≤ c && c ≤ 'f') || ('A' ≤ c && c ≤ 'F')

/-- The class of the digits after a letter that names another base than ten. -/
def baseDigits? (c : Char) : Option (Char → Bool) :=
  if c = 'x' ∨ c = 'X' then some isHexDigit
  else if c = 'o' ∨ c = 'O' then some fun d => '0' ≤ d && d ≤ '7'
  else if c = 'b' ∨ c = 'B' then some fun d => d == '0' || d == '1'
  else none

/-- The number of characters of a decimal number at the start of a text. -/
def decimalLength? (text : List Char) : Option Nat :=
  let whole := digitsLength Char.isDigit text
  match text.drop whole with
  | 'n' :: _ => if whole = 0 then none else some (whole + 1)
  | '.' :: rest =>
    let fraction := digitsLength Char.isDigit rest
    if whole + fraction = 0 then none
    else (exponentLength? (rest.drop fraction)).map (whole + 1 + fraction + ·)
  | rest => if whole = 0 then none else (exponentLength? rest).map (whole + ·)

/-- The number of characters of the number at the start of a text; none if it is malformed or a
name follows it at once. -/
def numberLength? (text : List Char) : Option Nat :=
  let length? := match text with
    | '0' :: base :: rest =>
      match baseDigits? base with
      | some isDigit =>
        let digits := digitsLength isDigit rest
        if digits = 0 then none
        else if (rest.drop digits).head? = some 'n' then some (digits + 3) else some (digits + 2)
      | none => decimalLength? text
    | _ => decimalLength? text
  length?.bind fun length =>
    if startsName (text.drop length) || ((text.drop length).head?.map Char.isDigit).getD false
    then none else some length

end KeyLens.Program
