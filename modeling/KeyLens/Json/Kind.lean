import KeyLens.Json.Printer
import KeyLens.Json.Reader
import KeyLens.Text.Quoted

/-!
# Values of an expected kind

Where a value of one kind is expected, another one is a failure that names both.
-/

namespace KeyLens.Json

/-- How a failure names a value. -/
def kindName : Json → String
  | null => "null"
  | bool value => "boolean \x60" ++ String.ofList (boolText value) ++ "\x60"
  | number (.whole value) => "integer \x60" ++ String.ofList (wholeText value) ++ "\x60"
  | number (.binary value) => "floating point \x60" ++ String.ofList value.text ++ "\x60"
  | string value => "string " ++ Text.quotedValue value
  | array _ => "sequence"
  | object _ => "map"

/-- The failure of a text at which a value stands that is not of the expected kind. Rows and objects
are not read for it. -/
def kindFailure (expected : String) (text : List Char) : Failure :=
  match skipSpace text with
  | [] => .before .endInValue []
  | c :: rest =>
    if c = '[' then .before (.otherKind (kindName (array [])) expected) (c :: rest)
    else if c = '\x7b' then .before (.otherKind (kindName (object [])) expected) (c :: rest)
    else match readValue 0 (c :: rest) with
      | .error failure => failure
      | .ok (value, rest) => .before (.otherKind value.kindName expected) rest

/-- A text. -/
def readText (text : List Char) : Except Failure (String × List Char) :=
  match skipSpace text with
  | '"' :: rest => readQuoted rest
  | _ => .error (kindFailure "a string" text)

/-- A truth value. -/
def readTruth (text : List Char) : Except Failure (Bool × List Char) :=
  match skipSpace text with
  | 't' :: rest => do pure (true, ← readWord ['r', 'u', 'e'] rest)
  | 'f' :: rest => do pure (false, ← readWord ['a', 'l', 's', 'e'] rest)
  | _ => .error (kindFailure "a boolean" text)

/-- A row of texts. -/
def readTexts (text : List Char) : Except Failure (List String × List Char) :=
  match skipSpace text with
  | '[' :: rest => readItems readText true (rest.length + 1) rest
  | _ => .error (kindFailure "a sequence" text)

end KeyLens.Json
