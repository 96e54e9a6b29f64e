import KeyLens.Namespaces
import KeyLens.Selector
import KeyLens.Text.Word

/-!
# Namespace declarations

The text above a translation call may declare the namespaces of `t`, either by a destructuring
such as `const { t } = useTranslation(['a', 'b'])` or by a parameter of the type
`TFunction<['a', 'b']>`. The last declaration above the call is the one that counts.
-/

namespace KeyLens.Declaration

open KeyLens.Text
open KeyLens.Selector (isQuote dropWord?)

/-- The text after leading blanks and then `word`; none if something else stands there. -/
def token? (word : String) (text : List Char) : Option (List Char) :=
  dropWord? word.toList (skipBlank text)

/-- Whether a text starts at the end of a word, or outside of one. -/
def endsWord (text : List Char) : Bool :=
  match text with
  | [] => true
  | c :: _ => !isWord c

/-- Whether the word `t` stands in a text. `inWord` tells whether the character before the text
belongs to a word. -/
def namesT (inWord : Bool) : List Char → Bool
  | [] => false
  | c :: rest => (c == 't' && !inWord && endsWord rest) || namesT (isWord c) rest

/-- What stands between a bracket that has just been opened and the next `close`, and the text
after that; none if `close` does not follow. -/
def enclosed? (close : Char) (text : List Char) : Option (List Char × List Char) :=
  match text.dropWhile (· != close) with
  | [] => none
  | _ :: rest => some (text.takeWhile (· != close), rest)

/-- The text after one of the three words that start a variable declaration. -/
def afterBinder? (text : List Char) : Option (List Char) :=
  (dropWord? "const".toList text <|> dropWord? "let".toList text) <|> dropWord? "var".toList text

/-- The argument text of a destructuring of `useTranslation` that binds `t`, and the text after
it, where the text starts with the declaration. -/
def hook? (text : List Char) : Option (List Char × List Char) :=
  (afterBinder? text).bind fun rest =>
    (token? "\x7b" rest).bind fun rest =>
      (enclosed? '\x7d' rest).bind fun (names, rest) =>
        if namesT false names then
          (token? "=" rest).bind fun rest =>
            (token? "useTranslation" rest).bind fun rest =>
              (token? "(" rest).bind fun rest => enclosed? ')' rest
        else none

/-- The text after the type name `TFunction` in any case. -/
def afterTypeName? (text : List Char) : Option (List Char) :=
  dropName "tfunction".toList text
where
  /-- The text after a name whose letters are given in lower case. -/
  dropName : List Char → List Char → Option (List Char)
    | [], text => some text
    | _ :: _, [] => none
    | w :: word, c :: text => if c.toLower = w then dropName word text else none

/-- The list text of a binding of `t` to the type `TFunction`, and the text after it, where the
text starts with the binding. -/
def typed? (text : List Char) : Option (List Char × List Char) :=
  (dropWord? "t".toList text).bind fun rest =>
    (token? ":" rest).bind fun rest =>
      (afterTypeName? (skipBlank rest)).bind fun rest =>
        (token? "<" rest).bind fun rest =>
          (token? "[" rest).bind fun rest =>
            (enclosed? ']' rest).bind fun (names, rest) =>
              if names = [] then none else some (names, rest)

/-- What `declaration?` finds at the last of its places in a text. A place starts where no word is
going on, and the search goes on behind a place that has been found. `inWord` tells whether the
character before the text belongs to a word, and `skip` how many characters belong to the last
place found. -/
def lastOf (declaration? : List Char → Option (List Char × List Char)) (inWord : Bool)
    (skip : Nat) (found : Option (List Char)) : List Char → Option (List Char)
  | [] => found
  | c :: rest =>
    match skip with
    | skip + 1 => lastOf declaration? (isWord c) skip found rest
    | 0 =>
      if inWord then lastOf declaration? (isWord c) 0 found rest
      else match declaration? (c :: rest) with
        | none => lastOf declaration? (isWord c) 0 found rest
        | some (inner, after) =>
          lastOf declaration? (isWord c) (rest.length - after.length) (some inner) rest

/-- The strings of a text in order. A string is what stands between two quotes of any kind, holds
no quote and is not empty. -/
def strings : List Char → List (List Char)
  | [] => []
  | c :: rest =>
    if isQuote c && rest.takeWhile (!isQuote ·) != [] then
      match h : rest.dropWhile (!isQuote ·) with
      | [] => []
      | _ :: after =>
        have := h ▸ (List.dropWhile_sublist (l := rest) (!isQuote ·)).length_le
        rest.takeWhile (!isQuote ·) :: strings after
    else strings rest
termination_by text => text.length
decreasing_by
  all_goals simp_all <;> omega

/-- What the first brackets in a text enclose. -/
def listText? (text : List Char) : Option (List Char) :=
  match text.dropWhile (· != '[') with
  | [] => none
  | _ :: rest => (enclosed? ']' rest).map Prod.fst

/-- The candidates that the strings of a text name. -/
def candidates? (text : List Char) : Option Namespaces :=
  Namespaces.ofList? ((strings text).map String.ofList)

/-- The candidates that the arguments of `useTranslation` name: all strings of a list, or else the
first string. -/
def ofArguments? (text : List Char) : Option Namespaces :=
  match listText? text with
  | some inner => candidates? inner
  | none => (strings text).head?.bind fun name => Namespaces.single? (String.ofList name)

/-- The candidates that the last declaration in a text names: the last destructuring, or the last
typed binding if there is none or it names nothing. -/
def ambient? (preceding : String) : Option Namespaces :=
  let text := preceding.toList
  ((lastOf hook? false 0 none text).bind ofArguments?) <|>
    ((lastOf typed? false 0 none text).bind candidates?)

end KeyLens.Declaration
