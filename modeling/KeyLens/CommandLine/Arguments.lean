import KeyLens.Config.Basic

/-!
# Arguments

The words of a command line, read from left to right. A word names a command, a switch or the value
of one, or it is what the command is about. The value of a switch is taken over when the next
switch follows, so that a fault in it shows only then.
-/

namespace KeyLens.CommandLine

/-- What is given with every command about a project. -/
structure Common where
  /-- The directory where the search for the configuration starts. -/
  root : Option String
  /-- The values that take precedence over the configuration. -/
  overrides : Overrides
  /-- Whether details are asked for. -/
  verbose : Bool
  deriving Repr, DecidableEq

/-- What is asked for. -/
inductive Command where
  /-- Hints for files and directories; for the whole project if there are none. -/
  | hints (paths : List String) (common : Common)
  /-- The meanings of the key at a place of a file, on demand in markup. -/
  | hover (file : String) (line column : Nat) (markup : Bool) (common : Common)
  /-- The languages of a project. -/
  | languages (common : Common)
  /-- A configuration file with the defaults. -/
  | init
  /-- A session with another program. -/
  | serve
  deriving Repr, DecidableEq

/-- Whether a command asks for details. -/
def Command.verbose : Command → Bool
  | hints _ common => common.verbose
  | hover _ _ _ _ common => common.verbose
  | languages common => common.verbose
  | init => false
  | serve => false

/-- Why no command is carried out. -/
inductive Refusal where
  /-- A word that has no meaning here. -/
  | unknownArgument
  /-- A word in place of a command that is none. -/
  | unknownCommand
  /-- Something that the command needs is not there. -/
  | missingArgument
  /-- A value that is not of the form that its switch needs. -/
  | malformedValue
  /-- A switch without its value, or an empty path. -/
  | missingValue
  /-- A switch that is given twice. -/
  | repeatedArgument
  /-- A value for a switch that takes none. -/
  | unexpectedValue
  /-- Help is asked for. -/
  | help
  /-- The version is asked for. -/
  | version
  deriving Repr, DecidableEq

/-- The commands by their names. -/
inductive Verb where
  /-- Hints for files. -/
  | hints
  /-- The meanings of a key. -/
  | hover
  /-- The languages of a project. -/
  | languages
  /-- A configuration file. -/
  | init
  /-- A session. -/
  | serve
  deriving Repr, DecidableEq

namespace Verb

/-- All commands. -/
def all : List Verb := [hints, hover, languages, init, serve]

/-- The name of a command. -/
def name : Verb → String
  | hints => "hints"
  | hover => "hover"
  | languages => "languages"
  | init => "init"
  | serve => "serve"

/-- The command of a name. -/
def ofName? (text : String) : Option Verb :=
  all.find? fun verb => verb.name == text

/-- Whether a command is about a project. -/
def hasCommon : Verb → Bool
  | hints | hover | languages => true
  | init | serve => false

end Verb

/-- A switch. -/
inductive Switch where
  /-- The directory where the search for the configuration starts. -/
  | root
  /-- The directory of the translations. -/
  | localesPath
  /-- The namespace of a call that names none. -/
  | defaultNamespace
  /-- The language of the hints. -/
  | language
  /-- Details. -/
  | verbose
  /-- The number of a line. -/
  | line
  /-- The number of a character. -/
  | column
  /-- Markup. -/
  | markup
  /-- Help. -/
  | help
  deriving Repr, DecidableEq

namespace Switch

/-- The name of a switch behind two hyphens. -/
def name : Switch → String
  | root => "root"
  | localesPath => "locales-path"
  | defaultNamespace => "default-namespace"
  | language => "language"
  | verbose => "verbose"
  | line => "line"
  | column => "column"
  | markup => "html"
  | help => "help"

/-- The letter of a switch behind one hyphen. -/
def letter? : Switch → Option Char
  | verbose => some 'v'
  | help => some 'h'
  | _ => none

/-- Whether a switch takes a value. -/
def takesValue : Switch → Bool
  | verbose | markup | help => false
  | _ => true

/-- The switches of a command. -/
def ofVerb (verb : Verb) : List Switch :=
  (if verb = .hover then [line, column, markup] else []) ++
    (if verb.hasCommon then [root, localesPath, defaultNamespace, language, verbose] else []) ++
    [help]

end Switch

/-- What is still to be taken over. -/
inductive Pending where
  /-- Nothing. -/
  | nothing
  /-- A switch without its value. -/
  | awaiting (switch : Switch)
  /-- A switch and its value. -/
  | valued (switch : Switch) (value : String)
  /-- What the command is about. -/
  | subjects (values : List String)
  deriving Repr

/-- What has been read. -/
structure State where
  /-- The values of the switches that take one. -/
  values : List (Switch × String)
  /-- The other switches. -/
  flags : List Switch
  /-- What the command is about. -/
  subjects : List String
  /-- What is still to be taken over. -/
  pending : Pending
  /-- Whether all words that follow are what the command is about. -/
  plainOnly : Bool
  deriving Repr

namespace State

/-- Nothing has been read. -/
def start : State := ⟨[], [], [], .nothing, false⟩

/-- The number that a text spells, up to the greatest one of sixty-four bits. -/
def number? (text : String) : Option Nat :=
  let digits := match text.toList with
    | '+' :: rest => rest
    | chars => chars
  if digits ≠ [] ∧ digits.all Char.isDigit then
    let value := digits.foldl (fun value c => value * 10 + (c.toNat - 48)) 0
    if value ≤ 18446744073709551615 then some value else none
  else none

/-- Takes the value of a switch over. -/
def setValue (state : State) (switch : Switch) (value : String) : Except Refusal State :=
  if (state.values.lookup switch).isSome then .error .repeatedArgument
  else if switch = .root ∧ value = "" then .error .missingValue
  else if (switch = .line ∨ switch = .column) ∧ (number? value).isNone then .error .malformedValue
  else .ok { state with values := (switch, value) :: state.values }

/-- Takes over what is pending. -/
def settle (state : State) : Except Refusal State :=
  let settled := { state with pending := .nothing }
  match state.pending with
  | .nothing => .ok settled
  | .awaiting _ => .error .missingValue
  | .valued switch value => settled.setValue switch value
  | .subjects values =>
    if values.contains "" then .error .missingValue
    else .ok { settled with subjects := settled.subjects ++ values }

/-- Takes over a switch without a value. -/
def setFlag (state : State) (switch : Switch) : Except Refusal State := do
  let state ← state.settle
  if switch = .help then throw .help
  if switch ∈ state.flags then throw .repeatedArgument
  pure { state with flags := switch :: state.flags }

/-- Reads a word behind two hyphens, in which an equals sign may part the name from the value. -/
def readLong (verb : Verb) (state : State) (word : List Char) : Except Refusal State :=
  let name := String.ofList (word.takeWhile (· != '='))
  let value? := match word.dropWhile (· != '=') with
    | _ :: value => some (String.ofList value)
    | [] => none
  match (Switch.ofVerb verb).find? fun switch => switch.name == name, value? with
  | none, _ => .error .unknownArgument
  | some switch, some value =>
    if switch.takesValue then do (← state.settle).setValue switch value
    else .error .unexpectedValue
  | some switch, none =>
    if switch.takesValue then do pure { ← state.settle with pending := .awaiting switch }
    else state.setFlag switch

/-- Reads the letters behind one hyphen. -/
def readLetters (verb : Verb) (state : State) : List Char → Except Refusal State
  | [] => .ok state
  | c :: rest =>
    match (Switch.ofVerb verb).find? fun switch => switch.letter? == some c with
    | some switch => do (← state.setFlag switch).readLetters verb rest
    | none => .error .unknownArgument

/-- Reads a word that the command is about. -/
def readSubject (verb : Verb) (state : State) (word : String) : Except Refusal State :=
  match verb, state.pending with
  | .hints, .subjects values => .ok { state with pending := .subjects (values ++ [word]) }
  | .hints, _ => do pure { ← state.settle with pending := .subjects [word] }
  | .hover, .subjects _ => .error .unknownArgument
  | .hover, _ =>
    if state.subjects = [] then do pure { ← state.settle with pending := .subjects [word] }
    else .error .unknownArgument
  | _, _ => .error .unknownArgument

/-- Reads one word. -/
def readWord (verb : Verb) (state : State) (word : String) : Except Refusal State :=
  if state.plainOnly then state.readSubject verb word
  else match word.toList with
    | ['-', '-'] => .ok { state with plainOnly := true }
    | '-' :: '-' :: rest => state.readLong verb rest
    | '-' :: c :: rest => state.readLetters verb (c :: rest)
    | _ =>
      match state.pending with
      | .awaiting switch => .ok { state with pending := .valued switch word }
      | _ => state.readSubject verb word

/-- The value of a switch. -/
def value? (state : State) (switch : Switch) : Option String :=
  state.values.lookup switch

/-- The number that is the value of a switch. -/
def numberOf (state : State) (switch : Switch) : Except Refusal Nat :=
  match (state.value? switch).bind number? with
  | some value => .ok value
  | none => .error .missingArgument

/-- The state in which the directory comes from the surroundings if no switch gives it. -/
def withSurroundings (verb : Verb) (root? : Option String) (state : State) :
    Except Refusal State :=
  match root? with
  | some root =>
    if verb.hasCommon ∧ (state.value? .root).isNone then state.setValue .root root else .ok state
  | none => .ok state

/-- What is given with every command about a project. -/
def common (state : State) : Common where
  root := state.value? .root
  overrides := {
    localesPath := state.value? .localesPath
    defaultNamespace := state.value? .defaultNamespace
    inlineLanguage := state.value? .language }
  verbose := state.flags.contains .verbose

/-- The command that has been read. -/
def command (verb : Verb) (state : State) : Except Refusal Command :=
  match verb with
  | .hints => .ok (.hints state.subjects state.common)
  | .hover =>
    match state.subjects with
    | [] => .error .missingArgument
    | file :: _ => do
      pure (.hover file (← state.numberOf .line) (← state.numberOf .column)
        (state.flags.contains .markup) state.common)
  | .languages => .ok (.languages state.common)
  | .init => .ok .init
  | .serve => .ok .serve

end State

/-- Reads the words behind the name of a command. -/
def readCommand (root? : Option String) (verb : Verb) (words : List String) :
    Except Refusal Command := do
  let state ← words.foldlM (State.readWord verb) State.start
  let state ← (← state.settle).withSurroundings verb root?
  state.command verb

/-- The answer to the word that asks for help on the words behind it. -/
def helpOn : List String → Refusal
  | [] => .help
  | [word] => if word = "help" ∨ (Verb.ofName? word).isSome then .help else .unknownCommand
  | _ => .unknownCommand

/-- The answer to letters behind one hyphen where a command should stand. -/
def refuseLetters : List Char → Refusal
  | 'h' :: _ => .help
  | 'V' :: _ => .version
  | _ => .unknownArgument

/-- The answer to a word behind two hyphens where a command should stand. -/
def refuseLong (word : List Char) : Refusal :=
  let name := word.takeWhile (· != '=')
  let answer? : Option Refusal :=
    if name = "help".toList then some .help
    else if name = "version".toList then some .version
    else none
  match answer? with
  | none => .unknownArgument
  | some answer => if name = word then answer else .unexpectedValue

/-- The answer to a word behind two hyphens alone: it would name a command without them, or not. -/
def refusePlain (word : String) : Refusal :=
  if word = "help" ∨ (Verb.ofName? word).isSome then .unknownArgument else .unknownCommand

/-- The command that words ask for; none if there are no words. The directory of the project may
come from the surroundings. -/
def readWords (root? : Option String) : List String → Except Refusal (Option Command)
  | [] => .ok none
  | word :: rest =>
    match Verb.ofName? word with
    | some verb => (readCommand root? verb rest).map some
    | none =>
      if word = "help" then .error (helpOn rest)
      else match word.toList with
        | ['-', '-'] =>
          match rest with
          | [] => .ok none
          | plain :: _ => .error (refusePlain plain)
        | '-' :: '-' :: name => .error (refuseLong name)
        | '-' :: c :: letters => .error (refuseLetters (c :: letters))
        | _ => .error .unknownCommand

end KeyLens.CommandLine
