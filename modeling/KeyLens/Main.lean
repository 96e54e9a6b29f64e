import KeyLens.CommandLine.Commands
import KeyLens.CommandLine.Files
import KeyLens.Session.Basic

/-!
# The program

The first line of the input is a document with the files of the project by their paths. The words
of the command line say what to do with them. In a session each further line is a request, and a
line answers it.
-/

namespace KeyLens.CommandLine

/-- The time that new files have. -/
def writingTime : Nat := 0

/-- The words for a refusal, and the number that it is for other programs. -/
def refusalText : Refusal → String × UInt32
  | .unknownArgument => ("error: unexpected argument\n", 2)
  | .unknownCommand => ("error: unrecognized subcommand\n", 2)
  | .missingArgument => ("error: the required arguments were not provided\n", 2)
  | .malformedValue => ("error: invalid value\n", 2)
  | .missingValue => ("error: a value is required\n", 2)
  | .repeatedArgument => ("error: the argument cannot be used multiple times\n", 2)
  | .unexpectedValue => ("error: unexpected value\n", 2)
  | .help => (helpText, 0)
  | .version => ("i18n-lens 0.1.0\n", 0)

/-- The answer of a session to a line, and the session afterwards. -/
def answerLine (tree : FileTree) (session : Session) (line : String) : Session × Json :=
  let fault (message : String) : Json := .object [("error", .string message)]
  match Json.read line with
  | .error failure => (session, fault (failure.message line))
  | .ok request =>
    match ((request.get? "tool").bind Json.string?).bind Session.Tool.ofName? with
    | none => (session, fault "unknown tool")
    | some tool =>
      match Session.Request.read tool ((request.get? "params").getD .null) with
      | .error cause => (session, fault cause.message)
      | .ok request =>
        match session.answer tree request with
        | (session, .ok answer) => (session, answer)
        | (session, .error error) => (session, fault error.message)

/-- Answers the lines of the input. -/
partial def serve (tree : FileTree) (session : Session) (input output : IO.FS.Stream) :
    IO Unit := do
  let line ← input.getLine
  if line.isEmpty then return
  let (session, answer) := answerLine tree session line
  output.putStrLn answer.compact
  output.flush
  serve tree session input output

end KeyLens.CommandLine

open KeyLens CommandLine in
/-- Carries out what the words ask for. -/
def main (words : List String) : IO UInt32 := do
  match readWords (← IO.getEnv "I18N_LENS_ROOT") words with
  | .error refusal =>
    let (text, code) := refusalText refusal
    IO.print text
    return code
  | .ok command =>
    let input ← IO.getStdin
    let output ← IO.getStdout
    let members := match Json.read (← input.getLine) with
      | .ok (.object members) => members
      | _ => []
    match FileTree.ofMembers writingTime members with
    | .error error =>
      IO.eprintln ("Error: " ++ error.message)
      return 2
    | .ok tree =>
      if command = some .serve then
        output.putStrLn Session.instructions
        output.flush
        serve tree Session.start input output
        return 0
      let finish := run tree writingTime command
      if finish.broken then
        IO.eprintln "a caret cannot be set to its column"
        return 101
      output.putStr (Styled.render false finish.printed)
      let changed := tree.written finish.tree
      if changed ≠ [] then output.putStrLn (Json.object changed).compact
      for warning in finish.warnings do
        IO.eprintln (" WARN " ++ warning.message)
      IO.eprint (Styled.render false finish.told)
      match finish.result with
      | .ok status => return status.code.toUInt32
      | .error error =>
        IO.eprintln ("Error: " ++ error.message)
        return 2
