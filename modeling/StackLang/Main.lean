import StackLang.Command

/-!
# The program

Reads the command line and the files it names, and writes the response.
-/

namespace StackLang

/-- The text of a file, if it can be read. -/
def readText? (path : String) : IO (Option String) := do
  try
    return some (← IO.FS.readFile path)
  catch _ => return none

/-- The options of a run, as they stand on the command line. -/
structure RunArguments where
  input : Option String
  options : RunOptions

/-- Read the options of a run. -/
def runArguments? (arguments : RunArguments) : List String → Option RunArguments
  | [] => some arguments
  | "--trace" :: rest =>
      runArguments? { arguments with options := { arguments.options with trace := true } } rest
  | "--input" :: path :: rest => runArguments? { arguments with input := some path } rest
  | "--step-limit" :: limit :: rest =>
      match Numeral.natural64? limit with
      | some number =>
          runArguments?
            { arguments with options := { arguments.options with stepLimit := some number } } rest
      | none => none
  | _ => none

/-- The command, the path of its file and the path of its input. -/
def commandLine? : List String → Option (Command × Option String × Option String)
  | ["automaton"] => some (.automaton, none, none)
  | ["tokens", path] => some (.tokens, some path, none)
  | ["parse", path] => some (.parse, some path, none)
  | ["compile", path] => some (.compile, some path, none)
  | "run" :: path :: rest =>
      (runArguments? ⟨none, ⟨none, false⟩⟩ rest).map fun arguments =>
        (.run arguments.options, some path, arguments.input)
  | "exec" :: path :: rest =>
      (runArguments? ⟨none, ⟨none, false⟩⟩ rest).map fun arguments =>
        (.exec arguments.options, some path, arguments.input)
  | _ => none

/-- How the program is called. -/
def usage : String :=
  "usage: (tokens | parse | compile | run | exec) FILE | automaton\n" ++
    "run and exec: [--input FILE] [--step-limit N] [--trace]"

/-- Carry out the command that the arguments name. -/
def runCommandLine (arguments : List String) : IO UInt32 := do
  match commandLine? arguments with
  | none =>
      IO.eprintln usage
      return 2
  | some (command, path, input) =>
      let file ← match path with
        | some path => readText? path
        | none => pure none
      let input ← match input with
        | some path => some <$> readText? path
        | none => pure none
      let response := command.respond ⟨file, input⟩
      IO.print response.output
      IO.eprint response.messages
      return if response.failed then 1 else 0

end StackLang

/-- Run the command line. -/
def main (arguments : List String) : IO UInt32 := StackLang.runCommandLine arguments
