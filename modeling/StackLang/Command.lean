import StackLang.Automaton.Graph
import StackLang.Automaton.Language
import StackLang.Compilation
import StackLang.Token.Row

/-!
# The command line

What each mode of the command line answers to the contents of its files.  A mode
that fails writes the failure behind its other messages.
-/

namespace StackLang

/-- The options of the modes that run a program. -/
structure RunOptions where
  stepLimit : Option Nat
  /-- Whether the console of the machine is shown. -/
  trace : Bool

/-- The modes of the command line. -/
inductive Command where
  | tokens
  | parse
  | compile
  | run (options : RunOptions)
  | exec (options : RunOptions)
  | automaton

/-- What a command writes to its two outputs, and whether it failed. -/
structure Response where
  output : String
  messages : String
  failed : Bool

namespace Response

/-- The response to a command that succeeds. -/
def success (output messages : String) : Response := ⟨output, messages, false⟩

/-- Write a failure behind other messages. -/
def failure (output messages : String) (failure : Failure) : Response :=
  ⟨output, messages ++ failure.message ++ "\n", true⟩

/-- The response of a computation, or its failure alone. -/
def ofExcept : Except Failure Response → Response
  | .ok response => response
  | .error error => failure "" "" error

end Response

/-- The files that a command is given: their texts, or none where there is no
readable text. -/
structure Files where
  file : Option String
  /-- The file that feeds reads, if one is named. -/
  input : Option (Option String)

namespace Files

/-- The source text. -/
def source (files : Files) : Except Failure String :=
  match files.file with
  | some text => .ok text
  | none => .error .unreadableSource

/-- The bytecode text. -/
def bytecode (files : Files) : Except Failure String :=
  match files.file with
  | some text => .ok text
  | none => .error .unreadableBytecode

/-- The settings of a run. -/
def settings (files : Files) (options : RunOptions) : Except Failure RunSettings :=
  match files.input with
  | none => .ok ⟨[], options.stepLimit⟩
  | some (some text) => .ok ⟨Text.lines text, options.stepLimit⟩
  | some none => .error .unreadableInput

end Files

/-- The messages about the errors of a program. -/
def Compilation.diagnostics (compilation : Compilation) : String :=
  Text.unlines (compilation.syntaxErrors.toList.map SyntaxError.message ++
    compilation.semanticErrors.toList.map fun error => "Semantic Error: " ++ error.message)

/-- The response to a run that has taken place, behind earlier messages. -/
def Execution.response (execution : Execution) (options : RunOptions) (messages : String) :
    Response :=
  let console :=
    if options.trace then Text.unlines (execution.console.toList.map ConsoleEntry.text) else ""
  match execution.error with
  | none => .success execution.output (messages ++ console)
  | some fault => .failure execution.output (messages ++ console) (.fault fault)

namespace Command

/-- Print the token table of a source text. -/
def printTokens (source : String) : Response :=
  .success (Text.unlines ((tokenize source).map Token.row)) ""

/-- Print the trace and the symbol table of a source text. -/
def printParse (source : String) : Except Failure Response := do
  let (_, compilation) ← StackLang.compile source
  let lines := compilation.trace.toList.map TraceLine.text ++
    "" :: compilation.symbols.toList.map Symbol.row
  return .success (Text.unlines lines) compilation.diagnostics

/-- Print the bytecode of a source text. -/
def printBytecode (source : String) : Except Failure Response := do
  let (_, compilation) ← StackLang.compile source
  return .success compilation.bytecode compilation.diagnostics

/-- Compile and run a source text. -/
def runSource (source : String) (settings : RunSettings) (options : RunOptions) :
    Except Failure Response := do
  let report ← StackLang.run source settings
  let diagnostics := report.compilation.diagnostics
  match report.execution with
  | some execution => return execution.response options diagnostics
  | none =>
      return .success "" (diagnostics ++ "Execution skipped because of syntax errors\n")

/-- Run a bytecode text. -/
def runBytecode (bytecode : String) (settings : RunSettings) (options : RunOptions) :
    Except Failure Response := do
  let execution ← (execute bytecode settings).mapError Failure.load
  return execution.response options ""

/-- The response to a command.  The file that feeds reads is opened first. -/
def respond (command : Command) (files : Files) : Response :=
  .ofExcept <| match command with
    | .tokens => do return printTokens (← files.source)
    | .parse => do printParse (← files.source)
    | .compile => do printBytecode (← files.source)
    | .run options => do
        let settings ← files.settings options
        runSource (← files.source) settings options
    | .exec options => do
        let settings ← files.settings options
        runBytecode (← files.bytecode) settings options
    | .automaton => return .success Automaton.language.toDot ""

end Command

end StackLang
