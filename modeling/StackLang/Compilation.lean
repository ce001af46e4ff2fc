import StackLang.Analysis.Program
import StackLang.Code.Lowering
import StackLang.Grammar.Program
import StackLang.Lexeme.Scan
import StackLang.Machine.Run

/-!
# Compiling and running programs

A source text is scanned, read, checked and lowered.  Lexical errors keep it from
being read and syntax errors from being run; semantic errors keep it from
nothing.  Compiled programs are run by loading their bytecode text.
-/

namespace StackLang

/-- Everything that compiling a program produces. -/
structure Compilation where
  trace : Array TraceLine
  syntaxErrors : Array SyntaxError
  semanticErrors : Array SemanticError
  /-- The declared variables in declaration order, then the labels. -/
  symbols : SymbolTable
  assembly : Assembly

namespace Compilation

/-- Compile a list of tokens. -/
def ofTokens (tokens : List Token) : Compilation :=
  let outcome := Program.ofTokens tokens
  let analyzer := outcome.program.analyze
  let assembly := outcome.program.lower.assemble analyzer.symbols
  { trace := outcome.trace
    syntaxErrors := outcome.errors
    semanticErrors := analyzer.errors
    symbols := analyzer.symbols.insertAll assembly.labelSymbols
    assembly := assembly }

/-- The bytecode text of a compiled program. -/
def bytecode (compilation : Compilation) : String := compilation.assembly.bytecode

end Compilation

/-- The causes for which a request fails. -/
inductive Failure where
  | lexicalErrors (count : Nat)
  | load (error : LoadError)
  | fault (cause : Fault)
  | unreadableSource
  | unreadableBytecode
  | unreadableInput
  deriving DecidableEq, Repr

/-- The wording of a failure. -/
def Failure.message : Failure → String
  | .lexicalErrors count => s!"Generated {count} lexical errors"
  | .load error => s!"Failed load bytecode: {error.message}"
  | .fault cause => s!"Runtime error: {cause.message}"
  | .unreadableSource => "CompilerInternalError: Failed open source file"
  | .unreadableBytecode => "CompilerInternalError: Failed open bytecode file"
  | .unreadableInput => "CompilerInternalError: Failed open input file"

/-- The number of tokens that are no lexemes of the language. -/
def lexicalErrors (tokens : List Token) : Nat :=
  tokens.countP fun token => token.kind == .error

/-- The tokens of a source text with what they compile to. -/
def compile (source : String) : Except Failure (List Token × Compilation) :=
  let tokens := tokenize source
  match lexicalErrors tokens with
  | 0 => .ok (tokens, .ofTokens tokens)
  | count => .error (.lexicalErrors count)

/-- Everything that compiling and running a program produces. -/
structure Report where
  tokens : List Token
  compilation : Compilation
  /-- None if syntax errors keep the program from running. -/
  execution : Option Execution

/-- Compile a source text and run it unless it has syntax errors. -/
def run (source : String) (settings : RunSettings) : Except Failure Report := do
  let (tokens, compilation) ← compile source
  if compilation.syntaxErrors.isEmpty then
    let execution ← (execute compilation.bytecode settings).mapError Failure.load
    return ⟨tokens, compilation, some execution⟩
  return ⟨tokens, compilation, none⟩

end StackLang
