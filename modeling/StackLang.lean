import StackLang.Main
import StackLang.Proofs.Compiled.ControlFlow
import StackLang.Proofs.Compiled.NameDiscipline
import StackLang.Proofs.Compiled.TypeSoundness
import StackLang.Proofs.Lexeme.Layout
import StackLang.Proofs.Lexeme.Classified
import StackLang.Proofs.Grammar.Opening
import StackLang.Proofs.Grammar.Prediction
import StackLang.Proofs.Completeness.Judgement
import StackLang.Proofs.Completeness.Expression
import StackLang.Proofs.Termination.Expression
import StackLang.Proofs.Termination.Statement
import StackLang.Proofs.Termination.Program
import StackLang.Proofs.Layout.Erasure
import StackLang.Proofs.Layout.Reading
import StackLang.Proofs.Layout.Expression
import StackLang.Proofs.Layout.Statement
import StackLang.Proofs.Layout.Program
import StackLang.Proofs.Layout.Checking
import StackLang.Proofs.Layout.Compilation
import StackLang.Proofs.Fork.Judgement
import StackLang.Proofs.Fork.Primitives
import StackLang.Proofs.Loops.Desugaring
import StackLang.Proofs.Fork.Expression
import StackLang.Proofs.Fork.Parts
import StackLang.Proofs.Fork.Statement
import StackLang.Proofs.Fork.Body
import StackLang.Proofs.Fork.Program
import StackLang.Proofs.Grammar.Ending
import StackLang.Proofs.Grammar.Nesting
import StackLang.Proofs.Loops.Runs
import StackLang.Proofs.Loops.Segments
import StackLang.Proofs.Checking.Probe
import StackLang.Proofs.Checking.Scopes
import StackLang.Proofs.Grammar.Rendering
import StackLang.Proofs.Completeness.Rendering
import StackLang.Proofs.Machine.Evaluation
import StackLang.Proofs.Compiled.Expression
import StackLang.Proofs.Checking.Silence
import StackLang.Proofs.Completeness.Assignment
import StackLang.Proofs.Compiled.Assignment
import StackLang.Proofs.Loops.Header
import StackLang.Proofs.Loops.Body
import StackLang.Proofs.Loops.Expansion
import StackLang.Proofs.Automaton.Patterns
import StackLang.Proofs.Lexeme.Conservation
import StackLang.Proofs.Lexeme.Standing
import StackLang.Proofs.Lexeme.Comments
import StackLang.Proofs.Grammar.Rendered
import StackLang.Proofs.Checking.Faults
import StackLang.Proofs.Compiled.Diagnostics
import StackLang.Proofs.Numeral.Rounding
import StackLang.Proofs.Numeral.WholeDouble
import StackLang.Proofs.Numeral.Conversion
import StackLang.Proofs.Machine.Comparison
import StackLang.Proofs.Lexeme.Spelling
import StackLang.Proofs.Compiled.Literal
import StackLang.Proofs.Grammar.Occurrence
import StackLang.Proofs.Recovery.Constants
import StackLang.Proofs.Fork.Lockstep
import StackLang.Proofs.Recovery.Gap
import StackLang.Proofs.Recovery.Statement
import StackLang.Proofs.Recovery.Program
import StackLang.Proofs.Compiled.MissingSemicolon
import StackLang.Proofs.Machine.StepLimit
import StackLang.Proofs.Machine.Input
import StackLang.Proofs.Course.Trace
import StackLang.Proofs.Course.Order
import StackLang.Proofs.Loading.Blame
import StackLang.Proofs.Checking.Operations
import StackLang.Proofs.Retyping.Program
import StackLang.Proofs.Token.Row
import StackLang.Proofs.Code.Sessions
import StackLang.Proofs.Automaton.Drawing
import StackLang.Proofs.Completeness.Program
