import StackLang.Grammar.SyntaxError
import StackLang.Grammar.Trace

/-!
# Reading tokens

A reader consumes tokens from the front of the input.  It never fails: what it
misses it records as a syntax error, and then skips to a token at which it can
go on.  Along the way it writes a trace.  The input only ever gets shorter, so a
loop that reads something in each round ends within as many rounds as there are
tokens.
-/

namespace StackLang

/-- The input that is left, with what has been recorded so far. -/
structure Cursor where
  rest : List Token
  depth : Nat
  trace : Array TraceLine
  errors : Array SyntaxError
  /-- The number of switches read so far. -/
  switches : Nat
  /-- Whether reading got stuck: a reader asked for a token behind the last one, a loop or
  a nesting used up its bound, or the mark of a literal could not be cut off. -/
  stuck : Bool

/-- A computation that consumes tokens. -/
abbrev Reading := StateM Cursor

namespace Cursor

/-- The cursor in front of the first token. -/
def initial (tokens : List Token) : Cursor := ⟨tokens, 0, #[], #[], 0, false⟩

/-- The next token. -/
def next? (cursor : Cursor) : Option Token := cursor.rest.head?

end Cursor

namespace Reading

/-- The next token. -/
def peek : Reading (Option Token) := return (← get).next?

/-- Whether the next token is spelled `symbol`. -/
def sees (symbol : String) : Reading Bool := return (← peek).any fun token => token.spells symbol

/-- Whether the next token is one of the terminals. -/
def seesAny (terminals : List Terminal) : Reading Bool :=
  return Terminal.anyAccepts terminals (← peek)

/-- Whether the next token can start the nonterminal. -/
def seesStart (nonterminal : Nonterminal) : Reading Bool := seesAny nonterminal.first

/-- Whether the next token is a name. -/
def seesIdentifier : Reading Bool := return (← peek).any Token.isIdentifier

/-- Whether the next token names a type. -/
def seesType : Reading Bool := seesStart .type

/-- Whether the input is used up. -/
def atEnd : Reading Bool := return (← get).rest.isEmpty

/-- The line of the next token. -/
def line : Reading Nat := return ((← peek).map Token.line).getD 0

/-- Add a line to the trace. -/
def log (entry : TraceEntry) : Reading Unit :=
  modify fun cursor => { cursor with trace := cursor.trace.push ⟨cursor.depth, entry⟩ }

/-- Record a complaint about the next token. -/
def complain (complaint : Complaint) : Reading Unit :=
  modify fun cursor => { cursor with errors := cursor.errors.push ⟨complaint, cursor.next?⟩ }

/-- Record that reading cannot go on as it should. -/
def getStuck : Reading Unit := modify fun cursor => { cursor with stuck := true }

/-- Step over the next token; without one, reading gets stuck. -/
def skip : Reading Unit :=
  modify fun cursor =>
    { cursor with rest := cursor.rest.tail, stuck := cursor.stuck || cursor.rest.isEmpty }

/-- Step over tokens up to the first one, or the end, that `stop` holds of. -/
def skipTo (stop : Option Token → Bool) : Reading Unit :=
  modify fun cursor => { cursor with rest := cursor.rest.dropWhile fun token => !stop (some token) }

/-- Read the next token and log what it is; without one, reading gets stuck. -/
def take (entry : Token → TraceEntry) : Reading (Option Token) := do
  match ← peek with
  | none =>
      getStuck
      return none
  | some token =>
      skip
      log (entry token)
      return some token

/-- Read a name, if it is next. -/
def identifier? : Reading (Option Token) := do
  if ← seesIdentifier then take fun token => .identifier token.value
  else return none

/-- Read a symbol, and tell whether it was next. -/
def accept (symbol : String) : Reading Bool := do
  if ← sees symbol then
    skip
    log (.symbol symbol)
    return true
  return false

/-- Read a keyword that is known to be next. -/
def keyword (symbol : String) : Reading Unit := do
  skip
  log (.symbol symbol)

/-- Read a symbol that must be next; if it is missing, repair that. -/
def demand (symbol : String) (repair : Reading Unit) : Reading Unit := do
  if !(← accept symbol) then repair

/-- Complain, then skip up to a token at which reading goes on. -/
def abandon (complaint : Complaint) (stop : Option Token → Bool) : Reading Unit := do
  complain complaint
  skipTo stop

/-- Complain, then skip up to a token that can start the nonterminal or that
follows it, and tell whether it can be read now. -/
def recover (nonterminal : Nonterminal) (complaint : Complaint) : Reading Bool := do
  abandon complaint fun next => nonterminal.startsWith next || nonterminal.endsBefore next
  seesStart nonterminal

/-- Whether the nonterminal can be read, if need be after skipping. -/
def expect (nonterminal : Nonterminal) (complaint : Complaint) : Reading Bool := do
  if ← seesStart nonterminal then return true
  recover nonterminal complaint

/-- Read a nonterminal one level deeper in the trace. -/
def rule (nonterminal : Nonterminal) (body : Reading α) : Reading α := do
  log (.enter nonterminal)
  let depth := (← get).depth
  modify fun cursor => { cursor with depth := depth + 1 }
  let result ← body
  modify fun cursor => { cursor with depth := depth }
  return result

/-- The results of at most `bound` rounds, up to the first that has none. -/
def collectFor (round : Reading (Option α)) : Nat → Reading (List α)
  | 0 => do
      getStuck
      return []
  | bound + 1 => do
      match ← round with
      | none => return []
      | some result => return result :: (← collectFor round bound)

/-- The results of all rounds, each of which reads something unless it is the
last. -/
def collect (round : Reading (Option α)) : Reading (List α) := do
  collectFor round ((← get).rest.length + 1)

/-- The value after at most `bound` rounds, up to the first that has none. -/
def refineFor (round : α → Reading (Option α)) : Nat → α → Reading α
  | 0, value => do
      getStuck
      return value
  | bound + 1, value => do
      match ← round value with
      | none => return value
      | some value => refineFor round bound value

/-- The value after all rounds, each of which reads something unless it is the
last. -/
def refine (round : α → Reading (Option α)) (value : α) : Reading α := do
  refineFor round ((← get).rest.length + 1) value

end Reading

end StackLang
