import StackLang.Token.Basic

/-!
# Nonterminals with their FIRST and FOLLOW sets

The grammar of the language:

    program      := "{" body "}" | "class" name "{" member* "}" | body
    member       := method | variable ";"
    method       := type name "(" parameters ")" "{" body "}"
    parameters   := (type name ("," type name)*)?
    body         := statement*
    statement    := variable ";" | assignment ";" | call ";" | print ";" | read ";"
                  | break ";" | return | while | if | doWhile | for | switch
                  | "{" body "}" | expression ";"
    variable     := type name ("=" expression)?
    assignment   := name ("=" | "+=" | "-=" | "*=" | "/=") expression | name ("++" | "--")
    call         := name "(" (expression ("," expression)*)? ")"
    print        := ("println" | "print") "(" expression? ")"
    read         := "inputln" "(" name ")"
    return       := "return" expression? ";"
    while        := "while" "(" expression ")" block
    if           := "if" "(" expression ")" block ("else" (if | block))?
    doWhile      := "do" block "while" "(" expression ")" ";"
    for          := "for" "(" (variable | assignment)? ";" expression? ";" assignment? ")" block
    switch       := "switch" "(" expression ")" "{" (("case" expression | "default") ":" body)* "}"
    block        := "{" body "}" | statement
    expression   := conjunction ("||" conjunction)*
    conjunction  := inversion ("&&" inversion)*
    inversion    := "!" inversion | relation
    relation     := sum (("<" | ">" | "<=" | ">=" | "==" | "!=") sum)?
    sum          := product (("+" | "-") product)*
    product      := negation (("*" | "/") negation)*
    negation     := "-"? primary
    primary      := name | call | literal | "(" expression ")"

A reader whose next token is not in FIRST skips tokens up to one in FIRST, where
it goes on, or one in FOLLOW, where it gives up.
-/

namespace StackLang

/-- What a set of tokens can ask of the next token. -/
inductive Terminal where
  /-- A keyword, operator or delimiter with the given spelling. -/
  | word (text : String)
  | identifier
  | literal
  | endOfInput
  deriving DecidableEq, Repr

/-- Whether the next token, if there is one, is the terminal. -/
def Terminal.accepts : Terminal → Option Token → Bool
  | .endOfInput, none => true
  | _, none => false
  | .word text, some token => token.spells text
  | .identifier, some token => token.isIdentifier
  | .literal, some token => token.isLiteral
  | .endOfInput, some _ => false

/-- Whether the next token, if there is one, is one of the terminals. -/
def Terminal.anyAccepts (terminals : List Terminal) (next : Option Token) : Bool :=
  terminals.any fun terminal => terminal.accepts next

/-- The nonterminals of the grammar that leave a mark in a trace. -/
inductive Nonterminal where
  | program
  | method
  | parameters
  | body
  | print
  | read
  | variable
  | assignment
  | call
  | arguments
  | giveBack
  | whileLoop
  | choice
  | doWhile
  | forLoop
  | switch
  | block
  | expression
  | conjunction
  | inversion
  | relation
  | sum
  | product
  | negation
  | primary
  | type
  deriving DecidableEq, Repr

namespace Nonterminal

/-- The mark of a nonterminal in a trace. -/
def text : Nonterminal → String
  | .program => "RULE_PROGRAM"
  | .method => "RULE_METHODS"
  | .parameters => "RULE_PARAMS"
  | .body => "RULE_BODY"
  | .print => "RULE_PRINTLN"
  | .read => "RULE_INPUTLN"
  | .variable => "RULE_VARIABLE"
  | .assignment => "RULE_ASSIGNMENT"
  | .call => "RULE_CALL_METHOD"
  | .arguments => "RULE_PARAM_VALUES"
  | .giveBack => "RULE_RETURN"
  | .whileLoop => "RULE_WHILE"
  | .choice => "RULE_IF"
  | .doWhile => "RULE_DO_WHILE"
  | .forLoop => "RULE_FOR"
  | .switch => "RULE_SWITCH"
  | .block => "RULE_STATEMENT_BLOCK"
  | .expression => "RULE_EXPRESSION"
  | .conjunction => "RULE_X"
  | .inversion => "RULE_Y"
  | .relation => "RULE_R"
  | .sum => "RULE_E"
  | .product => "RULE_A"
  | .negation => "RULE_B"
  | .primary => "RULE_C"
  | .type => "RULE_TYPE"

/-- Terminals given by their spellings. -/
def words (texts : List String) : List Terminal := texts.map .word

/-- The keywords of types. -/
def typeWords : List String := ["int", "float", "void", "char", "string", "boolean"]

/-- What a statement other than a block can start with. -/
def statementStart : List Terminal :=
  words typeWords ++ .identifier :: words ["return", "while", "if", "do", "for", "switch", "(", "!",
    "-"] ++ .literal :: words ["break", "println", "print", "inputln"]

/-- What can follow an operand of the tightest operators. -/
def operandEnd : List Terminal :=
  words ["*", "/", "+", "-", "<", ">", "<=", ">=", "==", "!=", "&&", "||", ";", ")", ",", ":"]

/-- The terminals that a nonterminal can start with. -/
def first : Nonterminal → List Terminal
  | .program => words ("\x7b" :: "class" :: typeWords) ++ [.identifier]
  | .method | .parameters | .variable | .type => words typeWords
  | .body => statementStart
  | .print => words ["println", "print"]
  | .read => words ["inputln"]
  | .assignment | .call => [.identifier]
  | .arguments | .expression | .conjunction | .inversion =>
      [.identifier, .word "(", .word "!", .word "-", .literal]
  | .giveBack => words ["return"]
  | .whileLoop => words ["while"]
  | .choice => words ["if"]
  | .doWhile => words ["do"]
  | .forLoop => words ["for"]
  | .switch => words ["switch"]
  | .block => .word "\x7b" :: statementStart
  | .relation | .sum | .product | .negation => [.identifier, .word "(", .word "-", .literal]
  | .primary => [.identifier, .word "(", .literal]

/-- The terminals at which a nonterminal is given up. -/
def follow : Nonterminal → List Terminal
  | .program => [.endOfInput]
  | .method => words (typeWords ++ ["\x7d"])
  | .parameters | .arguments => words [")"]
  | .body | .giveBack => words ["\x7d", "break", "case", "default"]
  | .print | .read => words [";", "\x7d", "break", "case", "default"]
  | .variable | .assignment => words [";"]
  | .call => words [";", "+", "-", "*", "/", ")", "<", ">", "==", "!=", "&&", "||", ","]
  | .whileLoop | .choice | .doWhile | .forLoop | .switch =>
      words ["\x7d", ";", "else", "break", "case", "default"]
  | .block => words ["\x7d", ";", "else", "while", "break", "case", "default"]
  | .expression | .conjunction => words [";", ")", ",", ":"]
  | .inversion => words ["||", ";", ")", ",", ":"]
  | .relation => words ["&&", "||", ";", ")", ",", ":"]
  | .sum =>
      words ["<", ">", "<=", ">=", "==", "!=", "&&", "||", ";", ")", ",", ":"]
  | .product =>
      words ["+", "-", "<", ">", "<=", ">=", "==", "!=", "&&", "||", ";", ")", ",", ":"]
  | .negation | .primary => operandEnd
  | .type => [.identifier]

/-- Whether the next token can start the nonterminal. -/
def startsWith (nonterminal : Nonterminal) (next : Option Token) : Bool :=
  Terminal.anyAccepts nonterminal.first next

/-- Whether the nonterminal is given up at the next token. -/
def endsBefore (nonterminal : Nonterminal) (next : Option Token) : Bool :=
  Terminal.anyAccepts nonterminal.follow next

end Nonterminal

end StackLang
