import StackLang.Analysis.Program
import StackLang.Grammar.Program

/-!
# Trees and tokens without lines

The line of a token says where it stands, not what it is.  `unlined` sets every line to
zero, in tokens, in trees and in errors; it is not followed into the spelling, the kind
or any other part.  A test of the next token never looks at the line.
-/

namespace StackLang

namespace Token

/-- What a token is, wherever it stands. -/
def lexeme (token : Token) : String × TokenKind := (token.value, token.kind)

/-- The token without its line. -/
def unlined (token : Token) : Token := { token with line := 0 }

theorem unlined_eq_of_lexeme_eq {one other : Token} (alike : one.lexeme = other.lexeme) :
    one.unlined = other.unlined := by
  obtain ⟨value, kind⟩ := Prod.mk.inj alike
  rw [unlined, unlined, value, kind]

/-- Tokens that differ in their lines alone are the same without them. -/
theorem map_unlined_eq_of_map_lexeme_eq {one other : List Token}
    (alike : one.map lexeme = other.map lexeme) : one.map unlined = other.map unlined := by
  induction one generalizing other with
  | nil =>
      cases other with
      | nil => rfl
      | cons token rest => contradiction
  | cons token rest ih =>
      cases other with
      | nil => contradiction
      | cons counterpart others =>
          obtain ⟨head, tail⟩ := List.cons.inj alike
          rw [List.map_cons, List.map_cons, unlined_eq_of_lexeme_eq head, ih tail]

@[simp]
theorem unlined_spells (token : Token) (symbol : String) :
    token.unlined.spells symbol = token.spells symbol :=
  rfl

@[simp]
theorem unlined_isIdentifier (token : Token) : token.unlined.isIdentifier = token.isIdentifier :=
  rfl

@[simp]
theorem unlined_isLiteral (token : Token) : token.unlined.isLiteral = token.isLiteral :=
  rfl

@[simp]
theorem unlined_literalType? (token : Token) : token.unlined.literalType? = token.literalType? :=
  rfl

end Token

@[simp]
theorem Terminal.accepts_unlined (terminal : Terminal) (next : Option Token) :
    terminal.accepts (next.map Token.unlined) = terminal.accepts next := by
  cases terminal with
  | word => cases next with | none => rfl | some => rfl
  | identifier => cases next with | none => rfl | some => rfl
  | literal => cases next with | none => rfl | some => rfl
  | endOfInput => cases next with | none => rfl | some => rfl

@[simp]
theorem Terminal.anyAccepts_unlined (terminals : List Terminal) (next : Option Token) :
    anyAccepts terminals (next.map Token.unlined) = anyAccepts terminals next := by
  simp only [anyAccepts, accepts_unlined]

@[simp]
theorem Nonterminal.startsWith_unlined (nonterminal : Nonterminal) (next : Option Token) :
    nonterminal.startsWith (next.map Token.unlined) = nonterminal.startsWith next :=
  Terminal.anyAccepts_unlined _ next

@[simp]
theorem Nonterminal.endsBefore_unlined (nonterminal : Nonterminal) (next : Option Token) :
    nonterminal.endsBefore (next.map Token.unlined) = nonterminal.endsBefore next :=
  Terminal.anyAccepts_unlined _ next

@[simp]
theorem Reading.endsBody_unlined (next : Option Token) :
    endsBody (next.map Token.unlined) = endsBody next :=
  Nonterminal.endsBefore_unlined _ next

/-! ## Trees -/

/-- The expression without lines. -/
def Expr.unlined : Expr → Expr
  | .missing => .missing
  | .literal token => .literal token.unlined
  | .name token => .name token.unlined
  | .call callee arguments => .call callee.unlined (arguments.map Expr.unlined)
  | .negate _ operand => .negate 0 operand.unlined
  | .invert _ operand => .invert 0 operand.unlined
  | .binary operator _ left right => .binary operator 0 left.unlined right.unlined

/-- The foreseen expression without lines. -/
def Foreseen.unlined (foreseen : Foreseen) : Foreseen where
  line := 0
  preview := foreseen.preview.map Expr.unlined
  value := foreseen.value.unlined

/-- The initial value without lines. -/
def Initializer.unlined (initializer : Initializer) : Initializer where
  constant := initializer.constant.map Token.unlined
  value := initializer.value.unlined

/-- The declaration without lines. -/
def Declaration.unlined (declaration : Declaration) : Declaration where
  type := declaration.type
  name := declaration.name.unlined
  initializer := declaration.initializer.map Initializer.unlined

/-- What is done with the target, without lines. -/
def AssignmentForm.unlined : AssignmentForm → AssignmentForm
  | .unfinished => .unfinished
  | .step operator => .step operator
  | .store operator value => .store operator value.unlined

/-- The assignment without lines. -/
def Assignment.unlined (assignment : Assignment) : Assignment where
  target := assignment.target.unlined
  form := assignment.form.unlined

/-- What is given back, without lines. -/
def Returned.unlined : Returned → Returned
  | .nothing => .nothing
  | .value given => .value given.unlined
  | .unknown => .unknown

/-- What a loop header does first, without lines. -/
def LoopStart.unlined : LoopStart → LoopStart
  | .nothing => .nothing
  | .declare declaration => .declare declaration.unlined
  | .assign assignment => .assign assignment.unlined

mutual

/-- The statement without lines. -/
def Statement.unlined : Statement → Statement
  | .skipped => .skipped
  | .declare declaration => .declare declaration.unlined
  | .assign assignment => .assign assignment.unlined
  | .call callee arguments => .call callee.unlined (arguments.map Expr.unlined)
  | .print endsLine value => .print endsLine (value.map Expr.unlined)
  | .read target => .read target.unlined
  | .leave _ => .leave 0
  | .giveBack _ value => .giveBack 0 value.unlined
  | .evaluate value => .evaluate value.unlined
  | .block body => .block (body.map Statement.unlined)
  | .whileLoop condition body => .whileLoop condition.unlined body.unlined
  | .ifThen condition yes => .ifThen condition.unlined yes.unlined
  | .ifElse condition yes no => .ifElse condition.unlined yes.unlined no.unlined
  | .doWhile body condition => .doWhile body.unlined (condition.map Foreseen.unlined)
  | .forLoop start condition step body =>
      .forLoop start.unlined (condition.map Foreseen.unlined) (step.map Assignment.unlined)
        body.unlined
  | .switch _ number value clauses => .switch 0 number value.unlined (clauses.map Clause.unlined)
  | .switchHead _ number value => .switchHead 0 number value.unlined

/-- The clause without lines. -/
def Clause.unlined : Clause → Clause
  | .clause test body => .clause (test.map Foreseen.unlined) (body.map Statement.unlined)

end

theorem Statement.unlined_skipped : Statement.skipped.unlined = .skipped := by
  rw [Statement.unlined]

/-- The method without lines. -/
def Method.unlined (method : Method) : Method where
  returnType := method.returnType
  name := method.name.unlined
  parameters := method.parameters.map (Prod.map id Token.unlined)
  body := method.body.map Statement.unlined

/-- The member without lines. -/
def Member.unlined : Member → Member
  | .field declaration => .field declaration.unlined
  | .method declared => .method declared.unlined
  | .skipped => .skipped

/-- The program without lines. -/
def Program.unlined : Program → Program
  | .statements body => .statements (body.map Statement.unlined)
  | .members all => .members (all.map Member.unlined)

/-! ## Errors -/

/-- The syntax error without the line of its token. -/
def SyntaxError.unlined (error : SyntaxError) : SyntaxError :=
  { error with token? := error.token?.map Token.unlined }

/-- The semantic error without its line. -/
def SemanticError.unlined : SemanticError → SemanticError
  | .alreadyDeclared name scope _ => .alreadyDeclared name scope 0
  | .undeclared name _ => .undeclared name 0
  | .incompatibleTypes left right operator _ => .incompatibleTypes left right operator 0
  | .nonBooleanCondition context found _ => .nonBooleanCondition context found 0
  | .methodAlreadyDeclared name _ => .methodAlreadyDeclared name 0
  | .methodUndeclared name _ => .methodUndeclared name 0
  | .arityMismatch name expected found _ => .arityMismatch name expected found 0
  | .argumentMismatch name index expected found _ => .argumentMismatch name index expected found 0
  | .voidReturnsValue _ => .voidReturnsValue 0
  | .missingReturnValue expected _ => .missingReturnValue expected 0
  | .returnMismatch expected found _ => .returnMismatch expected found 0
  | .integerOutOfRange value _ => .integerOutOfRange value 0
  | .breakOutsideLoop _ => .breakOutsideLoop 0

end StackLang
