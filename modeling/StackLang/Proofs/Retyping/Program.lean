import StackLang.Compilation
import StackLang.Proofs.Retyping.Statement

/-!
# Types and the code of a program

Retyped tokens are compiled to the same code, with complaints about the same tokens.  Only
what a method returns is told by its code, and that is not replaced.
-/

namespace StackLang

namespace Reading

open ConcursFrom

/-! ## Methods -/

/-- After both results the list of parameters can go on, or after neither. -/
abbrev GoOnAlike {α : Type} (one other : α × Bool) : Prop := one.2 = other.2

theorem skipParameter_steady : Steady Eq skipParameter := by
  have blind : Blind (Terminal.anyAccepts [.word ",", .word ")"]) := .of_unifies (by decide)
  exact (skipTo_steady blind).andThen fun _ => peek_blind blind

/-- Of a parameter nothing gets into the code. -/
theorem parameter_steady (complaint : Complaint) : Steady GoOnAlike (parameter complaint) := by
  refine typeName_steady.bind fun _ _ _ => identifier?_steady.andThen fun name? => ?_
  cases name? with
  | none =>
      exact (complain_steady complaint).andThen fun _ =>
        skipParameter_steady.andThen fun _ => .pure rfl
  | some name => exact .pure rfl

theorem nextParameter_steady (goOn : Bool) :
    Steady (Option.Rel GoOnAlike) (nextParameter goOn) := by
  refine .ite (.pure .none) ((accept_steady (by decide)).andThen fun _ => .ite (.pure .none) ?_)
  refine (seesStart_steady .type).andThen fun _ => .ite ?_ ?_
  · exact (parameter_steady .parameterName).bind fun _ _ alike => .pure (.some alike)
  · exact (complain_steady .parameterType).andThen fun _ =>
      skipParameter_steady.andThen fun _ => .pure (.some rfl)

theorem extendParameters?_concurs {found others : List (Option (TypeName × Token)) × Bool}
    (alike : GoOnAlike found others) :
    Concurs (Option.Rel GoOnAlike) (extendParameters? found) (extendParameters? others) := by
  have goOn : found.2 = others.2 := alike
  rw [extendParameters?, extendParameters?, goOn]
  refine (nextParameter_steady others.2).bind fun _ _ next => ?_
  cases next with
  | none => exact .pure .none
  | some alike => exact .pure (.some alike)

theorem moreParameters_concurs {one other : Option (TypeName × Token) × Bool}
    (alike : GoOnAlike one other) :
    Concurs (fun _ _ => True) (moreParameters one) (moreParameters other) := by
  have first : GoOnAlike ([one.1], one.2) ([other.1], other.2) := alike
  exact (refine_steady (fun _ _ => extendParameters?_concurs) first).bind fun _ _ _ => .pure trivial

theorem parameters_steady : Steady (fun _ _ => True) parameters := by
  refine .rule ((sees_steady (by decide)).andThen fun _ => .ite (.pure trivial) ?_)
  refine (expect_steady .parameters .parameterStart).andThen fun _ => .ite (.pure trivial) ?_
  refine (parameter_steady .firstParameterName).bind fun _ _ alike => ?_
  exact (moreParameters_concurs alike).bind fun _ _ _ => .pure trivial

theorem abandonMethod_steady (complaint : Complaint) : Steady Eq (abandonMethod complaint) :=
  abandon_steady complaint (.follow .method)

theorem closeParameters_steady : Steady Eq closeParameters := by
  refine (accept_steady (by decide)).andThen fun _ => .ite (.pure rfl) ?_
  exact (abandon_steady .methodClose (.or (.word (by decide)) (.follow .method))).andThen fun _ =>
    sees_steady (by decide)

theorem methodBody_steady : BodySteady methodBody := by
  refine closeParameters_steady.andThen fun _ => .ite (.pure .nil) ?_
  refine (accept_steady (by decide)).andThen fun _ => .ite ?_ ?_
  · refine body_steady.bind fun _ _ bodies => ?_
    exact (demand_steady (by decide) (abandonMethod_steady .methodEnd)).andThen fun _ =>
      .pure bodies
  · exact (abandonMethod_steady .methodBrace).andThen fun _ => .pure .nil

/-- Whether a method is next: a type with a name and a parenthesis behind it. -/
def methodAhead (tokens : List Token) : Bool :=
  Nonterminal.type.startsWith tokens.head? && Token.callAhead tokens.tail

/-- Where a method is next its return type is not replaced. -/
theorem method_concursFrom :
    ConcursFrom (methodAhead · = true) (Option.Rel Method.SameCode) method method := by
  have type : ConcursFrom (methodAhead · = true) Eq typeName typeName :=
    typeName_concursFrom.starting fun _ ahead => .of_callAhead (Bool.and_eq_true_iff.mp ahead).2
  refine .rule (type.andThen fun type? => ?_)
  cases type? with
  | none => exact .pure .none
  | some type =>
      refine identifier?_steady.andThen fun name? => ?_
      cases name? with
      | none => exact .pure .none
      | some name =>
          refine (accept_steady (by decide)).andThen fun _ => parameters_steady.bind fun _ _ _ => ?_
          exact methodBody_steady.bind fun _ _ bodies => .pure (.some ⟨rfl, rfl, bodies⟩)

/-! ## Classes -/

theorem seesMethod_ahead (cursor : Cursor) :
    seesMethod.run cursor = (methodAhead cursor.rest, cursor) := by
  obtain ⟨rest, depth, trace, errors, switches, stuck⟩ := cursor
  match rest with
  | [] => rfl
  | [_] | [_, _] => exact congrArg (·, _) (Bool.and_false _).symm
  | type :: name :: parenthesis :: _ => exact congrArg (·, _) (Bool.and_assoc ..)

theorem seesMethod_steady : Steady Eq seesMethod := by
  refine look seesMethod_ahead fun cursor counterpart retyped _ => ?_
  rw [methodAhead, methodAhead, Blind.first .type _ _ retyped.rest.head?,
    retyped.rest.tail.callAhead_eq]

theorem skipMember_steady (complaint : Complaint) : Steady Eq (skipMember complaint) :=
  abandon_steady complaint (.or (.first _) (.word (by decide)))

theorem member?_steady : Steady (Option.Rel Member.SameCode) member? := by
  refine atEnd_steady.andThen fun _ => (sees_steady (by decide)).andThen fun _ => ?_
  refine .ite (.pure .none) ((seesStart_steady .type).andThen fun _ => .ite ?_ ?_)
  · exact (skipMember_steady .classMember).andThen fun _ => .pure (.some .skipped)
  · refine ask methodAhead seesMethod_ahead seesMethod_steady ?_ (ConcursFrom.anywhere ?_)
    · refine (method_concursFrom.starting fun _ => And.right).bind fun _ _ found => ?_
      refine .pure (.some ?_)
      cases found with
      | none => exact .skipped
      | some alike => exact .method alike
    · refine declaration_steady.bind fun _ _ declared => ?_
      refine (demand_steady (by decide) (skipMember_steady .variableEnd)).andThen fun _ => ?_
      refine .pure (.some ?_)
      cases declared with
      | none => exact .skipped
      | some alike => exact .field alike

theorem className_steady : Steady Eq className :=
  identifier?_steady.andThen fun _ => .ite (.pure rfl) (recover_steady .block .className)

theorem classOf_steady : Steady (List.Forall₂ Member.SameCode) classOf := by
  refine className_steady.andThen fun _ => .ite (.pure .nil) ?_
  refine (accept_steady (by decide)).andThen fun _ => .ite ?_ ?_
  · exact (complain_steady .classBrace).andThen fun _ => .pure .nil
  · refine (collect_steady member?_steady).bind fun _ _ alike => ?_
    exact (demand_steady (by decide) (complain_steady .programEnd)).andThen fun _ => .pure alike

/-! ## Programs -/

theorem seesProgram_steady : Steady Eq seesProgram := by
  refine atEnd_steady.andThen fun _ => .ite (.pure rfl) ?_
  refine (seesAny_steady (by decide)).andThen fun _ => .ite (.pure rfl) ?_
  exact expect_steady .program .programStart

theorem program_steady : Steady Program.SameCode program := by
  have body : Steady Program.SameCode (do return .statements (← Reading.body)) :=
    body_steady.bind fun _ _ bodies => .pure (.statements bodies)
  refine .rule (seesProgram_steady.andThen fun _ => .ite (.pure (.statements .nil)) ?_)
  refine (accept_steady (by decide)).andThen fun _ => .ite ?_ ?_
  · refine body_steady.bind fun _ _ bodies => ?_
    have repairs : Steady Eq (abandon .programEnd fun _ => false) :=
      abandon_steady .programEnd fun _ _ _ => rfl
    exact (demand_steady (by decide) repairs).andThen fun _ => .pure (.statements bodies)
  · refine (accept_steady (by decide)).andThen fun _ => .ite ?_ body
    exact classOf_steady.bind fun _ _ alike => .pure (.members alike)

theorem checkEnd_steady : Steady Eq checkEnd :=
  atEnd_steady.andThen fun _ => .ite (complain_steady .trailingTokens) (.pure rfl)

theorem wholeProgram_steady : Steady Program.SameCode wholeProgram :=
  program_steady.bind fun _ _ alike => checkEnd_steady.andThen fun _ => .pure alike

end Reading

/-- Retyped tokens are read as programs with the same listing, with complaints about the same
tokens. -/
theorem Program.ofTokens_retyped {one other : List Token} (retyped : Token.Retyped one other) :
    (Program.ofTokens one).program.SameCode (Program.ofTokens other).program ∧
      (Program.ofTokens one).errors.map SyntaxError.valueless =
        (Program.ofTokens other).errors.map SyntaxError.valueless := by
  obtain ⟨alike, after⟩ := Reading.wholeProgram_steady (.initial one) (.initial other)
    ⟨retyped, rfl, rfl⟩ trivial
  exact ⟨alike, after.errors⟩

namespace Compilation

/-- The types of variables influence neither the instructions and labels of a program nor the
complaints about its syntax: they stay the same if keywords of types are replaced by other ones,
except in front of a name and a parenthesis, whatever errors are found in their use. -/
theorem ofTokens_of_retyped {one other : List Token} (retyped : Token.Retyped one other) :
    (ofTokens one).assembly.instructions = (ofTokens other).assembly.instructions ∧
      (ofTokens one).assembly.labels = (ofTokens other).assembly.labels ∧
      (ofTokens one).syntaxErrors.map SyntaxError.valueless =
        (ofTokens other).syntaxErrors.map SyntaxError.valueless := by
  obtain ⟨alike, errors⟩ := Program.ofTokens_retyped retyped
  have lowered := alike.lower
  refine ⟨?_, ?_, errors⟩
  · show ((Program.ofTokens one).program.lower.assemble _).instructions = _
    rw [lowered]
    rfl
  · show ((Program.ofTokens one).program.lower.assemble _).labels = _
    rw [lowered]
    rfl

/-- The same initializer fits a number but no text, and is stored in both. -/
theorem ofTokens_of_retyped_initializer :
    let declared (type : TypeName) : List Token :=
      [⟨type.text, .keyword, 1⟩, ⟨"x", .identifier, 1⟩, ⟨"=", .operator, 1⟩, ⟨"1", .integer, 1⟩,
        ⟨";", .delimiter, 1⟩]
    (Token.Retyped (declared .int) (declared .string) ∧
      (ofTokens (declared .int)).semanticErrors = #[] ∧
      (ofTokens (declared .string)).semanticErrors =
        #[.incompatibleTypes .string .int .assign 1]) ∧
    (ofTokens (declared .int)).assembly.instructions =
      (ofTokens (declared .string)).assembly.instructions ∧
    (ofTokens (declared .int)).assembly.labels = (ofTokens (declared .string)).assembly.labels ∧
    (ofTokens (declared .int)).syntaxErrors.map SyntaxError.valueless =
      (ofTokens (declared .string)).syntaxErrors.map SyntaxError.valueless := by
  intro declared
  have same (token : Token) {rest others : List Token} (retyped : Token.Retyped rest others) :
      Token.Retyped (token :: rest) (token :: others) := .cons (.refl token) (fun _ => rfl) retyped
  have retyped : Token.Retyped (declared .int) (declared .string) :=
    .cons (.type .int .string 1) nofun (same _ (same _ (same _ (same _ .nil))))
  exact ⟨⟨retyped, by decide +kernel, by decide +kernel⟩, ofTokens_of_retyped retyped⟩

end Compilation

end StackLang
