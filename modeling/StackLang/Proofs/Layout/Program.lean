import StackLang.Proofs.Layout.Statement

/-!
# Reading programs without lines

A whole program is read from tokens without lines as it is from the tokens, up to the
lines in its tree and in the errors.
-/

namespace StackLang

namespace Reading

open Unlines

/-- A parameter without lines. -/
abbrev parameterUnlined : TypeName × Token → TypeName × Token := Prod.map id Token.unlined

/-- A parameter that may be missing, and whether others follow, without lines. -/
abbrev foundUnlined :
    Option (TypeName × Token) × Bool → Option (TypeName × Token) × Bool :=
  Prod.map (Option.map parameterUnlined) id

/-- The parameters read so far, and whether others follow, without lines. -/
abbrev allFoundUnlined :
    List (Option (TypeName × Token)) × Bool → List (Option (TypeName × Token)) × Bool :=
  Prod.map (List.map (Option.map parameterUnlined)) id

theorem skipParameter_unmoved : Unmoved skipParameter skipParameter := by
  refine (skipTo_unmoved fun next => by simp).andThen fun _ => peek_unlines.bind fun next => ?_
  exact .pure (Terminal.anyAccepts_unlined _ next)

theorem parameter_unlines (complaint : Complaint) :
    Unlines foundUnlined (parameter complaint) (parameter complaint) := by
  refine typeName_unmoved.andThen fun type? => identifier?_unlines.bind fun name? => ?_
  cases name? with
  | none =>
      refine (complain_unmoved complaint).andThen fun _ => ?_
      exact skipParameter_unmoved.andThen fun _ => .pure rfl
  | some name =>
      refine .pure ?_
      cases type? with
      | none => rfl
      | some type => rfl

theorem nextParameter_unlines (goOn : Bool) :
    Unlines (Option.map foundUnlined) (nextParameter goOn) (nextParameter goOn) := by
  refine .ite (.pure rfl) ((accept_unmoved ",").andThen fun _ => .ite (.pure rfl) ?_)
  refine seesType_unmoved.andThen fun _ => .ite ?_ ?_
  · exact (parameter_unlines .parameterName).bind fun found => .pure rfl
  · refine (complain_unmoved .parameterType).andThen fun _ => ?_
    exact skipParameter_unmoved.andThen fun _ => .pure rfl

theorem extendParameters?_unlines (found : List (Option (TypeName × Token)) × Bool) :
    Unlines (Option.map allFoundUnlined) (extendParameters? found)
      (extendParameters? (allFoundUnlined found)) := by
  refine (nextParameter_unlines found.2).bind fun next? => ?_
  cases next? with
  | none => exact .pure rfl
  | some next => exact .pure rfl

theorem moreParameters_unlines (first : Option (TypeName × Token) × Bool) :
    Unlines (List.map (Option.map parameterUnlined)) (moreParameters first)
      (moreParameters (foundUnlined first)) := by
  refine (refine_unlines extendParameters?_unlines ([first.1], first.2)).bind fun found => ?_
  exact .pure List.map_reverse.symm

theorem parameters_unlines :
    Unlines (List.map parameterUnlined) parameters parameters := by
  refine .rule ((sees_unmoved ")").andThen fun _ => .ite (.pure rfl) ?_)
  refine (expect_unmoved .parameters .parameterStart).andThen fun _ => .ite (.pure rfl) ?_
  refine (parameter_unlines .firstParameterName).bind fun first => ?_
  refine (moreParameters_unlines first).bind fun found => .pure ?_
  rw [List.map_filterMap, List.filterMap_map]
  rfl

theorem abandonMethod_unmoved (complaint : Complaint) :
    Unmoved (abandonMethod complaint) (abandonMethod complaint) :=
  abandon_unmoved complaint fun next => by simp

theorem closeParameters_unmoved : Unmoved closeParameters closeParameters := by
  refine (accept_unmoved ")").andThen fun _ => .ite (.pure rfl) ?_
  exact (abandon_unmoved .methodClose fun next => by simp).andThen fun _ => sees_unmoved "\x7b"

theorem methodBody_unlines : BodyUnlines methodBody := by
  refine closeParameters_unmoved.andThen fun _ => .ite (.pure rfl) ?_
  refine (accept_unmoved "\x7b").andThen fun _ => .ite ?_ ?_
  · refine body_unlines.bind fun statements => ?_
    exact (demand_unmoved "\x7d" (abandonMethod_unmoved .methodEnd)).andThen fun _ => .pure rfl
  · exact (abandonMethod_unmoved .methodBrace).andThen fun _ => .pure rfl

theorem method_unlines : Unlines (Option.map Method.unlined) method method := by
  refine .rule (typeName_unmoved.andThen fun type? => ?_)
  cases type? with
  | none => exact .pure rfl
  | some type =>
      refine identifier?_unlines.bind fun name? => ?_
      cases name? with
      | none => exact .pure rfl
      | some name =>
          refine (accept_unmoved "(").andThen fun _ => parameters_unlines.bind fun given => ?_
          exact methodBody_unlines.bind fun body => .pure rfl

theorem seesMethod_unmoved : Unmoved seesMethod seesMethod := by
  refine .get fun cursor => ?_
  obtain ⟨rest, depth, trace, errors, switches, stuck⟩ := cursor
  match rest with
  | [] => exact .pure rfl
  | [_] => exact .pure rfl
  | [_, _] => exact .pure rfl
  | type :: name :: parenthesis :: _ =>
      refine .pure ?_
      have starts := Nonterminal.startsWith_unlined .type (some type)
      rw [Option.map_some] at starts
      rw [starts]
      rfl

theorem skipMember_unmoved (complaint : Complaint) :
    Unmoved (skipMember complaint) (skipMember complaint) :=
  abandon_unmoved complaint fun next => by simp

theorem member?_unlines : Unlines (Option.map Member.unlined) member? member? := by
  refine atEnd_unmoved.andThen fun _ => (sees_unmoved "\x7d").andThen fun _ => ?_
  refine .ite (.pure rfl) (seesType_unmoved.andThen fun _ => .ite ?_ ?_)
  · exact (skipMember_unmoved .classMember).andThen fun _ => .pure rfl
  · refine seesMethod_unmoved.andThen fun _ => .ite ?_ ?_
    · refine method_unlines.bind fun method? => .pure ?_
      cases method? with
      | none => rfl
      | some method => rfl
    · refine declaration_unlines.bind fun declaration? => ?_
      refine (demand_unmoved ";" (skipMember_unmoved .variableEnd)).andThen fun _ => .pure ?_
      cases declaration? with
      | none => rfl
      | some declaration => rfl

theorem className_unmoved : Unmoved className className := by
  refine identifier?_unlines.bind fun name? => ?_
  rw [Option.isSome_map]
  exact .ite (.pure rfl) (recover_unmoved .block .className)

theorem classOf_unlines : Unlines (List.map Member.unlined) classOf classOf := by
  refine className_unmoved.andThen fun _ => .ite (.pure rfl) ?_
  refine (accept_unmoved "\x7b").andThen fun _ => .ite ?_ ?_
  · exact (complain_unmoved .classBrace).andThen fun _ => .pure rfl
  · refine (collect_unlines member?_unlines).bind fun members => ?_
    exact (demand_complain_unmoved "\x7d" .programEnd).andThen fun _ => .pure rfl

theorem seesProgram_unmoved : Unmoved seesProgram seesProgram := by
  refine atEnd_unmoved.andThen fun _ => .ite (.pure rfl) ?_
  refine (seesAny_unmoved _).andThen fun _ => .ite (.pure rfl) ?_
  exact expect_unmoved .program .programStart

theorem program_unlines : Unlines Program.unlined program program := by
  refine .rule (seesProgram_unmoved.andThen fun _ => .ite (.pure rfl) ?_)
  refine (accept_unmoved "\x7b").andThen fun _ => .ite ?_ ?_
  · refine body_unlines.bind fun statements => ?_
    refine (demand_unmoved "\x7d" (abandon_unmoved .programEnd fun _ => rfl)).andThen fun _ => ?_
    exact .pure rfl
  · refine (accept_unmoved "class").andThen fun _ => .ite ?_ ?_
    · exact classOf_unlines.bind fun members => .pure rfl
    · exact body_unlines.bind fun statements => .pure rfl

theorem checkEnd_unmoved : Unmoved checkEnd checkEnd :=
  atEnd_unmoved.andThen fun _ => .ite (complain_unmoved .trailingTokens) (.pure rfl)

theorem wholeProgram_unlines : Unlines Program.unlined wholeProgram wholeProgram :=
  program_unlines.bind fun _ => checkEnd_unmoved.andThen fun _ => .pure rfl

end Reading

/-- What reading gives, without lines. -/
def Reading.Outcome.unlined (outcome : Reading.Outcome) : Reading.Outcome where
  program := outcome.program.unlined
  trace := outcome.trace
  errors := outcome.errors.map SyntaxError.unlined

/-- Tokens without lines are read as the tokens are, up to lines. -/
theorem Program.ofTokens_unlined (tokens : List Token) :
    Program.ofTokens (tokens.map Token.unlined) = (Program.ofTokens tokens).unlined := by
  have run := Reading.wholeProgram_unlines (.initial tokens)
  rw [Cursor.unlined_initial] at run
  simp only [Program.ofTokens, run]
  rfl

end StackLang
