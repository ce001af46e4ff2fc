import StackLang.Compilation
import StackLang.Proofs.Recovery.Program

/-!
# Missing semicolons

A missing semicolon at the end of a statement costs one syntax error and no code.
-/

namespace StackLang

open Terminal (Opens)

/-- In front of the end of a statement the inputs with the semicolon and without it belong
together. -/
theorem EndsStatement.beside {gap : Gap} {before : List Token}
    (ends : EndsStatement before gap.back) :
    gap.Beside (Cursor.initial (before ++ gap.semicolon :: gap.back)).place
      (Cursor.initial (before ++ gap.back)).stance := by
  have fits : gap.fork.fits before := ends.closes
  obtain ⟨token, tokens, rfl⟩ := List.exists_cons_of_ne_nil ends.ne_nil
  exact .inl ⟨.ahead fits, rfl, rfl⟩

/-- Without a semicolon that ends a statement a program is compiled to the same instructions,
labels and declarations, with exactly one syntax error, if what stands behind the semicolon
starts a statement or ends a list of statements. -/
theorem missing_semicolon {before after : List Token} {semicolon : Token}
    (ends : EndsStatement before after) (spelled : semicolon.spells ";" = true)
    (resumes : Opens Fork.resumers after)
    (accepted : (Compilation.ofTokens (before ++ semicolon :: after)).syntaxErrors = #[]) :
    (Compilation.ofTokens (before ++ after)).syntaxErrors.size = 1 ∧
      (Compilation.ofTokens (before ++ after)).assembly =
        (Compilation.ofTokens (before ++ semicolon :: after)).assembly := by
  let gap : Gap := ⟨semicolon, after, spelled, resumes⟩
  let whole := Cursor.initial (before ++ semicolon :: after)
  let lacking := Cursor.initial (before ++ after)
  let extent : Reading.Extent := ⟨0, whole.rest.length + 1, lacking.rest.length + 1, False⟩
  have beside : gap.Beside whole.place lacking.stance := ends.beside
  have goes : Reading.Goes Reading.wholeProgram whole _ _ := ⟨rfl, accepted⟩
  have runs : Reading.Runs extent.silent Reading.wholeProgram lacking _ _ := ⟨rfl, False.elim⟩
  have follows : Reading.Follows extent gap.Beside Reading.wholeProgram Reading.wholeProgram _ :=
    Reading.gap_wholeProgram
  obtain ⟨alike, complaints⟩ :=
    follows.reaches beside (Nat.lt_succ_self _) (Nat.lt_succ_self _) goes runs (Nat.zero_le _)
  exact ⟨complaints, alike.assemble.symm⟩

open Phrase in
/-- The semicolon of an assignment that is the body of a do-while loop. -/
theorem endsStatement_in_loop :
    EndsStatement (tokenize "int a = 0; do a = a + 1") (tokenize "while (a < 3);") := by
  let semicolon : Token := ⟨";", .delimiter, 1⟩
  have declares : (category .variable).Derives (tokenize "int a = 0") :=
    (Reading.declaration_obeys _ (List.Subset.refl _)).derives (by decide +kernel)
      (by decide +kernel) (by decide +kernel)
  have assigns : (category .assignment).Derives (tokenize "a = a + 1") :=
    (Reading.assignment_obeys _ (List.Subset.refl _)).derives (by decide +kernel)
      (by decide +kernel) (by decide +kernel)
  have asks : parenthesized.Derives (tokenize "(a < 3)") :=
    (Reading.condition_obeys ⟨.doWhileOpen, .doWhileCondition, .doWhileClose⟩ _
      (List.Subset.refl _)).derives trivial (by decide +kernel) (by decide +kernel)
  have ended : (sequence [word ";"]).Derives ([semicolon] ++ []) := .next (derives_word rfl) .done
  have front : (category .statement).Derives (tokenize "int a = 0" ++ ([semicolon] ++ [])) :=
    .category (.choice (by simp [statementForms]) (.next declares ended))
  have back : (sequence [word "while", parenthesized, word ";"]).Derives
      ([⟨"while", .keyword, 1⟩] ++ (tokenize "(a < 3)" ++ ([semicolon] ++ []))) :=
    .next (derives_word rfl) (.next asks ended)
  -- the assignment stands in the place of the block of the loop
  have loop : Holds .statement (category .doWhile) ([⟨"do", .keyword, 1⟩] ++ [])
      ([] ++ ([⟨"while", .keyword, 1⟩] ++ (tokenize "(a < 3)" ++ ([semicolon] ++ [])))) :=
    .category (.later (derives_word rfl) (.first (.category (.choice (by simp) .here)) back))
  have body : Holds .statement (category .body)
      ((tokenize "int a = 0" ++ ([semicolon] ++ [])) ++ ([⟨"do", .keyword, 1⟩] ++ []))
      ([] ++ ([⟨"while", .keyword, 1⟩] ++ (tokenize "(a < 3)" ++ ([semicolon] ++ []))) ++ []) :=
    .category (.more front (.one (.category (.choice (by simp [statementForms]) loop)) .none))
  have holds : Holds .statement (category .program) _ _ := .category (.choice (by simp) body)
  have inner : (sequence [category .assignment]).Derives (tokenize "a = a + 1" ++ []) :=
    .next assigns .done
  have listed : (Category.statement, [category .assignment]) ∈ endedForms := by simp [endedForms]
  have before : tokenize "int a = 0; do a = a + 1" =
      ((tokenize "int a = 0" ++ ([semicolon] ++ [])) ++ ([⟨"do", .keyword, 1⟩] ++ [])) ++
        (tokenize "a = a + 1" ++ []) := by decide +kernel
  have after : tokenize "while (a < 3);" =
      [] ++ ([⟨"while", .keyword, 1⟩] ++ (tokenize "(a < 3)" ++ ([semicolon] ++ []))) ++ [] := by
    decide +kernel
  rw [before, after]
  exact ⟨_, _, _, _, listed, rfl, holds, inner⟩

/-- The body of the loop without its semicolon, in front of the `while` of the loop. -/
theorem missing_semicolon_in_loop :
    let before := tokenize "int a = 0; do a = a + 1"
    let after := tokenize "while (a < 3);"
    let semicolon : Token := ⟨";", .delimiter, 1⟩
    EndsStatement before after ∧ semicolon.spells ";" = true ∧ Opens Fork.resumers after ∧
      (Compilation.ofTokens (before ++ semicolon :: after)).syntaxErrors = #[] ∧
      (Compilation.ofTokens (before ++ after)).syntaxErrors.size = 1 ∧
      (Compilation.ofTokens (before ++ after)).assembly =
        (Compilation.ofTokens (before ++ semicolon :: after)).assembly := by
  intro before after semicolon
  have spelled : semicolon.spells ";" = true := rfl
  have ends : EndsStatement before after := endsStatement_in_loop
  have resumes : Opens Fork.resumers after := by
    have opens : Terminal.anyAccepts Fork.resumers after.head? = true := by decide +kernel
    exact opens
  have accepted : (Compilation.ofTokens (before ++ semicolon :: after)).syntaxErrors = #[] := by
    decide +kernel
  clear_value before after
  exact ⟨ends, spelled, resumes, accepted, missing_semicolon ends spelled resumes accepted⟩

end StackLang
