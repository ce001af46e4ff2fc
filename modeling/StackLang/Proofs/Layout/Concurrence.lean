import StackLang.Proofs.Layout.Checking

/-!
# Checks that know the same

`Analysis.Concur` compares two checks by what they answer and by what is known afterwards;
the errors they report may differ.
-/

namespace StackLang

namespace Analyzer.Alike

variable {view : SymbolView} {one other third : Analyzer}

theorem symm (alike : one.Alike view other) : other.Alike view one :=
  ⟨alike.scopes.symm, alike.symbols.symm, alike.methods.symm⟩

theorem trans (front : one.Alike view other) (back : other.Alike view third) :
    one.Alike view third :=
  ⟨front.scopes.trans back.scopes, front.symbols.trans back.symbols,
    front.methods.trans back.methods⟩

/-- Reporting an error adds no knowledge. -/
theorem reports (base : Analyzer) : ReportInvariant (base.Alike view) where
  report _ := fun _ alike => ⟨alike.scopes, alike.symbols, alike.methods⟩

end Analyzer.Alike

namespace Analysis

variable {view : SymbolView} {α β : Type}

/-- From analyzers that know the same both checks answer the same and know the same
afterwards, whatever errors they report. -/
def Concur (view : SymbolView) (one other : Analysis α) : Prop :=
  ∀ before counterpart : Analyzer, before.Alike view counterpart →
    (one.run before).1 = (other.run counterpart).1 ∧
      (one.run before).2.Alike view (other.run counterpart).2

namespace Concur

variable {one other : Analysis α}

theorem pure (result : α) : Concur view (Pure.pure result) (Pure.pure result) :=
  fun _ _ alike => ⟨rfl, alike⟩

theorem symm (concur : Concur view one other) : Concur view other one := by
  intro before counterpart alike
  obtain ⟨answer, knowledge⟩ := concur counterpart before alike.symm
  exact ⟨answer.symm, knowledge.symm⟩

theorem trans {third : Analysis α} (front : Concur view one other)
    (back : Concur view other third) : Concur view one third := by
  intro before counterpart alike
  obtain ⟨answer, knowledge⟩ := front before counterpart alike
  obtain ⟨lastAnswer, lastKnowledge⟩ := back counterpart counterpart (.refl _)
  exact ⟨answer.trans lastAnswer, knowledge.trans lastKnowledge⟩

theorem bind {next following : α → Analysis β} (first : Concur view one other)
    (second : ∀ result, Concur view (next result) (following result)) :
    Concur view (one >>= next) (other >>= following) := by
  intro before counterpart alike
  obtain ⟨answer, knowledge⟩ := first before counterpart alike
  show ((next (one.run before).1).run (one.run before).2).1 =
      ((following (other.run counterpart).1).run (other.run counterpart).2).1 ∧
    ((next (one.run before).1).run (one.run before).2).2.Alike view
      ((following (other.run counterpart).1).run (other.run counterpart).2).2
  rw [← answer]
  exact second _ _ _ knowledge

theorem ite {condition : Prop} [Decidable condition] {two second : Analysis α}
    (holds : Concur view one other) (fails : Concur view two second) :
    Concur view (if condition then one else two) (if condition then other else second) := by
  split
  · exact holds
  · exact fails

theorem report (error other : SemanticError) :
    Concur view (Analysis.report error) (Analysis.report other) :=
  fun _ _ alike => ⟨rfl, ⟨alike.scopes, alike.symbols, alike.methods⟩⟩

/-- A check that agrees with another one does not look at earlier errors. -/
theorem of_agrees (agrees : Agrees view one other) : Concur view one one := by
  intro before counterpart alike
  have first := agrees before counterpart alike
  have second := agrees counterpart counterpart (.refl _)
  exact ⟨first.answer.trans second.answer.symm, first.knowledge.trans second.knowledge.symm⟩

end Concur

/-- Where an assignment is checked makes no difference to what is known. -/
theorem Concur.assignment {one other : Analysis Unit} (assignment : Assignment)
    (concur : Concur view one other) :
    Concur view (do assignment.check; one) (do other; assignment.check) := by
  intro before counterpart alike
  have keeps (base : Analyzer) : base.Alike view (assignment.check.run base).2 :=
    (Analyzer.Alike.reports base).assignment assignment base (.refl _)
  obtain ⟨_, knowledge⟩ := concur _ counterpart ((keeps before).symm.trans alike)
  exact ⟨rfl, knowledge.trans (keeps _)⟩

end Analysis

end StackLang
