import Mathlib.Data.List.Nodup
import Mathlib.Data.List.Range
import StackLang.Proofs.Code.Lowered
import StackLang.Proofs.Code.Placement
import StackLang.Proofs.Numeral.Decimal

/-!
# Labels of lowered programs

Lowering places every label that it makes exactly once.  Where a construct makes
labels and lowers its parts in between, the markers are the labels made in some
other order, so the statements are up to permutation.  The label of a failed
test is placed by the clause behind, not by the clause that makes it.
-/

namespace StackLang

/-- The labels made when `count` labels follow the first ones. -/
def labelsMade (first count : Nat) : List String := (List.range' (first + 1) count).map labelName

theorem labelsMade_add (first front back : Nat) :
    labelsMade first (front + back) = labelsMade first front ++ labelsMade (first + front) back := by
  have start : first + front + 1 = first + 1 + front := by omega
  rw [labelsMade, labelsMade, labelsMade, start, ← List.map_append, List.range'_append_1]

theorem labelName_injective : Function.Injective labelName :=
  Numeral.append_toString_injective _

theorem labelsMade_nodup (first count : Nat) : (labelsMade first count).Nodup :=
  List.Nodup.map labelName_injective (List.nodup_range' 1)

/-- The names are the pending ones and the labels made between two counts. -/
def Marks (first : Nat) (pending names : List String) (last : Nat) : Prop :=
  ∃ count, last = first + count ∧ names.Perm (pending ++ labelsMade first count)

namespace Marks

variable {first middle last : Nat} {pending names others : List String}

theorem nil (first : Nat) : Marks first [] [] first :=
  ⟨0, rfl, List.Perm.refl []⟩

theorem fresh (first : Nat) : Marks first [] [labelName (first + 1)] (first + 1) :=
  ⟨1, rfl, List.Perm.refl _⟩

/-- Names that are passed on are pending for what follows. -/
theorem append {passed : List String} (front : Marks first pending (names ++ passed) middle)
    (back : Marks middle passed others last) : Marks first pending (names ++ others) last := by
  obtain ⟨frontCount, rfl, frontNames⟩ := front
  obtain ⟨backCount, rfl, backNames⟩ := back
  refine ⟨frontCount + backCount, Nat.add_assoc _ _ _, ?_⟩
  rw [labelsMade_add, List.perm_iff_count]
  intro name
  have frontSame := frontNames.count_eq name
  have backSame := backNames.count_eq name
  simp only [List.count_append] at frontSame backSame ⊢
  omega

theorem followed (front : Marks first pending names middle)
    (back : Marks middle [] others last) : Marks first pending (names ++ others) last := by
  have nothing : Marks first pending (names ++ []) middle := by rwa [List.append_nil]
  exact nothing.append back

/-- A pending label stays pending until its place is known. -/
theorem waiting (label? : Option String) (marks : Marks first [] names last) :
    Marks first label?.toList (label?.toList ++ names) last := by
  obtain ⟨count, ends, made⟩ := marks
  exact ⟨count, ends, made.append_left _⟩

theorem perm (marks : Marks first pending names last) (same : others.Perm names) :
    Marks first pending others last := by
  obtain ⟨count, ends, made⟩ := marks
  exact ⟨count, ends, same.trans made⟩

theorem nodup (marks : Marks first [] names last) : names.Nodup := by
  obtain ⟨count, -, made⟩ := marks
  rw [List.nil_append] at made
  exact made.nodup_iff.mpr (labelsMade_nodup first count)

end Marks

variable (methods : MethodTable)

@[simp]
theorem markers_leaveUnless (condition : Foreseen) (target : String) :
    Listing.markers (leaveUnless methods condition target) = [] :=
  Listing.markers_ofInstructions _

@[simp]
theorem markers_guardCode (condition : Option Foreseen) (target : String) :
    Listing.markers (guardCode methods condition target) = [] := by
  cases condition with
  | none => rfl
  | some condition => exact Listing.markers_ofInstructions _

@[simp]
theorem markers_againCode (condition : Option Foreseen) (target : String) :
    Listing.markers (againCode methods condition target) = [] := by
  cases condition with
  | none => rfl
  | some condition => exact Listing.markers_ofInstructions _

@[simp]
theorem markers_stepCode (step : Option Assignment) :
    Listing.markers (stepCode methods step) = [] := by
  cases step with
  | none => rfl
  | some step => exact Listing.markers_ofInstructions _

@[simp]
theorem markers_testCode (selector : String) (test : Option Foreseen) (failed : String) :
    Listing.markers (testCode methods selector test failed) = [] := by
  cases test with
  | none => rfl
  | some value => exact Listing.markers_ofInstructions _

@[simp]
theorem markers_skipCode (entered : Bool) (target : String) :
    Listing.markers (skipCode entered target) = [] := by
  cases entered <;> rfl

@[simp]
theorem markers_markerOf (label? : Option String) :
    Listing.markers (markerOf label?) = label?.toList := by
  cases label? <;> rfl

mutual

theorem Statement.lower_marks (exit : Option String) (statement : Statement) (made : Nat) :
    Marks made [] (Listing.markers (statement.listing methods exit made))
      (statement.labels methods exit made) := by
  cases statement with
  | skipped | declare | assign | call | read | leave | giveBack | evaluate | switchHead =>
      rw [Statement.listing, Statement.labels, Statement.lower, Lowering.run_pure]
      simpa using Marks.nil made
  | print endsLine value =>
      rw [Statement.listing, Statement.labels]
      cases value <;>
        rw [Statement.lower, Lowering.run_pure, Listing.markers_ofInstructions] <;>
        exact Marks.nil made
  | block body =>
      rw [Statement.listing, Statement.labels, Statement.lower_block]
      exact Statement.lowerAll_marks exit body made
  | whileLoop condition body =>
      have inside := body.lower_marks (some (labelName (made + 2))) (made + 2)
      rw [Statement.listing, Statement.labels, Statement.lower_whileLoop]
      apply (((Marks.fresh made).followed (Marks.fresh (made + 1))).followed inside).perm
      simp
  | ifThen condition yes =>
      have inside := yes.lower_marks exit (made + 1)
      rw [Statement.listing, Statement.labels, Statement.lower_ifThen]
      apply ((Marks.fresh made).followed inside).perm
      simp
  | ifElse condition yes no =>
      have taken := yes.lower_marks exit (made + 1)
      have other := no.lower_marks exit (yes.labels methods exit (made + 1) + 1)
      rw [Statement.listing, Statement.labels, Statement.lower_ifElse]
      apply ((((Marks.fresh made).followed taken).followed (Marks.fresh _)).followed other).perm
      rw [List.perm_iff_count]
      intro name
      simp [List.count_cons]
      omega
  | doWhile body condition =>
      have inside := body.lower_marks (some (labelName (made + 2))) (made + 2)
      rw [Statement.listing, Statement.labels, Statement.lower_doWhile]
      apply (((Marks.fresh made).followed (Marks.fresh (made + 1))).followed inside).perm
      simp
  | forLoop start condition step body =>
      have inside := body.lower_marks (some (labelName (made + 2))) (made + 2)
      rw [Statement.listing, Statement.labels, Statement.lower_forLoop]
      apply (((Marks.fresh made).followed (Marks.fresh (made + 1))).followed inside).perm
      simp
  | switch line number value clauses =>
      have inside := Clause.lowerAll_marks (selectorName number) (labelName (made + 1)) none false
        clauses (made + 1)
      rw [Statement.listing, Statement.labels, Statement.lower_switch]
      apply ((Marks.fresh made).followed inside).perm
      simp

theorem Statement.lowerAll_marks (exit : Option String) (statements : List Statement)
    (made : Nat) :
    Marks made [] (Listing.markers (Statement.listingAll methods exit statements made))
      (Statement.labelsAll methods exit statements made) := by
  cases statements with
  | nil =>
      rw [Statement.listingAll, Statement.labelsAll, Statement.lowerAll]
      exact Marks.nil made
  | cons statement rest =>
      rw [Statement.listingAll, Statement.labelsAll, Statement.lowerAll_cons,
        Listing.markers_append]
      exact (statement.lower_marks exit made).followed (Statement.lowerAll_marks exit rest _)

theorem Clause.lowerAll_marks (selector finish : String) (pending : Option String)
    (entered : Bool) (clauses : List Clause) (made : Nat) :
    Marks made pending.toList
      (Listing.markers (Clause.listingAll methods selector finish pending entered clauses made))
      ((Clause.lowerAll methods selector finish pending entered clauses).run made).2 := by
  cases clauses with
  | nil =>
      rw [Clause.listingAll, Clause.lowerAll, Lowering.run_pure, markers_markerOf]
      simpa using Marks.waiting pending (Marks.nil made)
  | cons clause rest =>
      rw [Clause.listingAll, Clause.lowerAll_cons, Listing.markers_append]
      exact (clause.lower_marks selector finish pending entered made).append
        (Clause.lowerAll_marks selector finish _ true rest _)

/-- The label of a failed test is passed on. -/
theorem Clause.lower_marks (selector finish : String) (pending : Option String) (entered : Bool)
    (clause : Clause) (made : Nat) :
    Marks made pending.toList
      (Listing.markers
          ((clause.lower methods selector finish pending entered).run made).1.1 ++
        ((clause.lower methods selector finish pending entered).run made).1.2.toList)
      ((clause.lower methods selector finish pending entered).run made).2 := by
  obtain ⟨test, body⟩ := clause
  have inside := Statement.lowerAll_marks (some finish) body (made + 1 + test.toList.length)
  rw [Clause.lower_clause]
  cases test with
  | none =>
      apply (Marks.waiting pending ((Marks.fresh made).followed inside)).perm
      simp
  | some value =>
      apply (Marks.waiting pending
        (((Marks.fresh made).followed (Marks.fresh (made + 1))).followed inside)).perm
      rw [List.perm_iff_count]
      intro name
      simp [List.count_cons, Nat.add_right_comm]

end

theorem Member.lowerAll_marks (members : List Member) (made : Nat) :
    Marks made [] (Listing.markers ((Member.lowerAll methods members).run made).1)
      ((Member.lowerAll methods members).run made).2 := by
  induction members generalizing methods made with
  | nil => exact Marks.nil made
  | cons member rest ih =>
      cases member with
      | skipped => exact ih methods made
      | field declaration =>
          rw [Member.lowerAll, Lowering.run_bind, Lowering.run_pure, Listing.markers_append,
            Listing.markers_ofInstructions]
          exact ih methods made
      | method declared =>
          simp only [Member.lowerAll, Lowering.run_bind, Lowering.run_pure,
            Listing.markers_append]
          exact (Statement.lowerAll_marks _ none declared.body made).followed (ih _ _)

theorem Program.lower_marks (program : Program) :
    ∃ last, Marks 0 [] (Listing.markers program.lower.listing) last := by
  cases program with
  | statements body => exact ⟨_, Statement.lowerAll_marks .empty none body 0⟩
  | members all => exact ⟨_, Member.lowerAll_marks .empty all 0⟩

/-- No label is placed twice. -/
theorem Program.lower_markers_nodup (program : Program) :
    (Listing.markers program.lower.listing).Nodup := by
  obtain ⟨last, marks⟩ := program.lower_marks
  exact marks.nodup

/-- Only labels that were made are placed. -/
theorem Program.lower_markers_made (program : Program) {name : String}
    (placed : name ∈ Listing.markers program.lower.listing) : ∃ number, name = labelName number := by
  obtain ⟨last, count, -, same⟩ := program.lower_marks
  rw [same.mem_iff, List.nil_append, labelsMade] at placed
  obtain ⟨number, -, made⟩ := List.mem_map.mp placed
  exact ⟨number, made.symm⟩

end StackLang
