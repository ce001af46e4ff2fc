import Mathlib.Data.List.Chain
import StackLang.Proofs.Course.Program
import StackLang.Proofs.Reading.Program

/-!
# Traces are trees

A course adds a forest to the trace, at the depth where it starts: leaves stand at that
depth, and what is inside of a nonterminal stands one level deeper, below its line.  The
texts of the lines show as much: the level is read off from the indentation, and every
line tells whether it is a leaf.
-/

namespace StackLang

/-- An entry whose symbol, if it is one, is legible. -/
def TraceEntry.IsLegible : TraceEntry → Prop
  | .symbol text => Legible text
  | .enter _ | .identifier _ | .literal _ | .resumed => True

theorem TraceEntry.IsLeaf.isLegible {entry : TraceEntry} (leaf : entry.IsLeaf) :
    entry.IsLegible := by
  cases entry with
  | symbol => exact leaf
  | enter | identifier | literal | resumed => trivial

/-- The next line is at most one level deeper, and deeper only inside of a nonterminal. -/
def TraceLine.Continues (line next : TraceLine) : Prop :=
  next.depth ≤ line.depth + 1 ∧
    (line.depth < next.depth → ∃ nonterminal, line.entry = .enter nonterminal)

/-- Lines that stand side by side at a depth: leaves, and nonterminals with what is inside
of them one level deeper. -/
inductive Forest : Nat → List TraceLine → Prop
  | nil (depth : Nat) : Forest depth []
  | leaf (depth : Nat) {entry : TraceEntry} (leaf : entry.IsLeaf) : Forest depth [⟨depth, entry⟩]
  | tree {depth : Nat} {inside : List TraceLine} (nonterminal : Nonterminal)
      (children : Forest (depth + 1) inside) : Forest depth (⟨depth, .enter nonterminal⟩ :: inside)
  | append {depth : Nat} {front back : List TraceLine} (left : Forest depth front)
      (right : Forest depth back) : Forest depth (front ++ back)

namespace Forest

variable {depth : Nat} {lines : List TraceLine}

theorem legible (forest : Forest depth lines) : ∀ line ∈ lines, line.entry.IsLegible := by
  induction forest with
  | nil => simp
  | leaf depth leaf => simpa using leaf.isLegible
  | tree nonterminal _ ih => exact List.forall_mem_cons.mpr ⟨trivial, ih⟩
  | append _ _ ihLeft ihRight => exact List.forall_mem_append.mpr ⟨ihLeft, ihRight⟩

theorem depth_le (forest : Forest depth lines) : ∀ line ∈ lines, depth ≤ line.depth := by
  induction forest with
  | nil => simp
  | leaf => simp
  | tree nonterminal _ ih =>
      exact List.forall_mem_cons.mpr ⟨Nat.le_refl _, fun line member =>
        Nat.le_of_succ_le (ih line member)⟩
  | append _ _ ihLeft ihRight => exact List.forall_mem_append.mpr ⟨ihLeft, ihRight⟩

theorem head_depth (forest : Forest depth lines) : ∀ first ∈ lines.head?, first.depth = depth := by
  induction forest with
  | nil => simp
  | leaf => simp
  | tree => simp
  | @append _ front _ _ _ ihLeft ihRight =>
      cases front with
      | nil => exact ihRight
      | cons => exact ihLeft

/-- Behind a tree the next one starts at its level, so not deeper than where it ends. -/
theorem continues (forest : Forest depth lines) : lines.IsChain TraceLine.Continues := by
  induction forest with
  | nil => exact .nil
  | leaf => exact .singleton _
  | tree nonterminal children ih =>
      refine ih.cons fun first isFirst => ?_
      have deeper := children.head_depth first isFirst
      exact ⟨deeper.le, fun _ => ⟨nonterminal, rfl⟩⟩
  | append left right ihLeft ihRight =>
      refine ihLeft.append ihRight fun line isLast first isFirst => ?_
      have above := left.depth_le line (List.mem_of_getLast? isLast)
      have level := right.head_depth first isFirst
      exact ⟨by omega, fun deeper => absurd deeper (by omega)⟩

end Forest

/-- A course comes back to the depth where it starts, and adds a forest at that depth. -/
theorem Cursor.Course.forest {before after : Cursor} (course : before.Course after) :
    after.depth = before.depth ∧
      ∃ lines, after.trace.toList = before.trace.toList ++ lines ∧ Forest before.depth lines := by
  have unlogged (cursor : Cursor) : ∃ lines, cursor.trace.toList = cursor.trace.toList ++ lines ∧
      Forest cursor.depth lines :=
    ⟨[], (List.append_nil _).symm, .nil _⟩
  induction course with
  | done cursor => exact ⟨rfl, unlogged cursor⟩
  | trans _ _ ihFront ihBack =>
      -- The depth has come back in between, so both forests stand at the same one.
      obtain ⟨level, front, first, left⟩ := ihFront
      obtain ⟨back, behind, second, right⟩ := ihBack
      refine ⟨back.trans level, front ++ behind, ?_, left.append (level ▸ right)⟩
      rw [second, first, List.append_assoc]
  | skip cursor => exact ⟨rfl, unlogged cursor⟩
  | skipTo stop cursor => exact ⟨rfl, unlogged cursor⟩
  | complain complaint cursor => exact ⟨rfl, unlogged cursor⟩
  | log entry leaf cursor => exact ⟨rfl, [⟨cursor.depth, entry⟩], by simp, .leaf _ leaf⟩
  | note stuck cursor => exact ⟨rfl, unlogged cursor⟩
  | count cursor => exact ⟨rfl, unlogged cursor⟩
  | @rule nonterminal before after _ ih =>
      obtain ⟨_, inside, added, children⟩ := ih
      refine ⟨rfl, ⟨before.depth, .enter nonterminal⟩ :: inside, ?_, .tree nonterminal children⟩
      simp [added, enter]

/-- Whatever the tokens are, the trace is one tree, of a program. -/
theorem Program.ofTokens_tree (tokens : List Token) :
    ∃ inside, (Program.ofTokens tokens).trace.toList = ⟨0, .enter .program⟩ :: inside ∧
      Forest 1 inside := by
  obtain ⟨_, course, trace⟩ := Reading.wholeProgram_enters (.initial tokens)
  obtain ⟨_, inside, added, forest⟩ := course.forest
  exact ⟨inside, (congrArg Array.toList trace).trans added, forest⟩

/-! ## Texts -/

/-- The number of spaces that a line starts with. -/
def indentation (line : String) : Nat := (line.toList.takeWhile (· == ' ')).length

/-- A line without the spaces that it starts with. -/
def unindented (line : String) : List Char := line.toList.dropWhile (· == ' ')

/-- Whether a line tells that a nonterminal is entered. -/
def entersRule (line : String) : Bool := ((unindented line).dropPrefix? "RULE_".toList).isSome

/-- A text without the mark of a name or a literal. -/
def unmarked (text : List Char) : List Char :=
  (text.dropPrefix? "IDENTIFIER: ".toList <|> text.dropPrefix? "LITERAL: ".toList).getD text

/-- What a line tells that enters no nonterminal, without indentation and mark. -/
def leafText? (line : String) : Option String :=
  if entersRule line then none else some (String.ofList (unmarked (unindented line)))

/-- Lines that are indented as a tree is whose root is a program: each is at most one level of
two spaces deeper than the line before it, and deeper only directly below a nonterminal. -/
structure Outline (lines : List String) : Prop where
  starts : lines.head? = some "RULE_PROGRAM"
  rooted : ∀ line ∈ lines.tail, 0 < indentation line
  spaced : ∀ line ∈ lines, 2 ∣ indentation line
  nested : lines.IsChain fun line next =>
    indentation next ≤ indentation line + 2 ∧
      (indentation line < indentation next → entersRule line = true)

theorem Nonterminal.text_starts (nonterminal : Nonterminal) :
    ∃ rest, nonterminal.text.toList = "RULE_".toList ++ rest := by
  have starts : "RULE_".toList <+: nonterminal.text.toList := by cases nonterminal <;> decide
  obtain ⟨rest, whole⟩ := starts
  exact ⟨rest, whole.symm⟩

/-- No mark is dropped from what starts differently. -/
theorem dropPrefix?_other (first : Char) {mark text : List Char}
    (starts : mark.head? = some first) (differs : text.head? ≠ some first) :
    text.dropPrefix? mark = none := by
  refine Option.eq_none_iff_forall_ne_some.mpr fun rest found => differs ?_
  obtain ⟨front, rfl, same⟩ := List.dropPrefix?_eq_some_iff.mp found
  obtain rfl := beq_iff_eq.mp same
  rw [List.head?_append, starts, Option.some_or]

theorem unmarked_name (name : List Char) : unmarked ("IDENTIFIER: ".toList ++ name) = name := by
  rw [unmarked, List.dropPrefix?_append_of_beq _ BEq.rfl]
  rfl

theorem unmarked_literal (value : List Char) : unmarked ("LITERAL: ".toList ++ value) = value := by
  have unnamed : ("LITERAL: ".toList ++ value).dropPrefix? "IDENTIFIER: ".toList = none :=
    dropPrefix?_other 'I' rfl (by simp)
  rw [unmarked, unnamed, List.dropPrefix?_append_of_beq _ BEq.rfl]
  rfl

theorem unmarked_symbol {symbol : String} (legible : Legible symbol) :
    unmarked symbol.toList = symbol.toList := by
  rw [unmarked, dropPrefix?_other 'I' rfl legible.2.2.1, dropPrefix?_other 'L' rfl legible.2.2.2]
  rfl

namespace TraceEntry.IsLegible

variable {entry : TraceEntry}

/-- The text of an entry does not start with a space. -/
theorem text_head (legible : entry.IsLegible) : entry.text.toList.head? ≠ some ' ' := by
  cases entry with
  | enter nonterminal =>
      obtain ⟨rest, starts⟩ := nonterminal.text_starts
      simp [text, starts]
  | symbol => exact legible.1
  | identifier => simp [text]
  | literal => simp [text]
  | resumed => decide

/-- The text of a leaf does not start as that of a nonterminal. -/
theorem leaf_head (legible : entry.IsLegible)
    (isLeaf : ∀ nonterminal, entry ≠ .enter nonterminal) :
    entry.text.toList.head? ≠ some 'R' := by
  cases entry with
  | enter nonterminal => exact absurd rfl (isLeaf nonterminal)
  | symbol => exact legible.2.1
  | identifier => simp [text]
  | literal => simp [text]
  | resumed => decide

/-- Behind the mark of a leaf stands what it adds to the leaves. -/
theorem leaf?_eq (legible : entry.IsLegible) (isLeaf : ∀ nonterminal, entry ≠ .enter nonterminal) :
    entry.leaf? = some (String.ofList (unmarked entry.text.toList)) := by
  cases entry with
  | enter nonterminal => exact absurd rfl (isLeaf nonterminal)
  | symbol text => rw [TraceEntry.text, unmarked_symbol legible, String.ofList_toList, leaf?]
  | identifier name =>
      rw [TraceEntry.text, String.toList_append, unmarked_name, String.ofList_toList, leaf?]
  | literal value =>
      rw [TraceEntry.text, String.toList_append, unmarked_literal, String.ofList_toList, leaf?]
  | resumed => rfl

end TraceEntry.IsLegible

namespace TraceLine

variable {line : TraceLine}

/-- The spaces in front of the text of an entry are those of the indentation. -/
theorem span_text (legible : line.entry.IsLegible) :
    line.text.toList.takeWhile (· == ' ') = List.replicate (2 * line.depth) ' ' ∧
      unindented line.text = line.entry.text.toList := by
  have spaces : ∀ char ∈ List.replicate (2 * line.depth) ' ', (char == ' ') = true := by simp
  have shape : line.text.toList =
      List.replicate (2 * line.depth) ' ' ++ line.entry.text.toList := by simp [text]
  have head := legible.text_head
  rw [unindented, shape, List.takeWhile_append_of_pos spaces, List.dropWhile_append_of_pos spaces]
  cases chars : line.entry.text.toList with
  | nil => simp
  | cons first rest =>
      have other : (first == ' ') = false := by simpa [chars] using head
      simp [other]

theorem indentation_text (legible : line.entry.IsLegible) :
    indentation line.text = 2 * line.depth := by
  rw [indentation, (span_text legible).1, List.length_replicate]

theorem entersRule_enter {nonterminal : Nonterminal} (enters : line.entry = .enter nonterminal) :
    entersRule line.text = true := by
  obtain ⟨rest, starts⟩ := nonterminal.text_starts
  have legible : line.entry.IsLegible := enters ▸ trivial
  rw [entersRule, (span_text legible).2, enters, TraceEntry.text, starts,
    List.dropPrefix?_append_of_beq _ BEq.rfl]
  rfl

theorem entersRule_leaf (legible : line.entry.IsLegible)
    (isLeaf : ∀ nonterminal, line.entry ≠ .enter nonterminal) : entersRule line.text = false := by
  rw [entersRule, (span_text legible).2, dropPrefix?_other 'R' rfl (legible.leaf_head isLeaf)]
  rfl

/-- Of the line of a leaf its text is left, and nothing of other lines. -/
theorem leafText?_text (legible : line.entry.IsLegible) :
    leafText? line.text = line.entry.leaf? := by
  by_cases enters : ∃ nonterminal, line.entry = .enter nonterminal
  · obtain ⟨nonterminal, enters⟩ := enters
    rw [leafText?, if_pos (entersRule_enter enters), enters, TraceEntry.leaf?]
  · have isLeaf := not_exists.mp enters
    have plain : ¬entersRule line.text = true := by simp [entersRule_leaf legible isLeaf]
    rw [leafText?, if_neg plain, (span_text legible).2, legible.leaf?_eq isLeaf]

end TraceLine

/-- The texts of a tree of a program are indented as the tree is. -/
theorem Forest.outline {inside : List TraceLine} (children : Forest 1 inside) :
    Outline ((⟨0, .enter .program⟩ :: inside).map TraceLine.text) := by
  have forest : Forest 0 (⟨0, .enter .program⟩ :: inside) := .tree .program children
  have legible := forest.legible
  have spaces {line : TraceLine} (member : line ∈ TraceLine.mk 0 (.enter .program) :: inside) :
      indentation line.text = 2 * line.depth :=
    TraceLine.indentation_text (legible line member)
  refine ⟨rfl, ?_, ?_, (List.isChain_map _).mpr ?_⟩
  · refine List.forall_mem_map.mpr fun line member => ?_
    have below := children.depth_le line member
    rw [spaces (List.mem_cons_of_mem _ member)]
    omega
  · refine List.forall_mem_map.mpr fun line member => ?_
    exact spaces member ▸ Nat.dvd_mul_right 2 _
  · refine forest.continues.imp_of_mem_imp fun line next lineIn nextIn ⟨level, below⟩ => ?_
    rw [spaces lineIn, spaces nextIn]
    refine ⟨by omega, fun deeper => ?_⟩
    obtain ⟨nonterminal, enters⟩ := below (by omega)
    exact TraceLine.entersRule_enter enters

/-- Without syntax errors the leaves of the trace are the tokens. -/
theorem Program.leavesOf_trace {tokens : List Token}
    (clean : (Program.ofTokens tokens).errors = #[]) :
    leavesOf (Program.ofTokens tokens).trace = tokens.map Token.value := by
  have given := Reading.wholeProgram_gives (.initial tokens) (List.Subset.refl tokens)
  obtain ⟨⟨read, consumed, _⟩, empty, _⟩ := given.clean clean
  have whole : tokens = read := by
    have rest := consumed.rest
    rwa [empty, List.append_nil] at rest
  subst whole
  exact consumed.leaves

/-- Whatever the tokens are, the trace is indented as a tree whose root is a program; and
without syntax errors the lines that enter no nonterminal are the tokens in their order. -/
theorem Program.ofTokens_outline (tokens : List Token) :
    let lines := (Program.ofTokens tokens).trace.toList.map TraceLine.text
    Outline lines ∧ ((Program.ofTokens tokens).errors = #[] →
      lines.filterMap leafText? = tokens.map Token.value) := by
  intro lines
  obtain ⟨inside, trace, children⟩ := Program.ofTokens_tree tokens
  have legible : ∀ line ∈ (Program.ofTokens tokens).trace.toList, line.entry.IsLegible := by
    rw [trace]
    exact (Forest.tree .program children).legible
  refine ⟨?_, fun clean => ?_⟩
  · have shape : lines = (⟨0, .enter .program⟩ :: inside).map TraceLine.text := by rw [← trace]
    exact shape ▸ children.outline
  · calc lines.filterMap leafText?
        = (Program.ofTokens tokens).trace.toList.filterMap fun line => leafText? line.text :=
          List.filterMap_map
      _ = leavesOf (Program.ofTokens tokens).trace :=
          List.filterMap_congr fun line member => TraceLine.leafText?_text (legible line member)
      _ = tokens.map Token.value := Program.leavesOf_trace clean

/-- A declaration is read without syntax errors, so its trace lists its tokens. -/
theorem Program.ofTokens_outline_declaration :
    let tokens : List Token := [⟨"int", .keyword, 1⟩, ⟨"x", .identifier, 1⟩, ⟨"=", .operator, 1⟩,
      ⟨"1", .integer, 1⟩, ⟨";", .delimiter, 1⟩]
    let lines := (Program.ofTokens tokens).trace.toList.map TraceLine.text
    (Program.ofTokens tokens).errors = #[] ∧ Outline lines ∧
      lines.filterMap leafText? = ["int", "x", "=", "1", ";"] := by
  intro tokens lines
  have clean : (Program.ofTokens tokens).errors = #[] := by decide +kernel
  exact ⟨clean, (Program.ofTokens_outline tokens).1, (Program.ofTokens_outline tokens).2 clean⟩

end StackLang
