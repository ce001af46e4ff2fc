import StackLang.Grammar.Expression
import StackLang.Proofs.Completeness.Judgement

/-!
# Expressions are read without errors

Behind an operand of each level comes an operator of a looser level or the end of
the expression, so a level never reads on by mistake.  The induction is on the
depth of parentheses.
-/

namespace StackLang.Reading

open Phrase
open Terminal (Opens allApart)

variable {size : Nat} {next behind : List Terminal} {label : Category}
  {operators : List BinaryOperator} {operand nested : Reading Expr}

/-- The spellings of operators. -/
def operatorWords (operators : List BinaryOperator) : List Terminal :=
  operators.map fun operator => .word operator.symbol

theorem Meets.level {nonterminal : Nonterminal} {complaint : Complaint} {body : Reading Expr}
    (start : label.production.opening next ⊆ nonterminal.first)
    (inside : Meets size body label.production next anything) :
    Meets size (level nonterminal complaint body) (.category label) next anything :=
  .category (.rule (.expect start inside))

/-- An operator with the operand behind it. -/
def extension (operators : List BinaryOperator) (label : Category) : Phrase :=
  .sequence [oneOf (operators.map BinaryOperator.symbol), .category label]

theorem extend?_meets (meets : Meets size operand (.category label) next anything) (left : Expr) :
    Meets size (extend? operators operand left) (extension operators label) next
      fun value? => ∃ value, value? = some value := by
  intro tokens rest short predicted follows
  obtain ⟨_, operandTokens, rfl, operatorPredicted, operandPredicted⟩ := predicted.of_next
  obtain ⟨token, text, rfl, listed, spelled⟩ := operatorPredicted.of_oneOf
  refine .look (fun _ => rfl) fun cursor position => ?_
  obtain ⟨operator, found⟩ : ∃ operator, (operators.find? fun operator =>
      cursor.next?.any fun token => token.spells operator.symbol) = some operator := by
    obtain ⟨operator, member, rfl⟩ := List.mem_map.mp listed
    refine Option.isSome_iff_exists.mp (List.find?_isSome.mpr ⟨operator, member, ?_⟩)
    rw [next?_eq position]
    exact spelled
  rw [found]
  have taken := meets operandTokens rest (by simp at short; omega) operandPredicted.of_last follows
  exact .look (fun _ => rfl) fun _ _ => .consume (.after taken fun value _ => .pure ⟨_, rfl⟩)

theorem extend?_stops (apart : allApart next (operatorWords operators) = true) (left : Expr)
    (rest : List Token) (follows : Opens next rest) :
    Takes (extend? operators operand left) [] rest (· = none) := by
  refine .look (fun _ => rfl) fun cursor position => ?_
  have missing : (operators.find? fun operator =>
      cursor.next?.any fun token => token.spells operator.symbol) = none := by
    have excluded := follows.anyAccepts_eq_false apart
    rw [List.find?_eq_none]
    intro operator member
    have absent := List.any_eq_false.mp excluded (.word operator.symbol)
      (List.mem_map_of_mem member)
    rw [next?_eq position]
    simpa using absent
  rw [missing]
  exact .pure rfl

theorem Meets.chain (meets : Meets size operand (.category label) behind anything)
    (within : (Phrase.many (extension operators label)).opening next ⊆ behind)
    (apart : allApart next (operatorWords operators) = true) :
    Meets size (chain operators operand)
      (Phrase.chain label (operators.map BinaryOperator.symbol)) next anything := by
  have solid : (extension operators label).isSolid = true := by
    rw [extension, isSolid, anySolid, oneOf_isSolid, Bool.true_or]
  refine .part meets ((opening_last _ next).symm ▸ within) fun left _ => .last ?_
  refine .refine anything solid ?_ ?_ left trivial
  · intro value _
    refine (extend?_meets (meets.mono (Nat.le_refl size) within) value).imp ?_
    rintro _ ⟨later, rfl⟩
    exact ⟨later, rfl, trivial⟩
  · exact fun value rest _ => extend?_stops apart value rest

/-- What can be next behind an expression. -/
abbrev expressionEnd : List Terminal := Nonterminal.expression.follow

theorem nextArgument?_meets
    (meets : Meets size nested (.category .expression) expressionEnd anything) :
    Meets (size + 1) (nextArgument? nested) (.sequence [word ",", .category .expression])
      (Nonterminal.words [",", ")"]) fun value? => ∃ value, value? = some value :=
  .acceptedUnless <| .yes (asks_seesStart _) (by decide) <|
    .part meets (by decide) fun value _ => .done ⟨value, rfl⟩

theorem nextArgument?_stops (rest : List Token) (follows : Opens (Nonterminal.words [")"]) rest) :
    Takes (nextArgument? nested) [] rest (· = none) := by
  refine .before (.decline follows (by decide)) ?_
  rintro _ rfl
  exact .pure rfl

theorem arguments_meets
    (meets : Meets size nested (.category .expression) expressionEnd anything) :
    Meets size (arguments nested) (.optional (separated (.category .expression)))
      (Nonterminal.words [")"]) anything := by
  have item := (nextArgument?_meets meets).mono (Nat.le_succ size) (List.Subset.refl _)
  refine .rule (.only (.optional (.last ?_) ?_))
  · refine .no (asks_sees ")") (by decide) (.expectUnless (by decide) ?_)
    refine .part meets (by decide) fun _ _ => ?_
    refine .part (.collect rfl item nextArgument?_stops) (List.Subset.refl _) fun _ _ => ?_
    exact .done trivial
  · exact .yes (asks_sees ")") (by decide) (.done trivial)

theorem call_meets (meets : Meets size nested (.category .expression) expressionEnd anything) :
    Meets (size + 1) (call nested) (.category .call) next
      fun found? => ∃ found, found? = some found := by
  refine .category (.rule (.solidPart .identifier? rfl (List.Subset.refl _) ?_))
  rintro _ ⟨callee, rfl⟩
  refine .part .accept (List.Subset.refl _) fun _ _ => ?_
  refine .part (arguments_meets meets) (List.Subset.refl _) fun arguments _ => ?_
  exact .part .demand (List.Subset.refl _) fun _ _ => .done ⟨_, rfl⟩

theorem group_meets (meets : Meets size nested (.category .expression) expressionEnd anything) :
    Meets size (group nested) (.sequence [.category .expression, word ")"]) next anything :=
  .part meets (show [Terminal.word ")"] ⊆ expressionEnd by decide) fun _ _ =>
    .part .demand (List.Subset.refl _) fun _ _ => .done trivial

/-- What the token behind a single one is. -/
theorem Takes.askSecond {α : Type} {answer : Bool} {symbol : String} {token : Token}
    {tokens rest : List Token} {following : Bool → Reading α} {good : α → Prop}
    (answered : Terminal.anyAccepts [.word symbol] (tokens ++ rest).head? = answer)
    (taken : Takes (following answer) (token :: tokens) rest good) :
    Takes (seesSecond symbol >>= following) (token :: tokens) rest good := by
  refine .look (fun _ => rfl) fun cursor position => ?_
  have second : cursor.rest.tail.head? = (tokens ++ rest).head? := by
    rw [position]
    rfl
  have same : ((tokens ++ rest).head?.any fun token => token.spells symbol) = answer := by
    simpa [Terminal.anyAccepts] using answered
  rw [second, same]
  exact taken

section Second

variable {α : Type} {symbol : String} {terminal : Terminal} {parts : List Phrase}
  {found missing : Reading α} {good : α → Prop}

theorem Meets.second (within : (Phrase.sequence parts).opening next ⊆ [.word symbol])
    (taken : Meets size found (.sequence (.terminal terminal :: parts)) next good) :
    Meets size (do if ← seesSecond symbol then found else missing)
      (.sequence (.terminal terminal :: parts)) next good := by
  intro tokens rest short predicted follows
  obtain ⟨_, back, rfl, single, others⟩ := predicted.of_next
  obtain ⟨token, rfl, _⟩ := single.of_terminal
  exact .askSecond ((others.opens_append follows).mono within)
    (taken _ rest short predicted follows)

theorem Meets.notSecond
    (apart : allApart ((Phrase.sequence parts).opening next) [.word symbol] = true)
    (taken : Meets size missing (.sequence (.terminal terminal :: parts)) next good) :
    Meets size (do if ← seesSecond symbol then found else missing)
      (.sequence (.terminal terminal :: parts)) next good := by
  intro tokens rest short predicted follows
  obtain ⟨_, back, rfl, single, others⟩ := predicted.of_next
  obtain ⟨token, rfl, _⟩ := single.of_terminal
  exact .askSecond ((others.opens_append follows).anyAccepts_eq_false apart)
    (taken _ rest short predicted follows)

end Second

theorem primary_meets (meets : Meets size nested (.category .expression) expressionEnd anything) :
    Meets (size + 1) (primary nested) (.category .primary) Nonterminal.operandEnd anything := by
  refine .level (by decide) (.choice ?_)
  simp only [List.forall_mem_cons, List.not_mem_nil, false_imp_iff, implies_true, and_true]
  refine ⟨?name, ?call, ?literal, ?group⟩
  case name =>
    refine .declined (by decide) (.yes asks_seesIdentifier (by decide) (.only ?_))
    refine .notSecond (by decide) (.part .identifier? (List.Subset.refl _) ?_)
    rintro _ ⟨name, rfl⟩
    exact .done trivial
  case call =>
    refine .declined (by decide) (.yes asks_seesIdentifier (by decide) (.category ?_))
    refine .second (by decide) (.production .call (.only ?_))
    refine .part (call_meets meets) (List.Subset.refl _) ?_
    rintro _ ⟨_, rfl⟩
    exact .done trivial
  case literal =>
    refine .declined (by decide) (.no asks_seesIdentifier (by decide) (.only ?_))
    refine .part (.take _ fun _ predicted => ?_) (List.Subset.refl _) ?_
    · obtain ⟨token, rfl, _⟩ := predicted.of_terminal
      exact ⟨token, rfl⟩
    · rintro _ ⟨token, rfl⟩ tokens rest _ predicted _
      have cut : Takes (cutMark token) [] rest anything := fun _ position => ⟨trivial, position, rfl⟩
      rw [predicted.of_done]
      exact cut.before fun _ _ => .pure trivial
  case group => exact .accepted (group_meets meets)

theorem negation_meets (meets : Meets size nested (.category .expression) expressionEnd anything) :
    Meets (size + 1) (negation nested) (.category .negation) Nonterminal.operandEnd anything := by
  have operand := primary_meets meets
  refine .level (by decide) (.look (fun _ => rfl) fun line => .optional ?_ ?_)
  · have smaller := operand.mono (Nat.le_succ size) (List.Subset.refl _)
    exact .accepted (.part smaller (List.Subset.refl _) fun _ _ => .done trivial)
  · exact .declined (by decide) (.last operand)

theorem product_meets (meets : Meets size nested (.category .expression) expressionEnd anything) :
    Meets (size + 1) (product nested) (.category .product) Nonterminal.product.follow anything :=
  .level (by decide) (.chain (negation_meets meets) (by decide) (by decide))

theorem sum_meets (meets : Meets size nested (.category .expression) expressionEnd anything) :
    Meets (size + 1) (sum nested) (.category .sum) Nonterminal.sum.follow anything :=
  .level (by decide) (.chain (product_meets meets) (by decide) (by decide))

theorem relation_meets (meets : Meets size nested (.category .expression) expressionEnd anything) :
    Meets (size + 1) (relation nested) (.category .relation) Nonterminal.relation.follow
      anything := by
  have operand := sum_meets meets
  refine .level (by decide) (.part operand (by decide) fun left _ => .optional ?_ ?_)
  · have right : Meets (size + 1) (sum nested) (.category .sum) Nonterminal.relation.follow anything :=
      operand.mono (Nat.le_refl _) (by decide)
    exact .part (extend?_meets right left) (List.Subset.refl _) fun _ _ => .done trivial
  · intro tokens rest _ predicted follows
    rw [predicted.of_done]
    exact .before (extend?_stops (by decide) left rest follows) fun _ _ => .pure trivial

theorem inversionFor_meets
    (meets : Meets size nested (.category .expression) expressionEnd anything) (bound : Nat) :
    Meets (min bound (size + 1)) (inversionFor nested bound) (.category .inversion)
      Nonterminal.relation.follow anything := by
  induction bound with
  | zero =>
      rw [Nat.zero_min]
      exact .zero rfl
  | succ bound ih =>
      rw [Nat.add_min_add_right]
      refine .level (by decide) (.look (fun _ => rfl) fun line => .choice ?_)
      simp only [List.forall_mem_cons, List.not_mem_nil, false_imp_iff, implies_true, and_true]
      refine ⟨?inverted, ?comparison⟩
      case inverted =>
        have smaller := ih.mono (show min bound size ≤ _ by omega) (List.Subset.refl _)
        exact .accepted (.part smaller (List.Subset.refl _) fun _ _ => .done trivial)
      case comparison =>
        refine .declined (by decide) ((relation_meets meets).mono ?_ (List.Subset.refl _))
        omega

theorem inversion_meets (meets : Meets size nested (.category .expression) expressionEnd anything) :
    Meets (size + 1) (inversion nested) (.category .inversion) Nonterminal.relation.follow
      anything := by
  intro tokens rest short predicted follows
  refine .look (fun _ => rfl) fun cursor position => ?_
  refine inversionFor_meets meets _ tokens rest ?_ predicted follows
  rw [position, List.length_append]
  omega

theorem conjunction_meets
    (meets : Meets size nested (.category .expression) expressionEnd anything) :
    Meets (size + 1) (conjunction nested) (.category .conjunction) (.word "||" :: expressionEnd)
      anything :=
  .level (by decide) (.chain (inversion_meets meets) (by decide) (by decide))

theorem expressionFor_meets (depth : Nat) :
    Meets depth (expressionFor depth) (.category .expression) expressionEnd anything := by
  induction depth with
  | zero => exact .zero rfl
  | succ depth ih => exact .level (by decide) (.chain (conjunction_meets ih) (by decide) (by decide))

/-- Whatever expression can be predicted is read without errors, in front of what can follow one. -/
theorem expression_meets :
    Meets size expression (.category .expression) expressionEnd anything := by
  intro tokens rest short predicted follows
  refine .look (fun _ => rfl) fun cursor position => ?_
  refine expressionFor_meets _ tokens rest ?_ predicted follows
  rw [position, List.length_append]
  omega

/-- The preview of an expression takes nothing. -/
theorem Takes.foresee {tokens rest : List Token} {good : Expr → Prop}
    (taken : Takes expression tokens rest good) :
    Takes foreseen tokens rest fun foreseen => good foreseen.value := by
  refine .look (fun _ => rfl) fun _ _ => .look (fun _ => rfl) fun cursor _ => ?_
  have checked : Takes (checkPreview (Expr.previewed cursor.rest)) [] (tokens ++ rest) anything :=
    fun _ position => ⟨trivial, position, rfl⟩
  exact checked.before fun _ _ => .after taken fun _ holds => .pure holds

theorem foreseen_meets : Meets size foreseen (.category .expression) expressionEnd anything :=
  fun tokens rest short predicted follows =>
    (expression_meets tokens rest short predicted follows).foresee

end StackLang.Reading
