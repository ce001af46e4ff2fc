import StackLang.Proofs.Grammar.Nesting

/-!
# Occurrences

Where a category stands in the tokens of a phrase.  `Phrase.Holds` is a derivation that
leaves one category open, with the tokens in front of it and those behind it.  In front of
a statement every parenthesis is closed, and behind every `return` stands a semicolon.
-/

namespace StackLang

namespace Phrase

/-- In what the phrase stands for, the category stands between `before` and `after`. -/
inductive Holds (label : Category) : Phrase → List Token → List Token → Prop where
  | here : Holds label (.category label) [] []
  | category {outer : Category} {before after : List Token} :
      Holds label outer.production before after → Holds label (.category outer) before after
  | first {part : Phrase} {parts : List Phrase} {before after rest : List Token} :
      Holds label part before after → Derives (.sequence parts) rest →
      Holds label (.sequence (part :: parts)) before (after ++ rest)
  | later {part : Phrase} {parts : List Phrase} {first before after : List Token} :
      Derives part first → Holds label (.sequence parts) before after →
      Holds label (.sequence (part :: parts)) (first ++ before) after
  | choice {alternative : Phrase} {alternatives : List Phrase} {before after : List Token} :
      alternative ∈ alternatives → Holds label alternative before after →
      Holds label (.choice alternatives) before after
  | present {phrase : Phrase} {before after : List Token} :
      Holds label phrase before after → Holds label (.optional phrase) before after
  | one {phrase : Phrase} {before after rest : List Token} :
      Holds label phrase before after → Derives (.many phrase) rest →
      Holds label (.many phrase) before (after ++ rest)
  | more {phrase : Phrase} {first before after : List Token} :
      Derives phrase first → Holds label (.many phrase) before after →
      Holds label (.many phrase) (first ++ before) after

/-- The category may be filled in. -/
theorem Holds.derives {label : Category} {phrase : Phrase} {before after tokens : List Token}
    (holds : Holds label phrase before after) (derived : (Phrase.category label).Derives tokens) :
    phrase.Derives (before ++ (tokens ++ after)) := by
  induction holds with
  | here => simpa using derived
  | category _ ih => exact .category ih
  | first _ rest ih =>
      have whole := Derives.next ih rest
      simpa only [List.append_assoc] using whole
  | later first _ ih =>
      have whole := Derives.next first ih
      simpa only [List.append_assoc] using whole
  | choice member _ ih => exact .choice member ih
  | present _ ih => exact .present ih
  | one _ rest ih =>
      have whole := Derives.more ih rest
      simpa only [List.append_assoc] using whole
  | more first _ ih =>
      have whole := Derives.more first ih
      simpa only [List.append_assoc] using whole

/-! ## Parts of a phrase -/

section

variable (isTerminal : Terminal → Bool) (isLabel : Category → Bool)

mutual

/-- Whether one of the terminals or categories of a phrase is looked for. -/
def hasPart : Phrase → Bool
  | .terminal symbol => isTerminal symbol
  | .category label => isLabel label
  | .sequence parts => anyHasPart parts
  | .choice alternatives => anyHasPart alternatives
  | .optional phrase => hasPart phrase
  | .many phrase => hasPart phrase

/-- Whether one of the phrases has a part that is looked for. -/
def anyHasPart : List Phrase → Bool
  | [] => false
  | part :: parts => hasPart part || anyHasPart parts

end

variable {isTerminal isLabel}

theorem hasPart_of_mem {phrases : List Phrase} {phrase : Phrase} (member : phrase ∈ phrases)
    (found : phrase.hasPart isTerminal isLabel = true) :
    anyHasPart isTerminal isLabel phrases = true := by
  induction phrases with
  | nil => exact absurd member List.not_mem_nil
  | cons head others ih =>
      rw [anyHasPart, Bool.or_eq_true]
      rcases List.mem_cons.mp member with rfl | later
      · exact .inl found
      · exact .inr (ih later)

end

/-- Whether the phrase may derive one of the terminals, where the calm categories do not. -/
def mayHave (terminals : List Terminal) (calm : Category → Bool) (phrase : Phrase) : Bool :=
  phrase.hasPart (fun symbol => !Terminal.allApart [symbol] terminals) (!calm ·)

/-- None of the terminals is derived where neither the phrase nor the productions of the
calm categories have one of them. -/
theorem Derives.anyAccepts_eq_false {terminals : List Terminal} {calm : Category → Bool}
    {phrase : Phrase} {tokens : List Token} (derived : phrase.Derives tokens)
    (productions : ∀ label, calm label = true → label.production.mayHave terminals calm = false)
    (absent : phrase.mayHave terminals calm = false) :
    ∀ token ∈ tokens, Terminal.anyAccepts terminals (some token) = false := by
  induction derived with
  | @terminal symbol token accepted =>
      intro other member
      rw [List.mem_singleton.mp member]
      have opens : Terminal.Opens [symbol] [token] :=
        List.any_eq_true.mpr ⟨symbol, List.mem_singleton_self symbol, accepted⟩
      exact opens.anyAccepts_eq_false (by simpa [mayHave, hasPart] using absent)
  | category _ ih => exact ih (productions _ (by simpa [mayHave, hasPart] using absent))
  | done => exact fun _ member => absurd member List.not_mem_nil
  | next _ _ firstIh restIh =>
      rw [mayHave, hasPart, anyHasPart, Bool.or_eq_false_iff] at absent
      exact List.forall_mem_append.mpr ⟨firstIh absent.1, restIh absent.2⟩
  | choice member _ ih =>
      apply ih
      by_contra found
      have listed := hasPart_of_mem member (Bool.of_not_eq_false found)
      exact absurd (listed.symm.trans absent) (by decide)
  | absent => exact fun _ member => absurd member List.not_mem_nil
  | present _ ih => exact ih absent
  | none => exact fun _ member => absurd member List.not_mem_nil
  | more _ _ firstIh restIh => exact List.forall_mem_append.mpr ⟨firstIh absent, restIh absent⟩

/-- The categories in which statements stand. -/
def holders : List Category :=
  [.program, .member, .method, .body, .statement, .whileLoop, .choice, .doWhile, .forLoop,
    .switch, .block]

/-- Whether statements stand in the phrase. -/
def holdsAny (phrase : Phrase) : Bool := phrase.hasPart (fun _ => false) (· ∈ holders)

theorem Holds.holdsAny {label : Category} {phrase : Phrase} {before after : List Token}
    (holds : Holds label phrase before after) (listed : label ∈ holders) :
    phrase.holdsAny = true := by
  induction holds with
  | here => exact decide_eq_true listed
  | @category outer _ _ _ ih => cases outer <;> first | rfl | (revert ih; decide)
  | first _ _ ih => exact Bool.or_eq_true .. ▸ .inl ih
  | later _ _ ih => exact Bool.or_eq_true .. ▸ .inr ih
  | choice member _ ih => exact hasPart_of_mem member ih
  | present _ ih => exact ih
  | one _ _ ih => exact ih
  | more _ _ ih => exact ih

end Phrase

/-! ## Closed tokens -/

namespace Brackets

variable (brackets : Brackets)

/-- Behind every `opening` stands a symbol that closes it. -/
def Closes (opening : String) (tokens : List Token) : Prop :=
  ∀ token rest, token :: rest <:+ tokens → token.spells opening = true →
    brackets.behindAll 0 rest = none

variable {brackets} {opening : String} {front back tokens : List Token} {depth after : Nat}

theorem Closes.suffix (closes : brackets.Closes opening tokens) (left : back <:+ tokens) :
    brackets.Closes opening back :=
  fun token rest found => closes token rest (found.trans left)

theorem Closes.append (first : brackets.Closes opening front)
    (second : brackets.Closes opening back) : brackets.Closes opening (front ++ back) := by
  rintro token rest ⟨more, same⟩ opens
  rcases List.append_eq_append_iff.mp same with ⟨others, left, tail⟩ | ⟨others, _, tail⟩
  · cases others with
    | nil => exact second token rest ⟨[], tail⟩ opens
    | cons next others =>
        obtain ⟨rfl, rest⟩ := List.cons_eq_cons.mp tail
        rw [rest]
        change brackets.behindAll 0 (others ++ back) = none
        rw [behindAll_append, first token others ⟨more, left.symm⟩ opens, Option.bind_none]
  · exact second token rest ⟨others, tail.symm⟩ opens

theorem behind_shift {token : Token} (step : brackets.behind depth token = some after)
    (outer : Nat) : brackets.behind (outer + depth) token = some (outer + after) := by
  unfold behind at step ⊢
  split
  · next closes =>
      rw [if_pos closes, Nat.ppred_eq_some] at step
      exact Nat.ppred_eq_some.mpr (congrArg (outer + ·) step)
  · next unclosed =>
      rw [if_neg unclosed] at step
      split
      · next opens =>
          rw [if_pos opens] at step
          exact congrArg (fun depth => some (outer + depth)) (Option.some.inj step)
      · next unopened =>
          rw [if_neg unopened] at step
          exact congrArg (fun depth => some (outer + depth)) (Option.some.inj step)

theorem behindAll_shift (leads : brackets.behindAll depth tokens = some after) (outer : Nat) :
    brackets.behindAll (outer + depth) tokens = some (outer + after) := by
  induction tokens generalizing depth with
  | nil => exact congrArg (fun depth => some (outer + depth)) (Option.some.inj leads)
  | cons token rest ih =>
      rw [behindAll, List.foldlM_cons] at leads ⊢
      obtain ⟨middle, step, onward⟩ := Option.bind_eq_some_iff.mp leads
      rw [behind_shift step]
      exact ih onward

/-- Tokens that lead below the depth they start from close a symbol in front of them. -/
theorem behindAll_eq_none (leads : brackets.behindAll depth tokens = some after)
    (less : after < depth) : brackets.behindAll 0 tokens = none := by
  cases found : brackets.behindAll 0 tokens with
  | none => rfl
  | some above =>
      have shifted := behindAll_shift found depth
      rw [Nat.add_zero, leads] at shifted
      have same := Option.some.inj shifted
      omega

/-- Tokens that lead back to their depth close what they open. -/
theorem closes_of_behindAll (whole : brackets.behindAll 0 tokens = some 0)
    (opens : opening ∈ brackets.openings) (distinct : opening ≠ brackets.closing) :
    brackets.Closes opening tokens := by
  rintro token rest ⟨front, rfl⟩ spelled
  rw [behindAll_append] at whole
  obtain ⟨depth, _, onward⟩ := Option.bind_eq_some_iff.mp whole
  have apart : (Terminal.word opening).apart (.word brackets.closing) = true := by
    simpa [Terminal.apart] using distinct
  have accepted : (Terminal.word opening).accepts (some token) = true := spelled
  have unclosed : token.spells brackets.closing = false := Terminal.accepts_eq_false apart accepted
  have step : brackets.behind depth token = some (depth + 1) := by
    rw [behind, unclosed, if_neg Bool.false_ne_true,
      if_pos (List.any_eq_true.mpr ⟨opening, opens, spelled⟩)]
  rw [behindAll, List.foldlM_cons, step] at onward
  exact behindAll_eq_none onward (Nat.succ_pos depth)

/-- What closes stands within the tokens, so what stands in front of the first symbol that
closes does too. -/
theorem Closes.length_le {opener close : Token} {inner rest : List Token}
    (closes : brackets.Closes opening (opener :: front)) (opens : opener.spells opening = true)
    (level : brackets.behindAll 0 inner = some 0) (same : front ++ back = inner ++ close :: rest) :
    back.length ≤ rest.length := by
  have closed := closes opener front (List.suffix_refl _) opens
  rcases List.append_eq_append_iff.mp same with ⟨more, rfl, _⟩ | ⟨more, rfl, tail⟩
  · rw [behindAll_append, closed] at level
    contradiction
  · cases more with
    | nil =>
        rw [List.append_nil, level] at closed
        contradiction
    | cons token more =>
        obtain ⟨_, rest⟩ := List.cons_eq_cons.mp tail
        rw [rest]
        exact (List.suffix_append more back).length_le

/-- A symbol that opens is not the last of tokens that close what they open. -/
theorem Closes.unopened {token : Token} (closes : brackets.Closes opening [token]) :
    token.spells opening = false := by
  refine Bool.eq_false_iff.mpr fun opens => ?_
  exact nomatch (closes token [] (List.suffix_refl _) opens)

end Brackets

namespace Phrase

/-! ## Returns -/

/-- Whether `return` itself is a part of the phrase. -/
def hasReturn (phrase : Phrase) : Bool := phrase.hasPart (· = .word "return") fun _ => false

theorem hasReturn_of_mem {alternatives : List Phrase} {alternative : Phrase}
    (member : alternative ∈ alternatives) (silent : (choice alternatives).hasReturn = false) :
    alternative.hasReturn = false := by
  cases found : alternative.hasReturn with
  | false => rfl
  | true => exact absurd ((hasPart_of_mem member found).symm.trans silent) (by decide)

theorem production_hasReturn (label : Category) :
    label.production.hasReturn = false ∨ label.production = Category.giveBack.production := by
  cases label <;> first | exact .inr rfl | exact .inl (by decide)

/-- What stands behind `return` in its statement closes it. -/
theorem returned_behindAll {tokens : List Token}
    (derived : (sequence [.optional (.category .expression), word ";"]).Derives tokens) :
    semicolons.behindAll 0 tokens = none := by
  have told : depthBehind semicolons (· ∈ withoutSemicolons) 1
      (sequence [.optional (.category .expression), word ";"]) = some 0 := by decide
  have leads := derived.behindAll respects_semicolons told 0
  exact Brackets.behindAll_eq_none leads Nat.one_pos

theorem closes_nil {brackets : Brackets} {opening : String} : brackets.Closes opening [] :=
  fun _ _ suffix _ => absurd (List.suffix_nil.mp suffix) (List.cons_ne_nil _ _)

/-- What is no `return` opens nothing. -/
theorem closes_terminal {symbol : Terminal} {token : Token}
    (accepted : symbol.accepts (some token) = true)
    (silent : (Phrase.terminal symbol).hasReturn = false) : semicolons.Closes "return" [token] := by
  have apart : symbol.apart (.word "return") = true := by
    cases symbol with
    | word text => simpa [hasReturn, hasPart, Terminal.apart] using silent
    | identifier | literal | endOfInput => rfl
  have unseen : token.spells "return" = false := Terminal.accepts_eq_false apart accepted
  intro other rest suffix spelled
  rcases List.suffix_cons_iff.mp suffix with same | suffix
  · rw [(List.cons_eq_cons.mp same).1, unseen] at spelled
    contradiction
  · exact closes_nil other rest suffix spelled

/-- A return statement closes what it opens. -/
theorem closes_giveBack {first rest : List Token} (derived : (word "return").Derives first)
    (behind : (sequence [.optional (.category .expression), word ";"]).Derives rest)
    (closes : semicolons.Closes "return" rest) : semicolons.Closes "return" (first ++ rest) := by
  cases derived with
  | terminal _ =>
      intro other tokens suffix spelled
      rcases List.suffix_cons_iff.mp suffix with same | suffix
      · rw [(List.cons_eq_cons.mp same).2]
        exact returned_behindAll behind
      · exact closes other tokens suffix spelled

/-- Behind a `return` stands the semicolon of its statement. -/
theorem Derives.closesReturns {phrase : Phrase} {tokens : List Token}
    (derived : phrase.Derives tokens)
    (whole : phrase.hasReturn = false ∨ phrase = Category.giveBack.production) :
    semicolons.Closes "return" tokens := by
  induction derived with
  | terminal accepted =>
      exact closes_terminal accepted (whole.resolve_right (by simp [Category.production]))
  | category _ ih => exact ih (production_hasReturn _)
  | done => exact closes_nil
  | @next part parts first rest derived restDerived firstIh restIh =>
      rcases whole with silent | whole
      · rw [hasReturn, hasPart, anyHasPart, Bool.or_eq_false_iff] at silent
        exact (firstIh (.inl silent.1)).append (restIh (.inl silent.2))
      · obtain ⟨rfl, rfl⟩ := List.cons_eq_cons.mp (Phrase.sequence.inj whole)
        exact closes_giveBack derived restDerived (restIh (.inl (by decide)))
  | choice member _ ih =>
      have silent := whole.resolve_right (by simp [Category.production])
      exact ih (.inl (hasReturn_of_mem member silent))
  | absent => exact closes_nil
  | present _ ih => exact ih (.inl (whole.resolve_right (by simp [Category.production])))
  | none => exact closes_nil
  | more _ _ firstIh restIh =>
      have silent := whole.resolve_right (by simp [Category.production])
      exact (firstIh (.inl silent)).append (restIh (.inl silent))

/-! ## In front of statements -/

/-- Every category leads back to the depth it starts from. -/
abbrev everyCategory : Category → Bool := fun _ => true

mutual

/-- Whether statements stand in the phrase outside of parentheses only, where the phrase
itself stands at the given depth, and never behind a lone `return`. -/
def isOpen (depth : Nat) : Phrase → Bool
  | .terminal _ => true
  | .category label => label ∉ holders || depth == 0
  | .sequence parts => isOpenThrough depth parts
  | .choice alternatives => allOpen depth alternatives
  | .optional phrase => isOpen depth phrase
  | .many phrase =>
      isOpen depth phrase && !hasReturn phrase &&
        depthBehind parentheses everyCategory depth phrase == some depth

/-- Whether this holds of phrases in a row. -/
def isOpenThrough (depth : Nat) : List Phrase → Bool
  | [] => true
  | part :: parts =>
      isOpen depth part && !hasReturn part &&
        match depthBehind parentheses everyCategory depth part with
        | none => false
        | some middle => isOpenThrough middle parts

/-- Whether this holds of all of the phrases. -/
def allOpen (depth : Nat) : List Phrase → Bool
  | [] => true
  | alternative :: others => isOpen depth alternative && allOpen depth others

end

theorem isOpen_of_mem {depth : Nat} {alternatives : List Phrase}
    (all : allOpen depth alternatives = true) :
    ∀ alternative ∈ alternatives, alternative.isOpen depth = true := by
  induction alternatives with
  | nil => nofun
  | cons alternative others ih =>
      simp only [allOpen, Bool.and_eq_true] at all
      simpa using ⟨all.1, ih all.2⟩

theorem production_isOpen {label : Category} (listed : label ∈ holders) :
    label.production.isOpen 0 = true := by
  cases label <;> revert listed <;> decide

/-- What stands in front of the other tokens leads to the depth at which they stand. -/
theorem Derives.behindAll_append {phrase : Phrase} {first before : List Token} {depth middle : Nat}
    (derived : phrase.Derives first)
    (told : depthBehind parentheses everyCategory depth phrase = some middle)
    (leads : parentheses.behindAll middle before = some 0) :
    parentheses.behindAll depth (first ++ before) = some 0 := by
  have front := derived.behindAll respects_parentheses told 0
  rw [Nat.zero_add, Nat.zero_add] at front
  rw [Brackets.behindAll_append, front, Option.bind_some, leads]

/-- In front of a statement every parenthesis is closed, and so is every `return`. -/
theorem Holds.closed {label : Category} {phrase : Phrase} {before after : List Token}
    (holds : Holds label phrase before after) (listed : label ∈ holders) {depth : Nat}
    (whole : phrase.isOpen depth = true) :
    parentheses.behindAll depth before = some 0 ∧ semicolons.Closes "return" before := by
  induction holds generalizing depth with
  | here =>
      rw [isOpen, Bool.or_eq_true, beq_iff_eq] at whole
      have outside := whole.resolve_left fun apart => absurd listed (of_decide_eq_true apart)
      exact ⟨congrArg some outside, closes_nil⟩
  | @category outer before after holds ih =>
      have holder : outer ∈ holders :=
        of_decide_eq_true (Holds.holdsAny (.category holds) listed)
      rw [isOpen, Bool.or_eq_true, beq_iff_eq] at whole
      have outside := whole.resolve_left fun apart => absurd holder (of_decide_eq_true apart)
      exact outside ▸ ih (production_isOpen holder)
  | first _ _ ih =>
      simp only [isOpen, isOpenThrough, Bool.and_eq_true] at whole
      exact ih whole.1.1
  | @later part parts first before after derived _ ih =>
      simp only [isOpen, isOpenThrough, Bool.and_eq_true, Bool.not_eq_true'] at whole
      obtain ⟨⟨_, silent⟩, onward⟩ := whole
      cases told : depthBehind parentheses everyCategory depth part with
      | none => exact nomatch told ▸ onward
      | some middle =>
          rw [told] at onward
          have inside : (sequence parts).isOpen middle = true := onward
          obtain ⟨leads, closes⟩ := ih inside
          exact ⟨derived.behindAll_append told leads, (derived.closesReturns (.inl silent)).append closes⟩
  | choice member _ ih => exact ih (isOpen_of_mem whole _ member)
  | present _ ih => exact ih whole
  | one _ _ ih =>
      simp only [isOpen, Bool.and_eq_true] at whole
      exact ih whole.1.1
  | more derived _ ih =>
      have onward := whole
      simp only [isOpen, Bool.and_eq_true, Bool.not_eq_true', beq_iff_eq] at whole
      obtain ⟨⟨_, silent⟩, told⟩ := whole
      obtain ⟨leads, closes⟩ := ih onward
      exact ⟨derived.behindAll_append told leads, (derived.closesReturns (.inl silent)).append closes⟩

/-! ## Ends of statements -/

/-- What a semicolon ends, with the category that it then is: a statement other than a
return, a field of a class or a do-while loop. -/
def endedForms : List (Category × List Phrase) :=
  [(.statement, [.category .variable]), (.statement, [.category .assignment]),
    (.statement, [.category .call]), (.statement, [.category .print]),
    (.statement, [.category .read]), (.statement, [word "break"]),
    (.statement, [.category .expression]), (.member, [.category .variable]),
    (.doWhile, [word "do", .category .block, word "while", parenthesized])]

/-- The semicolons of statements, fields and do-while loops stand in their productions. -/
theorem derives_endedForm {label : Category} {parts : List Phrase} {tokens : List Token}
    (listed : (label, parts) ∈ endedForms)
    (derived : (sequence (parts ++ [word ";"])).Derives tokens) :
    (category label).Derives tokens := by
  simp only [endedForms, List.mem_cons, List.not_mem_nil, Prod.mk.injEq, or_false] at listed
  rcases listed with ⟨rfl, rfl⟩ | ⟨rfl, rfl⟩ | ⟨rfl, rfl⟩ | ⟨rfl, rfl⟩ | ⟨rfl, rfl⟩ | ⟨rfl, rfl⟩ |
    ⟨rfl, rfl⟩ | ⟨rfl, rfl⟩ | ⟨rfl, rfl⟩
  case inr.inr.inr.inr.inr.inr.inr.inl => exact .category (.choice (by simp) derived)
  case inr.inr.inr.inr.inr.inr.inr.inr => exact .category derived
  all_goals exact .category (.choice (by simp [statementForms]) derived)

end Phrase

/-- The semicolon between `before` and `after` ends a statement of a program. -/
def EndsStatement (before after : List Token) : Prop :=
  ∃ label parts outer inner, (label, parts) ∈ Phrase.endedForms ∧ before = outer ++ inner ∧
    Phrase.Holds label (.category .program) outer after ∧ (Phrase.sequence parts).Derives inner

/-- The tokens are those of a program. -/
theorem EndsStatement.derives {before after : List Token} {semicolon : Token}
    (ends : EndsStatement before after) (spelled : semicolon.spells ";" = true) :
    (Phrase.category .program).Derives (before ++ semicolon :: after) := by
  obtain ⟨label, parts, outer, inner, listed, rfl, holds, derived⟩ := ends
  have whole := Phrase.derives_snoc derived (Phrase.derives_word spelled)
  simpa only [List.append_assoc, List.singleton_append] using
    holds.derives (Phrase.derives_endedForm listed whole)

open Phrase in
/-- In front of the end of a statement every parenthesis is closed, and so is every
`return`. -/
theorem EndsStatement.closes {before after : List Token} (ends : EndsStatement before after) :
    parentheses.Closes "(" before ∧ semicolons.Closes "return" before := by
  obtain ⟨label, parts, outer, inner, listed, rfl, holds, derived⟩ := ends
  have holder : label ∈ holders := by
    have all : ∀ form ∈ endedForms, form.1 ∈ holders := by decide
    exact all _ listed
  have calm : ∀ form ∈ endedForms, hasReturn (.sequence form.2) = false ∧
      depthBehind parentheses everyCategory 0 (.sequence form.2) = some 0 := by decide
  obtain ⟨silent, told⟩ := calm _ listed
  have outside : (Phrase.category .program).isOpen 0 = true := by decide
  obtain ⟨leads, closes⟩ := holds.closed holder outside
  have inside := derived.behindAll respects_parentheses told 0
  refine ⟨Brackets.closes_of_behindAll ?_ (by decide) (by decide),
    closes.append (derived.closesReturns (.inl silent))⟩
  rw [Brackets.behindAll_append, leads]
  exact inside

/-- Something stands in front of the end of a statement. -/
theorem EndsStatement.ne_nil {before after : List Token} (ends : EndsStatement before after) :
    before ≠ [] := by
  obtain ⟨label, parts, outer, inner, listed, rfl, _, derived⟩ := ends
  have solid : ∀ form ∈ Phrase.endedForms, (Phrase.sequence form.2).isSolid = true := by decide
  exact List.append_ne_nil_of_right_ne_nil _ (derived.ne_nil (solid _ listed))

end StackLang
