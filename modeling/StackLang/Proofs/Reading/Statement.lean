import StackLang.Grammar.Statement
import StackLang.Proofs.Reading.Expression

/-!
# What the readers of statements give

Each reader of a statement is shown to obey the production of its category: a
clean run that starts in front of the right token reads the category and leaves
no gap.  A list of statements ends where the grammar says, and a statement at
which nothing can be read is never met in a clean run.
-/

namespace StackLang.Reading

open Phrase
open Nonterminal (words)
open TreeStandard (loose strict)

variable {α β : Type} {source : List Token} {before : Cursor}

/-- The result is loose in any case.  In a clean run from a cursor at which `start`
holds, the phrase is read and the result is strict. -/
def Obeys (source : List Token) (part : TreeStandard → α → Prop) (reader : Reading α)
    (before : Cursor) (start : Prop) (phrase : Phrase) : Prop :=
  Gives reader before (part (loose source)) fun result after =>
    start → before.Reads phrase after ∧ part (strict source) result

namespace Obeys

variable {part : TreeStandard → α → Prop} {reader : Reading α} {start : Prop} {phrase : Phrase}

theorem category {nonterminal : Nonterminal} {category : Category}
    (inside : Obeys source part reader (before.enter nonterminal) start category.production) :
    Obeys source part (rule nonterminal reader) before start (.category category) := by
  refine Gives.rule _ inside ?_
  intro result after given started
  obtain ⟨reads, meets⟩ := given started
  exact ⟨reads.category.ofEnter, meets⟩

theorem weaken {stronger : Prop} (obeys : Obeys source part reader before start phrase)
    (implies : stronger → start) : Obeys source part reader before stronger phrase := by
  refine Gives.imp obeys (fun _ => id) ?_
  intro result after _ _ given started
  exact given (implies started)

theorem choice {alternatives : List Phrase} (obeys : Obeys source part reader before start phrase)
    (listed : phrase ∈ alternatives) (free : phrase.isFree = true) :
    Obeys source part reader before start (.choice alternatives) := by
  refine Gives.imp obeys (fun _ => id) ?_
  intro result after _ _ given started
  obtain ⟨reads, meets⟩ := given started
  exact ⟨reads.choice listed free, meets⟩

/-- An alternative is chosen by what is at the cursor. -/
theorem chosen {alternatives : List Phrase} (obeys : Obeys source part reader before start phrase)
    (listed : phrase ∈ alternatives)
    (chosen : ∀ tokens rest, before.rest = tokens ++ rest → phrase.isChosen tokens = true) :
    Obeys source part reader before start (.choice alternatives) := by
  refine Gives.imp obeys (fun _ => id) ?_
  intro result after _ _ given started
  obtain ⟨reads, meets⟩ := given started
  exact ⟨reads.chosen listed fun tokens => chosen tokens after.rest, meets⟩

theorem production {category : Category}
    (obeys : Obeys source part reader before start category.production) :
    Obeys source part reader before start (.category category) := by
  refine Gives.imp obeys (fun _ => id) ?_
  intro result after _ _ given started
  obtain ⟨reads, meets⟩ := given started
  exact ⟨reads.category, meets⟩

theorem bind {next : α → Reading β} {always : β → Prop} {clean : β → Cursor → Prop}
    (obeys : Obeys source part reader before start phrase)
    (second : ∀ result middle, before.Advances middle → part (loose source) result →
      Gives (next result) middle always fun final after =>
        (start → before.Reads phrase middle ∧ part (strict source) result) →
          clean final after) :
    Gives (reader >>= next) before always clean :=
  Gives.bind obeys second

theorem map {other : TreeStandard → β → Prop} {function : α → β}
    (obeys : Obeys source part reader before start phrase)
    (carries : ∀ standard result, part standard result → other standard (function result)) :
    Obeys source other (function <$> reader) before start phrase := by
  refine Gives.map obeys (fun _ => carries _ _) ?_
  intro result after _ _ given started
  obtain ⟨reads, meets⟩ := given started
  exact ⟨reads, carries _ _ meets⟩

/-- What is asked of the result may be said in another way. -/
theorem imp {other : TreeStandard → α → Prop}
    (obeys : Obeys source part reader before start phrase)
    (carries : ∀ standard result, part standard result → other standard result) :
    Obeys source other reader before start phrase := by
  refine Gives.imp obeys (carries _) ?_
  intro result after _ _ given started
  obtain ⟨reads, meets⟩ := given started
  exact ⟨reads, carries _ _ meets⟩

/-- Tokens that are read to their end without a complaint are predicted by the phrase. -/
theorem predicts {tokens : List Token} {start : Prop}
    (obeys : Obeys source part reader (.initial tokens) start phrase) (starts : start)
    (clean : (reader.run (.initial tokens)).2.errors = #[])
    (ended : (reader.run (.initial tokens)).2.rest = []) : phrase.Predicts tokens := by
  obtain ⟨⟨read, consumed, predicted⟩, _⟩ := Gives.clean obeys clean starts
  have whole : tokens = read := by
    have rest := consumed.rest
    rwa [ended, List.append_nil] at rest
  exact whole ▸ predicted

theorem derives {tokens : List Token} {start : Prop}
    (obeys : Obeys source part reader (.initial tokens) start phrase) (starts : start)
    (clean : (reader.run (.initial tokens)).2.errors = #[])
    (ended : (reader.run (.initial tokens)).2.rest = []) : phrase.Derives tokens :=
  (obeys.predicts starts clean ended).derives

end Obeys

/-- A round of a loop over items does not move behind the last item.  The result is loose in
any case, and an item in front of which `start` holds is read as the phrase. -/
def ObeysRound (source : List Token) (part : TreeStandard → α → Prop)
    (round : Reading (Option α)) (before : Cursor) (start : Prop) (phrase : Phrase) : Prop :=
  Gives round before (fun next? => ∀ next, next? = some next → part (loose source) next)
    fun next? after => (next? = none → after = before) ∧
      ∀ next, next? = some next → after.rest.length < before.rest.length ∧
        (start → before.Reads phrase after ∧ part (strict source) next)

theorem ObeysRound.weaken {part : TreeStandard → α → Prop} {round : Reading (Option α)}
    {start stronger : Prop} {phrase : Phrase}
    (obeys : ObeysRound source part round before start phrase) (implies : stronger → start) :
    ObeysRound source part round before stronger phrase := by
  refine Gives.imp obeys (fun _ => id) ?_
  rintro next? after _ _ ⟨stopped, went⟩
  refine ⟨stopped, fun next some => ?_⟩
  obtain ⟨shorter, read⟩ := went next some
  exact ⟨shorter, fun started => read (implies started)⟩

/-- What the rounds obey, the loop obeys for a list of items. -/
theorem Obeys.collect {part : TreeStandard → α → Prop} {round : Reading (Option α)}
    {size : Nat} {phrase : Phrase}
    (rounds : ∀ cursor, before.Advances cursor →
      ObeysRound source part round cursor (cursor.rest.length < size) phrase) :
    Obeys source (fun standard items => ∀ item ∈ items, part standard item)
      (Reading.collect round) before (before.rest.length < size) (.many phrase) := by
  refine collect_gives (part (loose source)) (fun cursor items after =>
    cursor.rest.length < size → cursor.Reads (.many phrase) after ∧
      ∀ item ∈ items, part (strict source) item) ?_
  intro cursor advances
  refine Gives.imp (rounds cursor advances) (fun _ => id) ?_
  rintro next? after _ _ ⟨stopped, went⟩
  refine ⟨fun none _ => ?_, fun next some => ?_⟩
  · rw [stopped none]
    exact ⟨.none _, by simp⟩
  · obtain ⟨shorter, read⟩ := went next some
    refine ⟨shorter, fun items last reached small => ?_⟩
    obtain ⟨reads, strict⟩ := read small
    obtain ⟨restReads, restStrict⟩ := reached (by omega)
    exact ⟨.more reads restReads, List.forall_mem_cons.mpr ⟨strict, restStrict⟩⟩

theorem expression_obeys (before : Cursor) (inside : before.rest ⊆ source) :
    Obeys source (fun standard => Expr.Meets standard) expression before True
      (.category .expression) := by
  refine (expression_gives before inside).imp (fun _ => id) ?_
  rintro value after _ _ ⟨reads, meets, _⟩ _
  exact ⟨reads, meets⟩

theorem foreseen_obeys (before : Cursor) (inside : before.rest ⊆ source) :
    Obeys source (fun standard => Foreseen.Meets standard) foreseen before True
      (.category .expression) :=
  (foreseen_gives before inside).imp (fun _ => id) fun _ _ _ _ given _ => given

theorem resume_gives (stop : Option Token → Bool) (before : Cursor) :
    Gives (resume stop) before (fun _ => True) fun _ _ => True := by
  unfold resume
  refine (skipTo_gives _ before).bind fun _ middle _ _ => ?_
  refine .branch _ rfl (fun _ => ?_) fun _ => .pure trivial fun _ => trivial
  refine (skip_gives middle).bind fun _ skipped _ _ => ?_
  exact (log_gives _ skipped).imp (fun _ => id) fun _ _ _ _ _ _ _ => trivial

theorem terminate_gives (complaint : Complaint) (before : Cursor) :
    Gives (terminate complaint) before (fun _ => True) fun _ after =>
      before.Reads (word ";") after :=
  demand_gives ((complain_repairs complaint).bind (resume_gives _)) ";" before

theorem terminated_obeys {part : TreeStandard → Statement → Prop} {statement : Reading Statement}
    {start : Prop} {phrase : Phrase} (complaint : Complaint)
    (obeys : Obeys source part statement before start phrase) :
    Obeys source part (terminated complaint statement) before start
      (.sequence [phrase, word ";"]) := by
  refine Gives.bind obeys fun result middle _ meets => ?_
  refine (terminate_gives complaint middle).bind fun _ after _ _ => .pure meets ?_
  intro ended given started
  obtain ⟨reads, strict⟩ := given started
  exact ⟨.next reads (.last ended), strict⟩

/-! ## Declarations and assignments -/

theorem exists_of_seesStart_words {nonterminal : Nonterminal} {texts : List String}
    (shape : nonterminal.first = Nonterminal.words texts)
    (seen : before.seesStart nonterminal = true) :
    ∃ text ∈ texts, before.sees text = true := by
  simpa [Cursor.seesStart, Nonterminal.startsWith, Terminal.anyAccepts, shape, Nonterminal.words,
    Cursor.sees] using seen

theorem ofText?_isSome {text : String} (listed : text ∈ Nonterminal.typeWords) :
    (TypeName.ofText? text).isSome = true := by
  revert text
  decide

theorem typeName_obeys (source : List Token) (before : Cursor) :
    Obeys source (GapMeets fun _ _ => True) typeName before
      (before.seesStart .type = true) (.category .type) := by
  refine Obeys.category (.look before.next? rfl ?_)
  cases next : before.next? with
  | none =>
      refine .pure trivial fun seen => ?_
      simp [Cursor.seesStart, Nonterminal.startsWith, Terminal.anyAccepts, next,
        Nonterminal.first, Nonterminal.words, Nonterminal.typeWords] at seen
  | some token =>
      refine (take_gives _ _ fun _ => rfl).bind fun token? after _ taken => .pure ?_ ?_
      · cases TypeName.ofText? token.value <;> trivial
      · intro consumed seen
        obtain ⟨text, listed, spelled⟩ := exists_of_seesStart_words rfl seen
        have spelled : token.spells text = true := by simpa [Cursor.sees, next] using spelled
        have consumed := consumed token (taken.trans next)
        refine ⟨⟨[token], consumed, predicts_oneOf listed spelled⟩, ?_⟩
        obtain ⟨type, known⟩ := Option.isSome_iff_exists.mp (ofText?_isSome listed)
        rw [value_of_spells spelled, known]
        trivial

/-- A name at which reading goes on is such a token of the source. -/
theorem name_meets {name : Token} (inside : before.rest ⊆ source)
    (found : name.isIdentifier = true ∧ before.next? = some name) (standard : TreeStandard)
    (asks : standard.name = (loose source).name) : standard.name name := by
  rw [asks]
  exact ⟨found.1, mem_of_next? inside found.2⟩

theorem constant?_gives (before : Cursor) :
    Gives constant? before (fun _ => True) fun _ after => after = before := by
  refine .look before.next? rfl ?_
  cases before.next? with
  | none => exact .pure trivial rfl
  | some token => exact .look _ rfl (.pure trivial rfl)

theorem declaration_obeys (before : Cursor) (inside : before.rest ⊆ source) :
    Obeys source (GapMeets fun standard => Declaration.Meets standard) declaration before
      (before.seesStart .type = true) (.category .variable) := by
  refine Obeys.category ?_
  refine (typeName_obeys source _).bind fun type? typed advances _ => ?_
  cases type? with
  | none => exact .pure trivial fun typed starts => (typed starts).2.elim
  | some type =>
      have insideTyped := subset_of_advances advances inside
      refine (identifier?_gives typed).bind fun name? named moved isName => ?_
      cases name? with
      | none => exact .repaired (abandon_repairs _ _) fun _ _ => .pure trivial trivial
      | some name =>
          have found := isName name rfl
          have insideNamed := subset_of_advances moved insideTyped
          refine .acceptUnless (fun behind onward => ?_) fun _ => ?_
          · have insideBehind := subset_of_advances onward insideNamed
            refine .branch _ rfl (fun _ => ?_) fun _ => ?_
            · refine (constant?_gives behind).bind fun constant start still _ => ?_
              have insideStart := subset_of_advances still insideBehind
              refine (foreseen_obeys start insideStart).bind fun value after _ meets => ?_
              refine .pure ⟨name_meets insideTyped found _ rfl, meets⟩ ?_
              rintro given rfl equals ⟨reads, _⟩ typed starts
              obtain ⟨valueReads, strict⟩ := given trivial
              refine ⟨?_, name_meets insideTyped found _ rfl, strict⟩
              refine .next (typed starts).1 (.next (reads name rfl) (.last (.present ?_)))
              exact .next equals (.last valueReads)
            · refine .repaired (abandon_repairs _ _) fun _ _ => .pure ?_ trivial
              exact ⟨name_meets insideTyped found _ rfl, trivial⟩
          · refine .pure ⟨name_meets insideTyped found _ rfl, trivial⟩ ?_
            rintro ⟨reads, _⟩ typed starts
            refine ⟨?_, name_meets insideTyped found _ rfl, trivial⟩
            exact .next (typed starts).1 (.next (reads name rfl) (.last (.absent _)))

theorem abandonAssignment_gives {target : Token} (complaint : Complaint)
    {clean : Option Assignment → Cursor → Prop} (named : (loose source).name target)
    (before : Cursor) :
    Gives (abandonAssignment target complaint) before
      (GapMeets (fun standard => Assignment.Meets standard) (loose source)) clean :=
  .repaired (abandon_repairs _ _) fun _ _ => .pure ⟨named, trivial⟩ trivial

theorem AssignmentOperator.symbol_of_step? {operator : AssignmentOperator} {step : BinaryOperator}
    (steps : operator.step? = some step) : operator.symbol ∈ ["++", "--"] := by
  cases operator <;> simp [AssignmentOperator.step?] at steps <;> decide

theorem AssignmentOperator.operator_of_step? {operator : AssignmentOperator}
    {step : BinaryOperator} (steps : operator.step? = some step) : step = .add ∨ step = .sub := by
  cases operator <;> simp [AssignmentOperator.step?] at steps
  · exact .inl steps.symm
  · exact .inr steps.symm

theorem AssignmentOperator.symbol_of_not_step? {operator : AssignmentOperator}
    (steps : operator.step? = none) : operator.symbol ∈ ["=", "+=", "-=", "*=", "/="] := by
  cases operator <;> simp [AssignmentOperator.step?] at steps <;> decide

theorem assignment_obeys (before : Cursor) (inside : before.rest ⊆ source) :
    Obeys source (GapMeets fun standard => Assignment.Meets standard) assignment before
      (before.seesIdentifier = true) (.category .assignment) := by
  refine Obeys.category ?_
  refine (identifier?_gives _).bind fun name? named advances isName => ?_
  cases name? with
  | none =>
      refine .pure trivial ?_
      rintro ⟨_, missing⟩ seen
      have unseen : before.seesIdentifier = false := missing rfl
      simp [unseen] at seen
  | some target =>
      have found := isName target rfl
      have meets : (loose source).name target := name_meets inside found _ rfl
      have insideNamed := subset_of_advances advances inside
      refine .look named.next? rfl ?_
      cases operator? : named.next?.bind AssignmentOperator.ofToken? with
      | none => exact abandonAssignment_gives .assignmentOperator meets named
      | some operator =>
          obtain ⟨token, next, spelled⟩ := Option.bind_eq_some_iff.mp operator?
          obtain ⟨tail, rest⟩ := List.head?_eq_some_iff.mp next
          have spelled : token.spells operator.symbol = true := by
            have holds := List.find?_some spelled
            exact holds
          refine .consume rest (by rw [value_of_spells spelled]; rfl) fun behind onward consumed => ?_
          have insideBehind := subset_of_advances onward insideNamed
          cases step? : operator.step? with
          | some step =>
              have steps := AssignmentOperator.operator_of_step? step?
              refine .pure ⟨meets, steps⟩ ?_
              rintro ⟨reads, _⟩ _
              have operates : named.Reads (oneOf ["++", "--"]) behind :=
                ⟨[token], consumed,
                  predicts_oneOf (AssignmentOperator.symbol_of_step? step?) spelled⟩
              refine ⟨?_, meets, steps⟩
              exact Cursor.Reads.choice (.next (reads target rfl) (.last operates)) (by simp) rfl
          | none =>
              refine .branch _ rfl (fun _ => ?_) fun _ =>
                abandonAssignment_gives .assignedValue meets behind
              refine (foreseen_obeys behind insideBehind).bind fun value after _ valueMeets => ?_
              refine .pure ⟨meets, valueMeets⟩ ?_
              rintro given ⟨reads, _⟩ _
              obtain ⟨valueReads, strict⟩ := given trivial
              have operates : named.Reads (oneOf ["=", "+=", "-=", "*=", "/="]) behind :=
                ⟨[token], consumed,
                  predicts_oneOf (AssignmentOperator.symbol_of_not_step? step?) spelled⟩
              refine ⟨?_, meets, strict⟩
              exact Cursor.Reads.choice
                (.next (reads target rfl) (.next operates (.last valueReads))) (by simp) rfl

/-! ## Simple statements -/

theorem unlessSees_obeys {part : TreeStandard → α → Prop} {reader : Reading α} {phrase : Phrase}
    (symbol : String) (obeys : Obeys source part reader before True phrase) :
    Obeys source (fun standard => OptionMeets (part standard)) (unlessSees symbol reader) before
      True (.optional phrase) := by
  refine .branch _ rfl (fun _ => ?_) fun _ => ?_
  · exact .pure trivial fun _ => ⟨.absent _, trivial⟩
  · refine obeys.bind fun result after _ meets => .pure meets ?_
    intro given started
    obtain ⟨reads, strict⟩ := given started
    exact ⟨reads.present, strict⟩

theorem print_obeys (before : Cursor) (inside : before.rest ⊆ source) :
    Obeys source (fun standard => Statement.Meets standard) print before
      (before.seesStart .print = true) (.category .print) := by
  refine Obeys.category ?_
  refine (take_gives _ _ fun _ => rfl).bind fun keyword? behind advances taken => ?_
  cases keyword? with
  | none =>
      refine .pure trivial fun _ seen => ?_
      obtain ⟨text, _, spelled⟩ := exists_of_seesStart_words rfl seen
      have missing : before.next? = none := taken.symm
      simp [Cursor.sees, missing] at spelled
  | some keyword =>
      have insideBehind := subset_of_advances advances inside
      refine .acceptUnless (fun opened onward => ?_) fun _ =>
        .repaired (abandon_repairs _ _) fun _ _ => .pure trivial trivial
      have insideOpened := subset_of_advances onward insideBehind
      refine (unlessSees_obeys ")" (expression_obeys opened insideOpened)).bind
        fun value closing _ meets => ?_
      refine (demand_gives (abandon_repairs _ _) ")" closing).bind fun _ after _ _ => ?_
      refine .pure meets ?_
      intro closes given opens consumed seen
      obtain ⟨text, listed, spelled⟩ := exists_of_seesStart_words rfl seen
      have next : before.next? = some keyword := taken.symm
      have spelled : keyword.spells text = true := by simpa [Cursor.sees, next] using spelled
      obtain ⟨reads, strict⟩ := given trivial
      have begins : (before.enter .print).Reads (oneOf ["println", "print"]) behind :=
        ⟨[keyword], consumed keyword rfl, predicts_oneOf listed spelled⟩
      exact ⟨.next begins (.next opens (.next reads (.last closes))), strict⟩

theorem read_obeys (before : Cursor) (inside : before.rest ⊆ source) :
    Obeys source (fun standard => Statement.Meets standard) read before
      (before.sees "inputln" = true) (.category .read) := by
  refine Obeys.category ?_
  refine (keyword_reads "inputln" _).bind fun _ behind advances _ => ?_
  have insideBehind := subset_of_advances advances inside
  refine .acceptUnless (fun opened onward => ?_) fun _ =>
    .repaired (abandon_repairs _ _) fun _ _ => .pure trivial trivial
  have insideOpened := subset_of_advances onward insideBehind
  refine (identifier?_gives opened).bind fun target? closing _ isName => ?_
  cases target? with
  | none => exact .repaired (abandon_repairs _ _) fun _ _ => .pure trivial trivial
  | some target =>
      have meets : (loose source).name target := name_meets insideOpened (isName target rfl) _ rfl
      refine (demand_gives (abandon_repairs _ _) ")" closing).bind fun _ after _ _ => ?_
      refine .pure meets ?_
      rintro closes ⟨names, _⟩ opens keyword seen
      exact ⟨.next (keyword seen) (.next opens (.next (names target rfl) (.last closes))), meets⟩

theorem leave_obeys (before : Cursor) :
    Obeys source (fun standard => Statement.Meets standard) leave before
      (before.sees "break" = true) (.sequence [word "break", word ";"]) := by
  refine .look _ rfl ?_
  refine (keyword_reads "break" before).bind fun _ behind _ _ => ?_
  refine (terminate_gives .breakEnd behind).bind fun _ after _ _ => .pure trivial ?_
  intro ended keyword seen
  exact ⟨.next (keyword seen) (.last ended), trivial⟩

theorem returned_obeys (before : Cursor) (inside : before.rest ⊆ source) :
    Obeys source (fun standard => Returned.Meets standard) returned before True
      (.optional (.category .expression)) := by
  refine .branch _ rfl (fun _ => .pure trivial fun _ => ⟨.absent _, trivial⟩) fun _ => ?_
  refine .branch _ rfl (fun _ => ?_) fun _ => ?_
  · refine (expression_obeys before inside).bind fun value after _ meets => .pure meets ?_
    intro given started
    obtain ⟨reads, strict⟩ := given started
    exact ⟨reads.present, strict⟩
  · exact .repaired (abandon_repairs _ _) fun _ _ => .pure trivial trivial

theorem giveBack_obeys (before : Cursor) (inside : before.rest ⊆ source) :
    Obeys source (fun standard => Statement.Meets standard) giveBack before
      (before.sees "return" = true) (.category .giveBack) := by
  refine Obeys.category (.look _ rfl ?_)
  refine (keyword_reads "return" _).bind fun _ behind advances _ => ?_
  have insideBehind := subset_of_advances advances inside
  refine (returned_obeys behind insideBehind).bind fun value ending _ meets => ?_
  refine (terminate_gives .returnEnd ending).bind fun _ after _ _ => .pure meets ?_
  intro ended given keyword seen
  obtain ⟨reads, strict⟩ := given trivial
  exact ⟨.next (keyword seen) (.next reads (.last ended)), strict⟩

/-! ## Control constructs -/

/-- A repair that ends with reading a symbol, if it is there. -/
theorem abandon_accept_repairs (complaint : Complaint) (stop : Option Token → Bool)
    (symbol : String) :
    Repairs (do abandon complaint stop; let _ ← accept symbol) := by
  refine (abandon_repairs complaint stop).bind fun middle => ?_
  exact (accept_gives symbol middle).bind fun _ _ _ _ => .pure trivial fun _ => trivial

theorem condition_obeys (form : ConditionForm) (before : Cursor) (inside : before.rest ⊆ source) :
    Obeys source (fun standard => Foreseen.Meets standard) (condition form) before True
      parenthesized := by
  refine (demand_gives (complain_repairs _) "(" before).bind fun _ opened advances _ => ?_
  have insideOpened := subset_of_advances advances inside
  refine (demandForeseen_gives (abandon_repairs _ _) opened insideOpened).bind
    fun value closing _ meets => ?_
  refine (demand_gives (abandon_accept_repairs _ _ _) ")" closing).bind fun _ after _ _ => ?_
  refine .pure meets ?_
  rintro closes ⟨reads, strict⟩ opens _
  exact ⟨.next opens (.next reads (.last closes)), strict⟩

section

variable {size : Nat} {block : Reading Statement}

/-- The reader of blocks obeys the grammar on fewer than `size` tokens. -/
def BlocksBelow (source : List Token) (size : Nat) (block : Reading Statement) : Prop :=
  ∀ before : Cursor, before.rest ⊆ source →
    Obeys source (fun standard => Statement.Meets standard) block before
      (before.rest.length < size) (.category .block)

/-- What is read behind a keyword is shorter. -/
theorem Obeys.keyword {part : TreeStandard → α → Prop} {rest : Reading α} {parts : List Phrase}
    (symbol : String) (inside : before.rest ⊆ source)
    (obeys : ∀ behind : Cursor, behind.rest ⊆ source →
      Obeys source part rest behind (behind.rest.length < size) (.sequence parts)) :
    Obeys source part (do keyword symbol; rest) before
      (before.sees symbol = true ∧ before.rest.length < size + 1)
      (.sequence (word symbol :: parts)) := by
  refine (keyword_reads symbol before).bind fun _ behind advances _ => ?_
  refine Gives.imp (obeys behind (subset_of_advances advances inside)) (fun _ => id) ?_
  rintro result after _ _ given keyword ⟨seen, small⟩
  have keyword := keyword seen
  have shorter := keyword.word_length_lt
  obtain ⟨reads, strict⟩ := given (by omega)
  exact ⟨.next keyword reads, strict⟩

theorem whileLoop_obeys (blocks : BlocksBelow source size block) (before : Cursor)
    (inside : before.rest ⊆ source) :
    Obeys source (fun standard => Statement.Meets standard) (whileLoop block) before
      (before.sees "while" = true ∧ before.rest.length < size + 1) (.category .whileLoop) := by
  refine Obeys.category (.keyword "while" inside fun behind insideBehind => ?_)
  refine (condition_obeys _ behind insideBehind).bind fun value front onward valueMeets => ?_
  have insideFront := subset_of_advances onward insideBehind
  refine (blocks front insideFront).bind fun body after _ meets => .pure ⟨valueMeets, meets⟩ ?_
  intro given condition small
  obtain ⟨conditionReads, conditionStrict⟩ := condition trivial
  obtain ⟨reads, strict⟩ := given (Nat.lt_of_le_of_lt onward.length_le small)
  exact ⟨.next conditionReads (.last reads), conditionStrict, strict⟩

theorem choice_obeys (blocks : BlocksBelow source size block) (before : Cursor)
    (inside : before.rest ⊆ source) :
    Obeys source (fun standard => Statement.Meets standard) (choice block) before
      (before.sees "if" = true ∧ before.rest.length < size + 1) (.category .choice) := by
  refine Obeys.category (.keyword "if" inside fun behind insideBehind => ?_)
  refine (condition_obeys _ behind insideBehind).bind fun value front onward valueMeets => ?_
  have insideFront := subset_of_advances onward insideBehind
  refine (blocks front insideFront).bind fun yes rear passed yesMeets => ?_
  have insideRear := subset_of_advances passed insideFront
  have frontLength := onward.length_le
  have rearLength := passed.length_le
  refine .acceptBranch (fun other further => ?_) fun _ => ?_
  · have insideOther := subset_of_advances further insideRear
    have otherLength := further.length_le
    refine (blocks other insideOther).bind fun no after _ noMeets =>
      .pure ⟨valueMeets, yesMeets, noMeets⟩ ?_
    intro noGiven otherwise yesGiven condition small
    obtain ⟨conditionReads, conditionStrict⟩ := condition trivial
    obtain ⟨yesReads, yesStrict⟩ := yesGiven (by omega)
    obtain ⟨noReads, noStrict⟩ := noGiven (by omega)
    refine ⟨?_, conditionStrict, yesStrict, noStrict⟩
    refine .next conditionReads (.next yesReads (.last (.present ?_)))
    exact .next otherwise (.last (noReads.choice (by simp) rfl))
  · refine .pure ⟨valueMeets, yesMeets⟩ ?_
    intro yesGiven condition small
    obtain ⟨conditionReads, conditionStrict⟩ := condition trivial
    obtain ⟨yesReads, yesStrict⟩ := yesGiven (by omega)
    refine ⟨?_, conditionStrict, yesStrict⟩
    exact .next conditionReads (.next yesReads (.last (.absent _)))

theorem repeatKeyword_gives (before : Cursor) :
    Gives repeatKeyword before (fun _ => True) fun able after =>
      able = true ∧ before.Reads (word "while") after := by
  refine .acceptBranch (fun middle _ => .pure trivial fun read => ⟨rfl, read⟩) fun _ => ?_
  exact .repaired (abandon_repairs _ _) fun middle _ => ⟨.refl _, trivial, fun _ => trivial⟩

theorem doWhile_obeys (blocks : BlocksBelow source size block) (before : Cursor)
    (inside : before.rest ⊆ source) :
    Obeys source (fun standard => Statement.Meets standard) (doWhile block) before
      (before.sees "do" = true ∧ before.rest.length < size + 1) (.category .doWhile) := by
  refine Obeys.category (.keyword "do" inside fun behind insideBehind => ?_)
  refine (blocks behind insideBehind).bind fun body front onward meets => ?_
  have insideFront := subset_of_advances onward insideBehind
  refine (repeatKeyword_gives front).bind fun able opened further _ => ?_
  have insideOpened := subset_of_advances further insideFront
  cases able with
  | false =>
      refine .pure ⟨trivial, meets⟩ ?_
      rintro ⟨able, _⟩
      contradiction
  | true =>
      refine (condition_obeys _ opened insideOpened).bind fun value ending _ valueMeets => ?_
      refine (terminate_gives .doWhileEnd ending).bind fun _ after _ _ => ?_
      refine .pure ⟨meets, valueMeets⟩ ?_
      rintro ended condition ⟨_, again⟩ given small
      obtain ⟨conditionReads, conditionStrict⟩ := condition trivial
      obtain ⟨reads, strict⟩ := given small
      refine ⟨?_, strict, conditionStrict⟩
      exact .next reads (.next again (.next conditionReads (.last ended)))

theorem headerSeparator_gives (complaint : Complaint) (before : Cursor) :
    Gives (headerSeparator complaint) before (fun _ => True) fun _ after =>
      before.Reads (word ";") after :=
  demand_gives (abandon_accept_repairs _ _ _) ";" before

theorem closeHeader_gives (complaint : Complaint) (before : Cursor) :
    Gives (closeHeader complaint) before (fun _ => True) fun _ after =>
      before.Reads (word ")") after :=
  demand_gives (abandon_accept_repairs _ _ _) ")" before

theorem loopStart_obeys (before : Cursor) (inside : before.rest ⊆ source) :
    Obeys source (fun standard => LoopStart.Meets standard) loopStart before True
      (.optional (.choice [.category .variable, .category .assignment])) := by
  refine .branch (before.seesStart .type) rfl (fun seen => ?_) fun _ => ?_
  · refine (declaration_obeys before inside).bind fun declaration? after _ meets => .pure ?_ ?_
    · cases declaration? with
      | none => trivial
      | some declaration => exact meets
    · intro given _
      obtain ⟨reads, strict⟩ := given seen
      obtain ⟨declaration, rfl, strict⟩ := strict.exists_some id
      exact ⟨.present (reads.choice (by simp) rfl), strict⟩
  · refine .branch before.seesIdentifier rfl (fun seen => ?_) fun _ => ?_
    · refine (assignment_obeys before inside).bind fun assignment? after _ meets => .pure ?_ ?_
      · cases assignment? with
        | none => trivial
        | some assignment => exact meets
      · intro given _
        obtain ⟨reads, strict⟩ := given seen
        obtain ⟨assignment, rfl, strict⟩ := strict.exists_some id
        exact ⟨.present (reads.choice (by simp) rfl), strict⟩
    · exact .pure trivial fun _ => ⟨.absent _, trivial⟩

theorem loopStep_obeys (before : Cursor) (inside : before.rest ⊆ source) :
    Obeys source (fun standard => OptionMeets (Assignment.Meets standard)) loopStep before True
      (.optional (.category .assignment)) := by
  refine .branch before.seesIdentifier rfl (fun seen => ?_) fun _ => ?_
  · refine Gives.imp (assignment_obeys before inside) ?_ ?_
    · intro assignment? meets
      cases assignment? with
      | none => trivial
      | some assignment => exact meets
    · intro assignment? after _ _ given _
      obtain ⟨reads, strict⟩ := given seen
      obtain ⟨assignment, rfl, strict⟩ := strict.exists_some id
      exact ⟨reads.present, strict⟩
  · exact .pure trivial fun _ => ⟨.absent _, trivial⟩

/-- What the header of a loop says: what is done first, the condition and the step. -/
abbrev LoopHeader : Type := LoopStart × Option Foreseen × Option Assignment

/-- Whether the parts of a header meet a standard. -/
def LoopHeader.Meets (standard : TreeStandard) (header : LoopHeader) : Prop :=
  header.1.Meets standard ∧ OptionMeets (Foreseen.Meets standard) header.2.1 ∧
    OptionMeets (Assignment.Meets standard) header.2.2

/-- Read the end of a loop header. -/
def closedHeader (start : LoopStart) (condition? : Option Foreseen) (step? : Option Assignment) :
    Reading LoopHeader := do
  closeHeader .forClose
  return (start, condition?, step?)

/-- Read a loop header from behind its condition on. -/
def steppedHeader (start : LoopStart) (condition? : Option Foreseen) : Reading LoopHeader := do
  headerSeparator .forConditionEnd
  let step? ← loopStep
  closedHeader start condition? step?

/-- Read the header of a loop. -/
def loopHeader : Reading LoopHeader := do
  demand "(" (complain .forOpen)
  let start ← loopStart
  headerSeparator .forInitEnd
  let condition? ← unlessSees ";" foreseen
  steppedHeader start condition?

/-- Behind its keyword a loop has a header and a block. -/
theorem forLoop_eq (block : Reading Statement) :
    forLoop block = rule .forLoop (do
      keyword "for"
      let (start, condition?, step?) ← loopHeader
      return .forLoop start condition? step? (← block)) := by
  simp only [forLoop, loopHeader, steppedHeader, closedHeader, bind_assoc, pure_bind]

/-- The parts of a loop header between its parentheses. -/
def headerParts : List Phrase :=
  [.optional (.choice [.category .variable, .category .assignment]), word ";",
    .optional (.category .expression), word ";", .optional (.category .assignment)]

theorem loopHeader_obeys (before : Cursor) (inside : before.rest ⊆ source) :
    Obeys source LoopHeader.Meets loopHeader before True
      (.sequence (word "(" :: (headerParts ++ [word ")"]))) := by
  refine (demand_gives (complain_repairs _) "(" before).bind fun _ opened opening _ => ?_
  have insideOpened := subset_of_advances opening inside
  refine (loopStart_obeys opened insideOpened).bind fun start started starting startMeets => ?_
  refine (headerSeparator_gives _ started).bind fun _ asked asking _ => ?_
  have insideAsked := subset_of_advances (starting.trans asking) insideOpened
  refine (unlessSees_obeys ";" (foreseen_obeys asked insideAsked)).bind
    fun condition? told telling conditionMeets => ?_
  refine (headerSeparator_gives _ told).bind fun _ going leading _ => ?_
  have insideGoing := subset_of_advances (telling.trans leading) insideAsked
  refine (loopStep_obeys going insideGoing).bind fun step? gone _ stepMeets => ?_
  refine (closeHeader_gives _ gone).bind fun _ closed _ _ =>
    .pure ⟨startMeets, conditionMeets, stepMeets⟩ ?_
  intro closes stepGiven second conditionGiven first startGiven opens _
  obtain ⟨startReads, startStrict⟩ := startGiven trivial
  obtain ⟨conditionReads, conditionStrict⟩ := conditionGiven trivial
  obtain ⟨stepReads, stepStrict⟩ := stepGiven trivial
  refine ⟨?_, startStrict, conditionStrict, stepStrict⟩
  refine .next opens (.next startReads (.next first (.next conditionReads (.next second ?_))))
  exact .next stepReads (.last closes)

theorem forLoop_obeys (blocks : BlocksBelow source size block) (before : Cursor)
    (inside : before.rest ⊆ source) :
    Obeys source (fun standard => Statement.Meets standard) (forLoop block) before
      (before.sees "for" = true ∧ before.rest.length < size + 1) (.category .forLoop) := by
  rw [forLoop_eq]
  refine Obeys.category (.keyword "for" inside fun behind insideBehind => ?_)
  refine (loopHeader_obeys behind insideBehind).bind fun header closed closing headerMeets => ?_
  have insideClosed := subset_of_advances closing insideBehind
  refine (blocks closed insideClosed).bind fun body after _ meets =>
    .pure ⟨headerMeets.1, headerMeets.2.1, headerMeets.2.2, meets⟩ ?_
  intro bodyGiven headerGiven small
  obtain ⟨headerReads, headerStrict⟩ := headerGiven trivial
  obtain ⟨reads, strict⟩ := bodyGiven (Nat.lt_of_le_of_lt closing.length_le small)
  refine ⟨?_, headerStrict.1, headerStrict.2.1, headerStrict.2.2, strict⟩
  exact headerReads.snoc reads

theorem caseValue_obeys (before : Cursor) (inside : before.rest ⊆ source) :
    Obeys source (GapMeets fun standard => Foreseen.Meets standard) caseValue before True
      (.category .expression) := by
  refine .branch _ rfl (fun _ => ?_) fun _ => ?_
  · refine (foreseen_obeys before inside).bind fun value after _ meets => .pure meets ?_
    exact fun given => given
  · exact .repaired (abandon_repairs _ _) fun _ _ => .pure trivial trivial

/-- The reader of lists of statements obeys the grammar on fewer than `size` tokens. -/
def BodiesBelow (source : List Token) (size : Nat) (body : Reading (List Statement)) : Prop :=
  ∀ before : Cursor, before.rest ⊆ source →
    Obeys source (fun standard => Statement.AllMeet standard) body before
      (before.rest.length < size) (.category .body)

variable {body : Reading (List Statement)}

theorem clauseFrom_gives (bodies : BodiesBelow source size body) (before : Cursor)
    (inside : before.rest ⊆ source) {test : Option Foreseen}
    (loosely : OptionMeets (Foreseen.Meets (loose source)) test) :
    Gives (clauseFrom body test) before (Clause.Meets (loose source)) fun found after =>
      OptionMeets (Foreseen.Meets (strict source)) test → before.rest.length < size →
        before.Reads (.sequence [word ":", .category .body]) after ∧
          found.Meets (strict source) := by
  refine (demand_gives (complain_repairs _) ":" before).bind fun _ behind advances _ => ?_
  have insideBehind := subset_of_advances advances inside
  refine (bodies behind insideBehind).bind fun statements after _ meets =>
    .pure ⟨loosely, meets⟩ ?_
  intro given colon tested small
  obtain ⟨reads, strict⟩ := given (Nat.lt_of_le_of_lt advances.length_le small)
  exact ⟨.next colon (.last reads), tested, strict⟩

/-- What a round of the loop over clauses gives. -/
def GivesClause (source : List Token) (size : Nat) (reader : Reading (Option (Option Clause)))
    (before : Cursor) : Prop :=
  ObeysRound source (GapMeets fun standard => Clause.Meets standard) reader before
    (before.rest.length < size + 1) clause

/-- A clause whose keyword stands at the cursor. -/
theorem givesClause_of_sees (bodies : BodiesBelow source size body)
    {value : Reading (Option Foreseen)} {symbol : String} (seen : before.sees symbol = true)
    (inside : before.rest ⊆ source)
    (head : ∀ behind, before.Reads (word symbol) behind → behind.rest ⊆ source →
      Gives value behind (OptionMeets (Foreseen.Meets (loose source))) fun test colon =>
        before.Reads clauseHead colon ∧ OptionMeets (Foreseen.Meets (strict source)) test) :
    GivesClause source size (do
      skip
      log (.symbol symbol)
      let test ← value
      return some (some (← clauseFrom body test))) before := by
  obtain ⟨token, tail, next, spelled⟩ := exists_of_sees seen
  refine .consume next (by rw [value_of_spells spelled]; rfl) fun behind advances consumed => ?_
  have insideBehind := subset_of_advances advances inside
  have keyword := reads_word consumed spelled
  refine (head behind keyword insideBehind).bind fun test colon onward loosely => ?_
  have insideColon := subset_of_advances onward insideBehind
  refine (clauseFrom_gives bodies colon insideColon loosely).bind fun found after moved meets =>
    .pure ?_ ?_
  · rintro _ ⟨⟩
    exact meets
  · rintro given ⟨headReads, tested⟩
    have behindLength := keyword.word_length_lt
    have colonLength := onward.length_le
    have afterLength := moved.length_le
    refine ⟨by simp, ?_⟩
    rintro _ ⟨⟩
    refine ⟨by omega, fun small => ?_⟩
    obtain ⟨reads, strict⟩ := given tested (by omega)
    exact ⟨.next headReads reads, strict⟩

theorem clause?_gives (bodies : BodiesBelow source size body) (before : Cursor)
    (inside : before.rest ⊆ source) : GivesClause source size (clause? body) before := by
  refine .look (before.sees "case") rfl (.look (before.sees "default") rfl ?_)
  cases isCase : before.sees "case" with
  | true =>
      refine givesClause_of_sees bodies isCase inside fun behind keyword insideBehind => ?_
      refine Gives.imp (caseValue_obeys behind insideBehind) ?_ ?_
      · intro test? meets
        cases test? with
        | none => trivial
        | some test => exact meets
      · intro test? colon _ _ given
        obtain ⟨reads, strict⟩ := given trivial
        refine ⟨Cursor.Reads.choice (.next keyword (.last reads)) (by simp) rfl, ?_⟩
        cases test? with
        | none => trivial
        | some test => exact strict
  | false =>
      refine .ite (fun isDefault => ?_) fun _ => ?_
      · refine givesClause_of_sees bodies isDefault inside fun behind keyword _ => ?_
        exact .pure trivial ⟨keyword.choice (by simp) rfl, trivial⟩
      · refine .look _ rfl (.look _ rfl (.ite (fun _ => .pure (by simp) ⟨by simp, by simp⟩) ?_))
        intro _
        refine .repaired (abandon_repairs _ _) fun _ _ => .pure ?_ trivial
        rintro _ ⟨⟩
        trivial

/-- The clauses among the items meet what is asked of each item. -/
theorem allMeet_filterMap {standard : TreeStandard} {found : List (Option Clause)}
    (meets : ∀ clause? ∈ found, GapMeets (fun standard => Clause.Meets standard) standard clause?) :
    Clause.AllMeet standard (found.filterMap id) := by
  refine Clause.allMeet_iff.mpr fun clause member => ?_
  obtain ⟨next, listed, same⟩ := List.mem_filterMap.mp member
  cases same
  exact meets _ listed

theorem clauses_obeys (bodies : BodiesBelow source size body) (before : Cursor)
    (inside : before.rest ⊆ source) :
    Obeys source (fun standard found => Clause.AllMeet standard (found.filterMap id))
      (collect (clause? body)) before (before.rest.length < size + 1) (.many clause) :=
  (Obeys.collect fun cursor advances =>
    clause?_gives bodies cursor (subset_of_advances advances inside)).imp
      fun _ _ => allMeet_filterMap

theorem countSwitch_gives {next : Nat → Reading α} {always : α → Prop}
    {clean : α → Cursor → Prop}
    (given : ∀ number, Gives (next number) { before with switches := number } always clean) :
    Gives (countSwitch >>= next) before always clean := by
  have rest := given (before.switches + 1)
  have counted : before.switches ≤ _ := Nat.le_of_succ_le rest.advances.switches
  exact ⟨⟨rest.advances.rest, rest.advances.errors, counted⟩, rest.always, rest.clean⟩

theorem switch_obeys (bodies : BodiesBelow source size body) (before : Cursor)
    (inside : before.rest ⊆ source) :
    Obeys source (fun standard => Statement.Meets standard) (switch body) before
      (before.sees "switch" = true ∧ before.rest.length < size + 1) (.category .switch) := by
  refine Obeys.category (.look _ rfl (Obeys.keyword "switch" inside fun behind insideBehind => ?_))
  refine (demand_gives (complain_repairs _) "(" behind).bind fun _ opened opening _ => ?_
  have insideOpened := subset_of_advances opening insideBehind
  refine (demandForeseen_gives (complain_repairs _) opened insideOpened).bind
    fun value closing onward valueMeets => ?_
  refine (closeHeader_gives _ closing).bind fun _ closed further _ => ?_
  have insideClosed := subset_of_advances (onward.trans further) insideOpened
  refine countSwitch_gives fun number => ?_
  refine .acceptUnless (fun entered entering => ?_) fun _ =>
    .repaired (abandon_repairs _ _) fun _ _ => .pure ⟨trivial, valueMeets⟩ trivial
  have insideEntered := subset_of_advances entering insideClosed
  refine (clauses_obeys bodies entered insideEntered).bind fun found ending _ meets => ?_
  refine (demand_gives (complain_repairs _) "\x7d" ending).bind fun _ after _ _ => ?_
  refine .pure ⟨valueMeets, meets⟩ ?_
  rintro closesBrace given opensBrace closes ⟨valueReads, valueStrict⟩ opens small
  have whole := opening.trans (onward.trans further)
  have closedLength := whole.length_le
  have opensBrace : closed.Reads (word "\x7b") entered := opensBrace.ofSame rfl rfl
  have enteredLength := opensBrace.word_length_lt
  obtain ⟨reads, strict⟩ := given (by omega)
  refine ⟨?_, valueStrict, strict⟩
  have condition : behind.Reads parenthesized closed := .next opens (.next valueReads (.last closes))
  exact .next condition (.next opensBrace (.next reads (.last closesBrace)))

/-! ## Lists of statements -/

/-- The reader of statements obeys the grammar on fewer than `size` tokens. -/
def StatementsBelow (source : List Token) (size : Nat) (statement : Reading Statement) : Prop :=
  ∀ before : Cursor, before.rest ⊆ source →
    Obeys source (fun standard => Statement.Meets standard) statement before
      (before.rest.length < size) (.category .statement)

variable {statement : Reading Statement}

theorem skipUnlessBelow_gives (count : Nat) (before : Cursor) :
    Gives (skipUnlessBelow count) before (fun _ => True) fun _ after =>
      (before.rest.length = count → after.rest = before.rest.tail) ∧
        (before.rest.length ≠ count → after = before) := by
  refine .look before rfl (.ite (fun same => ?_) fun other => ?_)
  · exact ⟨⟨List.tail_suffix _, List.prefix_rfl, Nat.le_refl _⟩, trivial,
      fun _ => ⟨fun _ => rfl, absurd same⟩⟩
  · exact .pure trivial ⟨fun same => absurd same other, fun _ => rfl⟩

theorem nextStatement_obeys (statements : StatementsBelow source size statement)
    (before : Cursor) (inside : before.rest ⊆ source) :
    ObeysRound source (fun standard => Statement.Meets standard) (nextStatement statement) before
      (before.rest.length < size) (.category .statement) := by
  refine .look _ rfl (.look _ rfl (.ite (fun _ => .pure (by simp) ⟨by simp, by simp⟩) ?_))
  intro goesOn
  have present : before.rest ≠ [] := by
    rintro empty
    simp [empty] at goesOn
  have positive := List.length_pos_of_ne_nil present
  refine .look before rfl ?_
  refine (statements before inside).bind fun result behind advances meets => ?_
  refine (skipUnlessBelow_gives before.rest.length behind).bind fun _ after _ _ => .pure ?_ ?_
  · rintro _ ⟨⟩
    exact meets
  · rintro ⟨skipped, kept⟩ given
    refine ⟨by simp, ?_⟩
    rintro _ ⟨⟩
    have shorter := advances.length_le
    by_cases same : behind.rest.length = before.rest.length
    · refine ⟨?_, fun small => ?_⟩
      · rw [skipped same, List.length_tail]
        omega
      · obtain ⟨reads, _⟩ := given small
        have less := reads.length_lt (by simp [isSolid])
        omega
    · rw [kept same]
      exact ⟨by omega, given⟩

theorem bodyOf_bodiesBelow (statements : StatementsBelow source size statement) :
    BodiesBelow source size (bodyOf statement) := by
  intro before inside
  refine .category (.imp (.collect fun cursor advances => ?_) fun _ _ => Statement.allMeet_iff.mpr)
  exact nextStatement_obeys statements cursor (subset_of_advances advances inside)

theorem blockOf_gives (statements : StatementsBelow source size statement) (before : Cursor)
    (inside : before.rest ⊆ source) :
    Gives (blockOf statement) before (fun result => result.Meets (loose source))
      fun result after =>
        (before.sees "\x7b" = true → before.rest.length < size + 1 →
          before.Reads braced after ∧ result.Meets (strict source)) ∧
        (before.sees "\x7b" = false → before.rest.length < size →
          before.Reads (.category .statement) after ∧ result.Meets (strict source)) := by
  refine Gives.rule (fun result after =>
    (before.sees "\x7b" = true → before.rest.length < size + 1 →
      (before.enter .block).Reads braced after ∧ result.Meets (strict source)) ∧
    (before.sees "\x7b" = false → before.rest.length < size →
      (before.enter .block).Reads (.category .statement) after ∧
        result.Meets (strict source))) ?_ ?_
  · refine .expectUnless (fun front advances _ => ?_) fun _ _ => .pure trivial trivial
    have insideFront := subset_of_advances advances inside
    refine .acceptBranch (fun opened onward => ?_) fun unseen => ?_
    · have insideOpened := subset_of_advances onward insideFront
      refine (bodyOf_bodiesBelow statements opened insideOpened).bind
        fun body closing _ meets => ?_
      refine (demand_gives (complain_repairs _) "\x7d" closing).bind fun _ after _ _ =>
        .pure meets ?_
      rintro closes given opens rfl
      have shorter : opened.rest.length < before.rest.length := opens.word_length_lt
      refine ⟨fun _ small => ?_, fun unseen => ?_⟩
      · obtain ⟨reads, strict⟩ := given (by omega)
        exact ⟨.next opens (.next reads (.last closes)), strict⟩
      · obtain ⟨token, rest, spelled⟩ := opens.terminal_rest
        have rest : before.rest = token :: opened.rest := rest
        have spelled : token.spells "\x7b" = true := spelled
        simp [Cursor.sees, Cursor.next?, rest, spelled] at unseen
    · refine Gives.imp (statements front insideFront) (fun _ => id) ?_
      rintro result after _ _ given rfl
      have unseen : before.sees "\x7b" = false := unseen
      exact ⟨fun seen => by simp [unseen] at seen, fun _ => given⟩
  · rintro result after ⟨braces, single⟩
    refine ⟨fun seen small => ?_, fun unseen small => ?_⟩
    · obtain ⟨reads, strict⟩ := braces seen small
      exact ⟨reads.ofEnter, strict⟩
    · obtain ⟨reads, strict⟩ := single unseen small
      exact ⟨reads.ofEnter, strict⟩

theorem blockOf_blocksBelow (statements : StatementsBelow source size statement) :
    BlocksBelow source size (blockOf statement) := by
  intro before inside
  refine (blockOf_gives statements before inside).imp (fun _ => id) ?_
  rintro result after _ _ ⟨braces, single⟩ small
  cases seen : before.sees "\x7b" with
  | true =>
      obtain ⟨reads, strict⟩ := braces seen (by omega)
      exact ⟨(reads.choice (by simp) rfl).category, strict⟩
  | false =>
      obtain ⟨reads, strict⟩ := single seen small
      exact ⟨(reads.choice (by simp) rfl).category, strict⟩

theorem evaluation_obeys (before : Cursor) (inside : before.rest ⊆ source) :
    Obeys source (fun standard => Statement.Meets standard) evaluation before True
      (.sequence [.category .expression, word ";"]) :=
  terminated_obeys .expressionEnd
    ((expression_obeys before inside).map fun _ _ meets => meets)

theorem startsCall_rest (before : Cursor) :
    startsCall before.rest = (before.seesIdentifier && before.seesSecond "(") := by
  unfold Cursor.seesIdentifier Cursor.seesSecond Cursor.next?
  match before.rest with
  | [] | [_] => simp [startsCall]
  | _ :: _ :: _ => rfl

/-- An expression is read as a statement where no call is next. -/
theorem evaluation_form (before : Cursor) (inside : before.rest ⊆ source)
    (silent : (before.seesIdentifier && before.seesSecond "(") = false) :
    Obeys source (fun standard => Statement.Meets standard) evaluation before True
      (.category .statement) := by
  refine Obeys.production ((evaluation_obeys before inside).chosen (by simp [statementForms]) ?_)
  intro tokens rest split
  have silent : startsCall (tokens ++ rest) = false := by rw [← split, startsCall_rest, silent]
  simp [isChosen, startsCall_eq_false silent]

/-- A statement is read as one of its forms. -/
theorem Obeys.form {reader : Reading Statement} {start : Prop} {phrase : Phrase}
    (obeys : Obeys source (fun standard => Statement.Meets standard) reader before start phrase)
    (listed : phrase ∈ statementForms) (free : phrase.isFree = true) :
    Obeys source (fun standard => Statement.Meets standard) reader before start
      (.category .statement) :=
  Obeys.production (obeys.choice listed free)

theorem terminated_form {reader : Reading Statement} {start : Prop} (complaint : Complaint)
    (phrase : Phrase) (listed : .sequence [phrase, word ";"] ∈ statementForms)
    (free : (Phrase.sequence [phrase, word ";"]).isFree = true)
    (obeys : Obeys source (fun standard => Statement.Meets standard) reader before start phrase) :
    Obeys source (fun standard => Statement.Meets standard) (terminated complaint reader) before
      start (.category .statement) :=
  (terminated_obeys complaint obeys).form listed free

theorem named_obeys (before : Cursor) (inside : before.rest ⊆ source) :
    Obeys source (fun standard => Statement.Meets standard) named before
      (before.seesIdentifier = true) (.category .statement) := by
  refine .branch (before.seesSecond "(") rfl (fun second => ?_) fun other => ?_
  · refine terminated_form .callEnd (.category .call) (by simp [statementForms]) rfl ?_
    have right := expression_right source before.rest.length
    refine (call_gives right before inside).bind fun call? after _ loosely => ?_
    cases call? with
    | none =>
        refine .pure trivial fun called seen => ?_
        obtain ⟨_, _, impossible, _⟩ := called (Nat.lt_succ_self _) seen second
        contradiction
    | some found =>
        refine .pure (loosely found rfl) fun called seen => ?_
        obtain ⟨callee, values, same, reads, meets, _⟩ := called (Nat.lt_succ_self _) seen second
        cases same
        exact ⟨reads, meets⟩
  · refine .look before rfl (.ite (fun _ => ?_) fun _ => ?_)
    · refine terminated_form .assignmentEnd (.category .assignment) (by simp [statementForms]) rfl ?_
      refine (assignment_obeys before inside).bind fun assignment? after _ meets => .pure ?_ ?_
      · cases assignment? <;> exact meets
      · intro given seen
        obtain ⟨reads, strict⟩ := given seen
        obtain ⟨assignment, rfl, strict⟩ := strict.exists_some id
        exact ⟨reads, strict⟩
    · exact (evaluation_form before inside (by rw [other, Bool.and_false])).weaken fun _ => trivial

theorem stray_obeys (before : Cursor) {start : Prop} {phrase : Phrase} :
    Obeys source (fun standard => Statement.Meets standard) stray before start phrase := by
  refine .repaired (complain_repairs _) fun middle _ => ?_
  exact (resume_gives _ middle).bind fun _ _ _ _ => .pure trivial fun _ => trivial

/-! ## The reader of statements -/

/-- The first reader of a table whose terminals accept the next token. -/
def dispatch : List (List Terminal × Reading α) → Reading α → Reading α
  | [], otherwise => otherwise
  | (start, reader) :: others, otherwise => do
      if ← seesAny start then reader else dispatch others otherwise

/-- The readers of statements, with the terminals at which they are tried. -/
def statementTable (statement : Reading Statement) : List (List Terminal × Reading Statement) :=
  [(Nonterminal.type.first, terminated .variableEnd do
      return ((← declaration).map Statement.declare).getD .skipped),
    ([.identifier], named),
    (Nonterminal.print.first, terminated .printEnd print),
    (words ["inputln"], terminated .readEnd read),
    (words ["break"], leave),
    (words ["return"], giveBack),
    (words ["while"], whileLoop (blockOf statement)),
    (words ["if"], choice (blockOf statement)),
    (words ["do"], doWhile (blockOf statement)),
    (words ["for"], forLoop (blockOf statement)),
    (words ["switch"], switch (bodyOf statement)),
    (words ["\x7b"], blockOf statement),
    (Nonterminal.expression.first, evaluation)]

/-- The terminals at which the readers of statements are tried. -/
def statementStarts : List (List Terminal) :=
  [Nonterminal.type.first, [.identifier], Nonterminal.print.first, words ["inputln"],
    words ["break"], words ["return"], words ["while"], words ["if"], words ["do"], words ["for"],
    words ["switch"], words ["\x7b"], Nonterminal.expression.first]

theorem statementTable_starts (statement : Reading Statement) :
    (statementTable statement).map Prod.fst = statementStarts :=
  rfl

theorem statementOf_eq (statement : Reading Statement) :
    statementOf statement = dispatch (statementTable statement) stray := by
  simp only [statementOf, statementTable, dispatch, seesIdentifier_eq_seesAny, sees_eq_seesAny]
  rfl

/-- One more statement around the nested ones. -/
theorem statementOf_statementsBelow (statements : StatementsBelow source size statement) :
    StatementsBelow source (size + 1) (statementOf statement) := by
  intro before inside
  have blocks := blockOf_blocksBelow statements
  refine .branch (before.seesStart .type) rfl (fun seen => ?_) fun _ => ?_
  · refine (terminated_form .variableEnd (.category .variable) (by simp [statementForms])
      rfl ?_).weaken fun _ => seen
    refine (declaration_obeys before inside).bind fun declaration? after _ meets => .pure ?_ ?_
    · cases declaration? <;> exact meets
    · intro given starts
      obtain ⟨reads, strict⟩ := given starts
      cases declaration? with
      | none => exact strict.elim
      | some declaration => exact ⟨reads, strict⟩
  refine .branch before.seesIdentifier rfl (fun seen => ?_) fun unnamed => ?_
  · exact (named_obeys before inside).weaken fun _ => seen
  refine .branch (before.seesStart .print) rfl (fun seen => ?_) fun _ => ?_
  · exact (terminated_form .printEnd (.category .print) (by simp [statementForms]) rfl
      (print_obeys before inside)).weaken fun _ => seen
  refine .branch (before.sees "inputln") rfl (fun seen => ?_) fun _ => ?_
  · exact (terminated_form .readEnd (.category .read) (by simp [statementForms]) rfl
      (read_obeys before inside)).weaken fun _ => seen
  refine .branch (before.sees "break") rfl (fun seen => ?_) fun _ => ?_
  · exact ((leave_obeys before).form (by simp [statementForms]) rfl).weaken fun _ => seen
  refine .branch (before.sees "return") rfl (fun seen => ?_) fun _ => ?_
  · exact ((giveBack_obeys before inside).form (by simp [statementForms]) rfl).weaken fun _ => seen
  refine .branch (before.sees "while") rfl (fun seen => ?_) fun _ => ?_
  · exact ((whileLoop_obeys blocks before inside).form (by simp [statementForms]) rfl).weaken
      fun small => ⟨seen, small⟩
  refine .branch (before.sees "if") rfl (fun seen => ?_) fun _ => ?_
  · exact ((choice_obeys blocks before inside).form (by simp [statementForms]) rfl).weaken
      fun small => ⟨seen, small⟩
  refine .branch (before.sees "do") rfl (fun seen => ?_) fun _ => ?_
  · exact ((doWhile_obeys blocks before inside).form (by simp [statementForms]) rfl).weaken
      fun small => ⟨seen, small⟩
  refine .branch (before.sees "for") rfl (fun seen => ?_) fun _ => ?_
  · exact ((forLoop_obeys blocks before inside).form (by simp [statementForms]) rfl).weaken
      fun small => ⟨seen, small⟩
  refine .branch (before.sees "switch") rfl (fun seen => ?_) fun _ => ?_
  · exact ((switch_obeys (bodyOf_bodiesBelow statements) before inside).form
      (by simp [statementForms]) rfl).weaken fun small => ⟨seen, small⟩
  refine .branch (before.sees "\x7b") rfl (fun seen => ?_) fun _ => ?_
  · have reads : Obeys source (fun standard => Statement.Meets standard) (blockOf statement)
        before (before.rest.length < size + 1) braced :=
      (blockOf_gives statements before inside).imp (fun _ => id)
        fun _ _ _ _ given => given.1 seen
    exact reads.form (by simp [statementForms]) rfl
  refine .branch _ rfl (fun _ => ?_) fun _ => stray_obeys before
  exact (evaluation_form before inside (by rw [unnamed, Bool.false_and])).weaken fun _ => trivial

end

theorem statementFor_statementsBelow (source : List Token) (depth : Nat) :
    StatementsBelow source depth (statementFor depth) := by
  induction depth with
  | zero =>
      exact fun before _ =>
        Gives.stuck true rfl (.pure trivial fun small => absurd small (Nat.not_lt_zero _))
  | succ depth ih => exact statementOf_statementsBelow ih

/-- A list of statements that stands at the cursor has been read. -/
theorem body_obeys (before : Cursor) (inside : before.rest ⊆ source) :
    Obeys source (fun standard => Statement.AllMeet standard) body before True
      (.category .body) := by
  refine .look before rfl ?_
  have statements := statementFor_statementsBelow source (before.rest.length + 1)
  exact (bodyOf_bodiesBelow statements before inside).weaken fun _ => Nat.lt_succ_self _

end StackLang.Reading
