import StackLang.Proofs.Fork.Parts

/-!
# Statements in lockstep

Two runs of the reader of statements stay in lockstep if the readers of the parts of a
statement do: from places that belong together they get to places that belong together.
Which places these are, and how the statements that are read are related, is left open.
-/

namespace StackLang.Reading

open Terminal (allApart)

variable {α : Type} {extent narrower : Extent}

/-- Related results are reached. -/
def Related (rel : α → α → Prop) (places : Place → Stance → Prop) (result answer : α) (one : Place)
    (other : Stance) : Prop :=
  rel result answer ∧ places one other

/-! ## Related trees -/

/-- Relations between statements, lists of statements, clauses and loop headers that
statements with related parts are in. -/
structure Congruence (rel : Statement → Statement → Prop)
    (all : List Statement → List Statement → Prop) (clause : Clause → Clause → Prop)
    (header : LoopHeader → LoopHeader → Prop) : Prop where
  refl : ∀ statement, rel statement statement
  clauseRefl : ∀ one, clause one one
  headerRefl : ∀ one, header one one
  nil : all [] []
  cons : ∀ {one other rest others}, rel one other → all rest others →
    all (one :: rest) (other :: others)
  block : ∀ {body otherBody}, all body otherBody → rel (.block body) (.block otherBody)
  whileLoop : ∀ condition {body otherBody}, rel body otherBody →
    rel (.whileLoop condition body) (.whileLoop condition otherBody)
  ifThen : ∀ condition {yes otherYes}, rel yes otherYes →
    rel (.ifThen condition yes) (.ifThen condition otherYes)
  ifElse : ∀ condition {yes otherYes no otherNo}, rel yes otherYes → rel no otherNo →
    rel (.ifElse condition yes no) (.ifElse condition otherYes otherNo)
  doWhile : ∀ condition? {body otherBody}, rel body otherBody →
    rel (.doWhile body condition?) (.doWhile otherBody condition?)
  forLoop : ∀ {one other body otherBody}, header one other → rel body otherBody →
    rel (.forLoop one.1 one.2.1 one.2.2 body) (.forLoop other.1 other.2.1 other.2.2 otherBody)
  clauseOf : ∀ test? {body otherBody}, all body otherBody →
    clause (.clause test? body) (.clause test? otherBody)
  switch : ∀ line number value {clauses others}, List.Forall₂ clause clauses others →
    rel (.switch line number value clauses) (.switch line number value others)

namespace Congruence

variable {rel : Statement → Statement → Prop} {all : List Statement → List Statement → Prop}
  {clause : Clause → Clause → Prop} {header : LoopHeader → LoopHeader → Prop}
  (congruence : Congruence rel all clause header)

include congruence

theorem allRefl (statements : List Statement) : all statements statements := by
  induction statements with
  | nil => exact congruence.nil
  | cons statement rest ih => exact congruence.cons (congruence.refl statement) ih

theorem optionRefl (clause? : Option Clause) : Option.Rel clause clause? clause? := by
  cases clause? with
  | none => exact .none
  | some one => exact .some (congruence.clauseRefl one)

theorem of_forall₂ {statements others : List Statement}
    (related : List.Forall₂ rel statements others) : all statements others := by
  induction related with
  | nil => exact congruence.nil
  | cons first _ ih => exact congruence.cons first ih

end Congruence

/-! ## Steps -/

/-- Behind the next token both runs are at places where `after` holds. -/
def Steps (start after : Place → Stance → Prop) : Prop :=
  ∀ place counterpart, start place counterpart → after place.tail counterpart.tail ∧
    place.tail.rest.length + 1 = place.rest.length ∧
      counterpart.tail.rest.length + 1 = counterpart.rest.length

namespace Steps

variable {start after : Place → Stance → Prop} (steps : Steps start after)

include steps

theorem skip_follows : Follows extent start skip skip (Same fun _ => extent.Past after) := by
  have run (cursor : Cursor) :
      (skip.run cursor).2.stance = ⟨cursor.place.tail, cursor.errors.size⟩ := rfl
  refine .move skip_moves run fun place counterpart starts small otherSmall => ?_
  obtain ⟨arrives, length, otherLength⟩ := steps _ _ starts
  exact ⟨arrives, length ▸ small, otherLength ▸ otherSmall⟩

theorem keyword_follows (symbol : String) :
    Follows extent start (keyword symbol) (keyword symbol) (Same fun _ => extent.Past after) :=
  steps.skip_follows.andThen fun _ => log_follows _

end Steps

/-! ## Lockstep -/

/-- Read what a switch selects by. -/
def selector : Reading Foreseen := do
  demand "(" (complain .switchOpen)
  let value ← demandForeseen (complain .switchValue)
  closeHeader .switchClose
  return value

/-- Behind its keyword a switch has a value in parentheses and its clauses. -/
theorem switch_eq (body : Reading (List Statement)) :
    switch body = rule .switch (do
      let line ← line
      keyword "switch"
      let value ← selector
      let number ← countSwitch
      if !(← accept "\x7b") then
        abandon .switchBrace Nonterminal.switch.endsBefore
        return .switchHead line number value
      let clauses ← collect (clause? body)
      demand "\x7d" (complain .switchEnd)
      return .switch line number value (clauses.filterMap id)) := by
  simp only [switch, selector, bind_assoc, pure_bind]

/-- The keywords of control constructs. -/
def controls : List String := ["while", "if", "do", "for", "switch"]

/-- What ends a list of statements. -/
def listEnds : List (List Terminal) :=
  [[.word "case"], [.word "default"], [.word "\x7d"], [.endOfInput]]

/-- The readers of the parts of a statement are in lockstep: in front of a statement the
places are `beside` one another, in front of a block they are `closed`, and they are `near`
one another behind everything that is read. -/
structure Lockstep (extent : Extent) (beside closed near : Place → Stance → Prop)
    (rel : Statement → Statement → Prop) (header : LoopHeader → LoopHeader → Prop) : Prop where
  leads : ∀ place counterpart, beside place counterpart → place.next? = counterpart.next?
  within : ∀ place counterpart, closed place counterpart → near place counterpart
  opens : Opening closed beside Nonterminal.block.first
  enters : ∀ symbol ∈ controls,
    Steps (fun place counterpart => beside place counterpart ∧ place.sees symbol = true) closed
  braces : Steps (fun place counterpart => beside place counterpart ∧ place.sees "\x7b" = true) near
  selects : ∀ symbol ∈ ["case", "default"],
    Steps (fun place counterpart => near place counterpart ∧ place.sees symbol = true) near
  agrees : ∀ place counterpart, near place counterpart → place.sees ";" = true ∨
    place.rest.length ≤ extent.bound ∨
      ∀ terminals ∈ listEnds, place.seesAny terminals = counterpart.seesAny terminals
  elses : Shares extent near closed "else"
  unelse : Lacks near "else"
  reads : ∀ symbol ∈ ["\x7b", "\x7d", ":"], Shares extent near near symbol
  conditions : ∀ form, Follows extent near (condition form) (condition form) (Same fun _ => closed)
  repeats : Follows extent near repeatKeyword repeatKeyword (Same fun _ => near)
  ends : ∀ complaint, Follows extent near (terminate complaint) (terminate complaint)
    (Same fun _ => near)
  headers : Follows extent closed loopHeader loopHeader (Related header closed)
  selectors : Follows extent near selector selector (Same fun _ => near)
  counts : Follows extent near countSwitch countSwitch (Same fun _ => near)
  values : Follows extent near caseValue caseValue (Same fun _ => near)
  declares : Follows extent
    (fun place counterpart => beside place counterpart ∧ place.seesStart .type = true)
    (terminated .variableEnd do return ((← declaration).map Statement.declare).getD .skipped)
    (terminated .variableEnd do return ((← declaration).map Statement.declare).getD .skipped)
    (Related rel near)
  names : Follows extent
    (fun place counterpart => beside place counterpart ∧ place.seesIdentifier = true) named named
    (Same fun _ => near)
  prints : Follows extent beside (terminated .printEnd print) (terminated .printEnd print)
    (Same fun _ => near)
  asks : Follows extent
    (fun place counterpart => beside place counterpart ∧ place.sees "inputln" = true)
    (terminated .readEnd read) (terminated .readEnd read) (Same fun _ => near)
  leaves : Follows extent
    (fun place counterpart => beside place counterpart ∧ place.sees "break" = true) leave leave
    (Same fun _ => near)
  returns : Follows extent
    (fun place counterpart => beside place counterpart ∧ place.sees "return" = true)
    giveBack giveBack (Same fun _ => near)
  evaluates : Follows extent beside evaluation evaluation (Same fun _ => near)

/-- No clause starts at a semicolon. -/
theorem clause?_fails (body : Reading (List Statement)) :
    FailsFrom (fun place => place.sees ";" = true) (clause? body) := by
  intro before result after seen goes
  have opens := opens_of_sees seen
  have goes := goes.of_look ((asks_sees _).run_of_apart opens (by decide))
  have goes := goes.of_look ((asks_sees _).run_of_apart opens (by decide))
  have goes := goes.of_look (asks_atEnd.run_of_apart opens (by decide))
  have goes := goes.of_look ((asks_sees _).run_of_apart opens (by decide))
  exact Fails.giveUp _ _ _ _ _ _ trivial goes

theorem stray_fails : Fails stray :=
  (Fails.of_repairs (complain_repairs _)).bind (complain_moves _) fun _ =>
    (Moves.of_gives (resume_gives _)).bind fun _ => .pure _

theorem stray_moves : Moves stray :=
  (complain_moves _).bind fun _ => (Moves.of_gives (resume_gives _)).bind fun _ => .pure _

namespace Lockstep

variable {beside closed near : Place → Stance → Prop} {rel : Statement → Statement → Prop}
  {all : List Statement → List Statement → Prop} {clause : Clause → Clause → Prop}
  {header : LoopHeader → LoopHeader → Prop}
  (lockstep : Lockstep extent beside closed near rel header)
  (congruence : Congruence rel all clause header)

include lockstep

theorem keyword {symbol : String} (listed : symbol ∈ controls) :
    Follows extent (fun place counterpart => beside place counterpart ∧ place.sees symbol = true)
      (keyword symbol) (keyword symbol) (Same fun _ => extent.Past closed) :=
  (lockstep.enters symbol listed).keyword_follows symbol

theorem demands {symbol : String} (listed : symbol ∈ ["\x7b", "\x7d", ":"]) {repair : Reading Unit}
    (repairs : Repairs repair) :
    Follows extent near (demand symbol repair) (demand symbol repair) (Same fun _ => near) :=
  demand_follows (lockstep.reads symbol listed) repairs

include congruence

section

variable {block otherBlock : Reading Statement}
  (blocks : Follows extent.behind closed block otherBlock (Related rel near))

include blocks

theorem whileLoop :
    Follows extent (fun place counterpart => beside place counterpart ∧ place.sees "while" = true)
      (whileLoop block) (whileLoop otherBlock) (Related rel near) := by
  refine .rule ((lockstep.keyword (by decide)).andThen fun _ => Follows.onward ?_)
  refine (((lockstep.conditions _).mono extent.covers_behind).starting lockstep.within).andThen
    fun condition => ?_
  exact blocks.bindRelated congruence.refl fun _ _ same =>
    .pure fun _ _ near => ⟨congruence.whileLoop _ same, near⟩

theorem choice :
    Follows extent (fun place counterpart => beside place counterpart ∧ place.sees "if" = true)
      (choice block) (choice otherBlock) (Related rel near) := by
  refine .rule ((lockstep.keyword (by decide)).andThen fun _ => Follows.onward ?_)
  refine (((lockstep.conditions _).mono extent.covers_behind).starting lockstep.within).andThen
    fun condition => ?_
  refine blocks.bindRelated congruence.refl fun yes otherYes same => ?_
  refine .acceptBranch (lockstep.elses.mono extent.covers_behind) lockstep.unelse ?_
    (.pure fun _ _ starts => ⟨congruence.ifThen _ same, starts.1⟩)
  exact blocks.bindRelated congruence.refl fun no otherNo sameNo =>
    .pure fun _ _ near => ⟨congruence.ifElse _ same sameNo, near⟩

theorem doWhile :
    Follows extent (fun place counterpart => beside place counterpart ∧ place.sees "do" = true)
      (doWhile block) (doWhile otherBlock) (Related rel near) := by
  refine .rule ((lockstep.keyword (by decide)).andThen fun _ => Follows.onward ?_)
  refine blocks.bindRelated congruence.refl fun body otherBody same => ?_
  refine (lockstep.repeats.mono extent.covers_behind).andThen fun able => ?_
  cases able with
  | false => exact .pure fun _ _ near => ⟨congruence.doWhile _ same, near⟩
  | true =>
      refine ((lockstep.conditions _).mono extent.covers_behind).andThen fun condition => ?_
      refine (((lockstep.ends _).mono extent.covers_behind).starting lockstep.within).andThen
        fun _ => .pure fun _ _ near => ⟨congruence.doWhile _ same, near⟩

theorem forLoop :
    Follows extent (fun place counterpart => beside place counterpart ∧ place.sees "for" = true)
      (forLoop block) (forLoop otherBlock) (Related rel near) := by
  rw [forLoop_eq, forLoop_eq]
  refine .rule ((lockstep.keyword (by decide)).andThen fun _ => Follows.onward ?_)
  refine (lockstep.headers.mono extent.covers_behind).bindRelated congruence.headerRefl
    fun one other same => ?_
  exact blocks.bindRelated congruence.refl fun body otherBody sameBody =>
    .pure fun _ _ near => ⟨congruence.forLoop same sameBody, near⟩

end

section

variable {body otherBody : Reading (List Statement)}

theorem clauseFrom (covers : extent.Covers narrower)
    (bodies : Follows narrower near body otherBody (Related all near)) (test : Option Foreseen) :
    Follows narrower near (clauseFrom body test) (clauseFrom otherBody test)
      (Related clause near) := by
  refine ((lockstep.demands (by decide) (complain_repairs _)).mono covers).andThen fun _ => ?_
  exact bodies.bindRelated congruence.allRefl fun _ _ same =>
    .pure fun _ _ near => ⟨congruence.clauseOf _ same, near⟩

/-- Clauses are read in step where no tokens are left for one of them. -/
theorem clause? (covers : extent.inside.Covers narrower)
    (bodies : Follows narrower.behind near body otherBody (Related all near)) :
    Follows.Rounds narrower near (Option.Rel clause) (clause? body) (clause? otherBody) := by
  have behind : extent.Covers narrower.behind :=
    extent.covers_inside.trans (covers.trans narrower.covers_behind)
  let agreeing (place : Place) (counterpart : Stance) : Prop := near place counterpart ∧
    (place.rest.length ≤ extent.bound ∨
      ∀ terminals ∈ listEnds, place.seesAny terminals = counterpart.seesAny terminals)
  have agreesAny {terminals : List Terminal} (listed : terminals ∈ listEnds) {place : Place}
      {counterpart : Stance} (agree : agreeing place counterpart) :
      place.seesAny terminals = counterpart.seesAny terminals ∨
        place.rest.length < narrower.bound :=
    agree.2.symm.imp (fun agree => agree _ listed) fun short =>
      Nat.lt_of_lt_of_le (Nat.lt_succ_of_le short) covers.bound
  have agrees {symbol : String} (listed : [.word symbol] ∈ listEnds) {place : Place}
      {counterpart : Stance} (agree : agreeing place counterpart) :
      place.sees symbol = counterpart.sees symbol ∨ place.rest.length < narrower.bound := by
    rw [← Place.seesAny_word, ← Place.seesAny_word]
    exact agreesAny listed agree
  have read (test : Option Foreseen) :
      Follows narrower.behind near (do return some (some (← Reading.clauseFrom body test)))
        (do return some (some (← Reading.clauseFrom otherBody test)))
        fun next? answer? place counterpart =>
          (next?.isSome = true ∧ Option.Rel (Option.Rel clause) next? answer?) ∧
            near place counterpart :=
    (lockstep.clauseFrom congruence behind bodies test).bindRelated congruence.clauseRefl
      fun _ _ same => .pure fun _ _ near => ⟨⟨rfl, .some (.some same)⟩, near⟩
  have rounds : Follows.Round narrower agreeing near near (Option.Rel clause) (Reading.clause? body)
      (Reading.clause? otherBody) := by
    refine .lookAlike (Place.sees · "case") (fun _ => rfl)
      (fun _ _ agree => agrees (by decide) agree) fun isCase => ?_
    refine .lookAlike (Place.sees · "default") (fun _ => rfl)
      (fun _ _ starts => agrees (by decide) starts.1) fun isDefault => ?_
    cases opens : isCase || isDefault with
    | true =>
        rw [if_pos rfl, if_pos rfl]
        have steps : Steps (fun place counterpart =>
            (agreeing place counterpart ∧ place.sees "case" = isCase) ∧
              place.sees "default" = isDefault) near := by
          rintro place counterpart ⟨⟨⟨near, _⟩, seesCase⟩, seesDefault⟩
          rcases Bool.or_eq_true_iff.mp opens with rfl | rfl
          · exact lockstep.selects "case" (by decide) _ _ ⟨near, seesCase⟩
          · exact lockstep.selects "default" (by decide) _ _ ⟨near, seesDefault⟩
        refine steps.skip_follows.andThen fun _ => (log_follows _).andThen fun _ => ?_
        exact Follows.Round.behind
          (.ite ((lockstep.values.mono behind).andThen read) (read none))
    | false =>
        rw [if_neg Bool.false_ne_true, if_neg Bool.false_ne_true]
        refine .lookAlike (fun place => place.rest.isEmpty) (fun _ => rfl) ?_ fun ended => ?_
        · intro place counterpart starts
          rw [← Place.seesAny_endOfInput, ← Place.seesAny_endOfInput]
          exact agreesAny (by decide) starts.1.1
        refine .lookAlike (Place.sees · "\x7d") (fun _ => rfl)
          (fun _ _ starts => agrees (by decide) starts.1.1.1) fun closes => ?_
        refine .ite (.pure fun _ _ starts => ⟨.none, starts.1.1.1.1.1⟩) ?_
        exact .fails (Fails.giveUp _ _ _) (giveUp_moves _ _ _) (giveUp_moves _ _ _)
  -- at a semicolon no clause starts, so the first run complains
  exact rounds.orFails (clause?_fails body) fun _ _ near =>
    (lockstep.agrees _ _ near).imp id (And.intro near)

theorem switch
    (bodies : Follows extent.behind.inside near body otherBody (Related all near)) :
    Follows extent (fun place counterpart => beside place counterpart ∧ place.sees "switch" = true)
      (switch body) (switch otherBody) (Related rel near) := by
  rw [switch_eq, switch_eq]
  refine .rule (.line (fun _ _ starts => lockstep.leads _ _ starts.1) fun line => ?_)
  refine (lockstep.keyword (by decide)).andThen fun _ => Follows.onward ?_
  refine ((lockstep.selectors.mono extent.covers_behind).starting lockstep.within).andThen
    fun value => ?_
  refine (lockstep.counts.mono extent.covers_behind).andThen fun number => ?_
  refine .acceptRequire ((lockstep.reads "\x7b" (by decide)).mono extent.covers_behind) ?_
    (.giveUp _ _ _) (giveUp_moves _ _ _) (giveUp_moves _ _ _)
  have clauses : Follows extent.behind.inside near (collect (Reading.clause? body))
      (collect (Reading.clause? otherBody)) fun found others place counterpart =>
        List.Forall₂ (Option.Rel clause) found others ∧ near place counterpart := by
    refine Follows.collect _ fun narrower covers => lockstep.clause? congruence ?_
      (bodies.mono (covers.trans narrower.covers_behind))
    exact extent.inside.covers_behind.trans covers
  refine clauses.bindRelatedInside (fun found => ?_) (fun found others same => ?_) fun _ =>
    demand_shortens (complain_repairs _) (.pure _)
  · exact List.forall₂_same.mpr fun clause? _ => congruence.optionRefl clause?
  · refine ((lockstep.demands (by decide) (complain_repairs _)).mono extent.covers_behind).andThen
      fun _ => .pure fun _ _ near =>
        ⟨congruence.switch _ _ _ (List.rel_filterMap (fun _ _ => id) same), near⟩

end

/-! ## Blocks and statements -/

variable {statement otherStatement : Reading Statement}

/-- A block, or a statement in its place, is read in step. -/
theorem blockOf {start leading : Place → Stance → Prop}
    (opening : Opening start leading Nonterminal.block.first)
    (leads : ∀ place counterpart, leading place counterpart → beside place counterpart)
    (covers : extent.Covers narrower)
    (bodies : Follows narrower.behind.inside near (bodyOf statement) (bodyOf otherStatement)
      (Related all near))
    (single : Follows narrower
      (fun place counterpart => leading place counterpart ∧ place.sees "\x7b" = false)
      statement otherStatement (Related rel near)) :
    Follows narrower start (blockOf statement) (blockOf otherStatement) (Related rel near) := by
  have same (symbol : String) {place : Place} {counterpart : Stance}
      (leading : leading place counterpart) : place.sees symbol = counterpart.sees symbol :=
    Place.sees_congr (lockstep.leads _ _ (leads _ _ leading)) symbol
  have braces : Shares narrower leading (narrower.Past near) "\x7b" := by
    intro place counterpart leading small otherSmall seen
    obtain ⟨near, length, otherLength⟩ := lockstep.braces _ _ ⟨leads _ _ leading, seen⟩
    exact .inl ⟨same "\x7b" leading ▸ seen, near, length ▸ small, otherLength ▸ otherSmall⟩
  refine .rule (.expectUnless opening ?_ (.pure _) (.pure _))
  refine Follows.starting ?_ fun _ _ starts => starts.1
  refine .acceptBranch braces (fun _ _ leading unseen => (same _ leading).symm.trans unseen)
    (Follows.onward ?_) single
  refine bodies.bindRelatedInside congruence.allRefl (fun body otherBody same => ?_) fun _ =>
    demand_shortens (complain_repairs _) (.pure _)
  have closes : Follows narrower.behind near (demand "\x7d" (complain .blockEnd))
      (demand "\x7d" (complain .blockEnd)) (Same fun _ => near) :=
    (lockstep.demands (by decide) (complain_repairs _)).mono (covers.trans narrower.covers_behind)
  exact closes.andThen fun _ => .pure fun _ _ near => ⟨congruence.block same, near⟩

/-- One more statement around nested ones that are read in step. -/
theorem statementOf
    (bodies : Follows extent.behind.inside near (bodyOf statement) (bodyOf otherStatement)
      (Related all near))
    (nested : Follows extent.behind beside statement otherStatement (Related rel near)) :
    Follows extent beside (statementOf statement) (statementOf otherStatement)
      (Related rel near) := by
  have same {start : Place → Stance → Prop} {reader otherReader : Reading Statement}
      (follows : Follows extent start reader otherReader (Same fun _ => near)) :
      Follows extent start reader otherReader (Related rel near) :=
    follows.giving fun one _ _ _ reached => ⟨reached.1 ▸ congruence.refl one, reached.2⟩
  have blocks : Follows extent.behind closed (Reading.blockOf statement)
      (Reading.blockOf otherStatement) (Related rel near) :=
    lockstep.blockOf congruence lockstep.opens (fun _ _ => id) extent.covers_behind
      (bodies.mono extent.behind.inside.covers_behind) (nested.starting fun _ _ starts => starts.1)
  have braced : Follows extent
      (fun place counterpart => beside place counterpart ∧ place.sees "\x7b" = true)
      (Reading.blockOf statement) (Reading.blockOf otherStatement) (Related rel near) := by
    refine lockstep.blockOf congruence (fun _ _ starts _ => ⟨lockstep.leads _ _ starts.1, starts⟩)
      (fun _ _ starts => starts.1) (.refl _) bodies (.nowhere nested.moves nested.otherMoves ?_)
    rintro place counterpart ⟨⟨_, seen⟩, unseen⟩
    exact nomatch seen.symm.trans unseen
  have asks (symbol : String) : ∀ place counterpart, beside place counterpart →
      place.sees symbol = counterpart.sees symbol ∨ place.rest.length < extent.bound :=
    fun _ _ starts => .inl (Place.sees_congr (lockstep.leads _ _ starts) symbol)
  have asksAny (terminals : List Terminal) : ∀ place counterpart, beside place counterpart →
      place.seesAny terminals = counterpart.seesAny terminals ∨
        place.rest.length < extent.bound :=
    fun _ _ starts => .inl (Place.seesAny_congr (lockstep.leads _ _ starts) terminals)
  have asksName : ∀ place counterpart, beside place counterpart →
      place.seesIdentifier = counterpart.seesIdentifier ∨ place.rest.length < extent.bound :=
    fun _ _ starts => .inl (Place.seesIdentifier_congr (lockstep.leads _ _ starts))
  refine .ask (Place.seesStart · .type) (fun _ => rfl) (asksAny _) lockstep.declares ?_
  refine Follows.starting ?_ fun _ _ starts => starts.1
  refine .ask Place.seesIdentifier (fun _ => rfl) asksName (same lockstep.names) ?_
  refine Follows.starting ?_ fun _ _ starts => starts.1
  refine .ask (Place.seesStart · .print) (fun _ => rfl) (asksAny _)
    ((same lockstep.prints).starting fun _ _ starts => starts.1) ?_
  refine Follows.starting ?_ fun _ _ starts => starts.1
  refine .ask (Place.sees · "inputln") (fun _ => rfl) (asks _) (same lockstep.asks) ?_
  refine Follows.starting ?_ fun _ _ starts => starts.1
  refine .ask (Place.sees · "break") (fun _ => rfl) (asks _) (same lockstep.leaves) ?_
  refine Follows.starting ?_ fun _ _ starts => starts.1
  refine .ask (Place.sees · "return") (fun _ => rfl) (asks _) (same lockstep.returns) ?_
  refine Follows.starting ?_ fun _ _ starts => starts.1
  refine .ask (Place.sees · "while") (fun _ => rfl) (asks _)
    (lockstep.whileLoop congruence blocks) ?_
  refine Follows.starting ?_ fun _ _ starts => starts.1
  refine .ask (Place.sees · "if") (fun _ => rfl) (asks _) (lockstep.choice congruence blocks) ?_
  refine Follows.starting ?_ fun _ _ starts => starts.1
  refine .ask (Place.sees · "do") (fun _ => rfl) (asks _) (lockstep.doWhile congruence blocks) ?_
  refine Follows.starting ?_ fun _ _ starts => starts.1
  refine .ask (Place.sees · "for") (fun _ => rfl) (asks _) (lockstep.forLoop congruence blocks) ?_
  refine Follows.starting ?_ fun _ _ starts => starts.1
  refine .ask (Place.sees · "switch") (fun _ => rfl) (asks _) (lockstep.switch congruence bodies) ?_
  refine Follows.starting ?_ fun _ _ starts => starts.1
  refine .ask (Place.sees · "\x7b") (fun _ => rfl) (asks _) braced ?_
  refine Follows.starting ?_ fun _ _ starts => starts.1
  exact .ask (Place.seesStart · .expression) (fun _ => rfl) (asksAny _)
    ((same lockstep.evaluates).starting fun _ _ starts => starts.1)
    (.fails stray_fails stray_moves stray_moves)

end Lockstep

end StackLang.Reading
