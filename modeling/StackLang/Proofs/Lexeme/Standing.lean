import StackLang.Proofs.Lexeme.Conservation

/-!
# Where the scanner stands

Behind a text the scanner stands in code, in a block comment or in a line comment.  It
looks one character ahead, but only where an operator or a comment may begin: a text
that does not end in a slash is scanned alike whatever space or slash comes next.
-/

namespace StackLang

namespace Text

/-- The first line of a text, empty if there is none. -/
def firstLine (chars : List Char) : List Char := (lineChars chars).headD []

/-- The lines behind the first one. -/
def laterLines (chars : List Char) : List (List Char) := (lineChars chars).tail

variable {char : Char} {rest : List Char}

theorem firstLine_inside (inside : ¬ EndsLine char rest) :
    firstLine (char :: rest) = char :: firstLine rest := by
  rw [firstLine, lineChars_inside inside, firstLine]
  cases lineChars rest <;> rfl

theorem laterLines_inside (inside : ¬ EndsLine char rest) :
    laterLines (char :: rest) = laterLines rest := by
  rw [laterLines, lineChars_inside inside, laterLines]
  cases lineChars rest <;> rfl

theorem mem_head?_of_firstLine (first : char ∈ (firstLine rest).head?) : char ∈ rest.head? := by
  have within := (lineChars_within rest).1
  rw [firstLine] at first
  cases lines : lineChars rest with
  | nil =>
      rw [lines] at first
      contradiction
  | cons line later =>
      rw [lines] at within first
      obtain ⟨behind, same⟩ := within line rfl
      have starts : line.head? = some char := first
      rw [← same, List.head?_append, starts]
      rfl

theorem not_endsLine_of_patterns (noFeed : char = '\n' → False)
    (noReturn : ∀ after, char = '\r' → rest = '\n' :: after → False) : ¬ EndsLine char rest := by
  rintro (feed | ⟨carriage, follows⟩)
  · exact noFeed feed
  · obtain ⟨after, rfl⟩ := List.head?_eq_some_iff.mp follows
    exact noReturn after carriage rfl

end Text

namespace Lexeme

open Text

/-- Where the scanner stands at the start of the next line. -/
def lineEnd : Option Mode → Mode
  | some .blockComment => .blockComment
  | _ => .code .empty

/-- Where the scanner stands behind a text, wherever it started: there is no mode in a line
comment. -/
def standing? : Option Mode → List Char → Option Mode
  | mode?, [] => mode?
  | mode?, '\n' :: rest => standing? (some (lineEnd mode?)) rest
  | mode?, '\r' :: '\n' :: rest => standing? (some (lineEnd mode?)) rest
  | none, _ :: rest => standing? none rest
  | some .blockComment, '*' :: '/' :: rest => standing? (some (.code .empty)) rest
  | some .blockComment, _ :: rest => standing? (some .blockComment) rest
  | some (.code pending), char :: rest =>
      if pending.takes char then
        let pending := pending.push char
        standing? (some (.code (if pending.isClosed then .empty else pending))) rest
      else if !isBoundary char then
        let pending := if char == '"' || char == '\'' then .empty else pending
        standing? (some (.code (pending.push char))) rest
      else
        match rest with
        | [] => some (.code .empty)
        | next :: after =>
            if char == '/' && next == '*' then standing? (some .blockComment) after
            else if char == '/' && next == '/' then standing? none after
            else if isOperatorPair char next then standing? (some (.code .empty)) after
            else standing? (some (.code .empty)) (next :: after)

/-- The tokens of the rest of a line, and whether the line ends inside a block comment; nothing is
read in a line comment. -/
def scanRest (line : Nat) : Option Mode → List Char → List Token × Bool
  | none, _ => ([], false)
  | some mode, chars => scanLine line mode chars

/-- The tokens of a text whose first line has a number and starts somewhere. -/
def scanFrom (line : Nat) (mode? : Option Mode) (chars : List Char) : List Token :=
  (scanRest line mode? (firstLine chars)).1 ++
    scanLines (line + 1) (scanRest line mode? (firstLine chars)).2 (laterLines chars)

section

variable {line : Nat} {mode? after? : Option Mode} {tokens : List Token} {char next : Char}
  {chars rest : List Char}

theorem scanLines_eq_scanFrom (inComment : Bool) :
    scanLines line inComment (lineChars chars) =
      scanFrom line (some (if inComment then .blockComment else .code .empty)) chars := by
  rw [scanFrom, firstLine, laterLines]
  cases lineChars chars with
  | nil => cases inComment <;> rfl
  | cons first later => rfl

/-- A line end finishes what is pending and leads to the next line. -/
theorem scanFrom_lineEnd (ends : lineChars chars = [] :: lineChars rest) :
    scanFrom line mode? chars =
      (scanRest line mode? []).1 ++ scanFrom (line + 1) (some (lineEnd mode?)) rest := by
  have next : (if (scanRest line mode? []).2 then Mode.blockComment else .code .empty) =
      lineEnd mode? := by
    rcases mode? with _ | _ | _ <;> simp [scanRest, scanLine, lineEnd]
  rw [scanFrom, firstLine, laterLines, ends, ← next, ← scanLines_eq_scanFrom]
  rfl

/-- A step of the scanner on a line is one on the text. -/
theorem scanFrom_step (later : laterLines chars = laterLines rest)
    (step : scanRest line mode? (firstLine chars) =
      before tokens (scanRest line after? (firstLine rest))) :
    scanFrom line mode? chars = tokens ++ scanFrom line after? rest := by
  rw [scanFrom, scanFrom, step, later, ← List.append_assoc]
  rfl

theorem scanFrom_char (inside : ¬ EndsLine char rest)
    (step : scanRest line mode? (char :: firstLine rest) =
      before tokens (scanRest line after? (firstLine rest))) :
    scanFrom line mode? (char :: rest) = tokens ++ scanFrom line after? rest := by
  apply scanFrom_step (laterLines_inside inside)
  rw [firstLine_inside inside, step]

theorem scanFrom_pair (first : ¬ EndsLine char (next :: rest)) (second : ¬ EndsLine next rest)
    (step : scanRest line mode? (char :: next :: firstLine rest) =
      before tokens (scanRest line after? (firstLine rest))) :
    scanFrom line mode? (char :: next :: rest) = tokens ++ scanFrom line after? rest := by
  apply scanFrom_step
  · rw [laterLines_inside first, laterLines_inside second]
  · rw [firstLine_inside first, firstLine_inside second, step]

end

/-- A block comment goes on over a character that does not close it. -/
theorem scanLine_comment {line : Nat} {char : Char} {rest : List Char}
    (goesOn : char = '*' → rest.head? ≠ some '/') :
    scanLine line .blockComment (char :: rest) = scanLine line .blockComment rest := by
  rw [scanLine]
  rintro after rfl rfl
  exact goesOn rfl rfl

/-- A text that goes with no character in front of it but a slash, and that ends no line. -/
def Unpaired (chars : List Char) : Prop := ∀ char ∈ chars.head?, char = '/' ∨ char = ' '

theorem Unpaired.inside {char : Char} {rest back : List Char} (unpaired : Unpaired back)
    (inside : ¬ EndsLine char rest) : ¬ EndsLine char (rest ++ back) := by
  cases rest with
  | cons next after => exact inside
  | nil =>
      rintro (feed | ⟨carriage, follows⟩)
      · exact inside (.inl feed)
      · rcases unpaired '\n' follows with slash | space
        · contradiction
        · contradiction

/-- A character that is no slash stands alone in front of an unpaired text. -/
theorem Unpaired.alone {char : Char} {back : List Char} (unpaired : Unpaired back)
    (noSlash : char ≠ '/') : ∀ next ∈ (firstLine back).head?, ¬ Joins char next := by
  intro next first
  rcases unpaired next (mem_head?_of_firstLine first) with rfl | rfl
  · simp [Joins, isOperatorPair, noSlash]
  · simp [Joins, isOperatorPair]

/-- A text does not break off in the middle of two characters that the scanner takes together. -/
def Complete (last? : Option Mode) (chars : List Char) : Prop :=
  chars.getLast? ≠ some '/' ∧ (last? = some .blockComment → chars.getLast? ≠ some '*')

theorem Complete.tail {last? : Option Mode} {char : Char} {rest : List Char}
    (complete : Complete last? (char :: rest)) : Complete last? rest := by
  cases rest with
  | nil => exact ⟨by simp, by simp⟩
  | cons next after => simpa only [Complete, List.getLast?_cons_cons] using complete

/-- A text has tokens of its own, and what is behind it is scanned from where the scanner stands
then. -/
def Settles (line : Nat) (mode? : Option Mode) (front : List Char) (last? : Option Mode) : Prop :=
  ∃ tokens, ∀ back, Unpaired back →
    scanFrom line mode? (front ++ back) =
      tokens ++ scanFrom (line + front.count '\n') last? back

namespace Settles

variable {line : Nat} {mode? after? last? : Option Mode} {char next : Char}
  {front rest : List Char}

theorem behind (tokens : List Token) (feeds : Nat)
    (settles : Settles (line + feeds) after? rest last?)
    (count : front.count '\n' = feeds + rest.count '\n')
    (step : ∀ back, Unpaired back → scanFrom line mode? (front ++ back) =
      tokens ++ scanFrom (line + feeds) after? (rest ++ back)) :
    Settles line mode? front last? := by
  obtain ⟨later, same⟩ := settles
  refine ⟨tokens ++ later, fun back unpaired => ?_⟩
  rw [step back unpaired, same back unpaired, count, List.append_assoc, Nat.add_assoc]

theorem single (tokens : List Token) (settles : Settles line after? rest last?)
    (inside : ¬ EndsLine char rest)
    (step : ∀ back, Unpaired back → scanRest line mode? (char :: firstLine (rest ++ back)) =
      before tokens (scanRest line after? (firstLine (rest ++ back)))) :
    Settles line mode? (char :: rest) last? := by
  apply behind tokens 0 settles
  · rw [Nat.zero_add, List.count_cons_of_ne fun feed => inside (.inl feed)]
  · exact fun back unpaired => scanFrom_char (unpaired.inside inside) (step back unpaired)

theorem pair (tokens : List Token) (settles : Settles line after? rest last?)
    (first : ¬ EndsLine char (next :: rest)) (noFeed : next ≠ '\n') (noReturn : next ≠ '\r')
    (step : ∀ later, scanRest line mode? (char :: next :: later) =
      before tokens (scanRest line after? later)) :
    Settles line mode? (char :: next :: rest) last? := by
  apply behind tokens 0 settles
  · rw [Nat.zero_add, List.count_cons_of_ne fun feed => first (.inl feed),
      List.count_cons_of_ne noFeed]
  · exact fun back _ => scanFrom_pair first (not_endsLine noFeed noReturn) (step _)

/-- A boundary finishes what is pending. -/
theorem finished {reading : Pending}
    (settles : Settles line (some (.code .empty)) (char :: rest) last?)
    (inside : ¬ EndsLine char rest) (ends : ¬ reading.takes char = true)
    (boundary : ¬ (!isBoundary char) = true) :
    Settles line (some (.code reading)) (char :: rest) last? := by
  apply behind (reading.finish line) 0 settles (Nat.zero_add _).symm
  intro back unpaired
  apply scanFrom_step rfl
  rw [List.cons_append, firstLine_inside (unpaired.inside inside)]
  exact scanLine_end line ends boundary

end Settles

/-- Behind a text that is complete, the scanner stands where `standing?` says. -/
theorem settles (line : Nat) (mode? : Option Mode) (front : List Char)
    (complete : Complete (standing? mode? front) front) :
    Settles line mode? front (standing? mode? front) := by
  fun_induction standing? mode? front generalizing line with
  | case1 mode? => exact ⟨[], fun back _ => rfl⟩
  | case2 mode? rest ih =>
      apply Settles.behind _ 1 (ih (line + 1) complete.tail)
      · rw [List.count_cons_self, Nat.add_comm]
      · exact fun back _ => scanFrom_lineEnd (by rw [List.cons_append, lineChars])
  | case3 mode? rest ih =>
      have later := ih (line + 1) complete.tail.tail
      apply Settles.behind _ 1 later
      · rw [List.count_cons_of_ne (by decide), List.count_cons_self, Nat.add_comm]
      · exact fun back _ => scanFrom_lineEnd (by rw [List.cons_append, List.cons_append, lineChars])
  | case4 char rest noFeed noReturn ih =>
      have later := ih line complete.tail
      exact later.single [] (not_endsLine_of_patterns noFeed noReturn) fun _ _ => rfl
  | case5 rest ih =>
      have later := ih line complete.tail.tail
      apply later.pair [] (not_endsLine (by decide) (by decide)) (by decide) (by decide)
      intro after
      rw [scanRest, scanLine]
      rfl
  | case6 char rest noFeed noReturn goesOn ih =>
      have later := ih line complete.tail
      apply later.single [] (not_endsLine_of_patterns noFeed noReturn)
      intro back _
      apply scanLine_comment
      rintro rfl first
      cases rest with
      | nil => exact complete.2 rfl rfl
      | cons next after =>
          obtain rfl := Option.some.inj (mem_head?_of_firstLine first)
          exact goesOn after rfl rfl
  | case7 reading char rest noFeed noReturn taken pushed ih =>
      have later := ih line complete.tail
      have inside := not_endsLine_of_patterns noFeed noReturn
      by_cases closes : pushed.isClosed = true
      · rw [if_pos closes] at later ⊢
        exact later.single (pushed.finish line) inside fun _ _ => scanLine_close line taken closes
      · rw [if_neg closes] at later ⊢
        exact later.single [] inside fun _ _ => scanLine_take line taken closes
  | case8 reading char rest noFeed noReturn ends inside begun ih =>
      have later := ih line complete.tail
      have within := not_endsLine_of_patterns noFeed noReturn
      by_cases quote : (char == '"' || char == '\'') = true
      · rw [show begun = .empty from if_pos quote] at later ⊢
        exact later.single (reading.finish line) within
          fun _ _ => scanLine_open line ends inside quote
      · rw [show begun = reading from if_neg quote] at later ⊢
        exact later.single [] within fun _ _ => scanLine_push line ends inside quote
  | case9 reading char noFeed ends boundary noReturn =>
      have nothing : Settles line (some (.code .empty)) [] (some (.code .empty)) :=
        ⟨[], fun back _ => rfl⟩
      have inside := not_endsLine_of_patterns noFeed noReturn
      have visible : char ≠ '/' := by simpa using complete.1
      apply Settles.finished _ inside ends boundary
      exact nothing.single (single line char) inside
        fun _ unpaired => scanLine_alone line boundary (unpaired.alone visible)
  | case10 reading char noFeed ends boundary next after block noReturn ih =>
      obtain ⟨rfl, rfl⟩ : char = '/' ∧ next = '*' := by simpa using block
      have later := ih line complete.tail.tail
      have inside {rest : List Char} : ¬ EndsLine '/' rest := not_endsLine (by decide) (by decide)
      apply Settles.finished _ inside ends boundary
      exact later.pair [] inside (by decide) (by decide) fun _ => rfl
  | case11 reading char noFeed ends boundary next after _ comment noReturn ih =>
      obtain ⟨rfl, rfl⟩ : char = '/' ∧ next = '/' := by simpa using comment
      have later := ih line complete.tail.tail
      have inside {rest : List Char} : ¬ EndsLine '/' rest := not_endsLine (by decide) (by decide)
      apply Settles.finished _ inside ends boundary
      exact later.pair [] inside (by decide) (by decide) fun _ => rfl
  | case12 reading char noFeed ends boundary next after noBlock noComment pair noReturn ih =>
      have later := ih line complete.tail.tail
      have inside := not_endsLine_of_patterns noFeed noReturn
      have mark : (isOperator next || isDelimiter next) = true := by
        rw [(operators_of_pair pair).2, Bool.true_or]
      obtain ⟨nextFeed, nextReturn⟩ := lineEnd_of_mark mark
      apply Settles.finished _ inside ends boundary
      exact later.pair [⟨String.ofList [char, next], .operator, line⟩] inside nextFeed nextReturn
        fun _ => scanLine_pair line boundary noBlock noComment pair
  | case13 reading char noFeed ends boundary next after noBlock noComment noPair noReturn ih =>
      have later := ih line complete.tail
      have inside := not_endsLine_of_patterns noFeed noReturn
      apply Settles.finished _ inside ends boundary
      apply later.single (single line char) inside
      intro back _
      apply scanLine_alone line boundary
      intro follower first
      obtain rfl := Option.some.inj (mem_head?_of_firstLine first)
      exact not_or.mpr ⟨noBlock, not_or.mpr ⟨noComment, noPair⟩⟩

end Lexeme

end StackLang
