import StackLang.Proofs.Lexeme.Layout

/-!
# Scanning keeps the text

The tokens of a line spell a subsequence of the line, so nothing is made up, doubled or
moved.  Where no comment is opened, the tokens spell all that is not white space.
What carries both is what is pending: its characters still stand in front of the rest.
-/

namespace StackLang

/-- The characters of tokens, one token after the other. -/
def Token.written (tokens : List Token) : List Char :=
  tokens.flatMap fun token => token.value.toList

namespace Text

/-- What is left without spaces, tabs, carriage returns and line feeds. -/
def visible (chars : List Char) : List Char :=
  chars.filter fun char => char ∉ [' ', '\t', '\r', '\n']

/-- Somewhere, be it in a literal, stands what opens a comment. -/
def OpensComment (chars : List Char) : Prop := ['/', '/'] <:+: chars ∨ ['/', '*'] <:+: chars

/-- The line with a number, lines being counted from one. -/
def lineAt (chars : List Char) : Nat → List Char
  | 0 => []
  | number + 1 => (lineChars chars)[number]?.getD []

theorem visible_append (front back : List Char) :
    visible (front ++ back) = visible front ++ visible back :=
  List.filter_append front back

theorem OpensComment.mono {part whole : List Char} (opens : OpensComment part)
    (within : part <:+: whole) : OpensComment whole :=
  opens.imp (·.trans within) (·.trans within)

/-- The first line starts a text, and every line stands somewhere in it. -/
theorem lineChars_within (chars : List Char) :
    (∀ line ∈ (lineChars chars).head?, line <+: chars) ∧
      ∀ line ∈ lineChars chars, line <:+: chars := by
  fun_induction lineChars chars with
  | case1 => simp
  | case2 rest ih =>
      refine ⟨by simp, List.forall_mem_cons.mpr ⟨List.nil_infix, fun line later => ?_⟩⟩
      exact (ih.2 line later).trans (List.suffix_cons _ _).isInfix
  | case3 rest ih =>
      refine ⟨by simp, List.forall_mem_cons.mpr ⟨List.nil_infix, fun line later => ?_⟩⟩
      exact (ih.2 line later).trans (List.suffix_append ['\r', '\n'] rest).isInfix
  | case4 char rest _ _ nothing ih =>
      have first : [char] <+: char :: rest := List.prefix_append [char] rest
      exact ⟨by simp, by simpa using first.isInfix⟩
  | case5 char rest _ _ first later lines ih =>
      have starts : char :: first <+: char :: rest :=
        List.cons_prefix_cons.mpr ⟨rfl, ih.1 first (by rw [lines]; rfl)⟩
      refine ⟨by simpa using starts, List.forall_mem_cons.mpr ⟨starts.isInfix, ?_⟩⟩
      intro line member
      have inside := ih.2 line (lines ▸ List.mem_cons_of_mem _ member)
      exact inside.trans (List.suffix_cons _ _).isInfix

theorem visible_cons (char : Char) {front back : List Char} (same : visible front = visible back) :
    visible (char :: front) = visible (char :: back) := by
  calc
    visible (char :: front) = visible [char] ++ visible front := visible_append [char] front
    _ = visible [char] ++ visible back := by rw [same]
    _ = visible (char :: back) := (visible_append [char] back).symm

/-- Only line ends are lost between the lines. -/
theorem visible_lineChars (chars : List Char) :
    visible (lineChars chars).flatten = visible chars := by
  fun_induction lineChars chars with
  | case1 => rfl
  | case2 rest ih => exact ih
  | case3 rest ih => exact ih
  | case4 char rest _ _ nothing ih => exact visible_cons char (nothing ▸ ih)
  | case5 char rest _ _ first later lines ih =>
      rw [lines] at ih
      exact visible_cons char ih

end Text

namespace Lexeme

open Text Token

variable {line : Nat}

theorem written_append (front back : List Token) :
    written (front ++ back) = written front ++ written back :=
  List.flatMap_append

theorem written_before (tokens : List Token) (rest : List Token × Bool) :
    written (before tokens rest).1 = written tokens ++ written rest.1 :=
  written_append tokens rest.1

/-- The characters of a pending lexeme in their order. -/
def Pending.read (pending : Pending) : List Char := pending.reversed.reverse

theorem Pending.read_push (pending : Pending) (char : Char) (rest : List Char) :
    (pending.push char).read ++ rest = pending.read ++ char :: rest := by
  simp [read, push]

theorem Pending.written_finish (pending : Pending) :
    written (pending.finish line) = pending.read := by
  rw [Pending.finish]
  split
  · next nothing =>
      rw [List.isEmpty_iff] at nothing
      rw [read, nothing]
      rfl
  · simp [written, read]

theorem written_single (line : Nat) (char : Char) :
    (written (single line char)).Sublist [char] := by
  rw [single]
  repeat' split
  · simp [written]
  · simp [written]
  · exact List.nil_sublist _

theorem visible_single (line : Nat) {char : Char} (boundary : ¬ (!isBoundary char) = true) :
    visible (written (single line char)) = visible [char] := by
  rw [single]
  split
  · simp [written]
  · split
    · simp [written]
    · next noOperator noDelimiter =>
        have space : isSpace char = true := by
          simpa [isBoundary, noOperator, noDelimiter] using boundary
        have listed : char ∈ [' ', '\t', '\r', '\n'] := of_decide_eq_true space
        simp only [visible, List.filter_cons, listed, not_true_eq_false, decide_false]
        rfl

theorem written_pair (char next : Char) :
    written [⟨String.ofList [char, next], .operator, line⟩] = [char, next] := by
  simp [written]

/-- What has been read stands in front of what is to be scanned. -/
def Mode.read : Mode → List Char
  | .code pending => pending.read
  | .blockComment => []

/-- The tokens spell what has been read and then a part of the rest, in its order. -/
theorem scanLine_sublist (line : Nat) (mode : Mode) (chars : List Char) :
    (written (scanLine line mode chars).1).Sublist (mode.read ++ chars) := by
  fun_induction scanLine line mode chars with
  | case1 => exact .slnil
  | case2 rest ih => exact (ih.cons '/').cons '*'
  | case3 head rest _ ih => exact ih.cons head
  | case4 pending =>
      rw [pending.written_finish]
      exact List.sublist_append_left _ _
  | case5 pending char rest taken pushed closes ih =>
      rw [written_before, Pending.written_finish]
      exact pending.read_push char rest ▸ ih.append_left _
  | case6 pending char rest taken pushed goesOn ih => exact pending.read_push char rest ▸ ih
  | case7 pending char rest _ inside quote ih =>
      rw [written_before, Pending.written_finish]
      exact ih.append_left _
  | case8 pending char rest ends inside noQuote ih => exact pending.read_push char rest ▸ ih
  | case9 pending char rest ends boundary ih =>
      rw [written_before, Pending.written_finish]
      apply List.Sublist.append_left
      have alone := written_single line char
      cases rest with
      | nil => exact alone
      | cons next after =>
          obtain ⟨comment, paired, single⟩ := ih
          dsimp only
          split
          · exact ((comment.cons next).cons char)
          split
          · exact List.nil_sublist _
          split
          · rw [written_before, written_pair]
            exact List.Sublist.append_left paired [char, next]
          · rw [written_before]
            exact alone.append single

theorem visible_before (tokens : List Token) (rest : List Token × Bool) :
    visible (written (before tokens rest).1) =
      visible (written tokens) ++ visible (written rest.1) := by
  rw [written_before, visible_append]

/-- Where no comment is opened, the tokens spell all that is visible, and the line does not end
in a comment. -/
theorem scanLine_visible (line : Nat) (mode : Mode) (chars : List Char)
    (plain : ¬ OpensComment chars) (code : mode ≠ .blockComment) :
    visible (written (scanLine line mode chars).1) = visible (mode.read ++ chars) ∧
      (scanLine line mode chars).2 = false := by
  have later {char : Char} {rest : List Char} (plain : ¬ OpensComment (char :: rest)) :
      ¬ OpensComment rest :=
    mt (·.mono (List.suffix_cons char rest).isInfix) plain
  have inCode {pending : Pending} : Mode.code pending ≠ .blockComment := by simp
  fun_induction scanLine line mode chars with
  | case1 | case2 | case3 => contradiction
  | case4 pending =>
      refine ⟨?_, rfl⟩
      rw [pending.written_finish, List.append_nil]
      rfl
  | case5 pending char rest taken pushed closes ih =>
      obtain ⟨spelled, outside⟩ := ih (later plain) inCode
      refine ⟨?_, outside⟩
      rw [visible_before, spelled, Pending.written_finish, ← visible_append]
      exact congrArg visible (pending.read_push char rest)
  | case6 pending char rest taken pushed goesOn ih =>
      obtain ⟨spelled, outside⟩ := ih (later plain) inCode
      exact ⟨spelled.trans (congrArg visible (pending.read_push char rest)), outside⟩
  | case7 pending char rest _ inside quote ih =>
      obtain ⟨spelled, outside⟩ := ih (later plain) inCode
      refine ⟨?_, outside⟩
      rw [visible_before, spelled, Pending.written_finish, ← visible_append]
      rfl
  | case8 pending char rest ends inside noQuote ih =>
      obtain ⟨spelled, outside⟩ := ih (later plain) inCode
      exact ⟨spelled.trans (congrArg visible (pending.read_push char rest)), outside⟩
  | case9 pending char rest ends boundary ih =>
      have alone := visible_single line boundary
      rw [visible_before, Pending.written_finish]
      cases rest with
      | nil => exact ⟨by rw [alone, ← visible_append]; rfl, rfl⟩
      | cons next after =>
          obtain ⟨-, paired, single⟩ := ih
          have noPair (second : Char) (opens : OpensComment ['/', second]) :
              ¬ (char == '/' && next == second) = true := by
            intro same
            simp only [Bool.and_eq_true, beq_iff_eq] at same
            obtain ⟨rfl, rfl⟩ := same
            exact plain (opens.mono (List.prefix_append ['/', next] after).isInfix)
          dsimp only
          rw [if_neg (noPair '*' (.inr List.infix_rfl)), if_neg (noPair '/' (.inl List.infix_rfl))]
          split
          · obtain ⟨spelled, outside⟩ := paired (later (later plain)) inCode
            refine ⟨?_, outside⟩
            rw [visible_before, spelled, written_pair, ← visible_append, ← visible_append]
            rfl
          · obtain ⟨spelled, outside⟩ := single (later plain) inCode
            refine ⟨?_, outside⟩
            rw [visible_before, spelled, alone, ← visible_append, ← visible_append]
            rfl

theorem scanLines_visible (line : Nat) (lines : List (List Char))
    (plain : ∀ chars ∈ lines, ¬ OpensComment chars) :
    visible (written (scanLines line false lines)) = visible lines.flatten := by
  induction lines generalizing line with
  | nil => rfl
  | cons chars rest ih =>
      rw [List.forall_mem_cons] at plain
      obtain ⟨spelled, outside⟩ := scanLine_visible line (.code .empty) chars plain.1 nofun
      simp only [scanLines, Bool.false_eq_true, if_false]
      rw [written_append, visible_append, spelled, outside, ih (line + 1) plain.2, ← visible_append]
      rfl

/-- The tokens with the number of a line spell a part of this line. -/
theorem scanLines_sublist (line : Nat) (inComment : Bool) (lines : List (List Char))
    (number : Nat) :
    (written ((scanLines line inComment lines).filter fun token =>
        token.line == line + number)).Sublist
      (lines[number]?.getD []) := by
  induction lines generalizing line inComment number with
  | nil => exact .slnil
  | cons chars later ih =>
      have start : (if inComment then Mode.blockComment else .code .empty).read = [] := by
        split <;> rfl
      have spelled :=
        scanLine_sublist line (if inComment then .blockComment else .code .empty) chars
      have kept := scanLine_kept line _ chars (Mode.Replays.start inComment)
      rw [start, List.nil_append] at spelled
      rw [scanLines]
      generalize scanLine line _ chars = scanned at spelled kept ⊢
      have below := (scanLines_ordered (line + 1) scanned.2 later).1.1
      dsimp only
      rw [List.filter_append, written_append]
      cases number with
      | zero =>
          have here : scanned.1.filter (fun token => token.line == line + 0) = scanned.1 :=
            List.filter_eq_self.mpr fun token member => by simpa using (kept token member).line
          have others : (scanLines (line + 1) scanned.2 later).filter
              (fun token => token.line == line + 0) = [] :=
            List.filter_eq_nil_iff.mpr fun token member => by
              have under := below token member
              simpa using Nat.ne_of_gt under
          rw [here, others]
          simpa [written] using spelled
      | succ number =>
          have here : scanned.1.filter (fun token => token.line == line + (number + 1)) = [] :=
            List.filter_eq_nil_iff.mpr fun token member => by
              simp [(kept token member).line]
          rw [here, Nat.add_left_comm, Nat.add_comm number]
          exact ih (line + 1) scanned.2 number

end Lexeme

/-- Scanning loses, doubles and reorders nothing: the tokens of a line spell a subsequence of the
line, the numbers of the lines never go down, and where no comment is opened the tokens spell
all of the source but its white space. -/
theorem tokenize_conserves (source : String) :
    (∀ number, (Token.written ((tokenize source).filter fun token => token.line == number)).Sublist
        (Text.lineAt source.toList number)) ∧
      (tokenize source).Pairwise (fun token later => token.line ≤ later.line) ∧
      (¬ Text.OpensComment source.toList →
        Text.visible (Token.written (tokenize source)) = Text.visible source.toList) := by
  obtain ⟨⟨below, pairs⟩, -⟩ := Lexeme.scanLines_ordered 1 false (Text.lineChars source.toList)
  refine ⟨?_, pairs, ?_⟩
  · rintro (_ | number)
    · have none : (tokenize source).filter (fun token => token.line == 0) = [] :=
        List.filter_eq_nil_iff.mpr fun token member => by
          have under := below token member
          simpa using Nat.ne_of_gt under
      rw [none]
      exact .slnil
    · have spelled :=
        Lexeme.scanLines_sublist 1 false (Text.lineChars source.toList) number
      rwa [Nat.add_comm] at spelled
  · intro plain
    have lines : ∀ chars ∈ Text.lineChars source.toList, ¬ Text.OpensComment chars :=
      fun chars member => mt (·.mono ((Text.lineChars_within source.toList).2 chars member)) plain
    rw [tokenize, Lexeme.scanLines_visible 1 _ lines, Text.visible_lineChars]

/-- White space in quotes, an exponent, a pair of operators and what is no lexeme, on several
lines. -/
theorem tokenize_conserves_quotes :
    let source := "s = \" / *'\";\r\n\nx+=-1.5e-3/ y;'ab' #1a"
    ¬ Text.OpensComment source.toList ∧
      Text.visible (Token.written (tokenize source)) = Text.visible source.toList := by
  intro source
  have plain : ¬ Text.OpensComment source.toList := by
    unfold Text.OpensComment
    decide +kernel
  exact ⟨plain, (tokenize_conserves source).2.2 plain⟩

end StackLang
