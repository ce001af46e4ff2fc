import StackLang.Proofs.Lexeme.Standing

/-!
# Block comments are white space

A block comment behind code counts as a space and the line ends inside it.  What is
pending in front of it is finished by the slash as by the space, and from the end of the
comment on both texts are scanned from the same line.
-/

namespace StackLang

namespace Lexeme

open Text

/-- A text ends outside comments and outside the quotes of a literal that may still be closed. -/
def endsOutside (chars : List Char) : Bool :=
  match standing? (some (.code .empty)) chars with
  | some (.code pending) => !pending.state?.any State.inQuotes
  | _ => false

theorem standing?_of_endsOutside {chars : List Char} (outside : endsOutside chars = true) :
    ∃ pending, standing? (some (.code .empty)) chars = some (.code pending) ∧
      pending.state?.any State.inQuotes = false := by
  rw [endsOutside] at outside
  split at outside
  · next pending stands => exact ⟨pending, stands, Bool.not_eq_true' _ |>.mp outside⟩
  · contradiction

variable {line : Nat} {pending : Pending} {char : Char} {rest : List Char}

/-- Outside quotes a lexeme takes no boundary but a point or a minus sign. -/
theorem Pending.not_takes (outside : pending.state?.any State.inQuotes = false)
    (noPoint : char ≠ '.') (noMinus : char ≠ '-') : ¬ pending.takes char = true := by
  obtain ⟨reversed, state?⟩ := pending
  cases state? with
  | none => exact Bool.false_ne_true
  | some state => cases state <;> simp_all [Pending.takes, State.takes, State.inQuotes]

/-- A space finishes what is pending outside quotes. -/
theorem scanFrom_space (outside : pending.state?.any State.inQuotes = false) :
    scanFrom line (some (.code pending)) (' ' :: rest) =
      pending.finish line ++ scanFrom line (some (.code .empty)) rest := by
  have ends : ¬ pending.takes ' ' = true := Pending.not_takes outside (by decide) (by decide)
  apply scanFrom_char (not_endsLine (by decide) (by decide))
  rw [scanRest, scanLine_end line ends (by decide), scanLine_space]
  rfl

/-- What opens a comment finishes what is pending outside quotes. -/
theorem scanFrom_opening (outside : pending.state?.any State.inQuotes = false) :
    scanFrom line (some (.code pending)) ('/' :: '*' :: rest) =
      pending.finish line ++ scanFrom line (some .blockComment) rest := by
  have ends : ¬ pending.takes '/' = true := Pending.not_takes outside (by decide) (by decide)
  apply scanFrom_pair (not_endsLine (by decide) (by decide)) (not_endsLine (by decide) (by decide))
  exact scanLine_end line ends (by decide)

theorem scanFrom_closing :
    scanFrom line (some .blockComment) ('*' :: '/' :: rest) =
      scanFrom line (some (.code .empty)) rest := by
  rw [← List.nil_append (scanFrom line (some (.code .empty)) rest)]
  apply scanFrom_pair (not_endsLine (by decide) (by decide)) (not_endsLine (by decide) (by decide))
  rw [scanRest, scanLine]
  rfl

theorem lineChars_feed (rest : List Char) : lineChars ('\n' :: rest) = [] :: lineChars rest := by
  rw [lineChars]

/-- A line that ends inside a block comment has no more tokens. -/
theorem scanFrom_hiddenEnd {chars : List Char} (ends : lineChars chars = [] :: lineChars rest) :
    scanFrom line (some .blockComment) chars = scanFrom (line + 1) (some .blockComment) rest := by
  rw [scanFrom_lineEnd ends, scanRest, scanLine]
  rfl

theorem scanFrom_inComment (noFeed : char ≠ '\n') (goesOn : char = '*' → rest.head? ≠ some '/') :
    scanFrom line (some .blockComment) (char :: rest) =
      scanFrom line (some .blockComment) rest := by
  by_cases ends : EndsLine char rest
  · -- a carriage return hides the line feed that is still to come
    rcases ends with feed | ⟨rfl, follows⟩
    · contradiction
    · obtain ⟨after, rfl⟩ := List.head?_eq_some_iff.mp follows
      have both : lineChars ('\r' :: '\n' :: after) = [] :: lineChars after := by rw [lineChars]
      rw [scanFrom_hiddenEnd both, scanFrom_hiddenEnd (lineChars_feed after)]
  · rw [← List.nil_append (scanFrom line (some .blockComment) rest)]
    apply scanFrom_char ends
    exact scanLine_comment fun star first => goesOn star (mem_head?_of_firstLine first)

/-- A block comment is passed by up to what closes it. -/
theorem scanFrom_comment (inside back : List Char) (unclosed : ¬ ['*', '/'] <:+: inside) :
    scanFrom line (some .blockComment) (inside ++ '*' :: '/' :: back) =
      scanFrom (line + inside.count '\n') (some (.code .empty)) back := by
  induction inside generalizing line with
  | nil => exact scanFrom_closing
  | cons char rest ih =>
      have later : ¬ ['*', '/'] <:+: rest :=
        mt (·.trans (List.suffix_cons char rest).isInfix) unclosed
      rw [List.cons_append]
      by_cases feed : char = '\n'
      · subst feed
        rw [scanFrom_hiddenEnd (lineChars_feed _), ih later, List.count_cons_self, Nat.add_assoc,
          Nat.add_comm 1]
      · rw [List.count_cons_of_ne feed, ← ih later]
        apply scanFrom_inComment feed
        rintro rfl first
        cases rest with
        | nil => cases first
        | cons next after =>
            obtain rfl := Option.some.inj first
            exact unclosed (List.prefix_append ['*', '/'] after).isInfix

theorem scanFrom_feeds (count : Nat) (back : List Char) :
    scanFrom line (some (.code .empty)) (List.replicate count '\n' ++ back) =
      scanFrom (line + count) (some (.code .empty)) back := by
  have text (line : Nat) (chars : List Char) :
      scanFrom line (some (.code .empty)) chars = scanText line chars :=
    (scanLines_eq_scanFrom false).symm
  rw [text, text, scanText_feeds]

end Lexeme

/-- A block comment outside comments and quotes is scanned as a space and the line ends inside
it. -/
theorem tokenize_blockComment {front inside back : String}
    (outside : Lexeme.endsOutside front.toList = true)
    (noSlash : front.toList.getLast? ≠ some '/') (unclosed : ¬ ['*', '/'] <:+: inside.toList) :
    tokenize (front ++ "/*" ++ inside ++ "*/" ++ back) =
      tokenize (front ++ " " ++ String.ofList (List.replicate (inside.toList.count '\n') '\n') ++
        back) := by
  obtain ⟨pending, stands, dead⟩ := Lexeme.standing?_of_endsOutside outside
  obtain ⟨tokens, same⟩ :=
    Lexeme.settles 1 (some (.code .empty)) front.toList ⟨noSlash, by simp [stands]⟩
  rw [stands] at same
  have scanned (text : String) :
      tokenize text = Lexeme.scanFrom 1 (some (.code .empty)) text.toList :=
    Lexeme.scanLines_eq_scanFrom false
  have comment := same ('/' :: '*' :: (inside.toList ++ '*' :: '/' :: back.toList))
    fun char first => .inl (Option.some.inj first).symm
  have blank := same (' ' :: (List.replicate (inside.toList.count '\n') '\n' ++ back.toList))
    fun char first => .inr (Option.some.inj first).symm
  rw [Lexeme.scanFrom_opening dead, Lexeme.scanFrom_comment _ _ unclosed] at comment
  rw [Lexeme.scanFrom_space dead, Lexeme.scanFrom_feeds, ← comment] at blank
  rw [scanned, scanned]
  simpa [String.toList_append] using blank.symm

/-- Overlapping signs behind an exponent that goes on with nothing. -/
theorem tokenize_blockComment_overlapping :
    let front := "s = \"/*\"; // \"\r\ny*= 1.5e"
    let inside := "/ a\r\n * \"//\n /**"
    let back := "*/ -2 // */"
    (Lexeme.endsOutside front.toList = true ∧ front.toList.getLast? ≠ some '/' ∧
        ¬ ['*', '/'] <:+: inside.toList) ∧
      tokenize (front ++ "/*" ++ inside ++ "*/" ++ back) =
        tokenize (front ++ " " ++ String.ofList (List.replicate (inside.toList.count '\n') '\n') ++
          back) := by
  intro front inside back
  have outside : Lexeme.endsOutside front.toList = true := by decide +kernel
  have noSlash : front.toList.getLast? ≠ some '/' := by decide +kernel
  have unclosed : ¬ ['*', '/'] <:+: inside.toList := by decide +kernel
  exact ⟨⟨outside, noSlash, unclosed⟩, tokenize_blockComment outside noSlash unclosed⟩

end StackLang
