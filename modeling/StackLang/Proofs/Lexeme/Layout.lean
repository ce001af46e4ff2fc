import StackLang.Proofs.Lexeme.Rescan
import StackLang.Token.Layout

/-!
# Tokens that are laid out

A source without errors is scanned, its tokens are laid out as text, and the text is
scanned again: the tokens are the same.  The proof goes through the layout token by token,
where a gap leads to the line of the next token or to a space in front of it.
-/

namespace StackLang

namespace Text

/-- Characters in front of the lines of a text. -/
def prepend (word : List Char) : List (List Char) → List (List Char)
  | [] => [word]
  | line :: later => (word ++ line) :: later

/-- A character ends a line, a carriage return only together with what follows it. -/
def EndsLine (char : Char) (rest : List Char) : Prop :=
  char = '\n' ∨ char = '\r' ∧ rest.head? = some '\n'

theorem not_endsLine {char : Char} {rest : List Char} (noFeed : char ≠ '\n')
    (noReturn : char ≠ '\r') : ¬ EndsLine char rest := by
  rintro (feed | ⟨carriage, -⟩)
  · exact noFeed feed
  · exact noReturn carriage

theorem lineChars_inside {char : Char} {rest : List Char} (inside : ¬ EndsLine char rest) :
    lineChars (char :: rest) = prepend [char] (lineChars rest) := by
  rw [lineChars]
  · cases lineChars rest <;> rfl
  · exact fun feed => inside (.inl feed)
  · rintro after carriage rfl
    exact inside (.inr ⟨carriage, rfl⟩)

theorem lineChars_cons {char : Char} (noFeed : char ≠ '\n') (noReturn : char ≠ '\r')
    (rest : List Char) : lineChars (char :: rest) = prepend [char] (lineChars rest) :=
  lineChars_inside (not_endsLine noFeed noReturn)

/-- Characters that break no line stand at the start of the first one. -/
theorem lineChars_word {word : List Char} (nonempty : word ≠ []) (noFeed : '\n' ∉ word)
    (noReturn : '\r' ∉ word) (rest : List Char) :
    lineChars (word ++ rest) = prepend word (lineChars rest) := by
  induction word with
  | nil => contradiction
  | cons char more ih =>
      rw [List.mem_cons, not_or] at noFeed noReturn
      rw [List.cons_append, lineChars_cons (Ne.symm noFeed.1) (Ne.symm noReturn.1)]
      cases more with
      | nil => rfl
      | cons second others =>
          rw [ih (List.cons_ne_nil _ _) noFeed.2 noReturn.2]
          cases lineChars rest <;> rfl

end Text

namespace Lexeme

open Text

/-- The tokens of a text whose first line has a number. -/
def scanText (line : Nat) (chars : List Char) : List Token :=
  scanLines line false (lineChars chars)

variable {line : Nat} {token : Token} {rest : List Char}

theorem scanText_feed : scanText line ('\n' :: rest) = scanText (line + 1) rest := by
  rw [scanText, lineChars, scanLines]
  rfl

theorem scanText_feeds (count : Nat) :
    scanText line (List.replicate count '\n' ++ rest) = scanText (line + count) rest := by
  induction count generalizing line with
  | zero => rfl
  | succ fewer ih =>
      rw [List.replicate_succ, List.cons_append, scanText_feed, ih, Nat.add_right_comm]
      rfl

theorem scanText_space : scanText line (' ' :: rest) = scanText line rest := by
  rw [scanText, scanText, lineChars_cons (by decide) (by decide)]
  cases lineChars rest with
  | nil => rfl
  | cons first later =>
      show scanLines line false ((' ' :: first) :: later) = _
      simp only [scanLines, Bool.false_eq_true, if_false, scanLine_space]

/-- The rest of a text that begins with a gap, if with anything. -/
def Apart (rest : List Char) : Prop := ∀ char ∈ rest.head?, char = '\n' ∨ char = ' '

theorem Apart.separate {first : List Char} {later : List (List Char)} (apart : Apart rest)
    (lines : lineChars rest = first :: later) : Separate first := by
  cases rest with
  | nil =>
      rw [lineChars] at lines
      contradiction
  | cons char more =>
      rcases apart char rfl with rfl | rfl
      · rw [lineChars] at lines
        obtain ⟨rfl, -⟩ := List.cons.inj lines
        exact nofun
      · rw [lineChars_cons (by decide) (by decide)] at lines
        cases others : lineChars more with
        | nil =>
            rw [others] at lines
            obtain ⟨rfl, -⟩ := List.cons.inj lines
            exact fun char same => (Option.some.inj same).symm
        | cons next following =>
            rw [others] at lines
            obtain ⟨rfl, -⟩ := List.cons.inj lines
            exact fun char same => (Option.some.inj same).symm

/-- A token in front of a gap is scanned first. -/
theorem Rescanned.scanText (rescanned : Rescanned token) (apart : Apart rest) :
    scanText token.line (token.value.toList ++ rest) = token :: scanText token.line rest := by
  rw [Lexeme.scanText, Lexeme.scanText,
    lineChars_word rescanned.nonempty rescanned.noFeed rescanned.noReturn]
  cases lines : lineChars rest with
  | nil =>
      have scans := rescanned.scans [] nofun
      rw [List.append_nil] at scans
      simp only [prepend, scanLines, Bool.false_eq_true, if_false, scans]
      rfl
  | cons first later =>
      have scans := rescanned.scans first (apart.separate lines)
      simp only [prepend, scanLines, Bool.false_eq_true, if_false, scans]
      rfl

end Lexeme

namespace Token

open Lexeme

variable {tokens : List Token}

theorem layoutFrom_apart {last : Char} (visible : last ≠ '\n') (line : Nat) :
    Apart (layoutFrom (some last) line tokens) := by
  cases tokens with
  | nil => exact nofun
  | cons token rest =>
      rw [layoutFrom, gap]
      split
      · next below =>
          obtain ⟨count, lines⟩ := Nat.exists_eq_add_of_lt below
          have feeds : token.line - line = count + 1 := by omega
          rw [feeds]
          exact fun char same => .inl (Option.some.inj same).symm
      · rw [if_neg (by simpa using visible)]
        exact fun char same => .inr (Option.some.inj same).symm

/-- A gap leads to the line of the next token. -/
theorem scanText_gap (last : Option Char) {line : Nat} {token : Token} (below : line ≤ token.line)
    (rest : List Char) : scanText line (gap last line token ++ rest) = scanText token.line rest := by
  rw [gap]
  split
  · rw [scanText_feeds, Nat.add_sub_cancel' below]
  · next noFeed =>
      obtain rfl : line = token.line := Nat.le_antisymm below (Nat.le_of_not_lt noFeed)
      split
      · rfl
      · exact scanText_space

/-- Tokens in the order of their lines. -/
def Ordered (line : Nat) (tokens : List Token) : Prop :=
  (∀ token ∈ tokens, line ≤ token.line) ∧ tokens.Pairwise fun token later => token.line ≤ later.line

/-- The layout of tokens in the order of their lines is scanned again. -/
theorem scanText_layoutFrom (last : Option Char) {line : Nat} (ordered : Ordered line tokens)
    (rescanned : ∀ token ∈ tokens, Rescanned token) :
    scanText line (layoutFrom last line tokens) = tokens := by
  induction tokens generalizing last line with
  | nil => rfl
  | cons token rest ih =>
      obtain ⟨below, pairs⟩ := ordered
      rw [List.pairwise_cons] at pairs
      have here := rescanned token List.mem_cons_self
      have under := below token List.mem_cons_self
      obtain ⟨char, ends⟩ : ∃ char, token.value.toList.getLast? = some char :=
        ⟨_, List.getLast?_eq_some_getLast here.nonempty⟩
      have visible : char ≠ '\n' := by
        rintro rfl
        exact here.noFeed (List.mem_of_getLast? ends)
      have written : (gap last line token ++ token.value.toList).getLast?.or last = some char := by
        rw [List.getLast?_append, ends]
        rfl
      have later := ih (some char) ⟨pairs.1, pairs.2⟩
        fun other member => rescanned other (List.mem_cons_of_mem _ member)
      rw [layoutFrom, written, Nat.max_eq_right under, List.append_assoc, scanText_gap last under,
        here.scanText (layoutFrom_apart visible _), later]

end Token

namespace Lexeme

open Token

theorem Mode.Replays.start (inComment : Bool) :
    (if inComment then Mode.blockComment else .code .empty).Replays := by
  split
  · trivial
  · exact Pending.Replays.empty

theorem scanLines_ordered (line : Nat) (inComment : Bool) (lines : List (List Char)) :
    Ordered line (scanLines line inComment lines) ∧
      ∀ token ∈ scanLines line inComment lines, token.kind ≠ .error → Rescanned token := by
  induction lines generalizing line inComment with
  | nil => exact ⟨⟨nofun, .nil⟩, nofun⟩
  | cons chars later ih =>
      have kept := scanLine_kept line _ chars (Mode.Replays.start inComment)
      rw [scanLines]
      generalize scanLine line _ chars = scanned at kept ⊢
      obtain ⟨⟨below, pairs⟩, rescanned⟩ := ih (line + 1) scanned.2
      refine ⟨⟨?_, ?_⟩, ?_⟩
      · rw [List.forall_mem_append]
        exact ⟨fun token member => Nat.le_of_eq (kept token member).line.symm,
          fun token member => Nat.le_of_succ_le (below token member)⟩
      · rw [List.pairwise_append]
        refine ⟨?_, pairs, ?_⟩
        · apply List.pairwise_of_forall_mem_list
          intro token here other there
          exact Nat.le_of_eq ((kept token here).line.trans (kept other there).line.symm)
        · intro token here other there
          rw [(kept token here).line]
          exact Nat.le_of_succ_le (below other there)
      · rw [List.forall_mem_append]
        exact ⟨fun token member => (kept token member).rescanned, rescanned⟩

end Lexeme

/-- Laying out the tokens of a source without lexical errors and scanning them again gives
the same tokens, on the same lines. -/
theorem tokenize_layout (source : String)
    (clean : ∀ token ∈ tokenize source, token.kind ≠ .error) :
    tokenize (Token.layout (tokenize source)) = tokenize source := by
  obtain ⟨ordered, rescanned⟩ :=
    Lexeme.scanLines_ordered 1 false (Text.lineChars source.toList)
  rw [tokenize, Token.layout, String.toList_ofList]
  exact Token.scanText_layoutFrom none ordered fun token member =>
    rescanned token member (clean token member)

/-- Quotes, exponents, comments and operators that would go together. -/
theorem tokenize_layout_comment :
    let source := "x =- 1.5e-3 /* a\n // b */ + +y; s = \"// it's\";c='\"'\n\n>= =2"
    (∀ token ∈ tokenize source, token.kind ≠ .error) ∧
      tokenize (Token.layout (tokenize source)) = tokenize source := by
  intro source
  have clean : ∀ token ∈ tokenize source, token.kind ≠ .error := by
    have checked : (tokenize source).all (fun token => decide (token.kind ≠ .error)) = true := by
      decide +kernel
    simpa using checked
  exact ⟨clean, tokenize_layout source clean⟩

end StackLang
