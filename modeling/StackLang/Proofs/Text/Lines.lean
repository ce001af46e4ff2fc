import StackLang.Text.Blank
import StackLang.Text.Lines

/-!
# Lines and blanks that are read back

Lines without line feeds are read back from the text that they make up, unless
one of them ends in a carriage return.  Trimming leaves a text alone whose ends
are not blank.
-/

namespace StackLang.Text

/-- A property of all characters of a fixed text is checked one by one. -/
theorem forall_of_all {chars : List Char} {property : Char → Prop} [DecidablePred property]
    (checked : chars.all (fun char => decide (property char)) = true) :
    ∀ char ∈ chars, property char := by
  simpa using checked

theorem lineChars_append {line : List Char} (noBreak : '\n' ∉ line)
    (noReturn : line.getLast? ≠ some '\r') (rest : List Char) :
    lineChars (line ++ '\n' :: rest) = line :: lineChars rest := by
  induction line with
  | nil => rw [List.nil_append, lineChars]
  | cons char later ih =>
      rw [List.mem_cons, not_or] at noBreak
      have follows : later.getLast? ≠ some '\r' := by
        intro same
        cases later with
        | nil => contradiction
        | cons second more => exact noReturn (by rw [List.getLast?_cons_cons, same])
      have tail := ih noBreak.2 follows
      rw [List.cons_append]
      generalize lineChars rest = others at tail ⊢
      unfold lineChars
      split
      · contradiction
      · next same =>
          obtain ⟨rfl, -⟩ := List.cons.inj same
          exact absurd rfl noBreak.1
      · next after same =>
          -- a carriage return at the end of the line is excluded
          obtain ⟨rfl, ends⟩ := List.cons.inj same
          cases later with
          | nil => exact absurd rfl noReturn
          | cons second more =>
              obtain ⟨rfl, -⟩ := List.cons.inj ends
              exact absurd (List.mem_cons_self) noBreak.2
      · next first after _ _ same =>
          obtain ⟨rfl, rfl⟩ := List.cons.inj same
          rw [tail]

theorem toList_unlines_cons (line : String) (rest : List String) :
    (unlines (line :: rest)).toList = line.toList ++ '\n' :: (unlines rest).toList := by
  rw [unlines, List.map_cons, String.join_cons, String.toList_append, String.toList_append,
    List.append_assoc]
  rfl

/-- A line that is read back. -/
def Clean (line : String) : Prop := '\n' ∉ line.toList ∧ line.toList.getLast? ≠ some '\r'

/-- Lines are read back in front of any text. -/
theorem lineChars_unlines {texts : List String} (clean : ∀ line ∈ texts, Clean line)
    (back : List Char) :
    lineChars ((unlines texts).toList ++ back) = texts.map String.toList ++ lineChars back := by
  induction texts with
  | nil => rfl
  | cons line rest ih =>
      have first := clean line List.mem_cons_self
      have others := ih fun other member => clean other (List.mem_cons_of_mem _ member)
      rw [toList_unlines_cons, List.append_assoc, List.cons_append,
        lineChars_append first.1 first.2, others]
      rfl

/-- Lines are read back. -/
theorem lines_unlines {texts : List String} (clean : ∀ line ∈ texts, Clean line) :
    lines (unlines texts) = texts := by
  have read := lineChars_unlines clean []
  rw [List.append_nil, lineChars, List.append_nil] at read
  rw [lines, read, List.map_map]
  simp [Function.comp_def]

/-- The visible characters of ASCII are not blank. -/
theorem isBlank_of_range {char : Char} (low : 33 ≤ char.toNat) (high : char.toNat ≤ 126) :
    isBlank char = false := by
  simp only [isBlank, Bool.or_eq_false_iff, Bool.and_eq_false_iff, decide_eq_false_iff_not,
    beq_eq_false_iff_ne]
  omega

theorem isBlank_of_isDigit {char : Char} (digit : char.isDigit = true) : isBlank char = false := by
  have bounds : 48 ≤ char.toNat ∧ char.toNat ≤ 57 := by
    simpa [Char.isDigit, UInt32.le_iff_toNat_le] using digit
  exact isBlank_of_range (by omega) (by omega)

/-- The ends of a text are not blank. -/
def Tight (chars : List Char) : Prop :=
  (∀ char ∈ chars.head?, isBlank char = false) ∧ ∀ char ∈ chars.getLast?, isBlank char = false

theorem clean_of_tight {line : String} (tight : Tight line.toList) (unbroken : '\n' ∉ line.toList) :
    Clean line := by
  refine ⟨unbroken, ?_⟩
  intro last
  exact absurd (tight.2 '\r' last) (by decide)

theorem tight_of_all {chars : List Char} (visible : ∀ char ∈ chars, isBlank char = false) :
    Tight chars := by
  constructor
  · intro char first
    exact visible char (List.mem_of_mem_head? first)
  · intro char last
    exact visible char (List.mem_of_mem_getLast? last)

theorem Tight.append {front back : List Char} (first : Tight front) (last : Tight back)
    (frontNonempty : front ≠ []) (backNonempty : back ≠ []) (middle : List Char) :
    Tight (front ++ (middle ++ back)) := by
  constructor
  · cases front with
    | nil => contradiction
    | cons char rest => exact first.1
  · intro char member
    apply last.2
    have ends : back.getLast? = some (back.getLast backNonempty) :=
      List.getLast?_eq_some_getLast backNonempty
    rw [List.getLast?_append, List.getLast?_append, ends] at member
    rw [ends]
    exact member

theorem dropWhile_of_head {chars : List Char} {drops : Char → Bool}
    (stays : ∀ char ∈ chars.head?, drops char = false) : chars.dropWhile drops = chars := by
  cases chars with
  | nil => rfl
  | cons char rest => rw [List.dropWhile_cons_of_neg (by simp [stays char rfl])]

/-- The characters without the blanks at their end. -/
def trimEnd (chars : List Char) : List Char := (chars.reverse.dropWhile isBlank).reverse

theorem trimEnd_of_getLast? {chars : List Char}
    (visible : ∀ char ∈ chars.getLast?, isBlank char = false) : trimEnd chars = chars := by
  rw [trimEnd, dropWhile_of_head, List.reverse_reverse]
  simpa using visible

theorem trimEnd_append {front : List Char}
    (visible : ∀ char ∈ front.getLast?, isBlank char = false) (back : List Char) :
    trimEnd (front ++ back) = front ++ trimEnd back := by
  have last : front.reverse.dropWhile isBlank = front.reverse := by
    apply dropWhile_of_head
    simpa using visible
  rw [trimEnd, List.reverse_append, List.dropWhile_append, last, trimEnd]
  split
  · next empty =>
      rw [List.isEmpty_iff.mp empty]
      simp
  · rw [List.reverse_append, List.reverse_reverse]

/-- Trimming leaves a part alone that ends are cut off behind. -/
theorem trimChars_append {front : List Char} (tight : Tight front) (nonempty : front ≠ [])
    (back : List Char) : trimChars (front ++ back) = front ++ trimEnd back := by
  have first : (front ++ back).dropWhile isBlank = front ++ back := by
    apply dropWhile_of_head
    cases front with
    | nil => contradiction
    | cons char rest => exact tight.1
  rw [← trimEnd_append tight.2, trimChars, first, trimEnd]

theorem mem_of_mem_trimChars {char : Char} {chars : List Char} (member : char ∈ trimChars chars) :
    char ∈ chars := by
  rw [trimChars, List.mem_reverse] at member
  have inside := (List.dropWhile_suffix isBlank).mem member
  exact (List.dropWhile_suffix isBlank).mem (List.mem_reverse.mp inside)

/-- Nothing is left to be trimmed. -/
theorem tight_trimChars (chars : List Char) : Tight (trimChars chars) := by
  have stops (text : List Char) : ∀ char ∈ (text.dropWhile isBlank).head?,
      isBlank char = false := by
    intro char first
    have stopped := List.head?_dropWhile_not isBlank text
    rw [first] at stopped
    exact stopped
  constructor
  · intro char first
    apply stops chars
    rw [trimChars] at first
    obtain ⟨dropped, parts⟩ := List.dropWhile_suffix (l := (chars.dropWhile isBlank).reverse) isBlank
    rw [← List.reverse_reverse (chars.dropWhile isBlank), ← parts, List.reverse_append,
      List.head?_append, first]
    rfl
  · intro char last
    rw [trimChars, List.getLast?_reverse] at last
    exact stops _ char last

theorem trimChars_tight {chars : List Char} (tight : Tight chars) : trimChars chars = chars := by
  have last : chars.reverse.dropWhile isBlank = chars.reverse := by
    apply dropWhile_of_head
    rw [List.head?_reverse]
    exact tight.2
  rw [trimChars, dropWhile_of_head tight.1, last, List.reverse_reverse]

theorem trimChars_space (chars : List Char) : trimChars (' ' :: chars) = trimChars chars := by
  rw [trimChars, List.dropWhile_cons_of_pos (by decide)]
  rfl

theorem trim_tight {text : String} (tight : Tight text.toList) : trim text = text := by
  rw [trim, trimChars_tight tight, String.ofList_toList]

end StackLang.Text
