/-!
# Splitting a text

`splitFirst?` cuts at the first occurrence of a mark and `splitLast?` at the
last one.  The mark itself belongs to neither part.  `dropBytes` cuts behind a
number of bytes, which `cutsAt` allows only between two characters.
-/

namespace StackLang.Text

/-- The parts before and after the first `mark`, if there is one. -/
def splitFirst? (mark : Char) : List Char → Option (List Char × List Char)
  | [] => none
  | char :: rest =>
      if char = mark then some ([], rest)
      else (splitFirst? mark rest).map fun (before, after) => (char :: before, after)

/-- The parts before and after the last `mark`, if there is one. -/
def splitLast? (mark : Char) (chars : List Char) : Option (List Char × List Char) :=
  (splitFirst? mark chars.reverse).map fun (after, before) => (before.reverse, after.reverse)

/-- The characters behind the first `size` bytes of UTF-8. -/
def dropBytes : Nat → List Char → List Char
  | 0, chars => chars
  | _, [] => []
  | size + 1, char :: rest => dropBytes (size + 1 - char.utf8Size) rest

/-- Whether the first `size` bytes of UTF-8 are whole characters. -/
def cutsAt : Nat → List Char → Bool
  | 0, _ => true
  | _ + 1, [] => false
  | size + 1, char :: rest => char.utf8Size ≤ size + 1 && cutsAt (size + 1 - char.utf8Size) rest

/-- The two parts at the first mark, with the mark between them, make up the text. -/
theorem eq_of_splitFirst? {mark : Char} {chars before after : List Char}
    (split : splitFirst? mark chars = some (before, after)) :
    chars = before ++ mark :: after := by
  induction chars generalizing before after with
  | nil => simp [splitFirst?] at split
  | cons char rest ih =>
      by_cases same : char = mark
      · simp only [splitFirst?, same, ↓reduceIte, Option.some.injEq, Prod.mk.injEq] at split
        simp [same, ← split.1, ← split.2]
      · simp only [splitFirst?, same, ↓reduceIte, Option.map_eq_some_iff] at split
        obtain ⟨⟨tailBefore, tailAfter⟩, tailSplit, pairEq⟩ := split
        cases pairEq
        simp [ih tailSplit]

/-- A text is cut at its first mark. -/
theorem splitFirst?_append {mark : Char} {before : List Char} (absent : mark ∉ before)
    (after : List Char) : splitFirst? mark (before ++ mark :: after) = some (before, after) := by
  induction before with
  | nil => simp [splitFirst?]
  | cons char rest ih =>
      simp only [List.mem_cons, not_or] at absent
      simp [splitFirst?, Ne.symm absent.1, ih absent.2]

/-- A text is cut at its first mark, and nowhere else. -/
theorem splitFirst?_eq_some_iff {mark : Char} {chars before after : List Char} :
    splitFirst? mark chars = some (before, after) ↔
      mark ∉ before ∧ chars = before ++ mark :: after := by
  constructor
  · intro split
    refine ⟨?_, eq_of_splitFirst? split⟩
    induction chars generalizing before after with
    | nil => simp [splitFirst?] at split
    | cons char rest ih =>
        by_cases same : char = mark
        · simp only [splitFirst?, same, ↓reduceIte, Option.some.injEq, Prod.mk.injEq] at split
          simp [← split.1]
        · simp only [splitFirst?, same, ↓reduceIte, Option.map_eq_some_iff] at split
          obtain ⟨⟨tailBefore, tailAfter⟩, tailSplit, pairEq⟩ := split
          cases pairEq
          simp [Ne.symm same, ih tailSplit]
  · rintro ⟨absent, rfl⟩
    exact splitFirst?_append absent after

/-- A text without the mark is not cut. -/
theorem splitFirst?_eq_none_iff {mark : Char} {chars : List Char} :
    splitFirst? mark chars = none ↔ mark ∉ chars := by
  induction chars with
  | nil => simp [splitFirst?]
  | cons char rest ih =>
      by_cases same : char = mark
      · simp [splitFirst?, same]
      · simp [splitFirst?, same, Ne.symm same, ih]

/-- A text is cut at its last mark. -/
theorem splitLast?_append {mark : Char} {after : List Char} (absent : mark ∉ after)
    (before : List Char) : splitLast? mark (before ++ mark :: after) = some (before, after) := by
  have unmarked : mark ∉ after.reverse := by simpa using absent
  have reversed := splitFirst?_append unmarked before.reverse
  simp [splitLast?, reversed]

/-- A text is cut at its last mark, and nowhere else. -/
theorem splitLast?_eq_some_iff {mark : Char} {chars before after : List Char} :
    splitLast? mark chars = some (before, after) ↔
      mark ∉ after ∧ chars = before ++ mark :: after := by
  constructor
  · intro split
    obtain ⟨⟨back, front⟩, reversed, pairEq⟩ := Option.map_eq_some_iff.mp split
    obtain ⟨absent, parts⟩ := splitFirst?_eq_some_iff.mp reversed
    cases pairEq
    constructor
    · simpa using absent
    · simpa using congrArg List.reverse parts
  · rintro ⟨absent, rfl⟩
    exact splitLast?_append absent before

end StackLang.Text
