import StackLang.Lexeme.Scan
import StackLang.Proofs.Lexeme.Shape

/-!
# What scanning recognises

A token of a source text is an operator, a delimiter, or a lexeme whose kind the
states tell from its characters.
-/

namespace StackLang

namespace Lexeme

/-- A token as the scanner makes it. -/
inductive Recognised (token : Token) : Prop where
  | mark (fixed : token.kind = .operator ∨ token.kind = .delimiter)
  | lexeme (nonempty : token.value.toList ≠ [])
      (kind : token.kind = kindOf token.value (State.start.run? token.value.toList))

theorem State.run?_append (state : State) (front back : List Char) :
    state.run? (front ++ back) = (state.run? front).bind fun middle => middle.run? back := by
  induction front generalizing state with
  | nil => rfl
  | cons char rest ih =>
      simp only [List.cons_append, run?]
      cases state.next? char with
      | none => rfl
      | some next => exact ih next

namespace Pending

/-- The state is the one that the characters lead to. -/
def Sound (pending : Pending) : Prop :=
  pending.state? = State.start.run? pending.reversed.reverse

theorem Sound.empty : Sound .empty := rfl

theorem Sound.push {pending : Pending} (sound : pending.Sound) (char : Char) :
    (pending.push char).Sound := by
  show pending.state?.bind _ = State.start.run? (char :: pending.reversed).reverse
  rw [List.reverse_cons, State.run?_append, sound]
  apply congrArg
  funext state
  exact (Option.bind_fun_some (state.next? char)).symm

theorem Sound.finish {pending : Pending} (sound : pending.Sound) (line : Nat) :
    ∀ token ∈ pending.finish line, Recognised token := by
  intro token member
  rw [Pending.finish] at member
  split at member
  · contradiction
  · next something =>
      obtain rfl := List.mem_singleton.mp member
      apply Recognised.lexeme
      · simpa using something
      · show kindOf _ pending.state? = _
        rw [sound, String.toList_ofList]

end Pending

theorem single_recognised (line : Nat) (char : Char) :
    ∀ token ∈ single line char, Recognised token := by
  intro token member
  rw [single] at member
  repeat' split at member
  · exact .mark (.inl (List.mem_singleton.mp member ▸ rfl))
  · exact .mark (.inr (List.mem_singleton.mp member ▸ rfl))
  · contradiction

/-- What the scanner has read fits its state. -/
def Mode.Sound : Mode → Prop
  | .code pending => pending.Sound
  | .blockComment => True

theorem before_recognised {tokens : List Token} {rest : List Token × Bool}
    (front : ∀ token ∈ tokens, Recognised token) (back : ∀ token ∈ rest.1, Recognised token) :
    ∀ token ∈ (before tokens rest).1, Recognised token := by
  intro token member
  rcases List.mem_append.mp member with first | later
  · exact front token first
  · exact back token later

theorem scanLine_recognised (line : Nat) (mode : Mode) (chars : List Char) (sound : mode.Sound) :
    ∀ token ∈ (scanLine line mode chars).1, Recognised token := by
  fun_induction scanLine line mode chars with
  | case1 => simp
  | case2 rest ih => exact ih Pending.Sound.empty
  | case3 head rest _ ih => exact ih trivial
  | case4 pending => exact Pending.Sound.finish sound line
  | case5 pending char rest _ _ _ ih =>
      exact before_recognised ((Pending.Sound.push sound char).finish line) (ih Pending.Sound.empty)
  | case6 pending char rest _ _ _ ih => exact ih (Pending.Sound.push sound char)
  | case7 pending char rest _ _ _ ih =>
      exact before_recognised (Pending.Sound.finish sound line) (ih (Pending.Sound.empty.push char))
  | case8 pending char rest _ _ _ ih => exact ih (Pending.Sound.push sound char)
  | case9 pending char rest _ _ ih =>
      apply before_recognised (Pending.Sound.finish sound line)
      cases rest with
      | nil => exact single_recognised line char
      | cons next after =>
          obtain ⟨comment, pair, alone⟩ := ih
          dsimp only
          split
          · exact comment trivial
          split
          · simp
          split
          · apply before_recognised _ (pair Pending.Sound.empty)
            intro token member
            exact .mark (.inl (List.mem_singleton.mp member ▸ rfl))
          · exact before_recognised (single_recognised line char) (alone Pending.Sound.empty)

theorem scanLines_recognised (line : Nat) (inComment : Bool) (lines : List (List Char)) :
    ∀ token ∈ scanLines line inComment lines, Recognised token := by
  induction lines generalizing line inComment with
  | nil => exact fun _ impossible => absurd impossible List.not_mem_nil
  | cons chars later ih =>
      intro token member
      rcases List.mem_append.mp member with here | below
      · refine scanLine_recognised line _ chars ?_ token here
        cases inComment with
        | false => exact Pending.Sound.empty
        | true => trivial
      · exact ih _ _ token below

end Lexeme

/-- Every token of a source text is recognised by its characters. -/
theorem tokenize_recognised (source : String) :
    ∀ token ∈ tokenize source, Lexeme.Recognised token :=
  Lexeme.scanLines_recognised 1 false (Text.lineChars source.toList)

end StackLang
