import MiniC.Proofs.Lexical.Shape
import MiniC.Token.Kind

/-!
The texts that kinds are read from.

A kind is spelled by texts (`Kind.Spells`): a punctuator and a keyword by
one, an identifier by its name, a constant by every number of its value.
The reserved words are taken out of the names, so that a text spells one
kind at most.
-/

namespace MiniC

open Text

/-- The texts that a kind is read from. -/
inductive Kind.Spells : Kind → List Char → Prop
  | punctuator (p : Punctuator) : Spells (.punctuator p) [p.char]
  | keyword (k : Keyword) : Spells (.keyword k) k.word.toList
  | identifier {l : List Char} : IsWord l →
      (∀ k : Keyword, k.word.toList ≠ l) →
      Spells (.identifier (String.ofList l)) l
  | constant {l : List Char} : IsNumber l →
      Spells (.constant (Number.ofLiteral l)) l

theorem Keyword.isWord (k : Keyword) : IsWord k.word.toList := by
  cases k <;> exact ⟨_, _, rfl, rfl, List.all_eq_true.mp rfl⟩

theorem Punctuator.isRunChar_char (p : Punctuator) :
    isRunChar p.char = false := by
  cases p <;> rfl

theorem Punctuator.isBlank_char (p : Punctuator) : isBlank p.char = false := by
  cases p <;> rfl

@[simp] theorem Kind.ofWord_word (k : Keyword) :
    Kind.ofWord k.word.toList = .keyword k := by
  rw [Kind.ofWord, String.ofList_toList, Keyword.ofWord?_eq_some_iff.mpr rfl]

theorem Kind.ofWord_of_ne {l : List Char}
    (h : ∀ k : Keyword, k.word.toList ≠ l) :
    Kind.ofWord l = .identifier (String.ofList l) := by
  unfold Kind.ofWord
  cases hk : Keyword.ofWord? (String.ofList l) with
  | none => rfl
  | some k =>
    refine absurd ?_ (h k)
    rw [← Keyword.ofWord?_eq_some_iff.mp hk, String.toList_ofList]

/-- A word spells its keyword, and a name otherwise. -/
theorem Kind.spells_ofWord {l : List Char} (h : IsWord l) :
    (Kind.ofWord l).Spells l := by
  by_cases hk : ∃ k : Keyword, k.word.toList = l
  · obtain ⟨k, rfl⟩ := hk
    rw [Kind.ofWord_word]
    exact .keyword k
  · rw [not_exists] at hk
    rw [Kind.ofWord_of_ne hk]
    exact .identifier h hk

/-- What spells a kind is its only spelling where it has one. -/
theorem Kind.Spells.eq_of_lexeme? {k : Kind} {l : List Char} {x : String}
    (h : k.Spells l) (hx : k.lexeme? = some x) : l = x.toList := by
  cases h with
  | punctuator p =>
    cases hx
    exact (String.toList_singleton p.char).symm
  | keyword k =>
    cases hx
    rfl
  | identifier _ _ => cases hx
  | constant _ => cases hx

/-- A lexeme is a punctuator or a whole run. -/
theorem Kind.Spells.cases {k : Kind} {l : List Char} (h : k.Spells l) :
    (∃ p : Punctuator, l = [p.char]) ∨ IsWord l ∨ IsNumber l := by
  cases h with
  | punctuator p => exact Or.inl ⟨p, rfl⟩
  | keyword k => exact Or.inr (Or.inl k.isWord)
  | identifier hw _ => exact Or.inr (Or.inl hw)
  | constant hn => exact Or.inr (Or.inr hn)

end MiniC
