/-!
The character classes of the lexical grammar.

Every class is drawn from ASCII. A letter, digit or space beyond it
belongs to no class, which is why the first such character of a source
always stops the scan.
-/

namespace MiniC.Text

/-- Blanks separate lexemes and leave no token. -/
def isBlank (c : Char) : Bool :=
  c == ' ' || c == '\t' || c == '\n' || c == '\r'

/-- What may follow the first letter of a name. -/
def isNameChar (c : Char) : Bool :=
  c.isAlphanum || c == '_'

/-- What words and numbers are made of, the underscore and the decimal
point included: two lexemes that meet at such characters on both sides
cannot be told apart without a blank. -/
def isRunChar (c : Char) : Bool :=
  isNameChar c || c == '.'

/-- Spaces and tabs, the blanks that indent a line. -/
def isIndent (c : Char) : Bool :=
  c == ' ' || c == '\t'

-- ================================================ how the classes nest

theorem isNameChar_of_isAlpha {c : Char} (h : c.isAlpha = true) :
    isNameChar c = true := by
  simp [isNameChar, Char.isAlphanum, h]

theorem isNameChar_of_isDigit {c : Char} (h : c.isDigit = true) :
    isNameChar c = true := by
  simp [isNameChar, Char.isAlphanum, h]

theorem isRunChar_of_isNameChar {c : Char} (h : isNameChar c = true) :
    isRunChar c = true := by
  simp [isRunChar, h]

theorem isBlank_of_isIndent {c : Char} (h : isIndent c = true) :
    isBlank c = true := by
  simp only [isIndent, isBlank, Bool.or_eq_true] at *
  rcases h with h | h
  · exact Or.inl (Or.inl (Or.inl h))
  · exact Or.inl (Or.inl (Or.inr h))

-- ============================================== how they stand apart

/-- The four blanks, one by one. -/
theorem isBlank_cases {c : Char} (h : isBlank c = true) :
    c = ' ' ∨ c = '\t' ∨ c = '\n' ∨ c = '\r' := by
  simpa only [isBlank, Bool.or_eq_true, beq_iff_eq, or_assoc] using h

theorem isRunChar_of_isBlank {c : Char} (h : isBlank c = true) :
    isRunChar c = false := by
  rcases isBlank_cases h with rfl | rfl | rfl | rfl <;> rfl

theorem isBlank_of_isRunChar {c : Char} (h : isRunChar c = true) :
    isBlank c = false := by
  cases hblank : isBlank c with
  | false => rfl
  | true =>
    rw [isRunChar_of_isBlank hblank] at h
    cases h

theorem isDigit_of_isAlpha {c : Char} (h : c.isAlpha = true) :
    c.isDigit = false := by
  have hlt : '9'.val < c.val := by
    rcases Bool.or_eq_true_iff.mp h with hupper | hlower
    · exact UInt32.lt_of_lt_of_le (by decide) (of_decide_eq_true hupper).1
    · have hle := (Bool.and_eq_true_iff.mp hlower).1
      exact UInt32.lt_of_lt_of_le (by decide) (of_decide_eq_true hle)
  exact Bool.and_eq_false_iff.mpr
    (Or.inr (decide_eq_false (UInt32.not_le.mpr hlt)))

end MiniC.Text
