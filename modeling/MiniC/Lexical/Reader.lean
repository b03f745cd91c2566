import MiniC.Cursor

/-!
The scan as work with a cursor.

# Rules

A `Reader` has a cursor and the tokens found so far, and it knows of its source
only what the cursor answers. A rule asks for its match, and perhaps for more,
and goes on behind the match; a punctuator goes on by the length of its
spelling, without asking. To ask where there is no text stops the reader
(`Stop.misplaced`), which is not to be taken for a fault of the source.

# The loop

As long as the cursor is not at the end, the first rule that fits is followed
(`step`), and it moves the cursor on by at least one byte
(`offset_lt_of_step`). So there is an end to it (`run`).
-/

namespace MiniC

/-- Why a reader stops before the end of its source. -/
inductive Stop where
  | misplaced (m : Misplaced)
  | diagnosed (d : Diagnostic)
deriving DecidableEq

/-- A cursor into a source and the tokens before it, the latest first. -/
structure Reader where
  cursor : Cursor
  found : List Token
deriving DecidableEq

namespace Reader

/-- The reader at the start of a source. -/
def start (source : String) (file : Option String) : Reader :=
  ⟨Cursor.start source file, []⟩

/-- An answer of the cursor, which it owes where it is misplaced. -/
def ask {α : Type} (answer : Except Misplaced α) : Except Stop α :=
  answer.mapError .misplaced

/-- The reader `length` bytes further on. -/
def advance (r : Reader) (length : Nat) : Reader :=
  { r with cursor := r.cursor.advance length }

/-- The reader behind the next `length` bytes, with a token made of them. -/
def push (r : Reader) (kind : Kind) (length : Nat) : Reader :=
  { r.advance length with found := ⟨kind, r.cursor.span length⟩ :: r.found }

/-- A failure of the source at the cursor. -/
def fail (r : Reader) (failure : Failure) : Except Stop Reader :=
  .error (.diagnosed ⟨failure, .lex, r.cursor.position⟩)

/-- Follows a rule. -/
def follow (r : Reader) : Rule → Except Stop Reader
  | .blanks => do
    let text ← ask (r.cursor.matched Pattern.blanks)
    return r.advance (Text.size text)
  | .punctuator p =>
    return r.push (.punctuator p) (Text.size [p.char])
  | .word => do
    let text ← ask (r.cursor.matched Pattern.word)
    return r.push (Kind.ofWord text) (Text.size text)
  | .underscored => do
    let text ← ask (r.cursor.matched Pattern.underscored)
    r.fail (.invalidIdentifier (String.ofList text))
  | .number => do
    let literal ← ask (r.cursor.matched Pattern.number)
    let next ← ask (r.cursor.peek (Text.size literal))
    match Rule.malformation? literal next with
    | some reason =>
      let text ← ask (r.cursor.matched Pattern.run)
      r.fail (.malformedNumber (String.ofList text) reason)
    | none =>
      return r.push (.constant (Number.ofLiteral literal))
        (Text.size literal)
  | .leadingPoint => do
    let text ← ask (r.cursor.matched Pattern.run)
    r.fail (.malformedNumber (String.ofList text) .missingWhole)

/-- One round of the loop: the first rule that fits is followed, and where there
is none the character is unknown. -/
def step (rules : List Rule) (r : Reader) : Except Stop Reader := do
  let rest ← ask r.cursor.rest
  match rules.find? (·.pattern.fits rest) with
  | some rule => r.follow rule
  | none =>
    let c ← ask r.cursor.current
    r.fail (.unknownCharacter (String.ofList c.toList))

-- ============================================================= verdicts

variable {r t : Reader} {rule : Rule} {rules : List Rule} {v : List Char}

/-- What a verdict on the text at the cursor comes to, if `text` is the match. -/
def obey (r : Reader) (text : List Char) : Verdict → Except Stop Reader
  | .skip => .ok (r.advance (Text.size text))
  | .token kind => .ok (r.push kind (Text.size text))
  | .fault failure => r.fail failure

theorem ask_bind_of_eq_ok {α β : Type} {answer : Except Misplaced α} {a : α}
    (h : answer = .ok a) (f : α → Except Stop β) : (ask answer >>= f) = f a := by
  rw [h]
  rfl

/-- A rule that fits, followed where there is a rest, obeys its verdict. -/
theorem follow_of_rest (hrest : r.cursor.rest = .ok v)
    (hfits : rule.pattern.fits v = true) :
    r.follow rule = r.obey (rule.pattern.find v) (rule.verdict v) := by
  have hmatched : ∀ p : Pattern, r.cursor.matched p = .ok (p.find v) := by
    intro p
    rw [Cursor.matched_of_rest hrest, Pattern.text_search]
  cases rule with
  | punctuator p =>
    -- the spelling is not asked for, but it is the match
    have hfind : (Rule.punctuator p).pattern.find v = [p.char] :=
      Pattern.find_char_of_fits hfits
    rw [hfind]
    rfl
  | number =>
    have hnext : r.cursor.peek (Text.size (Pattern.number.find v))
        = .ok (v.drop (Pattern.number.find v).length).head? := by
      have hsplit := hrest
      rw [← Pattern.find_append_drop (p := .number) rfl v] at hsplit
      exact Cursor.peek_size_of_rest hsplit
    rw [follow, ask_bind_of_eq_ok (hmatched .number), ask_bind_of_eq_ok hnext]
    dsimp only [Rule.verdict, Rule.pattern]
    cases Rule.malformation? (Pattern.number.find v)
      (v.drop (Pattern.number.find v).length).head? with
    | some reason => exact ask_bind_of_eq_ok (hmatched .run) _
    | none => rfl
  | blanks => exact ask_bind_of_eq_ok (hmatched .blanks) _
  | word => exact ask_bind_of_eq_ok (hmatched .word) _
  | underscored => exact ask_bind_of_eq_ok (hmatched .underscored) _
  | leadingPoint => exact ask_bind_of_eq_ok (hmatched .run) _

-- ============================================================== progress

/-- Who goes on goes behind the match, with one token more at most. -/
theorem obey_eq_ok {text : List Char} {verdict : Verdict}
    (h : r.obey text verdict = .ok t) :
    t.cursor = r.cursor.advance (Text.size text) ∧
      t.found.length ≤ r.found.length + 1 := by
  cases verdict with
  | skip => cases h; exact ⟨rfl, Nat.le_succ _⟩
  | token kind => cases h; exact ⟨rfl, Nat.le_refl _⟩
  | fault failure => cases h

theorem ask_bind_eq_ok_iff {α β : Type} {answer : Except Misplaced α}
    {f : α → Except Stop β} {b : β} :
    (ask answer >>= f) = .ok b ↔ ∃ a, answer = .ok a ∧ f a = .ok b := by
  cases answer with
  | ok a =>
    rw [ask_bind_of_eq_ok rfl]
    simp
  | error m =>
    constructor
    · rintro ⟨⟩
    · rintro ⟨a, ⟨⟩, -⟩

/-- A round that goes on has obeyed a rule that fits. -/
theorem step_eq_ok (h : r.step rules = .ok t) :
    ∃ (v : List Char) (rule : Rule), r.cursor.rest = .ok v ∧
      rule.pattern.fits v = true ∧
      r.obey (rule.pattern.find v) (rule.verdict v) = .ok t := by
  obtain ⟨v, hrest, hround⟩ := ask_bind_eq_ok_iff.mp h
  split at hround
  · next rule hrule =>
    have hfits := List.find?_some hrule
    rw [follow_of_rest hrest hfits] at hround
    exact ⟨v, rule, hrest, hfits, hround⟩
  · obtain ⟨c, -, hfail⟩ := ask_bind_eq_ok_iff.mp hround
    cases hfail

theorem size_find_pos {p : Pattern} (h : p.fits v = true) :
    0 < Text.size (p.find v) :=
  Nat.lt_of_lt_of_le (Pattern.length_find_pos h)
    (Text.length_le_size (p.find v))

theorem offset_lt_of_step (h : r.step rules = .ok t) :
    t.cursor.source = r.cursor.source ∧ r.cursor.offset < t.cursor.offset := by
  obtain ⟨v, rule, -, hfits, hobey⟩ := step_eq_ok h
  rw [(obey_eq_ok hobey).1]
  exact ⟨rfl, Nat.lt_add_of_pos_right (size_find_pos hfits)⟩

/-- Reads from a place to the end of the source, or up to where the reader
stops. -/
def run (rules : List Rule) (r : Reader) : Except Stop (List Token) :=
  if _hend : r.cursor.atEnd = true then
    .ok r.found.reverse
  else
    match _hstep : r.step rules with
    | .ok t => t.run rules
    | .error e => .error e
termination_by Text.size r.cursor.source - r.cursor.offset
decreasing_by
  obtain ⟨hsource, hlt⟩ := offset_lt_of_step _hstep
  have hle : ¬ Text.size r.cursor.source ≤ r.cursor.offset := by
    simpa [Cursor.atEnd] using _hend
  rw [hsource]
  omega

/-- The tokens of a source, read with a cursor. -/
def read (source : String) (file : Option String) :
    Except Stop (List Token) :=
  (start source file).run Rule.all

end Reader

end MiniC
