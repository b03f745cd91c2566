import MiniC.Lexical.Rule
import MiniC.Text.Bytes
import MiniC.Token.Basic

/-!
Scanning: a source cut into lexemes.

# The loop

A `Scan` is where the loop stands: the byte offset, the text from there
on, and the lexemes found so far. One `step` tries the rules in order at
that place; the first whose shape is there decides. The loop ends at the
end of the text or at the first fault, and comes closer to the end with
every step, as no rule matches the empty text (`length_rest_of_step`).

# Results

`lexemes` keeps the text and the exact offset of every token; `tokenize`
puts the file name to them and stores offsets as positions do. No tokens
are returned beside a fault.
-/

namespace MiniC

/-- A token's kind with its text and the byte offset where that starts. -/
structure Lexeme where
  kind : Kind
  text : List Char
  start : Nat
deriving DecidableEq

/-- A failure at a byte offset of the source. -/
structure Fault where
  offset : Nat
  failure : Failure
deriving DecidableEq

/-- A place in the run over a source: `found` holds the lexemes before
it, the latest first. -/
structure Scan where
  offset : Nat
  rest : List Char
  found : List Lexeme

/-- Where one step leads. -/
inductive Scan.Next where
  | more (s : Scan)
  | done (lexemes : List Lexeme)
  | failed (fault : Fault)

namespace Scan

/-- The start of a source. -/
def start (source : List Char) : Scan :=
  ⟨0, source, []⟩

/-- The place after `text`, which the rest starts with. -/
def advance (s : Scan) (text : List Char) : Scan :=
  { s with
    offset := s.offset + Text.size text
    rest := s.rest.drop text.length }

/-- The place after `text`, with a lexeme made of it. -/
def push (s : Scan) (kind : Kind) (text : List Char) : Scan :=
  { s.advance text with found := ⟨kind, text, s.offset⟩ :: s.found }

/-- What one rule does at a place where its shape is. -/
def apply (s : Scan) (r : Rule) : Next :=
  let text := r.pattern.find s.rest
  match r.verdict s.rest with
  | .skip => .more (s.advance text)
  | .token kind => .more (s.push kind text)
  | .fault failure => .failed ⟨s.offset, failure⟩

/-- One step: the first of `rules` whose shape is here decides, and where
there is none the character is unknown. -/
def step (rules : List Rule) (s : Scan) : Next :=
  match s.rest with
  | [] => .done s.found.reverse
  | c :: _ =>
    match rules.find? (·.pattern.fits s.rest) with
    | some r => s.apply r
    | none => .failed ⟨s.offset, .unknownCharacter (String.ofList [c])⟩

/-- What a rule goes on with is what is left after its match. -/
theorem rest_of_apply {s t : Scan} {r : Rule} (h : s.apply r = .more t) :
    t.rest = s.rest.drop (r.pattern.find s.rest).length := by
  unfold apply at h
  dsimp only at h
  split at h
  · cases h; rfl
  · cases h; rfl
  · cases h

/-- Every step that goes on leaves less to read. -/
theorem length_rest_of_step {rules : List Rule} {s t : Scan}
    (h : s.step rules = .more t) : t.rest.length < s.rest.length := by
  unfold step at h
  split at h
  · cases h
  · split at h
    · next r hr =>
      have hfits := List.find?_some hr
      rw [rest_of_apply h]
      exact Pattern.length_drop_find (Rule.anchored_pattern r) hfits
    · cases h

/-- The run from a place to the end of the source or the first fault. -/
def run (rules : List Rule) (s : Scan) : Except Fault (List Lexeme) :=
  match _h : s.step rules with
  | .more t => run rules t
  | .done lexemes => .ok lexemes
  | .failed fault => .error fault
termination_by s.rest.length
decreasing_by exact length_rest_of_step _h

end Scan

-- ============================================================== results

/-- The lexemes of a source, or its first fault. -/
def lexemes (source : List Char) : Except Fault (List Lexeme) :=
  (Scan.start source).run Rule.all

/-- The name that places carry when a source has none. -/
def unnamedFile : String :=
  "shell"

/-- A lexeme as a token of the named file. -/
def Lexeme.token (file : String) (l : Lexeme) : Token :=
  ⟨l.kind, .ofOffset l.start (Text.size l.text) file⟩

/-- A fault as a diagnosis for the named file. -/
def Fault.diagnostic (file : String) (f : Fault) : Diagnostic :=
  ⟨f.failure, .lex, .ofOffset f.offset file⟩

/-- The tokens of a source, tried by `rules`. -/
def tokenizeBy (rules : List Rule) (source : String)
    (file : Option String) : Except Diagnostic (List Token) :=
  let name := file.getD unnamedFile
  match (Scan.start source.toList).run rules with
  | .ok ls => .ok (ls.map (Lexeme.token name))
  | .error f => .error (f.diagnostic name)

/-- The tokens of a source, or the diagnosis of its first fault. -/
def tokenize (source : String) (file : Option String) :
    Except Diagnostic (List Token) :=
  tokenizeBy Rule.all source file

/-- The kinds of a source, without places. -/
def scan (source : String) : Except Diagnostic (List Kind) :=
  (tokenize source none).map (·.map Token.kind)

end MiniC
