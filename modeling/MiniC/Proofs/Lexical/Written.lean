import MiniC.Proofs.Lexical.Weave
import MiniC.Proofs.Numeric.Literal

/-!
Kinds written down and read back.

# One kind

A kind is written as its lexeme, its name or its value (`Kind.written`).
Not every kind can be read at all: a name may be no word or be reserved,
and an integer may be negative. Those that have a spelling are proper
(`Kind.Spells.proper`), and what a proper kind is written as spells it
(`Kind.Proper.spells_written`), so that no other text is needed to have it
read back. Doubles are left out: infinity is written as a word, and what is
written with an exponent is no number.

# Sources

Proper kinds, written down with blanks in between, are entries that are
apart, and are read back as they are. All that is read is proper. So a list
of kinds is read back exactly if all of it is proper (`scan_written`).
-/

namespace MiniC

open Text Numeric

-- =============================================================== one kind

/-- The text that a kind is written as. -/
def Kind.written : Kind → String
  | .identifier name => name
  | .constant value => value.text
  | k => k.lexeme?.getD ""

/-- A name that is a word and not reserved, an integer that is not
negative, or any punctuator or keyword. -/
inductive Kind.Proper : Kind → Prop
  | punctuator (p : Punctuator) : Proper (.punctuator p)
  | keyword (k : Keyword) : Proper (.keyword k)
  | identifier {name : String} : IsWord name.toList →
      Keyword.ofWord? name = none → Proper (.identifier name)
  | integer {v : Int64} : 0 ≤ v.toInt → Proper (.constant (.integer v))

theorem Keyword.ofWord?_eq_none_iff {name : String} :
    Keyword.ofWord? name = none ↔
      ∀ k : Keyword, k.word.toList ≠ name.toList := by
  rw [Option.eq_none_iff_forall_ne_some]
  refine forall_congr' fun k => not_congr ?_
  rw [Keyword.ofWord?_eq_some_iff, eq_comm, String.toList_inj]

/-- What has a spelling is proper, unless it is a double. -/
theorem Kind.Spells.proper {k : Kind} {l : List Char} (h : k.Spells l)
    (hfloat : ∀ x : Binary64, k ≠ .constant (.float x)) : k.Proper := by
  cases h with
  | punctuator p => exact .punctuator p
  | keyword k => exact .keyword k
  | identifier hw hne =>
    rw [← String.toList_ofList (l := l)] at hw
    refine .identifier hw (Keyword.ofWord?_eq_none_iff.mpr ?_)
    rwa [String.toList_ofList]
  | constant _ =>
    have hvalue := (Number.denotes_ofLiteral l).value_nonneg
      (literalValue_nonneg l)
    cases hn : Number.ofLiteral l with
    | float x => exact absurd (congrArg Kind.constant hn) (hfloat x)
    | integer v =>
      rw [hn] at hvalue
      exact .integer (Int.cast_nonneg_iff.mp (WithTop.coe_le_coe.mp hvalue))

theorem Kind.forall_proper_iff {ks : List Kind}
    (hfloat : ∀ x : Binary64, .constant (.float x) ∉ ks) :
    (∀ k ∈ ks, k.Proper) ↔
      (∀ name, .identifier name ∈ ks →
        IsWord name.toList ∧ Keyword.ofWord? name = none) ∧
      ∀ v, .constant (.integer v) ∈ ks → 0 ≤ v.toInt := by
  constructor
  · intro h
    constructor
    · intro name hname
      cases h _ hname with
      | identifier hw hnone => exact ⟨hw, hnone⟩
    · intro v hv
      cases h _ hv with
      | integer hnonneg => exact hnonneg
  · rintro ⟨hnames, hintegers⟩ k hk
    cases k with
    | punctuator p => exact .punctuator p
    | keyword k => exact .keyword k
    | identifier name => exact .identifier (hnames name hk).1 (hnames name hk).2
    | constant n =>
      cases n with
      | integer v => exact .integer (hintegers v hk)
      | float x => exact absurd hk (hfloat x)

theorem Numeric.isDigits_digits (n : Nat) : IsDigits (digits n) :=
  ⟨Nat.toDigits_ne_nil, fun _ hc =>
    Nat.isDigit_of_mem_toDigits (by decide) (by decide) hc⟩

/-- A word that is not negative is the number of its digits. -/
theorem Number.ofLiteral_digits {v : Int64} {n : Nat} (hv : v.toInt = n) :
    Number.ofLiteral (digits n) = .integer v := by
  have hpoint : '.' ∉ digits n := by
    intro hmem
    cases (isDigits_digits n).2 _ hmem
  refine (Number.denotes_ofLiteral (digits n)).unique (.integer hpoint ?_)
  rw [literalValue_of_not_mem hpoint, digits, Nat.ofDigitChars_ten_toDigits,
    hv, Int.cast_natCast]

theorem Kind.Proper.spells_written {k : Kind} (h : k.Proper) :
    k.Spells k.written.toList := by
  cases h with
  | punctuator p => exact String.toList_singleton p.char ▸ .punctuator p
  | keyword k => exact .keyword k
  | @identifier name hw hnone =>
    have hspells := Kind.Spells.identifier hw
      (Keyword.ofWord?_eq_none_iff.mp hnone)
    rwa [String.ofList_toList] at hspells
  | @integer v hv =>
    obtain ⟨n, hn⟩ := Int.eq_ofNat_of_zero_le hv
    have htext : (Kind.constant (.integer v)).written.toList = digits n := by
      rw [Kind.written, Number.text, hn]
      exact String.toList_ofList
    rw [htext, ← Number.ofLiteral_digits hn]
    exact .constant (isDigits_digits n).isNumber

-- =========================================================== many of them

/-- Texts in a row, with a separator before each but the first. -/
def Text.joined (separators : List (List Char)) :
    List (List Char) → List Char
  | [] => []
  | t :: ts => t ++ (List.zipWith (· ++ ·) separators ts).flatten

namespace Entry

theorem weave_eq_flatten (es : List Entry) :
    weave es = (List.zipWith (· ++ ·) (es.map gap) (es.map text)).flatten := by
  rw [List.zipWith_map, List.zipWith_self]
  rfl

/-- Entries with blanks in between are apart. -/
theorem isChain_of_gaps {e : Entry} {es : List Entry}
    (h : ∀ f ∈ es, f.gap ≠ []) : (e :: es).IsChain Apart := by
  induction es generalizing e with
  | nil => exact .singleton e
  | cons f es ih =>
    obtain ⟨hf, hes⟩ := List.forall_mem_cons.mp h
    exact .cons_cons (fun hgap => absurd hgap hf) (ih hes)

end Entry

theorem exists_spells_of_forall₂ {ks : List Kind} {ws : List (List Char)}
    (h : List.Forall₂ Kind.Spells ks ws) : ∀ k ∈ ks, ∃ l, k.Spells l := by
  induction h with
  | nil => exact List.forall_mem_nil _
  | cons hk _ ih => exact List.forall_mem_cons.mpr ⟨⟨_, hk⟩, ih⟩

/-- All that a source is read as is proper, doubles apart. -/
theorem proper_of_scan {s : String} {ks : List Kind} (h : scan s = .ok ks)
    (hfloat : ∀ x : Binary64, .constant (.float x) ∉ ks) :
    ∀ k ∈ ks, k.Proper := by
  intro k hk
  obtain ⟨l, hl⟩ := exists_spells_of_forall₂
    ((lexemes_eq_ok_iff s.toList ks).mp (scan_eq_ok_iff_lexemes.mp h)) k hk
  exact hl.proper fun x hx => hfloat x (hx ▸ hk)

theorem scan_joined_written {ks : List Kind} {ws : List (List Char)}
    (hlen : ws.length = ks.length - 1)
    (hws : ∀ w ∈ ws, w ≠ [] ∧ ∀ c ∈ w, isBlank c = true)
    (hks : ∀ k ∈ ks, k.Proper) :
    scan (String.ofList (joined ws (ks.map (·.written.toList)))) = .ok ks := by
  cases ks with
  | nil =>
    have hnil := @Entry.scan_stretch [] .nil
    exact hnil
  | cons k ks =>
    obtain ⟨hk, hks⟩ := List.forall_mem_cons.mp hks
    have hspells : List.Forall₂ Kind.Spells ks (ks.map (·.written.toList)) :=
      List.forall₂_map_right_iff.mpr
        (List.forall₂_same.mpr fun k hk => (hks k hk).spells_written)
    obtain ⟨es, rfl, htext, rfl⟩ :=
      Entry.exists_of_forall₂ hspells ws hlen fun w hw => (hws w hw).2
    -- the first kind has nothing before it, which keeps nothing apart
    let e : Entry := ⟨[], k, _, List.forall_mem_nil _, hk.spells_written⟩
    have hchain : (e :: es).IsChain Entry.Apart :=
      Entry.isChain_of_gaps fun f hf => (hws _ (List.mem_map_of_mem hf)).1
    have hjoined : joined (es.map Entry.gap)
        ((k :: es.map Entry.kind).map (·.written.toList))
          = Entry.stretch (e :: es) := by
      rw [List.map_cons, joined, ← htext, ← Entry.weave_eq_flatten]
      rfl
    rw [hjoined]
    exact Entry.scan_stretch hchain

/-- Kinds, doubles apart, that are written down with blanks in between are
read back as they are exactly if every name among them is a word that is
not reserved and no integer is negative. -/
theorem scan_written (ks : List Kind) (ws : List (List Char))
    (hfloat : ∀ x : Binary64, .constant (.float x) ∉ ks)
    (hlen : ws.length = ks.length - 1)
    (hws : ∀ w ∈ ws, w ≠ [] ∧ ∀ c ∈ w, isBlank c = true) :
    scan (String.ofList (joined ws (ks.map (·.written.toList)))) = .ok ks ↔
      (∀ name, .identifier name ∈ ks →
        IsWord name.toList ∧ Keyword.ofWord? name = none) ∧
      ∀ v, .constant (.integer v) ∈ ks → 0 ≤ v.toInt := by
  rw [← Kind.forall_proper_iff hfloat]
  exact ⟨fun h => proper_of_scan h hfloat, scan_joined_written hlen hws⟩

/-- One list of kinds is read back with a name and not with a reserved
word. -/
theorem scan_written_reserved :
    let ks (name : String) : List Kind :=
      [.keyword .int, .identifier name, .constant (.integer 7)]
    let ws : List (List Char) := [[' '], ['\t', '\n']]
    let text (name : String) :=
      String.ofList (joined ws ((ks name).map (·.written.toList)))
    (∀ name x, .constant (.float x) ∉ ks name) ∧
      (∀ name, ws.length = (ks name).length - 1) ∧
      (∀ w ∈ ws, w ≠ [] ∧ ∀ c ∈ w, isBlank c = true) ∧
      scan (text "main") = .ok (ks "main") ∧
      scan (text "void") ≠ .ok (ks "void") := by
  intro ks ws text
  have hfloat : ∀ name x, .constant (.float x) ∉ ks name := by
    intro name x hx
    simp [ks] at hx
  have hlen : ∀ name, ws.length = (ks name).length - 1 := fun _ => rfl
  have hws : ∀ w ∈ ws, w ≠ [] ∧ ∀ c ∈ w, isBlank c = true := by
    simp [ws, isBlank]
  have hiff := fun name =>
    scan_written (ks name) ws (hfloat name) (hlen name) hws
  refine ⟨hfloat, hlen, hws, (hiff "main").mpr ⟨?_, ?_⟩, fun h => ?_⟩
  · intro name hname
    obtain rfl : name = "main" := by simpa [ks] using hname
    exact ⟨⟨'m', _, rfl, rfl, List.all_eq_true.mp rfl⟩, rfl⟩
  · intro v hv
    obtain rfl : v = 7 := by simpa [ks] using hv
    decide
  · cases (((hiff "void").mp h).1 "void" (by decide)).2

end MiniC
