import MiniC.Proofs.Text.Longest
import MiniC.Text.Quoted

/-!
Where a quoted text ends.

# Words that end by themselves

A code is self-delimiting if a word of it can be told from whatever text
stands behind it. A list of words is a code of that kind if none of them
begins another one (`PrefixFree.append_inj`), and so are rows of words that
are, if they are closed by a character that no word starts with
(`SelfDelimiting.closed`).

# Escapes

The escapes of characters are such words. One that starts with a backslash
goes on with a letter of its own or with the digits of a code point, up to
the brace; and neither a backslash nor a quote stands for itself
(`selfDelimiting_escape`). So the first quote that is no part of an escape is
the one that closes, and a quoted text is told from all that follows it
(`selfDelimiting_encode`).
-/

namespace MiniC.Text

/-- None of the words begins another one. -/
def PrefixFree (words : List String) : Prop :=
  ∀ a ∈ words, ∀ b ∈ words, a.toList <+: b.toList → a = b

instance (words : List String) : Decidable (PrefixFree words) :=
  inferInstanceAs (Decidable (∀ a ∈ words, ∀ b ∈ words, _))

theorem PrefixFree.append_inj {words : List String} {a b : String}
    {s t : List Char} (h : PrefixFree words) (ha : a ∈ words) (hb : b ∈ words)
    (heq : a.toList ++ s = b.toList ++ t) : a = b ∧ s = t := by
  have hone : a = b := by
    rcases List.prefix_or_prefix_of_prefix (List.prefix_append a.toList s)
      ⟨t, heq.symm⟩ with hab | hba
    · exact h a ha b hb hab
    · exact (h b hb a ha hba).symm
  subst hone
  exact ⟨rfl, List.append_cancel_left heq⟩

/-- Whatever text stands behind a word of the code, the word and that text
can be told from the two together. -/
def SelfDelimiting {α : Type} (code : α → List Char) : Prop :=
  ∀ ⦃a b : α⦄ ⦃s t : List Char⦄, code a ++ s = code b ++ t → a = b ∧ s = t

namespace SelfDelimiting

variable {α : Type} {code : α → List Char}

theorem injective (h : SelfDelimiting code) : Function.Injective code := by
  intro a b heq
  exact (h (congrArg (· ++ []) heq)).1

/-- Words in a row are told from all that follows, if the row is closed by a
character that no word starts with. -/
theorem closed (h : SelfDelimiting code) {q : Char}
    (hq : ∀ a, ∃ c w, code a = c :: w ∧ c ≠ q) :
    SelfDelimiting fun l : List α => l.flatMap code ++ [q] := by
  have hopen : ∀ (a : α) (u s : List Char), code a ++ u ≠ q :: s := by
    intro a u s heq
    obtain ⟨c, w, hcode, hne⟩ := hq a
    rw [hcode, List.cons_append] at heq
    exact hne (List.cons.inj heq).1
  intro k l s t heq
  simp only [List.append_assoc, List.singleton_append] at heq
  induction k generalizing l with
  | nil =>
    cases l with
    | nil => exact ⟨rfl, (List.cons.inj heq).2⟩
    | cons b l =>
      rw [List.flatMap_cons, List.append_assoc] at heq
      exact absurd heq.symm (hopen b _ _)
  | cons a k ih =>
    rw [List.flatMap_cons, List.append_assoc] at heq
    cases l with
    | nil => exact absurd heq (hopen a _ _)
    | cons b l =>
      rw [List.flatMap_cons, List.append_assoc] at heq
      obtain ⟨rfl, hrest⟩ := h heq
      obtain ⟨rfl, hst⟩ := ih hrest
      exact ⟨rfl, hst⟩

end SelfDelimiting

namespace Quoted

-- ========================================================== code points

theorem digitChar_inj_of_lt {m n : Nat} (hm : m < 16) (hn : n < 16)
    (h : m.digitChar = n.digitChar) : m = n := by
  have hall : ∀ i j : Fin 16, i.val.digitChar = j.val.digitChar → i = j := by
    decide
  exact Fin.mk.inj (hall ⟨m, hm⟩ ⟨n, hn⟩ h)

/-- Numbers are told apart by their hexadecimal digits. -/
theorem toDigits_sixteen_inj {m n : Nat}
    (h : Nat.toDigits 16 m = Nat.toDigits 16 n) : m = n := by
  have hlong : ∀ (k : Nat) (x y : Char), Nat.toDigits 16 k ++ [x] ≠ [y] := by
    intro k x y heq
    have hlen := congrArg List.length heq
    have hpos := List.length_pos_iff.mpr (Nat.toDigits_ne_nil (b := 16) (n := k))
    simp only [List.length_append, List.length_singleton] at hlen
    omega
  induction m using Nat.strongRecOn generalizing n with
  | ind m ih =>
    rw [Nat.toDigits_eq_if (by decide),
      Nat.toDigits_eq_if (n := n) (by decide)] at h
    split at h <;> split at h
    · next hm hn => exact digitChar_inj_of_lt hm hn (List.cons.inj h).1
    · exact absurd h.symm (hlong _ _ _)
    · exact absurd h (hlong _ _ _)
    · -- the digits before the last, and the last one
      obtain ⟨hinit, hlast⟩ := List.append_inj' h rfl
      have hdiv : m / 16 = n / 16 := ih (m / 16) (by omega) hinit
      have hmod : m % 16 = n % 16 :=
        digitChar_inj_of_lt (by omega) (by omega) (List.cons.inj hlast).1
      omega

theorem brace_not_mem_toDigits (n : Nat) : '}' ∉ Nat.toDigits 16 n := by
  induction n using Nat.strongRecOn with
  | ind n ih =>
    have hdigit : ∀ k, '}' ≠ Nat.digitChar k :=
      fun k => (Nat.digitChar_ne '}' (by decide)).symm
    rw [Nat.toDigits_eq_if (by decide)]
    split
    · exact List.not_mem_cons_of_ne_of_not_mem (hdigit n) List.not_mem_nil
    · rw [List.mem_append, List.mem_singleton, not_or]
      exact ⟨ih (n / 16) (by omega), hdigit (n % 16)⟩

-- =============================================================== escapes

variable {c d l : Char}

/-- The character that a letter after a backslash stands for. -/
def ofLetter : Char → Char
  | '0' => '\x00'
  | 't' => '\t'
  | 'r' => '\r'
  | 'n' => '\n'
  | l => l

/-- A letter after a backslash tells its character, and none is the one that
a code point starts with. -/
theorem ofLetter_of_letter? (h : letter? c = some l) :
    ofLetter l = c ∧ l ≠ 'u' := by
  unfold letter? at h
  split at h
  · next hc => cases h; exact ⟨hc.symm, by decide⟩
  split at h
  · next hc => cases h; exact ⟨hc.symm, by decide⟩
  split at h
  · next hc => cases h; exact ⟨hc.symm, by decide⟩
  split at h
  · next hc => cases h; exact ⟨hc.symm, by decide⟩
  split at h
  · next hc => cases h; exact ⟨hc.symm, by decide⟩
  split at h
  · next hc => cases h; exact ⟨hc.symm, by decide⟩
  · cases h

/-- What a character can be written as between quotes. -/
inductive Escapes (c : Char) : List Char → Prop
  | letter {l : Char} : ofLetter l = c → l ≠ 'u' → Escapes c ['\\', l]
  | plain : c ≠ '\\' → c ≠ '"' → Escapes c [c]
  | codePoint : Escapes c (codePoint c)

theorem escapes_escape (c : Char) : Escapes c (escape c) := by
  unfold escape
  split
  · next l hl =>
    obtain ⟨hc, hu⟩ := ofLetter_of_letter? hl
    exact .letter hc hu
  · next hnone =>
    split
    · refine .plain ?_ ?_
      · rintro rfl
        cases hnone
      · rintro rfl
        cases hnone
    · exact .codePoint

theorem Escapes.head_ne_quote {w : List Char} (h : Escapes c w) :
    ∃ d v, w = d :: v ∧ d ≠ '"' := by
  cases h with
  | letter _ _ => exact ⟨_, _, rfl, by decide⟩
  | plain _ hquote => exact ⟨_, _, rfl, hquote⟩
  | codePoint => exact ⟨_, _, rfl, by decide⟩

/-- A code point is told by its digits, which the brace ends. -/
theorem codePoint_append_inj {s t : List Char}
    (h : codePoint c ++ s = codePoint d ++ t) : c = d ∧ s = t := by
  have htake : ∀ (n : Nat) (u : List Char),
      (Nat.toDigits 16 n ++ '}' :: u).takeWhile (· != '}')
        = Nat.toDigits 16 n := by
    intro n u
    refine takeWhile_eq_of_stop (fun e he => ?_) (by simp)
    rw [bne_iff_ne]
    rintro rfl
    exact brace_not_mem_toDigits n he
  simp only [codePoint, List.cons_append, List.append_assoc,
    List.cons.injEq, true_and, List.nil_append] at h
  have hdigits := congrArg (List.takeWhile (· != '}')) h
  rw [htake, htake] at hdigits
  rw [hdigits] at h
  exact ⟨Char.toNat_inj.mp (toDigits_sixteen_inj hdigits),
    (List.cons.inj (List.append_cancel_left h)).2⟩

theorem Escapes.append_inj {v w s t : List Char} (hv : Escapes c v)
    (hw : Escapes d w) (h : v ++ s = w ++ t) : c = d ∧ s = t := by
  cases hv with
  | letter hc hu =>
    cases hw with
    | letter hd _ =>
      simp only [List.cons_append, List.nil_append, List.cons.injEq,
        true_and] at h
      exact ⟨by rw [← hc, ← hd, h.1], h.2⟩
    | plain hback _ => exact absurd (List.cons.inj h).1.symm hback
    | codePoint =>
      exact absurd (List.cons.inj (List.cons.inj h).2).1 hu
  | plain hback _ =>
    cases hw with
    | letter _ _ => exact absurd (List.cons.inj h).1 hback
    | plain _ _ => exact List.cons.inj h
    | codePoint => exact absurd (List.cons.inj h).1 hback
  | codePoint =>
    cases hw with
    | letter _ hu =>
      exact absurd (List.cons.inj (List.cons.inj h).2).1.symm hu
    | plain hback _ => exact absurd (List.cons.inj h).1.symm hback
    | codePoint => exact codePoint_append_inj h

theorem selfDelimiting_escape : SelfDelimiting escape :=
  fun c d _ _ h => (escapes_escape c).append_inj (escapes_escape d) h

-- ========================================================== quoted texts

@[simp] theorem toList_quote (s : String) :
    (quote s).toList = encode s.toList :=
  String.toList_ofList

/-- A quoted text ends at its closing quote, and has told the text by then. -/
theorem selfDelimiting_encode : SelfDelimiting encode := by
  intro s t u v h
  exact selfDelimiting_escape.closed
    (fun c => (escapes_escape c).head_ne_quote) (List.cons.inj h).2

end Quoted

end MiniC.Text
