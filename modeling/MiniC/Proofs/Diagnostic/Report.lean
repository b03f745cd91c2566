import MiniC.Diagnostic.Basic
import MiniC.Proofs.Text.Quoted

/-!
What a report tells.

A report names the phase, then the failure. No phase has a name that begins
the name of another, and no message starts with words that begin those of
another kind of failure (`Failure.prefixFree_openings`), so that both are
told by how the report starts, whatever comes after.

What a message says behind its first words is made of free texts. Those from
a source and paths are quoted, and a quoted text ends by itself. The cause of
a failed read is not, but nothing stands behind it. The name of an option is
not quoted either and stands there three times, each time with more behind
it; how long it is can be told by the length of the message
(`Failure.missingOption_inj`). So a message says all of its failure
(`Failure.message_injective`). What a report leaves out is the position alone
(`report_eq_iff`).
-/

namespace MiniC

open Text Quoted

-- ================================================================ phases

/-- The phases in running text. -/
def Stage.descriptions : List String :=
  ["command line argument parsing", "lexing", "parsing", "code generation",
    "code emission"]

theorem Stage.prefixFree_descriptions : PrefixFree Stage.descriptions := by
  decide +kernel

theorem Stage.describe_mem (s : Stage) : s.describe ∈ descriptions := by
  cases s <;> simp [describe, descriptions]

theorem Stage.describe_injective : Function.Injective Stage.describe := by
  intro a b
  cases a <;> cases b <;> decide

theorem Diagnostic.toList_report (d : Diagnostic) :
    d.report.toList = "Fatal error during ".toList ++
      (d.stage.describe.toList ++ (": ".toList ++ d.failure.message.toList)) := by
  unfold Diagnostic.report
  simp only [String.toList_append, List.append_assoc]

-- ============================================================== failures

theorem Malformation.describe_injective :
    Function.Injective Malformation.describe := by
  intro a b
  cases a <;> cases b <;> decide

namespace Failure

/-- The words that messages start with. -/
def openings : List String :=
  ["unknown character: ", "invalid identifier ", "invalid number ", "No ",
    "could not read ", "not implemented error"]

/-- The words that the message of a failure starts with. -/
def opening : Failure → String
  | .unknownCharacter _ => "unknown character: "
  | .invalidIdentifier _ => "invalid identifier "
  | .malformedNumber _ _ => "invalid number "
  | .missingOption _ => "No "
  | .unreadableFile _ _ => "could not read "
  | .notImplemented => "not implemented error"

/-- What a message says after them. -/
def details : Failure → List Char
  | .unknownCharacter text => encode text.toList
  | .invalidIdentifier name => encode name.toList
  | .malformedNumber literal reason =>
    encode literal.toList ++ (": ".toList ++ reason.describe.toList)
  | .missingOption name =>
    name.toList ++ (" path provided. Use --".toList ++ (name.toList ++
      (" to specify the ".toList ++ (name.toList ++ " file path.".toList))))
  | .unreadableFile path cause =>
    encode path.toList ++ (": ".toList ++ cause.toList)
  | .notImplemented => []

theorem toList_message (f : Failure) :
    f.message.toList = f.opening.toList ++ f.details := by
  unfold message opening details
  cases f <;>
    simp only [toList_quote, String.toList_append, List.append_assoc,
      List.append_nil]

theorem opening_mem (f : Failure) : f.opening ∈ openings := by
  cases f <;> simp [opening, openings]

theorem prefixFree_openings : PrefixFree openings := by
  decide +kernel

/-- Failures of one name are those whose messages start alike. -/
theorem name_eq_iff {f g : Failure} :
    f.name = g.name ↔ f.opening = g.opening := by
  cases f <;> cases g <;> simp [name, opening]

-- =============================================================== details

/-- The name of an option is told by the length of the message. -/
theorem missingOption_inj {a b : String}
    (h : (missingOption a).details = (missingOption b).details) : a = b := by
  have hlen := congrArg List.length h
  simp only [details, List.length_append] at hlen
  have hname := (List.append_inj h (by omega)).1
  exact String.toList_inj.mp hname

/-- A quoted text is told from what a colon puts behind it. -/
theorem encode_colon_inj {a b : String} {s t : List Char}
    (h : encode a.toList ++ (": ".toList ++ s)
      = encode b.toList ++ (": ".toList ++ t)) : a = b ∧ s = t := by
  obtain ⟨hab, hst⟩ := selfDelimiting_encode h
  exact ⟨String.toList_inj.mp hab, List.append_cancel_left hst⟩

theorem encode_inj {a b : String} (h : encode a.toList = encode b.toList) :
    a = b :=
  String.toList_inj.mp (selfDelimiting_encode.injective h)

/-- A message says all of its failure. -/
theorem message_injective : Function.Injective message := by
  intro f g h
  have hlist := congrArg String.toList h
  rw [toList_message, toList_message] at hlist
  obtain ⟨hopening, hdetails⟩ :=
    prefixFree_openings.append_inj f.opening_mem g.opening_mem hlist
  cases f with
  | unknownCharacter text =>
    cases g with
    | unknownCharacter text' => exact congrArg _ (encode_inj hdetails)
    | _ => exact absurd hopening (by simp [opening])
  | invalidIdentifier name =>
    cases g with
    | invalidIdentifier name' => exact congrArg _ (encode_inj hdetails)
    | _ => exact absurd hopening (by simp [opening])
  | malformedNumber literal reason =>
    cases g with
    | malformedNumber literal' reason' =>
      obtain ⟨rfl, hreason⟩ := encode_colon_inj hdetails
      rw [Malformation.describe_injective (String.toList_inj.mp hreason)]
    | _ => exact absurd hopening (by simp [opening])
  | missingOption name =>
    cases g with
    | missingOption name' => exact congrArg _ (missingOption_inj hdetails)
    | _ => exact absurd hopening (by simp [opening])
  | unreadableFile path cause =>
    cases g with
    | unreadableFile path' cause' =>
      obtain ⟨rfl, hcause⟩ := encode_colon_inj hdetails
      rw [String.toList_inj.mp hcause]
    | _ => exact absurd hopening (by simp [opening])
  | notImplemented =>
    cases g with
    | notImplemented => rfl
    | _ => exact absurd hopening (by simp [opening])

end Failure

/-- A report tells the phase and the failure, with all that the failure
carries, whatever texts these are. -/
theorem report_eq_iff (d e : Diagnostic) :
    d.report = e.report ↔ d.stage = e.stage ∧ d.failure = e.failure := by
  constructor
  · intro h
    have hlist := congrArg String.toList h
    rw [d.toList_report, e.toList_report] at hlist
    obtain ⟨hphase, hrest⟩ := Stage.prefixFree_descriptions.append_inj
      d.stage.describe_mem e.stage.describe_mem (List.append_cancel_left hlist)
    have hmessage := String.toList_inj.mp (List.append_cancel_left hrest)
    exact ⟨Stage.describe_injective hphase,
      Failure.message_injective hmessage⟩
  · rintro ⟨hstage, hfailure⟩
    unfold Diagnostic.report
    rw [hstage, hfailure]

end MiniC
