import MiniC.Run
import Mathlib.Data.List.Basic

/-!
What a whole run leaves behind.

# Gates

A run has five gates to pass, and each can be told on its own from the
options and from what reading a file gives: an output and an input are given,
the input can be read as text, the text has tokens, and nothing is asked for
beyond them (`Gate.report?`). The first gate that is shut decides the exit
code and all of what is reported (`firstReport?`). What a gate reports has a
place in the source only if it is about the tokens; all other reports read the
same with whatever source they are shown (`render_of_isNull`).

# The log

The lines of the log are written out here as they are to read
(`Args.logLines`), apart from the events that a run collects, and every event
comes to its line (`Args.map_text_events`, `map_text_tokens`). The log grows
with what is passed: nothing before both paths are there, the notices about
the options then, and the tokens once the source has some. It is written with
`--debug` only.

# Every run

`run_outcome` says all of this of all options, whatever a system has for paths
and whatever reading them gives, and so of every command line that is
accepted.
-/

namespace MiniC

-- =============================================================== reports

/-- A diagnosis with the source and the path that it is shown for. -/
structure Report where
  diagnostic : Diagnostic
  source : String := ""
  path : String := ""
deriving DecidableEq

/-- A report as it is shown. -/
def Report.text (r : Report) : String :=
  r.diagnostic.render r.source r.path

/-- What has no place is shown without a source. -/
theorem Diagnostic.render_of_isNull {d : Diagnostic}
    (h : d.position.isNull = true) (s path s' path' : String) :
    d.render s path = d.render s' path' := by
  unfold render lines excerpt?
  rw [if_pos h, if_pos h]

-- ============================================================== log lines

/-- A kind as it reads in the log. -/
def Kind.reading : Kind → String
  | .identifier name => "Identifier (" ++ name ++ ")"
  | .constant (.integer value) => "Constant (" ++ toString value.toInt ++ ")"
  | .constant (.float value) => "Constant (" ++ value.text ++ ")"
  | .punctuator .openParen => "OpenParen"
  | .punctuator .closeParen => "CloseParen"
  | .punctuator .openBrace => "OpenBrace"
  | .punctuator .closeBrace => "CloseBrace"
  | .punctuator .semicolon => "Semicolon"
  | .keyword .int => "Int"
  | .keyword .void => "Void"
  | .keyword .ret => "Return"

/-- The line of a token. -/
def Token.line (t : Token) : String :=
  "[lex] " ++ (t.kind.reading ++ " @ " ++ toString t.span.start.offset.toNat
    ++ ".." ++ toString t.span.stop.offset.toNat)

/-- The lines about tokens that were found in the time `elapsed`. -/
def tokenLines (ts : List Token) (elapsed : String) : List String :=
  "[lex] lexing source text complete"
    :: ("[lex] Tokenized " ++ toString ts.length ++ " tokens in " ++ elapsed)
    :: ts.map Token.line

variable {π : Type}

/-- The lines about the options, which are complete. -/
def Args.noticeLines (a : Args π) : List String :=
  (if a.debug then
    ["[cliArgs] CLI argument --debug provided. Enabling debugging"] else [])
    ++ (if a.lex then
      ["[cliArgs] CLI argument --lex provided. Stopping after lex"] else [])
    ++ (if a.parse then
      ["[cliArgs] CLI argument --parse provided. Stopping after parse"] else [])
    ++ (if a.codegen then
      ["[cliArgs] CLI argument --codegen provided. Stopping after codegen"]
      else [])
    ++ ["[cliArgs] Finished parsing command line arguments"]

-- ================================================================= gates

/-- What reading the file gives that a path leads to. -/
abbrev Files (π : Type) := π → Except ReadFailure ByteArray

/-- The text of the file that a path leads to. -/
def Files.text (files : Files π) (path : π) : Except ReadFailure String :=
  match files path with
  | .error why => .error why
  | .ok bytes =>
    match String.fromUTF8? bytes with
    | some text => .ok text
    | none => .error .notUtf8

/-- What a run has to pass. -/
inductive Gate where
  /-- An output is given. -/
  | output
  /-- An input is given. -/
  | input
  /-- The input can be read as text. -/
  | source
  /-- The text has tokens. -/
  | tokens
  /-- Nothing is asked for beyond the tokens. -/
  | stop
deriving DecidableEq

variable [SystemPath π]

namespace Gate

/-- The gates in the order of a run. -/
def all : List Gate :=
  [.output, .input, .source, .tokens, .stop]

/-- What is reported at a gate that is shut. -/
def report? (files : Files π) (a : Args π) : Gate → Option Report
  | .output =>
    if a.output.isNone then
      some { diagnostic := ⟨.missingOption "output", .cliArgs, .null⟩ }
    else none
  | .input =>
    if a.input.isNone then
      some { diagnostic := ⟨.missingOption "input", .cliArgs, .null⟩ }
    else none
  | .source => do
    let path ← a.input
    match files.text path with
    | .error why =>
      some { diagnostic := ⟨.unreadableFile (SystemPath.text path) why.message,
        .cliArgs, .null⟩ }
    | .ok _ => none
  | .tokens => do
    let path ← a.input
    let text ← (files.text path).toOption
    match tokenize text (some (Path.inputName path)) with
    | .error d =>
      some { diagnostic := d, source := text, path := SystemPath.text path }
    | .ok _ => none
  | .stop =>
    if a.lex then none
    else some { diagnostic := ⟨.notImplemented, .parse, .null⟩ }

end Gate

/-- What is reported at the first gate that is shut. -/
def firstReport? (files : Files π) (a : Args π) : Option Report :=
  Gate.all.findSome? (Gate.report? files a)

/-- The tokens of the input, if it can be read and has some. -/
def Args.tokens? (files : Files π) (a : Args π) : Option (List Token) := do
  let path ← a.input
  let text ← (files.text path).toOption
  (tokenize text (some (Path.inputName path))).toOption

/-- The lines of the log of a run in which scanning takes the time
`elapsed`. -/
def Args.logLines (files : Files π) (elapsed : String) (a : Args π) :
    List String :=
  match a.output, a.input with
  | some output, some _ =>
    a.noticeLines ++
      match a.tokens? files with
      | some ts =>
        tokenLines ts elapsed ++
          if a.lex then []
          else ["[parse] Output would be written to "
            ++ SystemPath.text output]
      | none => []
  | _, _ => []

-- ================================================================ events

theorem Numeric.intText_eq_toString (n : Int) : intText n = toString n := by
  cases n <;> rfl

theorem Kind.text_eq_reading (k : Kind) : k.text = k.reading := by
  cases k with
  | identifier name => rfl
  | constant value =>
    cases value with
    | integer value =>
      exact congrArg (fun digits => "Constant (" ++ digits ++ ")")
        (Numeric.intText_eq_toString value.toInt)
    | float value => rfl
  | punctuator p => cases p <;> rfl
  | keyword k => cases k <;> rfl

namespace Event

/-- What an event begins with is put next to its phase. -/
theorem text_of_message {e : Event} {words rest : String}
    (h : e.message = words ++ rest) :
    e.text = "[" ++ e.stage.tag ++ "] " ++ words ++ rest := by
  unfold text
  rw [h]
  exact String.append_assoc.symm

theorem text_token (t : Token) : (token t).text = t.line := by
  have hbegin : "[" ++ Stage.lex.tag ++ "] " = "[lex] " := by decide +kernel
  unfold text Token.line
  rw [← t.kind.text_eq_reading, ← hbegin]
  rfl

theorem text_counted (n : Nat) (elapsed : String) :
    (counted n elapsed).text
      = "[lex] Tokenized " ++ toString n ++ " tokens in " ++ elapsed := by
  have hmessage : (counted n elapsed).message
      = "Tokenized " ++ (toString n ++ " tokens in " ++ elapsed) := by
    unfold message
    simp only [String.append_assoc]
    rfl
  have hbegin : "[" ++ Stage.lex.tag ++ "] " ++ "Tokenized "
      = "[lex] Tokenized " := by decide +kernel
  rw [text_of_message hmessage, stage, hbegin]
  simp only [String.append_assoc]

theorem text_output (path : String) :
    (output path).text = "[parse] Output would be written to " ++ path := by
  have hmessage : (output path).message
      = "Output would be written to " ++ path := rfl
  have hbegin : "[" ++ Stage.parse.tag ++ "] " ++ "Output would be written to "
      = "[parse] Output would be written to " := by decide +kernel
  rw [text_of_message hmessage, stage, hbegin]

end Event

theorem map_text_tokens (ts : List Token) (elapsed : String) :
    (.scanned :: .counted ts.length elapsed :: ts.map .token).map Event.text
      = tokenLines ts elapsed := by
  have hscanned : Event.scanned.text = "[lex] lexing source text complete" := by
    decide +kernel
  have htokens : (ts.map .token).map Event.text = ts.map Token.line := by
    rw [List.map_map]
    exact List.map_congr_left fun t _ => Event.text_token t
  rw [List.map_cons, List.map_cons, hscanned, Event.text_counted, htokens,
    tokenLines]

omit [SystemPath π] in
theorem Args.validate_of_paths {a : Args π} {output input : π}
    (ho : a.output = some output) (hi : a.input = some input) :
    a.validate = .ok ⟨a.stops.head?, output, input⟩ := by
  unfold validate
  rw [ho, hi]

omit [SystemPath π] in
theorem Args.map_text_events {a : Args π} {output input : π}
    (ho : a.output = some output) (hi : a.input = some input) :
    a.events.map Event.text = a.noticeLines := by
  have hdebug : Event.debugging.text
      = "[cliArgs] CLI argument --debug provided. Enabling debugging" := by
    decide +kernel
  have hlex : (Event.stoppingAfter .lex).text
      = "[cliArgs] CLI argument --lex provided. Stopping after lex" := by
    decide +kernel
  have hparse : (Event.stoppingAfter .parse).text
      = "[cliArgs] CLI argument --parse provided. Stopping after parse" := by
    decide +kernel
  have hcodegen : (Event.stoppingAfter .codegen).text
      = "[cliArgs] CLI argument --codegen provided. Stopping after codegen" := by
    decide +kernel
  have hread : Event.optionsRead.text
      = "[cliArgs] Finished parsing command line arguments" := by
    decide +kernel
  unfold events
  rw [validate_of_paths ho hi]
  unfold noticeLines stops
  open Event in
  simp only [List.map_append, apply_ite (List.map stoppingAfter),
    apply_ite (List.map text), List.map_cons, List.map_nil, List.append_assoc,
    hdebug, hlex, hparse, hcodegen, hread]

-- =============================================================== the run

variable {files : Files π} {elapsed : String} {write : String → String}
  {a : Args π} {output path : π}

/-- Lines as a log has them, which may be switched off. -/
def Log.ofLines (write : String → String) (enabled : Bool)
    (lines : List String) : String :=
  if enabled then String.join (lines.map write) else ""

theorem Log.written_eq_ofLines (write : String → String) (enabled : Bool)
    (events : List Event) :
    written write enabled events
      = ofLines write enabled (events.map Event.text) := by
  rw [ofLines, List.map_map]
  rfl

theorem Options.source_given (o : Options π) (files : Files π) :
    o.source (files o.input)
      = match files.text o.input with
        | .error why => .error (o.unreadable why)
        | .ok text => .ok text := by
  unfold Options.source Files.text
  cases files o.input with
  | error why => rfl
  | ok bytes =>
    dsimp only
    cases String.fromUTF8? bytes with
    | none => rfl
    | some text => rfl

omit [SystemPath π] in
/-- The phase to stop after is the first if that is asked for. -/
theorem Args.head?_stops : a.stops.head? = some .lex ↔ a.lex = true := by
  unfold stops
  cases a.lex <;> cases a.parse <;> cases a.codegen <;> simp

/-- What is left behind by a run that ends at its first shut gate. -/
def Outcome.ofReport (log : String) : Option Report → Outcome
  | some r => ⟨1, log, r.text⟩
  | none => ⟨0, log, ""⟩

/-- What is reported without a place reads the same for every source. -/
theorem Outcome.failed_eq_ofReport {d : Diagnostic}
    (h : d.position.isNull = true) (log source path : String) :
    failed log d source path = ofReport log (some { diagnostic := d }) := by
  unfold failed ofReport Report.text
  rw [d.render_of_isNull h source path "" ""]

/-- A run without one of the paths ends before anything is logged. -/
theorem runArgs_of_missing (h : a.output = none ∨ a.input = none) :
    Id.run (runArgs (.given files elapsed write) a)
      = Outcome.ofReport (Log.ofLines write a.debug (a.logLines files elapsed))
          (firstReport? files a) := by
  have hlines : a.logLines files elapsed = [] := by
    unfold Args.logLines
    rcases h with ho | hi
    · rw [ho]
    · rw [hi]
      cases a.output <;> rfl
  unfold runArgs Args.validate firstReport? Gate.all
  rw [hlines]
  cases ho : a.output with
  | none =>
    simp [Gate.report?, ho]
    rfl
  | some output =>
    have hi : a.input = none := by simpa [ho] using h
    simp [Gate.report?, ho, hi]
    rfl

section Paths

variable (ho : a.output = some output) (hi : a.input = some path)

include ho hi

/-- With both paths, what reading the input gives decides how a run goes
on. -/
theorem runArgs_of_paths :
    Id.run (runArgs (.given files elapsed write) a)
      = match files.text path with
        | .error why =>
          .failed (Log.written write a.debug a.events)
            ⟨.unreadableFile (SystemPath.text path) why.message, .cliArgs,
              .null⟩ "" (SystemPath.text path)
        | .ok text =>
          compile (Log.written write a.debug) ⟨a.stops.head?, output, path⟩
            a.events text elapsed
            (tokenize text (some (Path.inputName path))) := by
  have hsource := Options.source_given ⟨a.stops.head?, output, path⟩ files
  unfold runArgs
  rw [Args.validate_of_paths ho hi]
  dsimp only [Host.given]
  simp only [pure_bind]
  rw [hsource]
  cases files.text path with
  | error why => rfl
  | ok text => rfl

/-- With both paths, what is logged after the notices and what is reported at
the last two gates depend on the tokens. -/
theorem compile_eq_ofReport (text : String)
    (tokens : Except Diagnostic (List Token)) :
    compile (Log.written write a.debug) ⟨a.stops.head?, output, path⟩
        a.events text elapsed tokens
      = match tokens with
        | .error d =>
          .ofReport (Log.ofLines write a.debug a.noticeLines)
            (some { diagnostic := d, source := text,
                    path := SystemPath.text path })
        | .ok ts =>
          .ofReport
            (Log.ofLines write a.debug (a.noticeLines ++
              (tokenLines ts elapsed ++
                if a.lex then []
                else ["[parse] Output would be written to "
                  ++ SystemPath.text output])))
            (if a.lex then none
            else some { diagnostic := ⟨.notImplemented, .parse, .null⟩ }) := by
  have hnotices := Args.map_text_events ho hi
  unfold compile
  cases tokens with
  | error d =>
    dsimp only [scanEvents]
    rw [List.append_nil, Log.written_eq_ofLines, hnotices]
    rfl
  | ok ts =>
    have htokens : (a.events ++ [Event.scanned] ++
        Event.counted ts.length elapsed :: ts.map Event.token).map Event.text
          = a.noticeLines ++ tokenLines ts elapsed := by
      rw [List.append_assoc, List.map_append, hnotices]
      exact congrArg (a.noticeLines ++ ·) (map_text_tokens ts elapsed)
    dsimp only [scanEvents]
    simp only [Log.written_eq_ofLines]
    cases hlex : a.lex with
    | true =>
      rw [if_pos (Args.head?_stops.mpr hlex), htokens, if_pos rfl, if_pos rfl,
        List.append_nil]
      rfl
    | false =>
      have hstop : a.stops.head? ≠ some .lex := by
        rw [ne_eq, Args.head?_stops, hlex]
        exact Bool.false_ne_true
      rw [if_neg hstop, List.map_append, htokens, List.map_singleton,
        Event.text_output, List.append_assoc]
      exact Outcome.failed_eq_ofReport rfl _ _ _

/-- With both paths, the later gates decide what is reported. -/
theorem firstReport?_of_paths :
    firstReport? files a
      = match files.text path with
        | .error why =>
          some { diagnostic := ⟨.unreadableFile (SystemPath.text path)
            why.message, .cliArgs, .null⟩ }
        | .ok text =>
          match tokenize text (some (Path.inputName path)) with
          | .error d =>
            some { diagnostic := d, source := text,
                   path := SystemPath.text path }
          | .ok _ =>
            if a.lex then none
            else some { diagnostic := ⟨.notImplemented, .parse, .null⟩ } := by
  unfold firstReport? Gate.all
  cases htext : files.text path with
  | error why => simp [Gate.report?, ho, hi, htext]
  | ok text =>
    cases htokens : tokenize text (some (Path.inputName path)) with
    | error d =>
      simp [Gate.report?, ho, hi, htext, Except.toOption, htokens]
    | ok ts =>
      by_cases hlex : a.lex = true
      · simp [Gate.report?, ho, hi, htext, Except.toOption, htokens, hlex]
      · simp [Gate.report?, ho, hi, htext, Except.toOption, htokens, hlex]

/-- With both paths, the log goes on after the notices if there are
tokens. -/
theorem Args.logLines_of_paths :
    a.logLines files elapsed
      = match files.text path with
        | .error _ => a.noticeLines
        | .ok text =>
          match tokenize text (some (Path.inputName path)) with
          | .error _ => a.noticeLines
          | .ok ts =>
            a.noticeLines ++ (tokenLines ts elapsed ++
              if a.lex then []
              else ["[parse] Output would be written to "
                ++ SystemPath.text output]) := by
  unfold logLines tokens?
  rw [ho, hi]
  cases htext : files.text path with
  | error why => simp [htext, Except.toOption]
  | ok text =>
    cases htokens : tokenize text (some (Path.inputName path)) with
    | error d => simp [htext, Except.toOption, htokens]
    | ok ts => simp [htext, Except.toOption, htokens]

end Paths

/-- A run ends at its first shut gate, with what is logged up to there. -/
theorem runArgs_eq_ofReport (files : Files π) (elapsed : String)
    (write : String → String) (a : Args π) :
    Id.run (runArgs (.given files elapsed write) a)
      = Outcome.ofReport (Log.ofLines write a.debug (a.logLines files elapsed))
          (firstReport? files a) := by
  cases ho : a.output with
  | none => exact runArgs_of_missing (Or.inl ho)
  | some output =>
    cases hi : a.input with
    | none => exact runArgs_of_missing (Or.inr hi)
    | some path =>
      rw [runArgs_of_paths ho hi, firstReport?_of_paths ho hi,
        Args.logLines_of_paths ho hi]
      cases files.text path with
      | error why =>
        dsimp only
        rw [Log.written_eq_ofLines, Args.map_text_events ho hi]
        exact Outcome.failed_eq_ofReport rfl _ _ _
      | ok text =>
        dsimp only
        rw [compile_eq_ofReport ho hi]
        cases tokenize text (some (Path.inputName path)) with
        | error d => rfl
        | ok ts => rfl

/-- What a run with the options `a` is to leave behind, where `files` is what
reading gives, `elapsed` is how long scanning takes, and `write` writes a line
of the log. -/
structure Outcome.IsLeft (files : Files π) (elapsed : String)
    (write : String → String) (a : Args π) (o : Outcome) : Prop where
  passed : firstReport? files a = none → o.exitCode = 0 ∧ o.stderr = ""
  stopped : ∀ r, firstReport? files a = some r →
    o.exitCode = 1 ∧ o.stderr = r.text
  silent : a.debug = false → o.stdout = ""
  logged : a.debug = true →
    o.stdout = String.join ((a.logLines files elapsed).map write)

theorem Outcome.isLeft_ofReport (files : Files π) (elapsed : String)
    (write : String → String) (a : Args π) :
    IsLeft files elapsed write a
      (ofReport (Log.ofLines write a.debug (a.logLines files elapsed))
        (firstReport? files a)) := by
  have hstdout : ∀ log r?, (ofReport log r?).stdout = log := by
    intro log r?
    cases r? <;> rfl
  constructor
  · intro hnone
    rw [hnone]
    exact ⟨rfl, rfl⟩
  · intro r hr
    rw [hr]
    exact ⟨rfl, rfl⟩
  · intro hquiet
    rw [hstdout, hquiet]
    rfl
  · intro hdebug
    rw [hstdout, hdebug]
    rfl

/-- The first shut gate decides the exit code and what is on standard error;
the log is on standard output, with `--debug` only. So it is for all options
and all that a system can have for paths and files, and for every command line
that is accepted. -/
theorem run_outcome :
    (∀ {π : Type} [SystemPath π] (files : Files π) (elapsed : String)
        (write : String → String) (a : Args π),
      Outcome.IsLeft files elapsed write a
        (Id.run (runArgs (.given files elapsed write) a))) ∧
    ∀ (files : Files String) (elapsed : String) (write : String → String)
        (argv : List String) (a : Args), Args.ofArguments argv = .ok a →
      Outcome.IsLeft files elapsed write a
        (Id.run (run (.given files elapsed write) argv)) := by
  have hargs : ∀ {π : Type} [SystemPath π] (files : Files π)
      (elapsed : String) (write : String → String) (a : Args π),
      Outcome.IsLeft files elapsed write a
        (Id.run (runArgs (.given files elapsed write) a)) := by
    intro π _ files elapsed write a
    rw [runArgs_eq_ofReport]
    exact Outcome.isLeft_ofReport files elapsed write a
  refine ⟨hargs, fun files elapsed write argv a h => ?_⟩
  unfold run
  rw [h]
  exact hargs files elapsed write a

/-- Of three files, each in a place of its own kind, one is scanned in silence.
With the second the log goes on to the output, with the third it stops before
the tokens, and the number is shown. A fourth cannot be read. -/
theorem run_outcome_trailing_point :
    let t : FileTree :=
      ⟨[(["a.c".toList], .file "int a;".toUTF8),
        ([[], "src".toList, "b.c".toList], .file "return b_1".toUTF8),
        (["..".toList, "c.c".toList], .file "int\n  1.;".toUTF8)]⟩
    let quiet := ["-i", "a.c", "--output=a", "--lex"]
    let loud := ["--debug", "--parse", "-i/src/b.c", "-o", "b"]
    let wrong := ["--debug", "-i", "../c.c", "-o", "c", "--lex"]
    let a : Args := { lex := true, output := some "a", input := some "a.c" }
    let b : Args := { parse := true, debug := true,
                      output := some "b", input := some "/src/b.c" }
    let c : Args := { lex := true, debug := true,
                      output := some "c", input := some "../c.c" }
    let outcome (argv : List String) := Id.run (run (t.host "1ms") argv)
    let denied : Files String :=
      fun _ => .error (.other "Permission denied (os error 13)")
    Args.ofArguments quiet = .ok a ∧ Args.ofArguments loud = .ok b ∧
      Args.ofArguments wrong = .ok c ∧
      outcome quiet = ⟨0, "", ""⟩ ∧
      outcome loud =
        ⟨1, "[cliArgs] CLI argument --debug provided. Enabling debugging\n" ++
            "[cliArgs] CLI argument --parse provided. Stopping after parse\n" ++
            "[cliArgs] Finished parsing command line arguments\n" ++
            "[lex] lexing source text complete\n" ++
            "[lex] Tokenized 2 tokens in 1ms\n" ++
            "[lex] Return @ 0..6\n[lex] Identifier (b_1) @ 7..10\n" ++
            "[parse] Output would be written to b\n",
          "Fatal error during parsing: not implemented error\nnote: This " ++
            "stage is expected to be handled, but has not yet been " ++
            "implemented\n"⟩ ∧
      outcome wrong =
        ⟨1, "[cliArgs] CLI argument --debug provided. Enabling debugging\n" ++
            "[cliArgs] CLI argument --lex provided. Stopping after lex\n" ++
            "[cliArgs] Finished parsing command line arguments\n",
          "Fatal error during lexing: invalid number \"1.\": decimal point " ++
            "is not followed by a digit\nnote: Add at least one digit after " ++
            "the decimal point\n-> ../c.c:2:3\n  |\n2 | 1.;\n  | ^\n"⟩ ∧
      (Id.run (runArgs (.given denied "" (· ++ "\n")) a)).stderr =
        "Fatal error during command line argument parsing: could not read " ++
          "\"a.c\": Permission denied (os error 13)\n" := by
  intro t quiet loud wrong a b c outcome denied
  obtain ⟨hargs, hargv⟩ := run_outcome
  have ha : Args.ofArguments quiet = .ok a := by rfl
  have hb : Args.ofArguments loud = .ok b := by rfl
  have hc : Args.ofArguments wrong = .ok c := by rfl
  have hquiet := hargv t.read "1ms" Log.line quiet a ha
  obtain ⟨hdone, hnothing⟩ := hquiet.passed (by decide +kernel)
  have hloud := hargv t.read "1ms" Log.line loud b hb
  obtain ⟨hcode, herr⟩ := hloud.stopped
    { diagnostic := ⟨.notImplemented, .parse, .null⟩ } (by decide +kernel)
  have hwrong := hargv t.read "1ms" Log.line wrong c hc
  obtain ⟨hcode', herr'⟩ := hwrong.stopped
    { diagnostic := ⟨.malformedNumber "1." .trailingPoint, .lex,
        .ofOffset 6 "c.c"⟩, source := "int\n  1.;", path := "../c.c" }
    (by decide +kernel)
  have hdenied := hargs denied "" (· ++ "\n") a
  obtain ⟨-, herr''⟩ := hdenied.stopped
    { diagnostic := ⟨.unreadableFile "a.c" "Permission denied (os error 13)",
        .cliArgs, .null⟩ } (by decide +kernel)
  refine ⟨ha, hb, hc, Outcome.ext hdone (hquiet.silent rfl) hnothing,
    Outcome.ext hcode ((hloud.logged rfl).trans ?_) (herr.trans ?_),
    Outcome.ext hcode' ((hwrong.logged rfl).trans ?_) (herr'.trans ?_),
    herr''.trans ?_⟩
  all_goals decide +kernel

end MiniC
