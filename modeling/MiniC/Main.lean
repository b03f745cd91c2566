import MiniC.Run

/-!
The compiler as a program: a run whose surroundings are the machine's.
-/

namespace MiniC

/-- The number of a system error, whichever sign it is reported with. -/
def systemError (code : UInt32) : Nat :=
  Nat.min code.toNat (UInt32.size - code.toNat)

/-- A failed read by what the system says about it. -/
def ReadFailure.ofError : IO.Error → ReadFailure
  | .noFileOrDirectory _ _ _ => .notFound
  | .inappropriateType _ code _ =>
    if systemError code = 20 then .notDirectory else .isDirectory
  | .permissionDenied _ _ _ => .other "Permission denied (os error 13)"
  | .invalidArgument _ code details =>
    if systemError code = 36 then .nameTooLong
    else if systemError code = 22 then .nulInPath
    else .other details
  | e => .other (toString e)

/-- A time span in words, in the largest unit that it fills. -/
def elapsedText (nanoseconds : Nat) : String :=
  let (unit, name) :=
    if 1000000000 ≤ nanoseconds then (1000000000, "s")
    else if 1000000 ≤ nanoseconds then (1000000, "ms")
    else if 1000 ≤ nanoseconds then (1000, "µs")
    else (1, "ns")
  let tenths := nanoseconds * 10 / unit % 10
  Numeric.natText (nanoseconds / unit) ++
    (if tenths = 0 then "" else "." ++ Numeric.natText tenths) ++ name

/-- The machine as surroundings. -/
def machine : Host IO where
  read path := do
    try
      return .ok (← IO.FS.readBinFile path)
    catch e =>
      return .error (.ofError e)
  timed f := do
    let start ← IO.monoNanosNow
    let value ← IO.lazyPure f
    let stop ← IO.monoNanosNow
    return (value, elapsedText (stop - start))
  write := Log.line

end MiniC

/-- Runs the compiler and leaves with its exit code. -/
def main (argv : List String) : IO UInt32 := do
  let outcome ← MiniC.run MiniC.machine argv
  (← IO.getStdout).putStr outcome.stdout
  (← IO.getStderr).putStr outcome.stderr
  return outcome.exitCode
