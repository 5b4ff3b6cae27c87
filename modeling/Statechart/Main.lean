import Statechart.Command

/-!
# The program

`main` reads the file of events that the arguments name, lets `Command.perform` do the work, and
prints what it gives. Reading the file, the clock and the width of the console and printing are all
that happens here.
-/

namespace Statechart

/-- The file that a command reads. -/
def Command.file? : Command → Option String
  | .run _ events _ _ _ => some events
  | .inspect _ _ => none
  | .version => none

/-- The bytes of a file, or why it cannot be read. -/
def readBytes (path : String) : IO (Except FileFault (List UInt8)) := do
  match ← (IO.FS.readBinFile path).toBaseIO with
  | .ok bytes => return .ok bytes.toList
  | .error (.inappropriateType ..) => return .error .isFolder
  | .error (.invalidArgument ..) => return .error .tooLong
  | .error _ => return .error .missing

/-- The columns of the console that the environment gives. -/
def consoleWidth : IO Nat := do
  return ((← IO.getEnv "COLUMNS").bind String.toNat?).getD 80

/-- Carries out the command that the arguments give and prints its report. The result is the exit
code. -/
def Command.runProgram (arguments : List String) : IO UInt32 := do
  let path := (Command.parse arguments).bind Command.file?
  let content ← match path with
    | some p => readBytes p
    | none => pure (.error .missing)
  let setting : Setting :=
    { files := fun p => if some p = path then content else .error .missing
      chunk := 8192
      stamp := toString (← IO.monoMsNow)
      console := .ofWidth (← consoleWidth)
      copies := .same
      composed := Error.kind }
  match Command.perform setting arguments with
  | .ok printed =>
      for line in printed.lines do
        IO.println line
      return printed.exit.toUInt32
  | .error e =>
      IO.eprintln (e.kind ++ ": " ++ e.message setting.composed)
      return 1

end Statechart

/-- The program. -/
def main (arguments : List String) : IO UInt32 :=
  Statechart.Command.runProgram arguments
