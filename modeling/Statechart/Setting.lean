import Statechart.Error
import Statechart.Report.Console
import Statechart.Value.Held

/-!
# The setting of the program

What the program does depends on more than its arguments: on files and the clock, on the console, on
where copies are put, and on how errors are worded that are not its own. A `Setting` is all of that.
-/

namespace Statechart

/-- What the program runs in. -/
structure Setting where
  /-- The bytes of the file that a path leads to. -/
  files : String → Except FileFault (List UInt8)
  /-- The number of bytes of a file that are decoded at once. -/
  chunk : Nat
  /-- The time stamp of log lines. -/
  stamp : String
  console : Report.Console
  copies : Copies
  /-- The wordings of errors that the library does not word itself. -/
  composed : Error → String

end Statechart
