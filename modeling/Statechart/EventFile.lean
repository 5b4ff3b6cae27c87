import Statechart.Text.Blank
import Statechart.Value.Canonical

/-!
# Files of events

A file of events has one JSON value a line; blank lines are skipped. A line ends at a line feed, a
carriage return, or both in this order, and nowhere else. `EventFile.read` gives the values in
order, or names the first line that is neither blank nor a value. What a line is read as is up to
the parser `loads`, and so is what values are.

A file is decoded chunk by chunk, so bytes that are no text come to light only when the lines that
end in the chunks before them have been read.
-/

namespace Statechart

/-- The value of a JSON text. -/
def Value.loads (s : String) : Except Json.Fault Value :=
  (Json.read s).map Value.ofJson

namespace EventFile

/-- The lines of a text, each with a line feed for its end if it has one. -/
def lines : List Char → List (List Char)
  | [] => []
  | '\r' :: '\n' :: cs => ['\n'] :: lines cs
  | '\r' :: cs => ['\n'] :: lines cs
  | '\n' :: cs => ['\n'] :: lines cs
  | c :: cs =>
      match lines cs with
      | [] => [[c]]
      | l :: ls => (c :: l) :: ls

/-- The lines of a text that goes on: those that have ended. A carriage return at its end may still
be followed by the line feed that belongs to it. -/
def endedLines (cs : List Char) : List (List Char) :=
  let cs := if cs.getLast? = some '\r' then cs.dropLast else cs
  (lines cs).filter fun l => l.getLast? = some '\n'

/-- Whether a byte may follow another one at the start of a character of several bytes. -/
def mayFollow (a b : UInt8) : Bool :=
  (if a = 0xe0 then 0xa0 else if a = 0xf0 then 0x90 else 0x80) ≤ b
    && b ≤ (if a = 0xed then 0x9f else if a = 0xf4 then 0x8f else 0xbf)

/-- Whether bytes may be the start of a character that is not complete. -/
def isUnfinished : List UInt8 → Bool
  | [] => true
  | [a] => 0xc2 ≤ a && a ≤ 0xf4
  | [a, b] => 0xe0 ≤ a && a ≤ 0xf4 && mayFollow a b
  | [a, b, c] => 0xf0 ≤ a && a ≤ 0xf4 && mayFollow a b && 0x80 ≤ c && c ≤ 0xbf
  | _ => false

/-- The text of bytes that go on: the last character need not be complete. -/
def startText? (bytes : List UInt8) : Option String :=
  (List.range 4).findSome? fun n =>
    let size := bytes.length - n
    if isUnfinished (bytes.drop size) then String.fromUTF8? ⟨(bytes.take size).toArray⟩ else none

/-- The text of the chunks in front of the first that cannot be decoded. -/
def textBefore (chunk : Nat) (bytes : List UInt8) : String :=
  let starts := (List.range (bytes.length / chunk + 2)).map fun n =>
    startText? (bytes.take (n * chunk))
  ((starts.takeWhile Option.isSome).getLast?.bind id).getD ""

variable {α : Type} (loads : String → Except Json.Fault α)

/-- The event of a line. -/
def eventOf (path : String) (number : Nat) (line : List Char) : Except Error α :=
  match loads (String.ofList line) with
  | .ok x => .ok x
  | .error f =>
      if f.limit?.isSome then .error (.eventText f)
      else .error (.load (.invalidEvent path number f))

/-- The events of lines; `number` is that of the first one. -/
def eventsOf (path : String) (number : Nat) : List (List Char) → Except Error (List α)
  | [] => .ok []
  | line :: rest =>
      if line.all Text.isBlank then eventsOf path (number + 1) rest
      else do
        let event ← eventOf loads path number line
        return event :: (← eventsOf path (number + 1) rest)

/-- The events of the file that a path leads to, if there is one; it is decoded in chunks of the
given size. -/
def read (chunk : Nat) (path : String) (content : Except FileFault (List UInt8)) :
    Except Error (List α) :=
  match content with
  | .error f => .error (.file path f)
  | .ok bytes =>
      match String.fromUTF8? ⟨bytes.toArray⟩ with
      | some text => eventsOf loads path 1 (lines text.toList)
      | none => do
          let _ ← eventsOf loads path 1 (endedLines (textBefore chunk bytes).toList)
          .error .undecodable

end EventFile

end Statechart
