import Statechart.Error
import Statechart.Text.Split

/-!
# Pointers into a document

A pointer is a text of parts, each after a slash, in which `~0` stands for a tilde and `~1` for a
slash. A part names a member of a table or, in a sequence, a position or the place past its end;
bytes count as a sequence of numbers that is not changed.
-/

namespace Statechart.Patch

/-- A pointer as the list of its parts. -/
abbrev Pointer := List String

/-- Undoes the escapes of a part. -/
def unescape : List Char → List Char
  | '~' :: '1' :: cs => '/' :: unescape cs
  | '~' :: '0' :: cs => '~' :: unescape cs
  | c :: cs => c :: unescape cs
  | [] => []

/-- Whether each tilde is part of an escape. -/
def escapesValid : List Char → Bool
  | '~' :: '0' :: cs => escapesValid cs
  | '~' :: '1' :: cs => escapesValid cs
  | '~' :: _ => false
  | _ :: cs => escapesValid cs
  | [] => true

/-- Reads a pointer. -/
def Pointer.read (s : String) : Except PatchFault Pointer :=
  let cs := s.toList
  if !escapesValid cs then .error .pointer
  else
    match cs with
    | [] => .ok []
    | '/' :: cs => .ok ((Text.splitOn '/' cs).map fun p => String.ofList (unescape p))
    | _ => .error .pointer

/-- Where a part leads in a container. -/
inductive Step where
  | member (name : String)
  | position (n : Nat)
  | pastEnd

/-- The position that a part names: digits without a leading zero, and not too many of them. -/
def position? (part : List Char) : Option Nat :=
  match part with
  | [] => none
  | ['0'] => some 0
  | '0' :: _ => none
  | _ =>
      if part.all Char.isDigit && part.length ≤ Json.maxDigits then some (Json.digitsValue part)
      else none

/-- The members of a sequence of values. -/
def sequence? : Value → Option (List Value)
  | .list _ xs => some xs
  | .tuple xs => some xs
  | .result u o => some [u, o]
  | _ => none

/-- The members that positions lead to. -/
def members? : Value → Option (List Value)
  | .bytes bs => some (bs.map fun b => .int b.toNat)
  | v => sequence? v

/-- Where a part leads in a document. -/
def step (doc : Value) (part : String) : Except PatchFault Step :=
  if doc.isMapping then .ok (.member part)
  else
    match members? doc with
    | none => .error .pointer
    | some _ =>
        if part = "-" then .ok .pastEnd
        else
          match position? part.toList with
          | some n => .ok (.position n)
          | none => .error .pointer

end Statechart.Patch
