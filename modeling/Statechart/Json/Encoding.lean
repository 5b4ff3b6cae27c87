import Statechart.Json.Reader

/-!
# JSON text in bytes

JSON text is written in UTF-8, UTF-16 or UTF-32. A byte order mark says which; without one the zero
bytes at the start do, since JSON text starts with two characters that UTF-8 writes in one byte, or
with one and nothing after it.
-/

namespace Statechart.Json

/-- How text is written in bytes; the units of the wider ones may come with either end first. -/
inductive Encoding where
  | utf8
  | utf16 (bigEnd : Bool)
  | utf32 (bigEnd : Bool)
deriving DecidableEq

/-- The encoding of JSON text that has no byte order mark. -/
def Encoding.unmarked : List UInt8 → Encoding
  | a :: b :: c :: d :: _ =>
      if a = 0 then if b = 0 then .utf32 true else .utf16 true
      else if b = 0 then if c = 0 ∧ d = 0 then .utf32 false else .utf16 false
      else .utf8
  | [a, b] => if a = 0 then .utf16 true else if b = 0 then .utf16 false else .utf8
  | _ => .utf8

/-- The encoding of JSON text, and its bytes without the byte order mark. -/
def Encoding.detect : List UInt8 → Encoding × List UInt8
  | 0x00 :: 0x00 :: 0xfe :: 0xff :: bs => (.utf32 true, bs)
  | 0xff :: 0xfe :: 0x00 :: 0x00 :: bs => (.utf32 false, bs)
  | 0xfe :: 0xff :: bs => (.utf16 true, bs)
  | 0xff :: 0xfe :: bs => (.utf16 false, bs)
  | 0xef :: 0xbb :: 0xbf :: bs => (.utf8, bs)
  | bs => (.unmarked bs, bs)

/-- The number that bytes write. -/
def unitOf (bigEnd : Bool) (bs : List UInt8) : Nat :=
  (if bigEnd then bs else bs.reverse).foldl (fun n b => n * 256 + b.toNat) 0

/-- The units of two bytes each. -/
def units16 (bigEnd : Bool) : List UInt8 → Option (List Nat)
  | [] => some []
  | a :: b :: bs => (units16 bigEnd bs).map (unitOf bigEnd [a, b] :: ·)
  | _ => none

/-- The units of four bytes each. -/
def units32 (bigEnd : Bool) : List UInt8 → Option (List Nat)
  | [] => some []
  | a :: b :: c :: d :: bs => (units32 bigEnd bs).map (unitOf bigEnd [a, b, c, d] :: ·)
  | _ => none

/-- The character with a number, which is no surrogate. -/
def scalar? (n : Nat) : Option Char :=
  if n < 0xd800 ∨ (0xe000 ≤ n ∧ n < 0x110000) then some (Char.ofNat n) else none

/-- The JSON text that bytes write, unless they write none. -/
def decode? (bytes : List UInt8) : Option String :=
  match Encoding.detect bytes with
  | (.utf8, bs) => String.fromUTF8? ⟨bs.toArray⟩
  | (.utf16 bigEnd, bs) => do
      let us ← units16 bigEnd bs
      return String.ofList (← joinUnits (us.map .unit))
  | (.utf32 bigEnd, bs) => do
      let us ← units32 bigEnd bs
      return String.ofList (← us.mapM scalar?)

end Statechart.Json
