import Statechart.Text.Emoji.Code
import Statechart.Text.Markup.Literal
import Statechart.Text.Style

/-!
# Markup

Text printed on a console may hold tags in brackets, which set a style and are not shown. A tag
starts with a small letter, `#`, `/` or `@`; one that starts with a slash closes the tag that it
names, or the last one. Backslashes in front of a bracket keep it from being a tag. Emoji codes are
replaced and characters that move the cursor are dropped. `render` gives the text that is shown.
-/

namespace Statechart.Text.Markup

/-- Why marked-up text cannot be shown: a closing tag has no partner or closes an action whose
parameter is no literal, or a number in a style cannot be read. -/
inductive Fault where
  | malformed
  | malformedNumber
deriving DecidableEq

/-- A tag: its name and what follows the equals sign. -/
structure Tag where
  name : List Char
  parameter : Option (List Char)

/-- A piece of marked-up text. -/
inductive Piece where
  | plain (cs : List Char)
  | opening (tag : Tag)
  | closing (name : List Char)

/-- Whether a tag may start with a character. -/
def startsTag (c : Char) : Bool :=
  c.isLower || c == '#' || c == '/' || c == '@'

/-- The tag whose opening bracket stands directly before, and the text after it. -/
def tag? (cs : List Char) : Option (List Char × List Char) :=
  match cs with
  | [] => none
  | c :: _ =>
      if startsTag c then
        let body := cs.takeWhile fun c => c ≠ ']' ∧ c ≠ '['
        match cs.drop body.length with
        | ']' :: rest => some (body, rest)
        | _ => none
      else none

/-- The piece that a tag is. What follows an equals sign is a parameter, not part of the name. -/
def pieceOf (body : List Char) : Piece :=
  let name := body.takeWhile (· ≠ '=')
  match name, body.drop name.length with
  | '/' :: name, _ => .closing name
  | name, _ :: parameter => .opening ⟨name, some parameter⟩
  | name, [] => .opening ⟨name, none⟩

/-- A piece of plain text, unless it is empty. -/
def plainPiece (cs : List Char) : List Piece :=
  if cs.isEmpty then [] else [.plain cs]

/-- Cuts text into pieces. Each step consumes a character and takes one unit of fuel; `held` is the
plain text before, from its end. -/
def cut : (fuel : Nat) → (held : List Char) → List Char → List Piece
  | 0, held, cs => plainPiece (held.reverse ++ cs)
  | _ + 1, held, [] => plainPiece held.reverse
  | fuel + 1, held, c :: cs =>
      let slashes := (c :: cs).takeWhile (· = '\\')
      match (c :: cs).drop slashes.length with
      | '[' :: rest =>
          match tag? rest with
          | none => cut fuel ('[' :: slashes ++ held) rest
          | some (body, rest) =>
              let kept := List.replicate (slashes.length / 2) '\\'
              let piece :=
                if slashes.length % 2 = 1 then .plain ('[' :: body ++ [']']) else pieceOf body
              plainPiece held.reverse ++ plainPiece kept ++ piece :: cut fuel [] rest
      | d :: rest => cut fuel (d :: slashes ++ held) rest
      | [] => plainPiece ((slashes ++ held).reverse)

/-- The pieces of a text. -/
def pieces (cs : List Char) : List Piece :=
  cut (cs.length + 1) [] cs

/-- Shows a bracket without the backslash in front of it. -/
def unescape : List Char → List Char
  | '\\' :: '[' :: cs => '[' :: unescape cs
  | c :: cs => c :: unescape cs
  | [] => []

/-- The characters that move the cursor are not shown. -/
def isShown (c : Char) : Bool :=
  let n := c.toNat
  !(n == 7 || n == 8 || n == 11 || n == 12 || n == 13)

/-- What plain text shows. -/
def plainText (cs : List Char) : List Char :=
  (Emoji.replace cs).filter isShown

/-- The fault of a style. A word without a meaning is none. -/
def styleFault : Except StyleFault Style → Except Fault Unit
  | .error .malformedNumber => .error .malformedNumber
  | _ => .ok ()

/-- The form in which names of tags are compared. -/
def normal (name : List Char) : Except Fault (List Char) :=
  match Style.normal name with
  | .ok s => .ok s.toList
  | .error _ => .error .malformedNumber

/-- Closes the innermost open tag with a name: that tag, and those that stay open. -/
def close (name : List Char) : List Tag → Option (Tag × List Tag)
  | [] => none
  | t :: ts =>
      if t.name = name then some (t, ts)
      else (close name ts).map fun r => (r.1, t :: r.2)

/-- Checks the style that a tag sets, which includes its parameter. -/
def Tag.check (t : Tag) : Except Fault Unit :=
  match t.parameter with
  | some p => styleFault (Style.read (t.name ++ ' ' :: p))
  | none => .ok ()

/-- The style that a closed tag sets, if it does not name an action. -/
def Tag.closed (t : Tag) : Except Fault (List Tag) :=
  match t.name, t.parameter with
  | '@' :: _, some p =>
      if p = [] ∨ isParameter (strip p) then .ok [] else .error .malformed
  | '@' :: _, none => .ok []
  | _, _ => .ok [t]

/-- What has been read of marked-up text: the tags that are open, the innermost first, the tags that
were closed, and the text, in pieces from its end. -/
structure Reading where
  stack : List Tag
  tags : List Tag
  shown : List (List Char)

/-- Reads a piece. -/
def Reading.add (r : Reading) : Piece → Except Fault Reading
  | .plain cs => .ok { r with shown := plainText (unescape cs) :: r.shown }
  | .opening t => do
      return { r with stack := { t with name := ← normal t.name } :: r.stack }
  | .closing name => do
      let name := strip name
      let closed ←
        if name.isEmpty then pure (r.stack.head?.map fun t => (t, r.stack.tail))
        else do pure (close (← normal name) r.stack)
      match closed with
      | some (t, stack) => return { r with stack := stack, tags := (← t.closed) ++ r.tags }
      | none => .error .malformed

/-- The text that marked-up text shows. -/
def render (cs : List Char) : Except Fault (List Char) :=
  if cs.contains '[' then do
    let r ← (pieces cs).foldlM Reading.add ⟨[], [], []⟩
    (r.tags ++ r.stack).forM Tag.check
    return r.shown.reverse.flatten
  else .ok (plainText cs)

/-- Puts a backslash in front of what would be a tag and doubles those that are there. Each step
consumes a character and takes one unit of fuel. -/
def escapeTags : (fuel : Nat) → List Char → List Char
  | 0, cs => cs
  | _ + 1, [] => []
  | fuel + 1, c :: cs =>
      let slashes := (c :: cs).takeWhile (· = '\\')
      match (c :: cs).drop slashes.length with
      | '[' :: rest =>
          match tag? rest with
          | some (body, rest) =>
              slashes ++ slashes ++ '\\' :: '[' :: body ++ ']' :: escapeTags fuel rest
          | none => slashes ++ '[' :: escapeTags fuel rest
      | d :: rest => slashes ++ d :: escapeTags fuel rest
      | [] => slashes

/-- Escapes text for use inside marked-up text. A single backslash at the end is doubled. -/
def escape (cs : List Char) : List Char :=
  let out := escapeTags (cs.length + 1) cs
  match out.reverse with
  | '\\' :: '\\' :: _ => out
  | '\\' :: _ => out ++ ['\\']
  | _ => out

end Statechart.Text.Markup
