import Statechart.Text.Blank
import Statechart.Text.Split
import Statechart.Text.Width

/-!
# Wrapping lines

A line that is too wide is broken in front of a word, where a word takes the blanks after it along.
A word that is wider than a line is folded over several lines or, on request, cut off. Tabs go to
the next multiple of eight columns.
-/

namespace Statechart.Text

/-- The words of a line, each with the blanks around it. Blanks alone make no word. -/
def spacedWords : (fuel : Nat) → List Char → List (List Char)
  | 0, _ => []
  | fuel + 1, cs =>
      let front := cs.takeWhile isBlank
      let rest := cs.dropWhile isBlank
      let core := rest.takeWhile fun c => !isBlank c
      if core.isEmpty then []
      else
        let rest := rest.drop core.length
        let back := rest.takeWhile isBlank
        (front ++ core ++ back) :: spacedWords fuel (rest.drop back.length)

/-- A line without the blanks at its end. -/
def trimEnd (cs : List Char) : List Char :=
  (cs.reverse.dropWhile isBlank).reverse

/-- A line without those blanks at its end that come after a number of characters. -/
def trimBeyond (limit : Nat) (cs : List Char) : List Char :=
  let blanks := (cs.reverse.takeWhile isBlank).length
  cs.take (cs.length - min blanks (cs.length - limit))

/-- Cuts clusters into chunks no wider than a line. `held` is the chunk so far. -/
def chop (limit : Nat) : (held : List Char) → (taken : Nat) → List Cluster → List (List Char)
  | held, taken, [] => if taken = 0 then [] else [held]
  | held, taken, k :: ks =>
      if limit < taken + k.columns then held :: chop limit k.chars k.columns ks
      else chop limit (held ++ k.chars) (taken + k.columns) ks

/-- A line that is being filled: those before it, itself, and the columns it takes. -/
structure Filling where
  done : List (List Char)
  line : List Char
  taken : Nat

/-- Begins a new line, unless the line is still empty. -/
def Filling.break (f : Filling) : List (List Char) :=
  if f.line.isEmpty then f.done else f.done ++ [f.line]

/-- Adds a word. -/
def Filling.add (fold : Bool) (limit : Nat) (f : Filling) (word : List Char) : Filling :=
  let size := width (trimEnd word)
  if f.taken + size ≤ limit then ⟨f.done, f.line ++ word, f.taken + width word⟩
  else if limit < size then
    if fold then
      (chop limit [] 0 (clusters word)).foldl (fun f chunk => ⟨f.break, chunk, width chunk⟩) f
    else ⟨f.break, word, width word⟩
  else ⟨f.break, word, width word⟩

/-- The clusters at the front that fit, and a blank in place of half a cluster. -/
def fitFront : (limit : Nat) → List Cluster → List Char
  | 0, _ => []
  | _ + 1, [] => []
  | limit + 1, k :: ks =>
      if k.columns ≤ limit + 1 then k.chars ++ fitFront (limit + 1 - k.columns) ks else [' ']

/-- Cuts off what does not fit; an ellipsis takes the last column unless lines are folded. -/
def crop (fold : Bool) (limit : Nat) (cs : List Char) : List Char :=
  if width cs ≤ limit then cs
  else if fold then fitFront limit (clusters cs)
  else fitFront (limit - 1) (clusters cs) ++ ['…']

/-- The parts of a line, each but the last followed by the blanks that its tab stands for: one, and
those up to the next multiple of eight columns. -/
def spreadTabs : (taken : Nat) → List (List Char) → List Char
  | _, [] => []
  | _, [p] => p
  | taken, p :: q :: ps =>
      let part := p ++ [' ']
      let taken := taken + width part
      let gap := (8 - taken % 8) % 8
      part ++ List.replicate gap ' ' ++ spreadTabs (taken + gap) (q :: ps)

/-- Puts blanks in place of tabs. -/
def expandTabs (cs : List Char) : List Char :=
  spreadTabs 0 (splitOn '\t' cs)

/-- Breaks one line into lines that fit. -/
def wrapLine (fold : Bool) (limit : Nat) (cs : List Char) : List (List Char) :=
  let cs := expandTabs cs
  let f := (spacedWords (cs.length + 1) cs).foldl (Filling.add fold limit) ⟨[], [], 0⟩
  let lines := if f.line.isEmpty then [cs] else f.done ++ [f.line]
  lines.map fun l => crop fold limit (trimBeyond limit l)

/-- Splits a text at its line feeds and breaks each line. -/
def wrap (fold : Bool) (limit : Nat) (cs : List Char) : List (List Char) :=
  (splitOn '\n' cs).flatMap (wrapLine fold limit)

/-- Whether a character ends a line when a text is measured. -/
def endsLine (c : Char) : Bool :=
  let n := c.toNat
  (10 ≤ n && n ≤ 13) || (28 ≤ n && n ≤ 30) || n == 0x85 || n == 0x2028 || n == 0x2029

/-- The columns of the widest line of a text, where `widest` and `m` measure the lines before and
the line so far. -/
def widestFrom (widest : Nat) (m : Measured) : List Char → Nat
  | [] => max widest m.columns
  | c :: cs =>
      if endsLine c then widestFrom (max widest m.columns) ⟨0, none, false⟩ cs
      else widestFrom widest (m.add c) cs

/-- The columns of the widest line of a text. -/
def widest (cs : List Char) : Nat :=
  widestFrom 0 ⟨0, none, false⟩ cs

end Statechart.Text
