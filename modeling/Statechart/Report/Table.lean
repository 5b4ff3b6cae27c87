import Statechart.Number.Binary64
import Statechart.Text.Wrap

/-!
# Tables on a console

A table has columns of cells, with one blank on both sides of each. It is drawn with borders, a
heavy head and a title centred above, or as a grid without borders. Columns are as wide as their
widest cell; when the table is wider than the console, the widest columns give way and their cells
are wrapped.
-/

namespace Statechart.Report

/-- A column: its heading, its cells, and whether they are set flush right. -/
structure Column where
  heading : List Char
  cells : List (List Char)
  right : Bool

/-- The sum of widths. -/
def total : List Nat → Nat
  | [] => 0
  | w :: ws => w + total ws

/-- How a column takes part in a reduction: its share, the most that it can give, and its width. -/
structure Share where
  ratio : Nat
  limit : Nat
  width : Nat

/-- Reduces columns in turn, given what is left to take and the sum of the ratios that are left. -/
def reduceShares : (left sum : Nat) → List Share → List Nat
  | _, _, [] => []
  | left, sum, s :: rest =>
      if s.ratio = 0 ∨ sum = 0 then s.width :: reduceShares left sum rest
      else
        let part := min s.limit (Binary64.roundHalfEven (s.ratio * left) sum)
        (s.width - part) :: reduceShares (left - part) (sum - s.ratio) rest

/-- Distributes a reduction over columns in proportion to their ratios, none above its limit. A
column that can give nothing has no share. -/
def reduceBy (excess : Nat) (shares : List Share) : List Nat :=
  let shares := shares.map fun s => if s.limit = 0 then ⟨0, 0, s.width⟩ else s
  reduceShares excess (total (shares.map Share.ratio)) shares

/-- Narrows the widest columns until the sum of the widths fits or all are equally wide. -/
def collapse : (fuel : Nat) → (limit : Nat) → List Nat → List Nat
  | 0, _, ws => ws
  | fuel + 1, limit, ws =>
      let excess := total ws - limit
      if excess = 0 then ws
      else
        let widest := ws.foldl max 0
        let second := (ws.filter (· ≠ widest)).foldl max 0
        let most := min excess (widest - second)
        let shares := ws.map fun w => Share.mk (if w = widest then 1 else 0) most w
        collapse fuel limit (reduceBy excess shares)

/-- The widths of columns whose sum is to stay within a limit. -/
def fitWidths (limit : Nat) (ws : List Nat) : List Nat :=
  let ws := collapse 100 limit ws
  let excess := total ws - limit
  if excess = 0 then ws else reduceBy excess (ws.map fun w => ⟨1, w, w⟩)

/-- The width that a column asks for, blanks included: that of its widest line, up to a limit. -/
def Column.asked (limit : Nat) (c : Column) : Nat :=
  min limit (((c.heading :: c.cells).map Text.widest).foldl max 0 + 2)

/-- Fills a line up to a width. -/
def fill (right : Bool) (limit : Nat) (line : List Char) : List Char :=
  let line := if right then Text.trimEnd line else line
  let gap := List.replicate (limit - Text.width line) ' '
  if right then gap ++ line else line ++ gap

/-- The lines of a cell, each filled up to the column's width, blanks included. -/
def cellLines (limit : Nat) (right : Bool) (cell : List Char) : List (List Char) :=
  (Text.wrap false (limit - 2) cell).map fun l => ' ' :: fill right (limit - 2) l ++ [' ']

/-- The lines of a row: its cells side by side, the shorter ones followed by blank lines. -/
def rowLines (edge : List Char) (columns : List (Nat × Bool)) (cells : List (List Char)) :
    List (List Char) :=
  let blocks := (columns.zip cells).map fun e => (e.1.1, cellLines e.1.1 e.1.2 e.2)
  let height := (blocks.map fun b => b.2.length).foldl max 1
  (List.range height).map fun n =>
    let parts := blocks.map fun b => b.2.getD n (List.replicate b.1 ' ')
    edge ++ (parts.intersperse edge).flatten ++ edge

/-- The cells of a row. -/
def rowOf (columns : List Column) (n : Nat) : List (List Char) :=
  columns.map fun c => c.cells.getD n []

/-- The number of rows. -/
def height (columns : List Column) : Nat :=
  (columns.map fun c => c.cells.length).foldl max 0

/-- A rule across the table. -/
def rule (left line cross right : Char) (widths : List Nat) : List Char :=
  left :: ((widths.map fun w => List.replicate w line).intersperse [cross]).flatten ++ [right]

/-- A line in the middle of a width. -/
def centred (limit : Nat) (line : List Char) : List Char :=
  let line := Text.trimEnd line
  List.replicate ((limit - Text.width line) / 2) ' ' ++ line

/-- The lines of a table with borders and a title on a console of the given width. -/
def bordered (console : Nat) (title : List Char) (columns : List Column) : List (List Char) :=
  let extra := columns.length + 1
  let limit := console - extra
  let widths := fitWidths limit (columns.map (Column.asked limit))
  let shape := widths.zip (columns.map Column.right)
  let whole := total widths + extra
  (Text.wrap true whole title).map (centred whole)
    ++ [rule '┏' '━' '┳' '┓' widths]
    ++ rowLines ['┃'] shape (columns.map Column.heading)
    ++ [rule '┡' '━' '╇' '┩' widths]
    ++ (List.range (height columns)).flatMap (fun n => rowLines ['│'] shape (rowOf columns n))
    ++ [rule '└' '─' '┴' '┘' widths]

/-- The lines of a grid without borders on a console of the given width. -/
def grid (console : Nat) (columns : List Column) : List (List Char) :=
  let widths := fitWidths console (columns.map (Column.asked console))
  let shape := widths.zip (columns.map Column.right)
  (List.range (height columns)).flatMap fun n => rowLines [] shape (rowOf columns n)

end Statechart.Report
