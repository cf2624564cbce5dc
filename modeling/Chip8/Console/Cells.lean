import Chip8.Console.Layout
import Chip8.Text.Blank
import Chip8.Text.Width.Basic

namespace Chip8

inductive Color where
  | reset
  | black
  | red
  | green
  | yellow
  deriving DecidableEq, Repr

def Color.name : Color → String
  | .reset => "Reset"
  | .black => "Black"
  | .red => "Red"
  | .green => "Green"
  | .yellow => "Yellow"

structure Style where
  foreground : Color := .reset
  background : Color := .reset
  deriving DecidableEq, Repr

structure Cell where
  symbol : List Char := [' ']
  style : Style := {}
  deriving DecidableEq, Repr

structure Span where
  text : List Char
  style : Style := {}
  deriving DecidableEq, Repr

namespace Cell

def ofChar (c : Char) (style : Style := {}) : Cell := { symbol := [c], style }

def width (c : Cell) : Nat := Text.Width.ofText c.symbol

def spread (c : Cell) : List Cell :=
  match c.width with
  | 0 => []
  | n + 1 => c :: List.replicate n {}

def fit (columns used : Nat) : List Cell → List Cell
  | [] => []
  | c :: rest =>
    if columns < c.width then fit columns used rest
    else if columns < used + c.width then []
    else c :: fit columns (used + c.width) rest

def ofSpan (s : Span) : List Cell :=
  ((Text.clusters s.text).filter fun cluster => !cluster.any Text.isControl).map fun symbol =>
    { symbol, style := s.style }

def ofLine (columns : Nat) (line : List Span) : List Cell :=
  (fit columns 0 (line.flatMap ofSpan)).flatMap spread

end Cell

abbrev Painting := Nat → Nat → Option Cell

namespace Painting

def empty : Painting := fun _ _ => none

def onto (upper lower : Painting) : Painting := fun x y => (upper x y).or (lower x y)

inductive Side where
  | left
  | middle
  deriving DecidableEq, Repr

def Side.margin : Side → Nat → Nat → Nat
  | .left, _, _ => 0
  | .middle, width, length => width / 2 - length / 2

def rows (r : Rect) (side : Side) (lines : List (List Cell)) : Painting := fun x y =>
  if r.Contains x y then
    (lines[y - r.y]?).bind fun cells =>
      let margin := side.margin r.width cells.length
      if margin ≤ x - r.x then cells[x - r.x - margin]? else none
  else none

def border (r : Rect) (title : String) : Painting := fun x y =>
  if ¬ r.Contains x y then none
  else if y = r.y then
    if x = r.x then some (.ofChar '┌')
    else if x + 1 = r.x + r.width then some (.ofChar '┐')
    else some (((" " ++ title ++ " ").toList.map (Cell.ofChar ·))[x - r.x - 1]?.getD (.ofChar '─'))
  else if y + 1 = r.y + r.height then
    if x = r.x then some (.ofChar '└')
    else if x + 1 = r.x + r.width then some (.ofChar '┘')
    else some (.ofChar '─')
  else if x = r.x ∨ x + 1 = r.x + r.width then some (.ofChar '│')
  else none

end Painting

structure Canvas where
  area : Rect
  cell : Nat → Nat → Cell

namespace Canvas

def blank (area : Rect) : Canvas := ⟨area, fun _ _ => {}⟩

def paint (canvas : Canvas) (p : Painting) : Canvas :=
  { canvas with cell := fun x y => (p x y).getD (canvas.cell x y) }

def rows (canvas : Canvas) : List (List Cell) :=
  let area := canvas.area
  (List.range area.height).map fun y =>
    (List.range area.width).map fun x => canvas.cell (area.x + x) (area.y + y)

end Canvas

end Chip8
