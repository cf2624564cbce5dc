import Chip8.Console.Cells

namespace Chip8

structure Paragraph where
  lines : List (List Span)
  side : Painting.Side := .left
  title : Option String := none
  deriving DecidableEq, Repr

namespace Paragraph

def inside (p : Paragraph) (r : Rect) : Rect := if p.title.isSome then r.inner else r

def frame (p : Paragraph) (r : Rect) : Painting := p.title.elim .empty (Painting.border r)

def cells (p : Paragraph) (r : Rect) : List (List Cell) :=
  p.lines.map (Cell.ofLine (p.inside r).width)

def painting (p : Paragraph) (r : Rect) (cells : List (List Cell)) : Painting :=
  (Painting.rows (p.inside r) p.side cells).onto (p.frame r)

end Paragraph

structure Toolkit where
  layout : Layout
  draw : Paragraph → Rect → Canvas → Canvas

namespace Toolkit

def standard : Toolkit where
  layout := .standard
  draw p r canvas := canvas.paint (p.painting r (p.cells r))

def drawAll (kit : Toolkit) (canvas : Canvas) (layers : List (Rect × Paragraph)) : Canvas :=
  layers.foldl (fun canvas layer => kit.draw layer.2 layer.1 canvas) canvas

end Toolkit

end Chip8
