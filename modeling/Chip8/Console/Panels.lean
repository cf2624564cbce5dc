import Chip8.Console.Layout

namespace Chip8

structure Panels where
  display : Rect
  log : Rect
  state : Rect
  timers : Rect
  keypad : Rect
  help : Rect
  deriving DecidableEq, Repr

namespace Panels

def sidebarWidth : Nat := 17

def displayHeight : Nat := 32 + 2

def minWidth : Nat := 64 + 2 + sidebarWidth

def minHeight : Nat := displayHeight + 3

def column (layout : Layout) (area : Rect) : Nat → Rect :=
  layout .horizontal [.min 0, .length sidebarWidth] area

def place (layout : Layout) (area : Rect) : Panels :=
  let main := layout .vertical [.length displayHeight, .min 3] (column layout area 0)
  let sidebar := layout .vertical [.length 3, .length 4, .length 6, .min 0] (column layout area 1)
  { display := main 0
    log := main 1
    state := sidebar 0
    timers := sidebar 1
    keypad := sidebar 2
    help := sidebar 3 }

def splitBy (layout : Layout) (area : Rect) : Option Panels :=
  if area.width < minWidth ∨ area.height < minHeight then none else some (place layout area)

def split : Rect → Option Panels := splitBy .standard

def all (p : Panels) : List Rect := [p.display, p.log, p.state, p.timers, p.keypad, p.help]

end Panels

end Chip8
