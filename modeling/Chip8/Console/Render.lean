import Chip8.Console.Basic
import Chip8.Console.Panels
import Chip8.Console.Paragraph

namespace Chip8.Console

def status (c : Console) : String × Color :=
  if !c.machine.isHealthy then ("HALTED", .red)
  else if c.machine.keypad.waiting then ("WAITING KEY", .yellow)
  else ("RUNNING", .green)

def block : Char := '█'

def pictureLine (p : Picture) (y : Picture.Row) : List Span :=
  [{ text := (p.row y).map fun lit => if lit then block else ' '
     style := { foreground := .green } }]

def displayPanel (p : Picture) : Paragraph where
  lines := (List.finRange 32).map (pictureLine p)
  side := .middle
  title := some "Display"

def logPanel (c : Console) (r : Rect) : Paragraph where
  lines := (c.logs.tail (r.height - 2)).map fun text => [{ text }]
  title := some "Log"

def statePanel (c : Console) : Paragraph where
  lines := [[{ text := c.status.1.toList, style := { foreground := c.status.2 } }]]
  side := .middle
  title := some "State"

def timerLine (name : String) (value : UInt8) : List Span :=
  [{ text := name.toList ++ ' ' :: Text.pad .right 3 (toString value.toNat).toList }]

def timersPanel (t : Timers) : Paragraph where
  lines := [timerLine "DT" t.delay, timerLine "ST" t.sound]
  side := .middle
  title := some "Timers"

def padRows : List (List Nibble) :=
  [[0x1, 0x2, 0x3, 0xC], [0x4, 0x5, 0x6, 0xD], [0x7, 0x8, 0x9, 0xE], [0xA, 0x0, 0xB, 0xF]]

def heldStyle : Style := { foreground := .black, background := .green }

def padKey (keypad : Keypad) (k : Nibble) : Span where
  text := [Hex.digit .upper k]
  style := if keypad.held[k] then heldStyle else {}

def keypadPanel (keypad : Keypad) : Paragraph where
  lines := padRows.map fun row => (row.map (padKey keypad)).intersperse { text := [' '] }
  side := .middle
  title := some "Keypad"

def helpPanel : Paragraph where
  lines := ["1-4 Q-R", "A-F Z-V", "Esc quits"].map fun text => [{ text := text.toList }]
  side := .middle

def tooSmall : Paragraph where
  lines :=
    [[{ text := ("Need a " ++ toString Panels.minWidth ++ "x" ++ toString Panels.minHeight ++
          " terminal").toList
        style := { foreground := .red } }]]
  side := .middle

def layers (c : Console) (p : Panels) : List (Rect × Paragraph) :=
  [(p.display, displayPanel c.frame), (p.log, c.logPanel p.log), (p.state, c.statePanel),
    (p.timers, timersPanel c.machine.timers), (p.keypad, keypadPanel c.machine.keypad),
    (p.help, helpPanel)]

def draw (c : Console) (kit : Toolkit) (area : Rect) (canvas : Canvas) : Canvas :=
  match Panels.splitBy kit.layout area with
  | none => kit.draw tooSmall area canvas
  | some p => kit.drawAll canvas (c.layers p)

def render (c : Console) (width height : Nat) : List (List Cell) :=
  let area := Rect.clamped 0 0 width height
  (c.draw .standard area (.blank area)).rows

end Chip8.Console
