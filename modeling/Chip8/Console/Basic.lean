import Chip8.Console.LogBuffer
import Chip8.Machine.Basic

namespace Chip8

inductive KeyCode where
  | escape
  | char (c : Char)
  | other
  deriving DecidableEq, Repr

inductive KeyKind where
  | press
  | again
  | release
  deriving DecidableEq, Repr

structure KeyEvent where
  code : KeyCode
  control : Bool := false
  kind : KeyKind := .press
  deriving DecidableEq, Repr

abbrev PressTimes := Vector (Option Rat) 16

structure Console where
  machine : Machine
  frame : Picture := .blank
  logs : LogBuffer := {}
  quit : Bool := false
  pressTimes : PressTimes := Vector.replicate 16 none

namespace Console

def holdTime : Rat := 50

def start (options : Options) (devices : Devices) (image : List UInt8) : Console × Machine.Start :=
  let (machine, s) := { options, devices : Machine }.start image
  ({ machine }, s)

def press (c : Console) (now : Rat) (k : Nibble) : Console :=
  { c with pressTimes := c.pressTimes.set k (some now) k.lt, machine := c.machine.setKey k true }

def release (c : Console) (k : Nibble) : Console :=
  { c with pressTimes := c.pressTimes.set k none k.lt, machine := c.machine.setKey k false }

def handleKey (c : Console) (now : Rat) (e : KeyEvent) : Console :=
  match e.code with
  | .escape => { c with quit := true }
  | .char ch =>
    if ch = 'c' ∧ e.control then { c with quit := true }
    else
      match Keypad.keyOf? ch, e.kind with
      | none, _ => c
      | some k, .release => c.release k
      | some k, _ => c.press now k
  | .other => c

def isStale (now : Rat) (time : Option Rat) : Bool := time.any fun t => holdTime < now - t

def releaseIfStale (now : Rat) (c : Console) (k : Nibble) : Console :=
  if isStale now c.pressTimes[k] then c.release k else c

def releaseStale (c : Console) (now : Rat) : Console :=
  (List.finRange 16).foldl (releaseIfStale now) c

def takeFrame (c : Console) : Console × Option Picture :=
  let (screen, p) := c.machine.devices.screen.take
  ({ c with
      machine := { c.machine with devices := { c.machine.devices with screen } }
      frame := p.getD c.frame }, p)

end Console

end Chip8
