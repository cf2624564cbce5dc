import Chip8.Framebuffer
import Chip8.Journal
import Chip8.Keypad
import Chip8.Timers

namespace Chip8

/-- A source of random bytes: a tape read round and round. An empty tape gives zeros. -/
structure RandomTape where
  bytes : Array UInt8 := #[]
  drawn : Nat := 0
  deriving DecidableEq, Repr

namespace RandomTape

def next (t : RandomTape) : UInt8 := t.bytes[t.drawn % t.bytes.size]?.getD 0

def advance (t : RandomTape) : RandomTape := { t with drawn := t.drawn + 1 }

end RandomTape

structure Devices where
  keypad : Keypad := {}
  timers : Timers := {}
  screen : Screen := {}
  random : RandomTape := {}
  journal : Journal := {}
  deriving DecidableEq

namespace Devices

def note (d : Devices) (e : Event) : Devices := { d with journal := d.journal.note e }

def noteAll (d : Devices) (events : List Event) : Devices := events.foldl note d

def poll (d : Devices) (key : UInt8) : Devices × Bool :=
  (if key.toNat < 16 then d else d.note (.polledMissingKey key), d.keypad.isPressed key)

end Devices

end Chip8
