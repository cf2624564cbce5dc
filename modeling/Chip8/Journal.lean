import Chip8.Fault
import Chip8.Memory
import Chip8.Opcode
import Chip8.Options

namespace Chip8

inductive Level where
  | error
  | warn
  | info
  | debug
  | trace
  deriving DecidableEq, Repr

namespace Level

def name : Level → String
  | error => "ERROR"
  | warn => "WARN"
  | info => "INFO"
  | debug => "DEBUG"
  | trace => "TRACE"

def rank : Level → Nat
  | error => 0
  | warn => 1
  | info => 2
  | debug => 3
  | trace => 4

end Level

inductive ClockName where
  | instruction
  | timer
  deriving DecidableEq, Repr

def ClockName.text : ClockName → String
  | .instruction => "instruction clock"
  | .timer => "timer clock"

inductive Event where
  | executing (pc : UInt16) (opcode : Opcode) (word : UInt16)
  | skippingData (pc word : UInt16)
  | polledMissingKey (key : UInt8)
  | truncated (size : Nat)
  | loaded (size : Nat)
  | clockStarted (c : ClockName)
  | clockStopped (c : ClockName)
  | clockFailed (c : ClockName) (f : Fault)
  | clockCrashed (c : ClockName) (crash : Crash)
  | machineStarted (o : Options)
  | machineStopped
  deriving DecidableEq, Repr

namespace Event

def level : Event → Level
  | executing .. | skippingData .. => .trace
  | polledMissingKey _ | clockStarted _ | clockStopped _ | machineStarted _ | machineStopped => .debug
  | truncated _ => .warn
  | loaded _ => .info
  | clockFailed .. | clockCrashed .. => .error

def markedWord (w : UInt16) : String := "0x" ++ String.ofList (Hex.word .upper w)

def text : Event → String
  | executing pc o w => markedWord pc ++ ": " ++ o.name ++ " (" ++ markedWord w ++ ")"
  | skippingData pc w => markedWord pc ++ ": data " ++ markedWord w
  | polledMissingKey key => "Polled nonexistent key 0x" ++ String.ofList (Hex.byte .upper key)
  | truncated size => "ROM is " ++ toString size ++ " bytes, only the first " ++
      toString Memory.imageCapacity ++ " bytes were loaded"
  | loaded size => "Loaded " ++ toString size ++ " byte ROM"
  | clockStarted c => c.text ++ " started"
  | clockStopped c => c.text ++ " stopped"
  | clockFailed c f => c.text ++ " terminated: " ++ f.message
  | clockCrashed c crash => c.text ++ " terminated by panic: " ++ crash.message
  | machineStarted o => "Machine started with " ++ o.describe
  | machineStopped => "Machine stopped"

def render (e : Event) : String := e.level.name ++ " " ++ e.text

end Event

structure Journal where
  events : List Event := []
  tracing : Bool := false
  deriving DecidableEq, Repr

namespace Journal

def note (j : Journal) (e : Event) : Journal :=
  if e.level = .trace ∧ j.tracing = false then j else { j with events := e :: j.events }

def noteImage (j : Journal) (image : List UInt8) : Journal :=
  if Memory.imageCapacity < image.length then j.note (.truncated image.length) else j

def report (j : Journal) (least : Level) : List String :=
  (j.events.reverse.filter fun e => e.level.rank ≤ least.rank).map Event.render

def forget (j : Journal) : Journal := { j with events := [] }

end Journal

end Chip8
