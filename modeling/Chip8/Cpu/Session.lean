import Chip8.Cpu.Run

namespace Chip8

structure Task where
  steps : Nat
  asBlock : Bool := false
  shown : Bool := false
  deriving DecidableEq, Repr

structure Session where
  board : Board
  held : Option (KeyRequest × Task) := none

namespace Session

inductive Reply where
  | blocked (trail : List Board)
  | ended (trail : List Board) (rest : Board.Rest)
  deriving DecidableEq

def start (image : List UInt8) (clip : Bool) (devices : Devices) : Session where
  board := ⟨Cpu.start image clip, { devices with journal := devices.journal.noteImage image }⟩

def isHeld (s : Session) : Bool := s.held.isSome

def settle (task : Task) (trail : List Board) (b : Board) : Board.Rest → Session × Reply
  | .waiting r left => (⟨b, some (r, { task with steps := left })⟩, .blocked trail)
  | rest => (⟨b, none⟩, .ended trail rest)

def give (s : Session) (task : Task) : Session × Reply :=
  let trail := if task.shown then s.board.trail task.steps else []
  let (b, rest) := if task.asBlock then s.board.runBlock task.steps else s.board.run task.steps
  settle task trail b rest

def poke (s : Session) : Session × Option Reply :=
  match s.held with
  | none => (s, none)
  | some (r, task) =>
    if s.board.devices.keypad.asleep then (s, none)
    else
      let trail := if task.shown then s.board.resumeTrail r task.steps else []
      let (b, rest) :=
        if task.asBlock then s.board.resumeBlock r task.steps else s.board.resumeRun r task.steps
      let (s, reply) := settle task trail b rest
      (s, some reply)

def onDevices (s : Session) (f : Devices → Devices) : Session :=
  { s with board := { s.board with devices := f s.board.devices } }

def onCpu (s : Session) (f : Cpu → Cpu) : Session :=
  { s with board := { s.board with cpu := f s.board.cpu } }

def setKey (s : Session) (key : Nibble) (down : Bool) : Session × Option Reply :=
  (s.onDevices fun d => { d with keypad := d.keypad.set key down }).poke

def interrupt (s : Session) : Session × Option Reply :=
  (s.onDevices fun d => { d with keypad := d.keypad.interrupt }).poke

end Session

end Chip8
