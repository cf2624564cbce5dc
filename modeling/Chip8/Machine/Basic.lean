import Chip8.Cpu.Run
import Chip8.Machine.Clock

namespace Chip8

structure Engine where
  cpu : Cpu
  instructionClock : Clock
  timerClock : Clock
  left : Nat := 0
  request : Option KeyRequest := none
  deriving DecidableEq

def Engine.sleeps (e : Engine) (k : Keypad) : Bool := e.request.isSome && k.asleep

structure Machine where
  options : Options := {}
  devices : Devices := {}
  engine : Option Engine := none
  deriving DecidableEq

namespace Machine

def isRunning (m : Machine) : Bool := m.engine.isSome

def isHealthy (m : Machine) : Bool :=
  m.engine.all fun e => !e.instructionClock.isEnded && !e.timerClock.isEnded

def keypad (m : Machine) : Keypad := m.devices.keypad

def timers (m : Machine) : Timers := m.devices.timers

def endBlock (m : Machine) (e : Engine) (b : Board) (ending : Clock.Ending) : Machine :=
  let (instructionClock, events) := e.instructionClock.finish ending
  { m with
    devices := b.devices.noteAll events
    engine := some { e with cpu := b.cpu, instructionClock, left := 0, request := none } }

def afterStep (m : Machine) (e : Engine) (left : Nat) : Board × Outcome → Machine
  | (b, .done) =>
    { m with devices := b.devices, engine := some { e with cpu := b.cpu, left, request := none } }
  | (b, .waiting r) =>
    { m with devices := b.devices, engine := some { e with cpu := b.cpu, left, request := some r } }
  | (b, .failed f) => m.endBlock e b (.failed f)
  | (b, .crashed c) => m.endBlock e b (.crashed c)

def executeBlock (m : Machine) (e : Engine) : Machine :=
  let b : Board := ⟨e.cpu, m.devices⟩
  if e.sleeps m.keypad then m
  else
    match e.request, e.left with
    | some r, left => m.afterStep e left (b.resume r)
    | none, left + 1 => m.afterStep e left b.step
    | none, 0 =>
      match b.push with
      | (b, none) => m.endBlock e b .ok
      | (b, some crash) => m.endBlock e b (.crashed crash)

def moveInstruction (m : Machine) (e : Engine) : Machine :=
  match e.instructionClock.stage with
  | .due =>
    { m with
      engine := some { e with
        instructionClock := e.instructionClock.begin
        left := m.options.block
        request := none } }
  | .firing => m.executeBlock e
  | _ => m

def moveTimer (m : Machine) (e : Engine) : Machine :=
  match e.timerClock.stage with
  | .due =>
    let ending := Clock.Ending.ofCrash m.devices.timers.tickCrash?
    let (timerClock, events) := e.timerClock.begin.finish ending
    { m with
      devices := { m.devices with timers := m.devices.timers.tick }.noteAll events
      engine := some { e with timerClock } }
  | _ => m

def wakeInstruction (m : Machine) (e : Engine) : Machine :=
  let (instructionClock, events) := e.instructionClock.wake
  { m with
    devices := m.devices.noteAll events
    engine := some { e with instructionClock } }

def wakeTimer (m : Machine) (e : Engine) : Machine :=
  let (timerClock, events) := e.timerClock.wake
  { m with
    devices := m.devices.noteAll events
    engine := some { e with timerClock } }

def setKey (m : Machine) (key : Nibble) (down : Bool) : Machine :=
  { m with devices := { m.devices with keypad := m.devices.keypad.set key down } }

def setDelay (m : Machine) (value : UInt8) : Machine :=
  { m with devices := { m.devices with timers := m.devices.timers.setDelay value } }

def setSound (m : Machine) (value : UInt8) : Machine × Option Crash :=
  let (timers, crash) := m.devices.timers.setSound value
  ({ m with devices := { m.devices with timers } }, crash)

inductive Start where
  | ok
  | failed (f : Fault)
  | crashed (c : Crash)
  deriving DecidableEq, Repr

def prepare (d : Devices) (image : List UInt8) : Devices :=
  { d with
    journal := (d.journal.noteImage image).note (.loaded (Memory.loadSize image))
    keypad := d.keypad.resume
    timers := d.timers.reset }

def Start.ofRefusal : Option Clock.Refusal → Start
  | none => .ok
  | some r => .failed (.spawn r.cause)

/-- The clocks that are given a thread. Without one for the timer clock the instruction clock is
under way all the same. -/
def spawn (o : Options) (cpu : Cpu) : Option Clock.Refusal → Option Engine × List Event
  | none =>
    let (instructionClock, events) := Clock.spawn .instruction
    let (timerClock, events') := Clock.spawn .timer
    (some { cpu, instructionClock, timerClock }, events ++ events' ++ [.machineStarted o])
  | some ⟨.instruction, _⟩ => (none, [])
  | some ⟨.timer, _⟩ =>
    let (instructionClock, events) := Clock.spawn .instruction
    (some { cpu, instructionClock, timerClock := { name := .timer, stage := .ended } }, events)

def launch (m : Machine) (image : List UInt8) (refusal : Option Clock.Refusal) : Machine × Start :=
  if m.isRunning then (m, .failed .alreadyRunning)
  else
    let b : Board := ⟨Cpu.start image m.options.clip, prepare m.devices image⟩
    match b.push with
    | (b, some crash) => ({ m with devices := b.devices }, .crashed crash)
    | (b, none) =>
      let (engine, events) := spawn m.options b.cpu refusal
      ({ m with devices := b.devices.noteAll events, engine }, .ofRefusal refusal)

def cancel (m : Machine) : Machine :=
  match m.engine with
  | none => m
  | some e =>
    { m with
      devices := { m.devices with keypad := m.devices.keypad.interrupt }
      engine := some { e with
        instructionClock := e.instructionClock.cancel
        timerClock := e.timerClock.cancel } }

def close (m : Machine) : Machine :=
  match m.engine with
  | none => m
  | some e =>
    if e.instructionClock.isEnded && e.timerClock.isEnded then
      { m with devices := m.devices.note .machineStopped, engine := none }
    else m

/-- A start or a stop is a move like any other; the clocks go on between the halves of a stop. The
stop after a start that gets no thread for the timer clock is two more moves. -/
inductive Move where
  | start (image : List UInt8) (refusal : Option Clock.Refusal := none)
  | cancel
  | close
  | instruction
  | timer
  | wakeInstruction
  | wakeTimer
  | key (k : Nibble) (down : Bool)
  | setDelay (value : UInt8)
  | setSound (value : UInt8)
  deriving DecidableEq, Repr

def move (m : Machine) : Move → Machine
  | .start image refusal => (m.launch image refusal).1
  | .cancel => m.cancel
  | .close => m.close
  | .instruction => (m.engine.map m.moveInstruction).getD m
  | .timer => (m.engine.map m.moveTimer).getD m
  | .wakeInstruction => (m.engine.map m.wakeInstruction).getD m
  | .wakeTimer => (m.engine.map m.wakeTimer).getD m
  | .key k down => m.setKey k down
  | .setDelay value => m.setDelay value
  | .setSound value => (m.setSound value).1

def moves (m : Machine) (l : List Move) : Machine := l.foldl move m

def goesOn (m : Machine) : Bool :=
  m.engine.any fun e =>
    match e.instructionClock.stage with
    | .due => true
    | .firing => !e.sleeps m.keypad
    | _ => false

def goOn : Nat → Machine → Machine
  | 0, m => m
  | n + 1, m => if m.goesOn then goOn n (m.move .instruction) else m

def settle (m : Machine) : Machine := goOn (m.options.block + 2) (m.move .timer)

def stop (m : Machine) : Machine :=
  (m.move .cancel).settle.moves [.wakeInstruction, .wakeTimer, .close]

/-- A start that fails for want of a thread stops what it has launched. -/
def start (m : Machine) (image : List UInt8) (refusal : Option Clock.Refusal := none) :
    Machine × Start :=
  match m.launch image refusal with
  | (m, .failed (.spawn cause)) => (m.stop, .failed (.spawn cause))
  | r => r

end Machine

end Chip8
