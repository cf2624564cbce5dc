import Chip8.Machine.Basic

namespace Chip8

structure Timeline where
  machine : Machine
  now : Nat := 0
  instructionWake : Nat := 0
  timerWake : Nat := 0

namespace Timeline

def resting (clock : Engine → Clock) (m : Machine) : Bool :=
  m.engine.any fun e => (clock e).stage = .resting

def tickTime : Nat := 1000

def stepTime : Nat := 10

def blockTime (o : Options) : Nat := tickTime + o.block * stepTime

/-- Lets the clocks go on as far as they can at this moment; a rest that begins now is over when
the firing before it and the period are. -/
def settle (t : Timeline) : Timeline :=
  let m := t.machine.settle
  let begun (clock : Engine → Clock) := resting clock m && !resting clock t.machine
  { machine := m
    now := t.now
    instructionWake :=
      if begun (·.instructionClock) then
        t.now + blockTime m.options + m.options.instructionPeriod.nanoseconds
      else t.instructionWake
    timerWake :=
      if begun (·.timerClock) then t.now + tickTime + m.options.timerPeriod.nanoseconds
      else t.timerWake }

def next? (t : Timeline) : Option Timeline :=
  let wakeAt (time : Nat) (move : Machine.Move) : Timeline :=
    { t with machine := t.machine.move move, now := max t.now time }.settle
  match resting (·.instructionClock) t.machine, resting (·.timerClock) t.machine with
  | true, true =>
    if t.instructionWake < t.timerWake then some (wakeAt t.instructionWake .wakeInstruction)
    else some (wakeAt t.timerWake .wakeTimer)
  | true, false => some (wakeAt t.instructionWake .wakeInstruction)
  | false, true => some (wakeAt t.timerWake .wakeTimer)
  | false, false => none

def waitFor (condition : Machine → Bool) (deadline : Nat) : Nat → Timeline → Timeline × Bool
  | 0, t => (t, condition t.machine)
  | rests + 1, t =>
    if condition t.machine then (t, true)
    else
      match t.next? with
      | none => (t, false)
      | some later =>
        if deadline < later.now then (t, false) else waitFor condition deadline rests later

def patience : Nat := 5000000000

def await (t : Timeline) (condition : Machine → Bool) : Timeline × Bool :=
  waitFor condition (t.now + patience) (2 * (patience / tickTime + 1)) t

def onMachine (t : Timeline) (f : Machine → Machine) : Timeline := { t with machine := f t.machine }

def start (t : Timeline) (image : List UInt8) : Timeline × Machine.Start :=
  let (machine, s) := t.machine.start image
  ({ t with machine }.settle, s)

def setKey (t : Timeline) (key : Nibble) (down : Bool) : Timeline :=
  (t.onMachine (·.setKey key down)).settle

def stop (t : Timeline) : Timeline := t.onMachine Machine.stop

end Timeline

end Chip8
