import Chip8.Journal

namespace Chip8

inductive Clock.Stage where
  | due
  | firing
  | resting
  | ended
  deriving DecidableEq, Repr

inductive Clock.Ending where
  | ok
  | failed (f : Fault)
  | crashed (c : Crash)
  deriving DecidableEq, Repr

def Clock.Ending.ofCrash : Option Crash → Clock.Ending
  | none => .ok
  | some c => .crashed c

structure Clock where
  name : ClockName
  stage : Clock.Stage := .due
  cancelled : Bool := false
  deriving DecidableEq, Repr

/-- A clock that the system gives no thread, and what it says of that. -/
structure Clock.Refusal where
  name : ClockName
  cause : String
  deriving DecidableEq, Repr

namespace Clock

def spawn (name : ClockName) : Clock × List Event := ({ name }, [.clockStarted name])

def begin (c : Clock) : Clock :=
  match c.stage with
  | .due => { c with stage := .firing }
  | _ => c

def complaint (name : ClockName) : Ending → List Event
  | .ok | .failed .interrupted => []
  | .failed f => [.clockFailed name f]
  | .crashed crash => [.clockCrashed name crash]

def stop (c : Clock) : Clock × List Event := ({ c with stage := .ended }, [.clockStopped c.name])

def finish (c : Clock) (e : Ending) : Clock × List Event :=
  match c.stage, e with
  | .firing, .ok => ({ c with stage := .resting }, [])
  | .firing, e => (c.stop.1, complaint c.name e ++ c.stop.2)
  | _, _ => (c, [])

def wake (c : Clock) : Clock × List Event :=
  match c.stage with
  | .resting => if c.cancelled then c.stop else ({ c with stage := .due }, [])
  | _ => (c, [])

def cancel (c : Clock) : Clock := { c with cancelled := true }

def isEnded (c : Clock) : Bool := c.stage = .ended

end Clock

end Chip8
