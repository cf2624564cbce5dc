import Chip8.Fault

namespace Chip8

inductive ToneCall where
  | start
  | stop
  deriving DecidableEq, Repr

/-- A speaker with a flaw breaks down whenever the tone starts, or whenever it stops. -/
structure Speaker where
  calls : List ToneCall := []
  flaw : Option Crash := none
  stopFlaw : Option Crash := none
  deriving DecidableEq, Repr

namespace Speaker

def start (s : Speaker) : Speaker := { s with calls := .start :: s.calls }

def stop (s : Speaker) : Speaker := { s with calls := .stop :: s.calls }

def isOn (s : Speaker) : Bool := s.calls.head? = some .start

end Speaker

structure Timers where
  delay : UInt8 := 0
  sound : UInt8 := 0
  speaker : Speaker := {}
  deriving DecidableEq, Repr

namespace Timers

def setDelay (t : Timers) (value : UInt8) : Timers := { t with delay := value }

/-- The value is set before the speaker is called, so it stays when the speaker breaks down. -/
def setSound (t : Timers) (value : UInt8) : Timers × Option Crash :=
  if value = 0 then ({ t with sound := 0 }, none)
  else ({ t with sound := value, speaker := t.speaker.start }, t.speaker.flaw)

def lower (n : UInt8) : UInt8 := if n = 0 then 0 else n - 1

def tick (t : Timers) : Timers :=
  { delay := lower t.delay
    sound := lower t.sound
    speaker := if t.sound = 1 then t.speaker.stop else t.speaker }

def tickCrash? (t : Timers) : Option Crash := if t.sound = 1 then t.speaker.stopFlaw else none

def reset (t : Timers) : Timers := { t with delay := 0, sound := 0 }

theorem toNat_lower (n : UInt8) : (lower n).toNat = n.toNat - 1 := by
  unfold lower
  split
  · subst_vars; rfl
  · next h =>
    have : n.toNat ≠ 0 := fun e => h (UInt8.toNat_inj.1 (by simpa using e))
    rw [UInt8.toNat_sub_of_le]
    · rfl
    · rw [UInt8.le_iff_toNat_le]
      exact Nat.one_le_iff_ne_zero.2 this

end Timers

end Chip8
