import Chip8.Fault
import Chip8.Picture

namespace Chip8

/-- A screen with a flaw breaks down on receiving its frame of that number, counted from one. -/
structure Screen.Flaw where
  frame : Nat
  crash : Crash
  deriving DecidableEq, Repr

structure Screen where
  received : List Picture := []
  changed : Bool := true
  flaw : Option Screen.Flaw := none
  deriving DecidableEq

namespace Screen

def frame (s : Screen) : Picture := s.received.headD .blank

def crash? (s : Screen) : Option Crash :=
  match s.flaw with
  | some f => if s.received.length + 1 = f.frame then some f.crash else none
  | none => none

def present (s : Screen) (p : Picture) : Screen :=
  { s with received := p :: s.received, changed := true }

def take (s : Screen) : Screen × Option Picture :=
  if s.changed then ({ s with changed := false }, some s.frame) else (s, none)

theorem frame_present (s : Screen) (p : Picture) : (s.present p).frame = p := rfl

end Screen

end Chip8
