namespace Chip8

structure Period where
  nanoseconds : Nat
  deriving DecidableEq, Repr

namespace Period

def micros (n : Nat) : Period := ⟨n * 1000⟩

def millis (n : Nat) : Period := ⟨n * 1000000⟩

structure Measure where
  scale : Nat
  name : String

def units : List Measure := [⟨9, "s"⟩, ⟨6, "ms"⟩, ⟨3, "µs"⟩]

def unitOf (p : Period) : Measure :=
  (units.find? fun u => Nat.pow 10 u.scale ≤ p.nanoseconds).getD ⟨0, "ns"⟩

def decimals (places n : Nat) : List Char :=
  let digits := Nat.toDigits 10 n
  let padded := List.replicate (places - digits.length) '0' ++ digits
  if n = 0 then [] else '.' :: (padded.reverse.dropWhile (· = '0')).reverse

def describe (p : Period) : String :=
  let u := p.unitOf
  let one := Nat.pow 10 u.scale
  toString (p.nanoseconds / one) ++ String.ofList (decimals u.scale (p.nanoseconds % one)) ++ u.name

end Period

structure Options where
  clip : Bool := false
  block : Nat := 10
  instructionPeriod : Period := .millis 20
  timerPeriod : Period := .micros 16667
  deriving DecidableEq, Repr

def Options.describe (o : Options) : String :=
  "Options \x7b clip_edges: " ++ toString o.clip ++
    ", instructions_per_block: " ++ toString o.block ++
    ", instruction_period: " ++ o.instructionPeriod.describe ++
    ", timer_period: " ++ o.timerPeriod.describe ++ " \x7d"

end Chip8
