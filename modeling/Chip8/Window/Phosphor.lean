import Chip8.Picture

namespace Chip8

structure Phosphor where
  brightness : Vector Float32 2048 := Vector.replicate 2048 0

namespace Phosphor

def rate : Float32 := 10

def fade (seconds brightness : Float32) : Float32 :=
  let rest := brightness - rate * seconds
  if rest > 0 then rest else 0

def glow (p : Phosphor) (picture : Picture) (seconds : Float32) : Phosphor :=
  ⟨Vector.ofFn fun k => if picture.cells[k] then 1 else fade seconds p.brightness[k]⟩

def alpha (brightness : Float32) : UInt8 := (brightness * 255).toUInt8

end Phosphor

structure Rgba where
  red : UInt8 := 0
  green : UInt8 := 0
  blue : UInt8 := 0
  alpha : UInt8 := 0
  deriving DecidableEq, Repr

def Phosphor.color (brightness : Float32) : Rgba := { green := 0xFF, alpha := alpha brightness }

end Chip8
