import Chip8.Picture

namespace Chip8

structure Dot where
  x : Nat
  y : Nat
  lit : Bool
  deriving DecidableEq, Repr

namespace Dot

def onGrid (d : Dot) : Bool := d.x < 64 && d.y < 32

def column (d : Dot) : Picture.Column := Fin.ofNat 64 d.x

def row (d : Dot) : Picture.Row := Fin.ofNat 32 d.y

end Dot

namespace Sprite

def bit (b : UInt8) (k : Fin 8) : Bool := b.toNat.testBit (7 - k.val)

def rowDots (x y : Nat) (b : UInt8) : List Dot :=
  (List.finRange 8).map fun k => ⟨x + k.val, y, bit b k⟩

def dots (x : Nat) : Nat → List UInt8 → List Dot
  | _, [] => []
  | y, b :: rest => rowDots x y b ++ dots x (y + 1) rest

def placed (clip : Bool) (x y : UInt8) (sprite : List UInt8) : List Dot :=
  (dots x.toNat y.toNat sprite).filter fun d => !clip || d.onGrid

end Sprite

namespace Picture

def plot (s : Picture × Bool) (d : Dot) : Picture × Bool :=
  if d.lit then
    let collision := s.2 || s.1.pixel d.column d.row
    (s.1.toggle d.column d.row, collision)
  else s

def draw (p : Picture) (ds : List Dot) : Picture × Bool := ds.foldl plot (p, false)

end Picture

end Chip8
