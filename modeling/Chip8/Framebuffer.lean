import Chip8.Screen
import Chip8.Sprite

namespace Chip8

structure Framebuffer where
  picture : Picture := .blank
  dirty : Bool := true
  deriving DecidableEq

namespace Framebuffer

def clear (_ : Framebuffer) : Framebuffer := ⟨.blank, true⟩

def draw (f : Framebuffer) (x y : UInt8) (sprite : List UInt8) (clip : Bool) :
    Framebuffer × Bool :=
  let ds := Sprite.placed clip x y sprite
  let (picture, collision) := f.picture.draw ds
  (⟨picture, f.dirty || !ds.isEmpty⟩, collision)

/-- Sends the picture if the screen has not seen it. When the screen breaks down on it, the
framebuffer stays dirty. -/
def push (f : Framebuffer) (s : Screen) : Framebuffer × Screen × Option Crash :=
  if f.dirty then
    match s.crash? with
    | some crash => (f, s.present f.picture, some crash)
    | none => ({ f with dirty := false }, s.present f.picture, none)
  else (f, s, none)

theorem dirty_draw (f : Framebuffer) (x y : UInt8) (sprite : List UInt8) (clip : Bool) :
    (f.draw x y sprite clip).1.dirty = (f.dirty || !(Sprite.placed clip x y sprite).isEmpty) :=
  rfl

theorem draw_of_isEmpty (f : Framebuffer) {x y : UInt8} {sprite : List UInt8} {clip : Bool}
    (h : (Sprite.placed clip x y sprite).isEmpty = true) : (f.draw x y sprite clip).1 = f := by
  rw [draw, List.isEmpty_iff.1 h]
  simp [Picture.draw]

end Framebuffer

end Chip8
