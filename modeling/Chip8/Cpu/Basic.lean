import Chip8.Devices
import Chip8.Instruction

namespace Chip8

abbrev Registers := Vector UInt8 16

abbrev CallStack := Vector UInt16 16

structure Cpu where
  memory : Memory := .blank
  framebuffer : Framebuffer := {}
  v : Registers := Vector.replicate 16 0
  i : UInt16 := 0
  pc : UInt16 := UInt16.ofNat Memory.imageStart
  /-- The index of the top slot of the call stack. -/
  sp : UInt8 := 0
  stack : CallStack := Vector.replicate 16 0
  clip : Bool := false
  deriving DecidableEq

namespace Cpu

def flag : Nibble := 0xF

def set (c : Cpu) (x : Nibble) (b : UInt8) : Cpu := { c with v := c.v.set x b x.lt }

def setFlagged (c : Cpu) (x : Nibble) (flagged : Bool) (b : UInt8) : Cpu :=
  (c.set flag (if flagged then 1 else 0)).set x b

def advance (c : Cpu) : Cpu := { c with pc := c.pc + 2 }

/-- Goes where the move after the instruction ends at the target. -/
def jump (c : Cpu) (target : UInt16) : Cpu := { c with pc := target - 2 }

def skipIf (c : Cpu) (condition : Bool) : Cpu := if condition then c.advance else c

def top? (c : Cpu) : Option (Fin 16) :=
  if h : c.sp.toNat < 16 then some ⟨c.sp.toNat, h⟩ else none

def overflow (c : Cpu) : Fault := .stackOverflow c.sp c.pc

theorem v_set (c : Cpu) (x y : Nibble) (b : UInt8) :
    (c.set x b).v[y] = if x = y then b else c.v[y] := by
  simp only [set, Nibble.getElem_nibble, Vector.getElem_set, Fin.ext_iff]

end Cpu

structure Board where
  cpu : Cpu
  devices : Devices
  deriving DecidableEq

def Cpu.start (image : List UInt8) (clip : Bool) : Cpu :=
  { memory := Memory.blank.load image, clip }

structure KeyRequest where
  wait : Keypad.Wait
  register : Nibble
  deriving DecidableEq, Repr

inductive Outcome where
  | done
  | failed (f : Fault)
  | crashed (c : Crash)
  | waiting (r : KeyRequest)
  deriving DecidableEq, Repr

end Chip8
