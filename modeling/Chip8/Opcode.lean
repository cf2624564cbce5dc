import Chip8.Nibble

namespace Chip8

inductive Operand where
  | nnn
  | n
  | x
  | y
  | kk
  deriving DecidableEq, Repr

namespace Operand

def all : List Operand := [nnn, n, x, y, kk]

def name : Operand → String
  | nnn => "nnn"
  | n => "n"
  | x => "x"
  | y => "y"
  | kk => "kk"

def letter : Operand → Char
  | nnn => 'n'
  | n => 'n'
  | x => 'x'
  | y => 'y'
  | kk => 'k'

end Operand

inductive Slot where
  | digit (d : Nibble)
  | operand (f : Operand)
  deriving DecidableEq, Repr

namespace Slot

instance (d : Nat) : OfNat Slot d := ⟨.digit (Fin.ofNat 16 d)⟩

instance : Coe Operand Slot := ⟨.operand⟩

def bits : Slot → Nibble
  | digit d => d
  | operand _ => 0

def mask : Slot → Nibble
  | digit _ => 0xF
  | operand _ => 0

def letter : Slot → Char
  | digit d => Hex.digit .upper d
  | operand f => f.letter

end Slot

structure Pattern where
  first : Slot
  second : Slot
  third : Slot
  fourth : Slot
  deriving DecidableEq, Repr

namespace Pattern

def slots (p : Pattern) : List Slot := [p.first, p.second, p.third, p.fourth]

def bits (p : Pattern) : UInt16 :=
  Nibble.join p.first.bits p.second.bits p.third.bits p.fourth.bits

def mask (p : Pattern) : UInt16 :=
  Nibble.join p.first.mask p.second.mask p.third.mask p.fourth.mask

def uses (p : Pattern) (f : Operand) : Bool := p.slots.contains (.operand f)

def fields (p : Pattern) : List Operand := Operand.all.filter p.uses

def letters (p : Pattern) : List Char := p.slots.map Slot.letter

def describe (p : Pattern) : String := String.ofList p.letters

end Pattern

inductive Opcode where
  | clearDisplay
  | ret
  | jump
  | call
  | skipEqualByte
  | skipUnequalByte
  | skipEqual
  | setByte
  | addByte
  | copy
  | or
  | and
  | xor
  | add
  | sub
  | shiftRight
  | subFrom
  | shiftLeft
  | skipUnequal
  | setIndex
  | jumpOffset
  | random
  | draw
  | skipPressed
  | skipReleased
  | readDelay
  | awaitKey
  | setDelay
  | setSound
  | addIndex
  | pointGlyph
  | storeDecimal
  | storeRegisters
  | loadRegisters
  deriving DecidableEq, Repr

namespace Opcode

def all : List Opcode :=
  [clearDisplay, ret, jump, call, skipEqualByte, skipUnequalByte, skipEqual, setByte, addByte,
    copy, or, and, xor, add, sub, shiftRight, subFrom, shiftLeft, skipUnequal, setIndex,
    jumpOffset, random, draw, skipPressed, skipReleased, readDelay, awaitKey, setDelay, setSound,
    addIndex, pointGlyph, storeDecimal, storeRegisters, loadRegisters]

theorem mem_all (o : Opcode) : o ∈ all := by
  cases o <;> decide

open Operand in
def pattern : Opcode → Pattern
  | clearDisplay => ⟨0x0, 0x0, 0xE, 0x0⟩
  | ret => ⟨0x0, 0x0, 0xE, 0xE⟩
  | jump => ⟨0x1, nnn, nnn, nnn⟩
  | call => ⟨0x2, nnn, nnn, nnn⟩
  | skipEqualByte => ⟨0x3, x, kk, kk⟩
  | skipUnequalByte => ⟨0x4, x, kk, kk⟩
  | skipEqual => ⟨0x5, x, y, 0x0⟩
  | setByte => ⟨0x6, x, kk, kk⟩
  | addByte => ⟨0x7, x, kk, kk⟩
  | copy => ⟨0x8, x, y, 0x0⟩
  | or => ⟨0x8, x, y, 0x1⟩
  | and => ⟨0x8, x, y, 0x2⟩
  | xor => ⟨0x8, x, y, 0x3⟩
  | add => ⟨0x8, x, y, 0x4⟩
  | sub => ⟨0x8, x, y, 0x5⟩
  | shiftRight => ⟨0x8, x, y, 0x6⟩
  | subFrom => ⟨0x8, x, y, 0x7⟩
  | shiftLeft => ⟨0x8, x, y, 0xE⟩
  | skipUnequal => ⟨0x9, x, y, 0x0⟩
  | setIndex => ⟨0xA, nnn, nnn, nnn⟩
  | jumpOffset => ⟨0xB, nnn, nnn, nnn⟩
  | random => ⟨0xC, x, kk, kk⟩
  | draw => ⟨0xD, x, y, n⟩
  | skipPressed => ⟨0xE, x, 0x9, 0xE⟩
  | skipReleased => ⟨0xE, x, 0xA, 0x1⟩
  | readDelay => ⟨0xF, x, 0x0, 0x7⟩
  | awaitKey => ⟨0xF, x, 0x0, 0xA⟩
  | setDelay => ⟨0xF, x, 0x1, 0x5⟩
  | setSound => ⟨0xF, x, 0x1, 0x8⟩
  | addIndex => ⟨0xF, x, 0x1, 0xE⟩
  | pointGlyph => ⟨0xF, x, 0x2, 0x9⟩
  | storeDecimal => ⟨0xF, x, 0x3, 0x3⟩
  | storeRegisters => ⟨0xF, x, 0x5, 0x5⟩
  | loadRegisters => ⟨0xF, x, 0x6, 0x5⟩

def mnemonic : Opcode → String
  | clearDisplay => "CLS"
  | ret => "RET"
  | jump => "JP"
  | call => "CALL"
  | skipEqualByte => "SE_Vx_byte"
  | skipUnequalByte => "SNE_Vx_byte"
  | skipEqual => "SE_Vx_Vy"
  | setByte => "LD_Vx_byte"
  | addByte => "ADD_Vx_byte"
  | copy => "LD_Vx_Vy"
  | or => "OR"
  | and => "AND"
  | xor => "XOR"
  | add => "ADD_Vx_Vy"
  | sub => "SUB"
  | shiftRight => "SHR"
  | subFrom => "SUBN"
  | shiftLeft => "SHL"
  | skipUnequal => "SNE_Vx_Vy"
  | setIndex => "LD_I_addr"
  | jumpOffset => "JP_V0_addr"
  | random => "RND"
  | draw => "DRW"
  | skipPressed => "SKP"
  | skipReleased => "SKNP"
  | readDelay => "LD_Vx_DT"
  | awaitKey => "LD_Vx_K"
  | setDelay => "LD_DT_Vx"
  | setSound => "LD_ST_Vx"
  | addIndex => "ADD_I_Vx"
  | pointGlyph => "LD_F_Vx"
  | storeDecimal => "LD_B_Vx"
  | storeRegisters => "LD_I_Vx"
  | loadRegisters => "LD_Vx_I"

def name : Opcode → String
  | clearDisplay => "ClearDisplay"
  | ret => "Return"
  | jump => "Jump"
  | call => "Call"
  | skipEqualByte => "SkipRegEqualImm"
  | skipUnequalByte => "SkipRegNotEqualImm"
  | skipEqual => "SkipRegEqualReg"
  | setByte => "SetRegImm"
  | addByte => "AddRegImm"
  | copy => "SetRegReg"
  | or => "Or"
  | and => "And"
  | xor => "Xor"
  | add => "AddRegReg"
  | sub => "Sub"
  | shiftRight => "ShiftRight"
  | subFrom => "SubReverse"
  | shiftLeft => "ShiftLeft"
  | skipUnequal => "SkipRegNotEqualReg"
  | setIndex => "SetIndexImm"
  | jumpOffset => "JumpWithOffset"
  | random => "Random"
  | draw => "Draw"
  | skipPressed => "SkipIfPressed"
  | skipReleased => "SkipIfNotPressed"
  | readDelay => "ReadDelayTimer"
  | awaitKey => "WaitForKey"
  | setDelay => "SetDelayTimer"
  | setSound => "SetSoundTimer"
  | addIndex => "AddIndexReg"
  | pointGlyph => "FontChar"
  | storeDecimal => "BCD"
  | storeRegisters => "StoreRegs"
  | loadRegisters => "LoadRegs"

def bits (o : Opcode) : UInt16 := o.pattern.bits

def mask (o : Opcode) : UInt16 := o.pattern.mask

def fields (o : Opcode) : List Operand := o.pattern.fields

def Matches (o : Opcode) (word : UInt16) : Prop := word &&& o.mask = o.bits

instance (o : Opcode) (word : UInt16) : Decidable (o.Matches word) :=
  inferInstanceAs (Decidable (_ = _))

end Opcode

end Chip8
