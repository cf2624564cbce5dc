import Chip8.Instruction
import Chip8.Memory

namespace Chip8.Listing

structure Line where
  address : UInt16
  word : UInt16
  deriving DecidableEq, Repr

def ofImage : UInt16 → List UInt8 → List Line
  | address, high :: low :: rest => ⟨address, wordOf high low⟩ :: ofImage (address + 2) rest
  | _, _ => []

theorem length_ofImage (address : UInt16) (image : List UInt8) :
    (ofImage address image).length = image.length / 2 := by
  fun_induction ofImage address image with
  | case1 address high low rest ih => simp only [List.length_cons, ih]; omega
  | case2 image _ h =>
    rcases image with _ | ⟨high, _ | ⟨low, rest⟩⟩
    · rfl
    · simp
    · exact absurd rfl (h high low rest)

def hexColumn (ins : Instruction) : Operand → List Char
  | .nnn => Hex.digits .lower 3 ins.nnn.val
  | .n => Hex.digits .lower 1 ins.n.val
  | .x => Hex.digits .lower 1 ins.x.val
  | .y => Hex.digits .lower 1 ins.y.val
  | .kk => Hex.byte .lower ins.kk

def columnEnd : Operand → List Char
  | .kk => []
  | _ => ['\t']

def emptyColumn : Operand → List Char
  | .nnn => ['\t', '\t', '\t']
  | _ => ['\t', '\t']

def column (ins : Instruction) (f : Operand) : List Char :=
  if ins.opcode.pattern.uses f then
    f.name.toList ++ [':', ' ', '0', 'x'] ++ hexColumn ins f ++ columnEnd f
  else emptyColumn f

def mnemonicWidth : Nat := 11

def body (ins : Instruction) : List Char :=
  Text.pad .left mnemonicWidth ins.opcode.mnemonic.toList ++ ['\t', '('] ++
    ins.opcode.pattern.letters ++ [')', '\t'] ++ Operand.all.flatMap (column ins)

def Line.letters (l : Line) : List Char :=
  ['0', 'x'] ++ Hex.word .lower l.address ++ ['\t'] ++ Hex.word .upper l.word ++ ['\t'] ++
    match Instruction.decode? l.word with
    | none => ['D', 'A', 'T', 'A']
    | some ins => body ins

def Line.render (l : Line) : String := String.ofList l.letters

def defaultOrigin : UInt16 := UInt16.ofNat Memory.imageStart

def render (origin : UInt16) (image : List UInt8) : List String :=
  (ofImage origin image).map Line.render

end Chip8.Listing
