import Chip8.Cpu.Execute

namespace Chip8.Board

def push (b : Board) : Board × Option Crash :=
  let (framebuffer, screen, crash) := b.cpu.framebuffer.push b.devices.screen
  ({ cpu := { b.cpu with framebuffer }, devices := { b.devices with screen } }, crash)

def note (b : Board) (e : Event) : Board := { b with devices := b.devices.note e }

def advance (b : Board) : Board := { b with cpu := b.cpu.advance }

def finish : Board × Outcome → Board × Outcome
  | (b, .done) => (b.advance, .done)
  | (b, outcome) => (b, outcome)

def prepare (b : Board) (ins : Instruction) : Board × Option Crash :=
  let b := b.note (.executing b.cpu.pc ins.opcode ins.word)
  if ins.opcode = .awaitKey then b.push else (b, none)

def perform (b : Board) (ins : Instruction) : Board × Outcome :=
  match b.prepare ins with
  | (b, some crash) => (b, .crashed crash)
  | (b, none) => finish (b.execute ins)

def step (b : Board) : Board × Outcome :=
  let word := b.cpu.memory.word b.cpu.pc
  match Instruction.decode? word with
  | some ins => b.perform ins
  | none => ((b.note (.skippingData b.cpu.pc word)).advance, .done)

def resume (b : Board) (r : KeyRequest) : Board × Outcome := finish (b.receiveKey r)

inductive Rest where
  | finished
  | failed (f : Fault)
  | crashed (c : Crash)
  | waiting (r : KeyRequest) (left : Nat)
  deriving DecidableEq, Repr

def run : Nat → Board → Board × Rest
  | 0, b => (b, .finished)
  | n + 1, b =>
    match b.step with
    | (b, .done) => run n b
    | (b, .failed f) => (b, .failed f)
    | (b, .crashed c) => (b, .crashed c)
    | (b, .waiting r) => (b, .waiting r n)

def resumeRun (r : KeyRequest) (left : Nat) (b : Board) : Board × Rest :=
  match b.resume r with
  | (b, .done) => run left b
  | (b, .failed f) => (b, .failed f)
  | (b, .crashed c) => (b, .crashed c)
  | (b, .waiting r) => (b, .waiting r left)

def closeBlock : Board × Rest → Board × Rest
  | (b, .finished) =>
    match b.push with
    | (b, none) => (b, .finished)
    | (b, some crash) => (b, .crashed crash)
  | r => r

def runBlock (n : Nat) (b : Board) : Board × Rest := closeBlock (run n b)

def resumeBlock (r : KeyRequest) (left : Nat) (b : Board) : Board × Rest :=
  closeBlock (resumeRun r left b)

def trail : Nat → Board → List Board
  | 0, _ => []
  | n + 1, b =>
    match b.step with
    | (b, .done) => b :: trail n b
    | (_, .waiting _) => []
    | (b, _) => [b]

def resumeTrail (r : KeyRequest) (left : Nat) (b : Board) : List Board :=
  match b.resume r with
  | (b, .done) => b :: trail left b
  | (_, .waiting _) => []
  | (b, _) => [b]

end Chip8.Board
