import Chip8.Cpu.Basic

namespace Chip8

namespace Cpu

def ret (c : Cpu) (top : Fin 16) : Cpu := { c with pc := c.stack[top], sp := c.sp - 1 }

/-- The stack pointer moves before the slot it then points to is written. -/
def push (c : Cpu) : Cpu := { c with sp := c.sp + 1 }

def call (c : Cpu) (top : Fin 16) (target : UInt16) : Cpu :=
  { c with stack := c.stack.set top c.pc (Nibble.lt top) }.jump target

def shiftRight (c : Cpu) (x : Nibble) : Cpu :=
  let c := c.set flag (c.v[x] &&& 1)
  c.set x (c.v[x] >>> 1)

def shiftLeft (c : Cpu) (x : Nibble) : Cpu :=
  let c := c.set flag (c.v[x] >>> 7)
  c.set x (c.v[x] <<< 1)

def storeDecimal (c : Cpu) (x : Nibble) : Cpu :=
  let n := c.v[x]
  { c with memory := c.memory.store c.i [n / 100, n / 10 % 10, n % 10] }

def registersTo (c : Cpu) (x : Nibble) : List UInt8 := c.v.toList.take (x.val + 1)

def storeRegisters (c : Cpu) (x : Nibble) : Cpu :=
  { c with memory := c.memory.store c.i (c.registersTo x) }

def loadRegisters (c : Cpu) (x : Nibble) : Cpu :=
  { c with v := Vector.ofFn fun k =>
      if k ≤ x then c.memory.read (c.i + UInt16.ofNat k.val) else c.v[k] }

def sprite (c : Cpu) (n : Nibble) : List UInt8 := c.memory.window c.i n.val

def draw (c : Cpu) (x y n : Nibble) : Cpu :=
  let (framebuffer, collision) := c.framebuffer.draw c.v[x] c.v[y] (c.sprite n) c.clip
  { c with framebuffer }.set flag (if collision then 1 else 0)

end Cpu

namespace Board

def skipOnKey (b : Board) (key : UInt8) (wanted : Bool) : Board :=
  let (devices, pressed) := b.devices.poll key
  ⟨b.cpu.skipIf (pressed == wanted), devices⟩

def receiveKey (b : Board) (r : KeyRequest) : Board × Outcome :=
  let (keypad, verdict) := b.devices.keypad.recheck r.wait
  let b := { b with devices := { b.devices with keypad } }
  match verdict with
  | .pending => (b, .waiting r)
  | .interrupted => (b, .failed .interrupted)
  | .released key => ({ b with cpu := b.cpu.set r.register key.toByte }, .done)

def awaitKey (b : Board) (x : Nibble) : Board × Outcome :=
  let (keypad, wait) := b.devices.keypad.beginWait
  { b with devices := { b.devices with keypad } }.receiveKey ⟨wait, x⟩

def setSound (b : Board) (value : UInt8) : Board × Outcome :=
  let (timers, crash) := b.devices.timers.setSound value
  ({ b with devices := { b.devices with timers } },
    match crash with
    | some crash => .crashed crash
    | none => .done)

def random (b : Board) (x : Nibble) (mask : UInt8) : Board :=
  { cpu := b.cpu.set x (b.devices.random.next &&& mask)
    devices := { b.devices with random := b.devices.random.advance } }

def execute (b : Board) (ins : Instruction) : Board × Outcome :=
  let c := b.cpu
  let x := ins.x
  let vx := c.v[ins.x]
  let vy := c.v[ins.y]
  let nnn := ins.nnn.toWord
  let become (c : Cpu) : Board × Outcome := ({ b with cpu := c }, .done)
  match ins.opcode with
  | .clearDisplay => become { c with framebuffer := c.framebuffer.clear }
  | .ret =>
    match c.top? with
    | some top => become (c.ret top)
    | none => (b, .failed c.overflow)
  | .jump => become (c.jump nnn)
  | .call =>
    let c := c.push
    match c.top? with
    | some top => become (c.call top nnn)
    | none => ({ b with cpu := c }, .failed c.overflow)
  | .skipEqualByte => become (c.skipIf (vx = ins.kk))
  | .skipUnequalByte => become (c.skipIf (vx ≠ ins.kk))
  | .skipEqual => become (c.skipIf (vx = vy))
  | .skipUnequal => become (c.skipIf (vx ≠ vy))
  | .setByte => become (c.set x ins.kk)
  | .addByte => become (c.set x (vx + ins.kk))
  | .copy => become (c.set x vy)
  | .or => become (c.set x (vx ||| vy))
  | .and => become (c.set x (vx &&& vy))
  | .xor => become (c.set x (vx ^^^ vy))
  | .add => become (c.setFlagged x (256 ≤ vx.toNat + vy.toNat) (vx + vy))
  | .sub => become (c.setFlagged x (vy ≤ vx) (vx - vy))
  | .subFrom => become (c.setFlagged x (vx ≤ vy) (vy - vx))
  | .shiftRight => become (c.shiftRight x)
  | .shiftLeft => become (c.shiftLeft x)
  | .setIndex => become { c with i := nnn }
  | .jumpOffset => become (c.jump (nnn + c.v[(0 : Nibble)].toUInt16))
  | .random => (b.random x ins.kk, .done)
  | .draw => become (c.draw x ins.y ins.n)
  | .skipPressed => (b.skipOnKey vx true, .done)
  | .skipReleased => (b.skipOnKey vx false, .done)
  | .readDelay => become (c.set x b.devices.timers.delay)
  | .awaitKey => b.awaitKey x
  | .setDelay =>
    ({ b with devices := { b.devices with timers := b.devices.timers.setDelay vx } }, .done)
  | .setSound => b.setSound vx
  | .addIndex => become { c with i := c.i + vx.toUInt16 }
  | .pointGlyph => become { c with i := vx.toUInt16 * 5 }
  | .storeDecimal => become (c.storeDecimal x)
  | .storeRegisters => become (c.storeRegisters x)
  | .loadRegisters => become (c.loadRegisters x)

end Board

end Chip8
