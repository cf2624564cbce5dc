import Chip8.Proofs.Cpu.Block
import Chip8.Proofs.Cpu.Devices
import Chip8.Proofs.Memory.Window

namespace Chip8

inductive Part where
  | cell (a : Address)
  | register (x : Nibble)
  | index
  | stackPointer
  | slot (k : Nibble)
  | pixel (x : Picture.Column) (y : Picture.Row)
  | clip
  | delay
  | sound
  | tone
  | keys
  | frames
  deriving DecidableEq, Repr

def Cpu.Names (c : Cpu) (ins : Instruction) (p : Part) : Prop :=
  match ins.opcode with
  | .clearDisplay => ∃ x y, p = .pixel x y
  | .ret => p = .stackPointer
  | .call => p = .stackPointer ∨ ∃ k : Nibble, k.val = (c.sp + 1).toNat ∧ p = .slot k
  | .jump | .jumpOffset => False
  | .skipEqualByte | .skipUnequalByte | .skipEqual | .skipUnequal => False
  | .skipPressed | .skipReleased => False
  | .setByte | .addByte | .copy | .or | .and | .xor => p = .register ins.x
  | .random | .readDelay => p = .register ins.x
  | .add | .sub | .subFrom | .shiftRight | .shiftLeft =>
    p = .register ins.x ∨ p = .register Cpu.flag
  | .loadRegisters => ∃ k ≤ ins.x, p = .register k
  | .storeDecimal => ∃ k < 3, p = .cell (Address.ofWord (c.i + UInt16.ofNat k))
  | .storeRegisters => ∃ k ≤ ins.x.val, p = .cell (Address.ofWord (c.i + UInt16.ofNat k))
  | .setIndex | .addIndex | .pointGlyph => p = .index
  | .draw => (∃ x y, p = .pixel x y) ∨ p = .register Cpu.flag
  | .setDelay => p = .delay
  | .setSound => p = .sound ∨ p = .tone
  | .awaitKey => p = .register ins.x ∨ p = .frames

theorem Cpu.length_registersTo (c : Cpu) (x : Nibble) : (c.registersTo x).length = x.val + 1 := by
  have hx := x.lt
  simp only [registersTo, List.length_take, Vector.length_toList]
  omega

def Keypad.unwatched (k : Keypad) : Keypad := { k with waiting := false, asleep := false }

namespace Board

def Keeps (b b' : Board) : Part → Prop
  | .cell a => b'.cpu.memory.read a.toWord = b.cpu.memory.read a.toWord
  | .register x => b'.cpu.v[x] = b.cpu.v[x]
  | .index => b'.cpu.i = b.cpu.i
  | .stackPointer => b'.cpu.sp = b.cpu.sp
  | .slot k => b'.cpu.stack[k] = b.cpu.stack[k]
  | .pixel x y => b'.cpu.framebuffer.picture.pixel x y = b.cpu.framebuffer.picture.pixel x y
  | .clip => b'.cpu.clip = b.cpu.clip
  | .delay => b'.devices.timers.delay = b.devices.timers.delay
  | .sound => b'.devices.timers.sound = b.devices.timers.sound
  | .tone => b'.devices.timers.speaker = b.devices.timers.speaker
  | .keys => b'.devices.keypad.unwatched = b.devices.keypad.unwatched
  | .frames => b'.devices.screen = b.devices.screen

theorem Keeps.refl (b : Board) (p : Part) : b.Keeps b p := by
  cases p <;> rfl

theorem Keeps.trans {a b c : Board} {p : Part} (h : a.Keeps b p) (k : b.Keeps c p) :
    a.Keeps c p := by
  cases p <;> exact Eq.trans k h

variable {b : Board} {p : Part}

theorem keeps_pc (b : Board) (w : UInt16) (p : Part) :
    b.Keeps { b with cpu := { b.cpu with pc := w } } p := by
  cases p <;> rfl

theorem keeps_journal (b : Board) (j : Journal) (p : Part) :
    b.Keeps { b with devices := { b.devices with journal := j } } p := by
  cases p <;> rfl

theorem keeps_watch (b : Board) (waiting asleep : Bool) (p : Part) :
    b.Keeps { b with devices := { b.devices with
      keypad := { b.devices.keypad with waiting, asleep } } } p := by
  cases p <;> rfl

theorem keeps_random (b : Board) (t : RandomTape) (p : Part) :
    b.Keeps { b with devices := { b.devices with random := t } } p := by
  cases p <;> rfl

theorem keeps_set {x : Nibble} (h : p ≠ .register x) (v : UInt8) :
    b.Keeps { b with cpu := b.cpu.set x v } p := by
  cases p with
  | register y =>
    have hne : x ≠ y := fun e => h (e ▸ rfl)
    exact (b.cpu.v_set x y v).trans (if_neg hne)
  | _ => rfl

theorem keeps_index (h : p ≠ .index) (w : UInt16) :
    b.Keeps { b with cpu := { b.cpu with i := w } } p := by
  cases p with
  | index => exact absurd rfl h
  | _ => rfl

theorem keeps_framebuffer (h : ∀ x y, p ≠ .pixel x y) (f : Framebuffer) :
    b.Keeps { b with cpu := { b.cpu with framebuffer := f } } p := by
  cases p with
  | pixel x y => exact absurd rfl (h x y)
  | _ => rfl

theorem keeps_screen (h : p ≠ .frames) (s : Screen) :
    b.Keeps { b with devices := { b.devices with screen := s } } p := by
  cases p with
  | frames => exact absurd rfl h
  | _ => rfl

theorem keeps_store {bytes : List UInt8}
    (h : ∀ k < bytes.length, p ≠ .cell (Address.ofWord (b.cpu.i + UInt16.ofNat k))) :
    b.Keeps { b with cpu := { b.cpu with memory := b.cpu.memory.store b.cpu.i bytes } } p := by
  cases p with
  | cell a =>
    apply Memory.read_store_of_ne
    intro k hk e
    rw [Address.ofWord_toWord] at e
    exact h k hk (e ▸ rfl)
  | _ => rfl

theorem keeps_loadRegisters {x : Nibble} (h : ∀ k ≤ x, p ≠ .register k) :
    b.Keeps { b with cpu := b.cpu.loadRegisters x } p := by
  cases p with
  | register y =>
    have hlt : ¬ y ≤ x := fun hle => h y hle rfl
    simp only [Keeps, Cpu.loadRegisters, Nibble.getElem_nibble, Vector.getElem_ofFn]
    exact if_neg hlt
  | _ => rfl

theorem keeps_poll (b : Board) (key : UInt8) (p : Part) :
    b.Keeps { b with devices := (b.devices.poll key).1 } p := by
  unfold Devices.poll
  split
  · exact .refl b p
  · exact keeps_journal b _ p

theorem keeps_skipIf (b : Board) (condition : Bool) (p : Part) :
    b.Keeps { b with cpu := b.cpu.skipIf condition } p := by
  rw [Cpu.skipIf_eq]
  exact keeps_pc b _ p

theorem keeps_finish (r : Board × Outcome) (p : Part) : Keeps r.1 (finish r).1 p := by
  obtain ⟨b, o⟩ := r
  cases o with
  | done => exact keeps_pc b _ p
  | failed | crashed | waiting => exact .refl b p

theorem keeps_awaitKey (b : Board) (x : Nibble) (p : Part) : b.Keeps (b.awaitKey x).1 p := by
  rw [awaitKey_eq]
  split <;> exact keeps_watch b _ _ p

theorem keeps_push (h : p ≠ .frames) : b.Keeps b.push.1 p := by
  cases hd : b.cpu.framebuffer.dirty with
  | false =>
    rw [push_of_clean hd]
    exact .refl b p
  | true =>
    cases hc : b.devices.screen.crash? with
    | none =>
      rw [push_of_dirty hd hc]
      cases p with
      | frames => exact absurd rfl h
      | _ => rfl
    | some c =>
      rw [push_of_crash hd hc]
      exact keeps_screen h _

theorem keeps_setSound (hs : p ≠ .sound) (ht : p ≠ .tone) (v : UInt8) :
    b.Keeps (b.setSound v).1 p := by
  have hdelay : (b.devices.timers.setSound v).1.delay = b.devices.timers.delay := by
    unfold Timers.setSound
    split <;> rfl
  cases p with
  | sound => exact absurd rfl hs
  | tone => exact absurd rfl ht
  | delay => exact hdelay
  | _ => rfl

theorem keeps_execute {ins : Instruction} (h : ¬ b.cpu.Names ins p) :
    b.Keeps (b.execute ins).1 p := by
  cases ho : ins.opcode <;> simp only [Cpu.Names, ho, not_or, not_exists, not_and] at h
  case ret =>
    rw [execute_ret ho]
    split
    · cases p with
      | stackPointer => exact absurd rfl h
      | _ => rfl
    · exact .refl b p
  case call =>
    rw [execute_call ho]
    split
    · cases p with
      | stackPointer => exact absurd rfl h.1
      | slot k =>
        have hne : ¬ (b.cpu.sp + 1).toNat = k.val := fun e => h.2 k e.symm rfl
        simp only [Keeps, Cpu.call, Cpu.jump, Cpu.push, Nibble.getElem_nibble, Vector.getElem_set,
          if_neg hne]
      | _ => rfl
    · cases p with
      | stackPointer => exact absurd rfl h.1
      | _ => rfl
  case awaitKey =>
    simp only [execute, ho]
    exact keeps_awaitKey b ins.x p
  all_goals simp only [execute, ho]
  case clearDisplay => exact keeps_framebuffer h _
  case jump | jumpOffset => exact keeps_pc b _ p
  case skipEqualByte | skipUnequalByte | skipEqual | skipUnequal => exact keeps_skipIf b _ p
  case skipPressed | skipReleased => exact (keeps_poll b _ p).trans (keeps_skipIf _ _ p)
  case setByte | addByte | copy | or | and | xor | readDelay => exact keeps_set h _
  case add | sub | subFrom | shiftRight | shiftLeft =>
    exact (keeps_set h.2 _).trans (keeps_set h.1 _)
  case setIndex | addIndex | pointGlyph => exact keeps_index h _
  case random => exact (keeps_random b _ p).trans (keeps_set h _)
  case draw => exact (keeps_framebuffer h.1 _).trans (keeps_set h.2 _)
  case setDelay =>
    cases p with
    | delay => exact absurd rfl h
    | _ => rfl
  case setSound => exact keeps_setSound h.1 h.2 _
  case storeDecimal => exact keeps_store h
  case storeRegisters =>
    refine keeps_store fun k hk => h k ?_
    rw [Cpu.length_registersTo] at hk
    exact Nat.le_of_lt_succ hk
  case loadRegisters => exact keeps_loadRegisters h

theorem keeps_step {ins : Instruction} (hi : b.cpu.instruction? = some ins)
    (h : ¬ b.cpu.Names ins p) : b.Keeps b.step.1 p := by
  have hbegun : b.Keeps (b.begun ins) p := keeps_journal b _ p
  by_cases ho : ins.opcode = .awaitKey
  · have hf : p ≠ .frames := by
      rintro rfl
      simp [Cpu.Names, ho] at h
    have hpush : b.Keeps (b.begun ins).push.1 p := hbegun.trans (keeps_push hf)
    cases hp : b.push.2 with
    | none =>
      rw [step_awaitKey hi ho hp]
      exact hpush.trans (keeps_awaitKey _ _ p)
    | some c =>
      rw [step_awaitKey_crash hi ho hp]
      exact hpush
  · rw [step_of_ne_awaitKey hi ho]
    have hexecute : (b.begun ins).Keeps ((b.begun ins).execute ins).1 p :=
      keeps_execute (b := b.begun ins) h
    exact (hbegun.trans hexecute).trans (keeps_finish _ p)

theorem keeps_step_of_data (hi : b.cpu.instruction? = none) (p : Part) : b.Keeps b.step.1 p := by
  rw [step_of_data hi]
  exact (keeps_journal b _ p).trans (keeps_pc _ _ p)

theorem keeps_resume {r : KeyRequest} (h : p ≠ .register r.register) :
    b.Keeps (b.resume r).1 p := by
  rw [resume_eq]
  cases b.devices.keypad.verdict r.wait with
  | pending => exact keeps_watch b b.devices.keypad.waiting true p
  | interrupted => exact keeps_watch b false false p
  | released key =>
    exact ((keeps_watch b false false p).trans (keeps_set h _)).trans (keeps_pc _ _ p)

theorem random_poll (d : Devices) (key : UInt8) : (d.poll key).1.random = d.random := by
  unfold Devices.poll
  split <;> rfl

theorem random_awaitKey (b : Board) (x : Nibble) :
    (b.awaitKey x).1.devices.random = b.devices.random := by
  rw [awaitKey_eq]
  split <;> rfl

theorem random_execute (b : Board) (ins : Instruction) :
    (b.execute ins).1.devices.random =
      if ins.opcode = .random then b.devices.random.advance else b.devices.random := by
  rw [devices_execute]
  cases ins.opcode
  case skipPressed | skipReleased => exact random_poll ..
  case awaitKey => exact random_awaitKey ..
  all_goals rfl

theorem random_push (b : Board) : b.push.1.devices.random = b.devices.random := by
  rw [keptBut_push b]

theorem random_step {ins : Instruction} (hi : b.cpu.instruction? = some ins) :
    b.step.1.devices.random =
      { b.devices.random with
        drawn := b.devices.random.drawn + if ins.opcode = .random then 1 else 0 } := by
  obtain ⟨-, hd⟩ | ⟨ho, ⟨c, -, he⟩ | ⟨-, he⟩⟩ := devices_step hi
  · rw [hd, random_execute]
    split <;> rfl
  · rw [he, random_push, ho]
    rfl
  · rw [he, random_awaitKey, random_push, ho]
    rfl

theorem random_resume (b : Board) (r : KeyRequest) :
    (b.resume r).1.devices.random = b.devices.random := by
  rw [resume_eq]
  cases b.devices.keypad.verdict r.wait <;> rfl

theorem keeps_run {n : Nat}
    (h : ∀ k < n, ∀ c ins, b.run k = (c, .finished) → c.cpu.instruction? = some ins →
      ¬ c.cpu.Names ins p) : b.Keeps (b.run n).1 p := by
  induction n generalizing b with
  | zero => exact .refl b p
  | succ n ih =>
    have hstep : b.Keeps b.step.1 p := by
      cases hi : b.cpu.instruction? with
      | none => exact keeps_step_of_data hi p
      | some ins => exact keeps_step hi (h 0 (Nat.succ_pos n) b ins rfl hi)
    by_cases hd : b.step.2 = .done
    · have hb : b.step = (b.step.1, .done) := Prod.ext rfl hd
      rw [run_succ_of_done hb]
      refine hstep.trans (ih fun k hk c ins hrun => ?_)
      rw [← run_succ_of_done hb] at hrun
      exact h (k + 1) (Nat.succ_lt_succ hk) c ins hrun
    · obtain ⟨rest, hrun, -⟩ := run_succ_of_not_done hd n
      rw [hrun]
      exact hstep

theorem step_touches_only_named (b : Board) :
    (b.cpu.instruction? = none → b.step =
        ({ cpu := { b.cpu with pc := b.cpu.pc + 2 }
           devices := b.devices.note (.skippingData b.cpu.pc (b.cpu.memory.word b.cpu.pc)) },
          .done)) ∧
      ∀ ins, b.cpu.instruction? = some ins →
        (∀ p, ¬ b.cpu.Names ins p → b.Keeps b.step.1 p) ∧
          b.step.1.devices.random =
            { b.devices.random with
              drawn := b.devices.random.drawn + if ins.opcode = .random then 1 else 0 } ∧
          ∀ r, b.step.2 = .waiting r →
            (ins.opcode = .awaitKey ∧ r.register = ins.x) ∧
              ∀ d : Devices, let w : Board := ⟨b.step.1.cpu, d⟩
                (∀ p, p ≠ .register ins.x → w.Keeps (w.resume r).1 p) ∧
                  (w.resume r).1.devices.random = d.random := by
  refine ⟨fun hi => step_of_data hi, fun ins hi => ⟨fun p => keeps_step hi, random_step hi, ?_⟩⟩
  intro r hw
  have hb : b.step = (b.step.1, .waiting r) := Prod.ext rfl hw
  obtain ⟨ins', hi', ho, rfl, -⟩ := step_of_waiting hb
  obtain rfl : ins = ins' := Option.some.inj (hi.symm.trans hi')
  exact ⟨⟨ho, rfl⟩, fun d => ⟨fun p hp => keeps_resume hp, random_resume _ _⟩⟩

end Board

end Chip8
