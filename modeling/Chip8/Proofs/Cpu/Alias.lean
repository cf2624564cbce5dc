import Chip8.Proofs.Cpu.Process
import Mathlib.Data.List.Forall2

namespace Chip8

def Address.Alias (a b : UInt16) : Prop := a.toNat % 4096 = b.toNat % 4096

namespace Address

instance (a b : UInt16) : Decidable (Alias a b) := inferInstanceAs (Decidable (_ = _))

theorem Alias.refl (a : UInt16) : Alias a a := rfl

theorem Alias.ofWord_eq {a b : UInt16} (h : Alias a b) : ofWord a = ofWord b :=
  Fin.ext h

theorem Alias.add {a b : UInt16} (h : Alias a b) (k : UInt16) : Alias (a + k) (b + k) := by
  unfold Alias at h ⊢
  rw [UInt16.toNat_add, UInt16.toNat_add]
  omega

end Address

open Address (Alias)

namespace Memory

variable {a b : UInt16}

theorem read_alias (m : Memory) (h : Alias a b) : m.read a = m.read b :=
  m.read_eq_of_ofWord_eq h.ofWord_eq

theorem word_alias (m : Memory) (h : Alias a b) : m.word a = m.word b := by
  rw [word, word, m.read_alias h, m.read_alias (h.add 1)]

theorem window_alias (m : Memory) (h : Alias a b) (n : Nat) : m.window a n = m.window b n := by
  have hk (k : Nat) : m.read (a + UInt16.ofNat k) = m.read (b + UInt16.ofNat k) :=
    m.read_alias (h.add _)
  simp only [window, hk]

theorem write_alias (m : Memory) (h : Alias a b) (v : UInt8) : m.write a v = m.write b v := by
  simp only [write, h.ofWord_eq]

theorem store_alias (m : Memory) (h : Alias a b) (bytes : List UInt8) :
    m.store a bytes = m.store b bytes := by
  induction bytes generalizing m a b with
  | nil => rfl
  | cons v rest ih => rw [store, store, m.write_alias h, ih _ (h.add 1)]

end Memory

namespace Cpu

inductive Alias (c : Cpu) : Cpu → Prop
  | mk {i pc : UInt16} {stack : CallStack} : Address.Alias c.i i → Address.Alias c.pc pc →
      (∀ k : Fin 16, Address.Alias c.stack[k] stack[k]) → Alias c { c with i, pc, stack }

namespace Alias

variable {c c' : Cpu}

theorem sp_eq (h : c.Alias c') : c'.sp = c.sp := by
  cases h
  rfl

theorem pc (h : c.Alias c') : Address.Alias c.pc c'.pc := by
  cases h with
  | mk hi hpc hst => exact hpc

theorem word_eq (h : c.Alias c') : c'.memory.word c'.pc = c.memory.word c.pc := by
  cases h with
  | mk hi hpc hst => exact (c.memory.word_alias hpc).symm

theorem set (h : c.Alias c') (x : Nibble) (b : UInt8) : (c.set x b).Alias (c'.set x b) := by
  cases h with
  | mk hi hpc hst => exact .mk hi hpc hst

theorem setFlagged (h : c.Alias c') (x : Nibble) (flagged : Bool) (b : UInt8) :
    (c.setFlagged x flagged b).Alias (c'.setFlagged x flagged b) := (h.set _ _).set _ _

theorem withFramebuffer (h : c.Alias c') (f : Framebuffer) :
    Cpu.Alias { c with framebuffer := f } { c' with framebuffer := f } := by
  cases h with
  | mk hi hpc hst => exact .mk hi hpc hst

theorem withIndex (h : c.Alias c') (i : UInt16) : Cpu.Alias { c with i := i } { c' with i := i } := by
  cases h with
  | mk hi hpc hst => exact .mk (.refl _) hpc hst

theorem addIndex (h : c.Alias c') (k : UInt16) :
    Cpu.Alias { c with i := c.i + k } { c' with i := c'.i + k } := by
  cases h with
  | mk hi hpc hst => exact .mk (hi.add k) hpc hst

theorem advance (h : c.Alias c') : c.advance.Alias c'.advance := by
  cases h with
  | mk hi hpc hst => exact .mk hi (hpc.add 2) hst

theorem jump (h : c.Alias c') (target : UInt16) : (c.jump target).Alias (c'.jump target) := by
  cases h with
  | mk hi hpc hst => exact .mk hi (.refl _) hst

theorem skipIf (h : c.Alias c') (condition : Bool) :
    (c.skipIf condition).Alias (c'.skipIf condition) := by
  cases condition with
  | false => exact h
  | true => exact h.advance

theorem ret (h : c.Alias c') (top : Fin 16) : (c.ret top).Alias (c'.ret top) := by
  cases h with
  | mk hi hpc hst => exact .mk hi (hst top) hst

theorem push (h : c.Alias c') : c.push.Alias c'.push := by
  cases h with
  | mk hi hpc hst => exact .mk hi hpc hst

theorem call (h : c.Alias c') (top : Fin 16) (target : UInt16) :
    (c.call top target).Alias (c'.call top target) := by
  cases h with
  | mk hi hpc hst =>
    refine .mk hi (.refl _) fun k => ?_
    simp only [Cpu.call, Cpu.jump, Nibble.getElem_nibble, Vector.getElem_set]
    split
    · exact hpc
    · exact hst k

theorem shiftRight (h : c.Alias c') (x : Nibble) : (c.shiftRight x).Alias (c'.shiftRight x) := by
  cases h with
  | mk hi hpc hst => exact .mk hi hpc hst

theorem shiftLeft (h : c.Alias c') (x : Nibble) : (c.shiftLeft x).Alias (c'.shiftLeft x) := by
  cases h with
  | mk hi hpc hst => exact .mk hi hpc hst

theorem store (h : c.Alias c') (bytes : List UInt8) :
    Cpu.Alias { c with memory := c.memory.store c.i bytes }
      { c' with memory := c'.memory.store c'.i bytes } := by
  cases h with
  | mk hi hpc hst =>
    dsimp only
    rw [← c.memory.store_alias hi]
    exact .mk hi hpc hst

theorem storeDecimal (h : c.Alias c') (x : Nibble) :
    (c.storeDecimal x).Alias (c'.storeDecimal x) := by
  have hs := h.store [c.v[x] / 100, c.v[x] / 10 % 10, c.v[x] % 10]
  cases h with
  | mk => exact hs

theorem storeRegisters (h : c.Alias c') (x : Nibble) :
    (c.storeRegisters x).Alias (c'.storeRegisters x) := by
  have hs := h.store (c.registersTo x)
  cases h with
  | mk => exact hs

theorem loadRegisters (h : c.Alias c') (x : Nibble) :
    (c.loadRegisters x).Alias (c'.loadRegisters x) := by
  cases h with
  | @mk i pc stack hi hpc hst =>
    have hr (k : UInt16) : c.memory.read (i + k) = c.memory.read (c.i + k) :=
      (c.memory.read_alias (hi.add k)).symm
    simp only [Cpu.loadRegisters, hr]
    exact .mk hi hpc hst

theorem draw (h : c.Alias c') (x y n : Nibble) : (c.draw x y n).Alias (c'.draw x y n) := by
  cases h with
  | mk hi hpc hst =>
    simp only [Cpu.draw, Cpu.sprite, ← c.memory.window_alias hi]
    exact .mk hi hpc hst

end Alias

end Cpu

inductive Event.Alias : Event → Event → Prop
  | same (e : Event) : Alias e e
  | executing {pc pc' : UInt16} (o : Opcode) (word : UInt16) : Address.Alias pc pc' →
      Alias (.executing pc o word) (.executing pc' o word)
  | skippingData {pc pc' : UInt16} (word : UInt16) : Address.Alias pc pc' →
      Alias (.skippingData pc word) (.skippingData pc' word)

theorem Event.Alias.level_eq {e e' : Event} (h : e.Alias e') : e'.level = e.level := by
  cases h <;> rfl

structure Journal.Alias (j j' : Journal) : Prop where
  tracing : j'.tracing = j.tracing
  events : List.Forall₂ Event.Alias j.events j'.events

theorem Journal.Alias.note {j j' : Journal} (h : j.Alias j') {e e' : Event} (he : e.Alias e') :
    (j.note e).Alias (j'.note e') := by
  unfold Journal.note
  rw [he.level_eq, h.tracing]
  split
  · exact h
  · exact ⟨rfl, .cons he h.events⟩

inductive Devices.Alias (d : Devices) : Devices → Prop
  | mk {journal : Journal} : d.journal.Alias journal → Alias d { d with journal }

namespace Devices.Alias

variable {d d' : Devices}

theorem keypad_eq (h : d.Alias d') : d'.keypad = d.keypad := by
  cases h
  rfl

theorem timers_eq (h : d.Alias d') : d'.timers = d.timers := by
  cases h
  rfl

theorem withKeypad (h : d.Alias d') (keypad : Keypad) :
    Devices.Alias { d with keypad } { d' with keypad } := by
  cases h with
  | mk hj => exact .mk hj

theorem withTimers (h : d.Alias d') (timers : Timers) :
    Devices.Alias { d with timers } { d' with timers } := by
  cases h with
  | mk hj => exact .mk hj

theorem note (h : d.Alias d') {e e' : Event} (he : e.Alias e') : (d.note e).Alias (d'.note e') := by
  cases h with
  | mk hj => exact .mk (hj.note he)

theorem poll (h : d.Alias d') (key : UInt8) :
    (d.poll key).1.Alias (d'.poll key).1 ∧ (d'.poll key).2 = (d.poll key).2 := by
  refine ⟨?_, by rw [Devices.poll, Devices.poll, h.keypad_eq]⟩
  rw [Devices.poll, Devices.poll]
  split
  · exact h
  · exact h.note (.same _)

end Devices.Alias

inductive Outcome.Alias : Outcome → Outcome → Prop
  | same (o : Outcome) : Alias o o
  | overflow {pc pc' : UInt16} (sp : UInt8) : Address.Alias pc pc' →
      Alias (.failed (.stackOverflow sp pc)) (.failed (.stackOverflow sp pc'))

namespace Board

structure Alias (b b' : Board) : Prop where
  cpu : b.cpu.Alias b'.cpu
  devices : b.devices.Alias b'.devices

def EndAlike (r r' : Board × Outcome) : Prop := r.1.Alias r'.1 ∧ r.2.Alias r'.2

variable {b b' : Board}

theorem Alias.done (h : b.Alias b') : EndAlike (b, .done) (b', .done) := ⟨h, .same _⟩

theorem alias_skipOnKey (h : b.Alias b') (key : UInt8) (wanted : Bool) :
    (b.skipOnKey key wanted).Alias (b'.skipOnKey key wanted) := by
  obtain ⟨hd, hp⟩ := h.devices.poll key
  simp only [skipOnKey, hp]
  exact ⟨h.cpu.skipIf _, hd⟩

theorem alias_awaitKey (h : b.Alias b') (x : Nibble) : EndAlike (b.awaitKey x) (b'.awaitKey x) := by
  rw [awaitKey_eq, awaitKey_eq, h.devices.keypad_eq]
  split
  · exact ⟨⟨h.cpu, h.devices.withKeypad _⟩, .same _⟩
  · exact ⟨⟨h.cpu, h.devices.withKeypad _⟩, .same _⟩

theorem alias_setSound (h : b.Alias b') (value : UInt8) :
    EndAlike (b.setSound value) (b'.setSound value) := by
  rw [setSound, setSound, h.devices.timers_eq]
  exact ⟨⟨h.cpu, h.devices.withTimers _⟩, .same _⟩

theorem alias_random (h : b.Alias b') (x : Nibble) (mask : UInt8) :
    (b.random x mask).Alias (b'.random x mask) := by
  obtain ⟨c, d⟩ := b
  obtain ⟨c', d'⟩ := b'
  obtain ⟨hc, hd⟩ := h
  cases hd with
  | mk hj => exact ⟨hc.set _ _, .mk hj⟩

theorem alias_ret (h : b.Alias b') {ins : Instruction} (ho : ins.opcode = .ret) :
    EndAlike (b.execute ins) (b'.execute ins) := by
  simp only [execute_ret ho, h.cpu.sp_eq]
  split
  · exact Alias.done ⟨h.cpu.ret _, h.devices⟩
  · exact ⟨h, .overflow _ h.cpu.pc⟩

theorem alias_call (h : b.Alias b') {ins : Instruction} (ho : ins.opcode = .call) :
    EndAlike (b.execute ins) (b'.execute ins) := by
  simp only [execute_call ho, h.cpu.sp_eq]
  split
  · exact Alias.done ⟨h.cpu.push.call _ _, h.devices⟩
  · exact ⟨⟨h.cpu.push, h.devices⟩, .overflow _ h.cpu.pc⟩

theorem alias_execute (h : b.Alias b') (ins : Instruction) :
    EndAlike (b.execute ins) (b'.execute ins) := by
  obtain ⟨c, d⟩ := b
  obtain ⟨c', d'⟩ := b'
  obtain ⟨@⟨i, pc, stack, hi, hpc, hst⟩, hd⟩ := h
  have hc : c.Alias { c with i, pc, stack } := .mk hi hpc hst
  have h : Board.Alias ⟨c, d⟩ ⟨{ c with i, pc, stack }, d'⟩ := ⟨hc, hd⟩
  cases ho : ins.opcode
  case ret => exact alias_ret h ho
  case call => exact alias_call h ho
  all_goals simp only [execute, ho]
  case clearDisplay => exact Alias.done ⟨hc.withFramebuffer _, hd⟩
  case jump | jumpOffset => exact Alias.done ⟨hc.jump _, hd⟩
  case skipEqualByte | skipUnequalByte | skipEqual | skipUnequal =>
    exact Alias.done ⟨hc.skipIf _, hd⟩
  case setByte | addByte | copy | or | and | xor => exact Alias.done ⟨hc.set _ _, hd⟩
  case add | sub | subFrom => exact Alias.done ⟨hc.setFlagged _ _ _, hd⟩
  case shiftRight => exact Alias.done ⟨hc.shiftRight _, hd⟩
  case shiftLeft => exact Alias.done ⟨hc.shiftLeft _, hd⟩
  case setIndex | pointGlyph => exact Alias.done ⟨hc.withIndex _, hd⟩
  case addIndex => exact Alias.done ⟨hc.addIndex _, hd⟩
  case random => exact (alias_random h _ _).done
  case draw => exact Alias.done ⟨hc.draw _ _ _, hd⟩
  case skipPressed | skipReleased => exact (alias_skipOnKey h _ _).done
  case readDelay =>
    rw [hd.timers_eq]
    exact Alias.done ⟨hc.set _ _, hd⟩
  case awaitKey => exact alias_awaitKey h _
  case setDelay =>
    rw [hd.timers_eq]
    exact Alias.done ⟨hc, hd.withTimers _⟩
  case setSound => exact alias_setSound h _
  case storeDecimal => exact Alias.done ⟨hc.storeDecimal _, hd⟩
  case storeRegisters => exact Alias.done ⟨hc.storeRegisters _, hd⟩
  case loadRegisters => exact Alias.done ⟨hc.loadRegisters _, hd⟩

theorem alias_finish {r r' : Board × Outcome} (h : EndAlike r r') :
    EndAlike (finish r) (finish r') := by
  obtain ⟨b, o⟩ := r
  obtain ⟨b', o'⟩ := r'
  obtain ⟨hb, ho⟩ := h
  cases ho with
  | same o =>
    cases o with
    | done => exact Alias.done ⟨hb.cpu.advance, hb.devices⟩
    | failed | crashed | waiting => exact ⟨hb, .same _⟩
  | overflow sp hpc => exact ⟨hb, .overflow sp hpc⟩

theorem alias_note (h : b.Alias b') {e e' : Event} (he : e.Alias e') :
    (b.note e).Alias (b'.note e') := ⟨h.cpu, h.devices.note he⟩

theorem alias_push (h : b.Alias b') : b.push.1.Alias b'.push.1 ∧ b'.push.2 = b.push.2 := by
  obtain ⟨c, d⟩ := b
  obtain ⟨c', d'⟩ := b'
  obtain ⟨hc, hd⟩ := h
  cases hc with
  | mk hi hpc hst =>
    cases hd with
    | mk hj => exact ⟨⟨.mk hi hpc hst, .mk hj⟩, rfl⟩

theorem alias_perform (h : b.Alias b') (ins : Instruction) :
    EndAlike (b.perform ins) (b'.perform ins) := by
  have hn : (b.begun ins).Alias (b'.begun ins) := alias_note h (.executing _ _ h.cpu.pc)
  by_cases ho : ins.opcode = .awaitKey
  · have hb : b.prepare ins = (b.begun ins).push := if_pos ho
    have hb' : b'.prepare ins = (b'.begun ins).push := if_pos ho
    obtain ⟨hp, hq⟩ := alias_push hn
    rw [perform, perform, hb, hb']
    cases hw : (b.begun ins).push with
    | mk w crash =>
      cases hw' : (b'.begun ins).push with
      | mk w' crash' =>
        rw [hw, hw'] at hp hq
        obtain rfl : crash' = crash := hq
        cases crash' with
        | some c => exact ⟨hp, .same _⟩
        | none => exact alias_finish (alias_execute hp ins)
  · have hb : b.prepare ins = (b.begun ins, none) := if_neg ho
    have hb' : b'.prepare ins = (b'.begun ins, none) := if_neg ho
    rw [perform, perform, hb, hb']
    exact alias_finish (alias_execute hn ins)

theorem alias_step (h : b.Alias b') : EndAlike b.step b'.step := by
  rw [step, step, h.cpu.word_eq]
  cases Instruction.decode? (b.cpu.memory.word b.cpu.pc) with
  | some ins => exact alias_perform h ins
  | none =>
    have hn := alias_note h (.skippingData (b.cpu.memory.word b.cpu.pc) h.cpu.pc)
    exact Alias.done ⟨hn.cpu.advance, hn.devices⟩

theorem alias_resume (h : b.Alias b') (r : KeyRequest) : EndAlike (b.resume r) (b'.resume r) := by
  rw [resume_eq, resume_eq, h.devices.keypad_eq]
  cases b.devices.keypad.verdict r.wait with
  | pending | interrupted => exact ⟨⟨h.cpu, h.devices.withKeypad _⟩, .same _⟩
  | released key => exact Alias.done ⟨(h.cpu.set _ _).advance, h.devices.withKeypad _⟩

end Board

namespace Process

structure Alias (p q : Process) : Prop where
  board : p.board.Alias q.board
  request : q.request = p.request

def outcomes : Process → List Move → List Outcome
  | _, [] => []
  | p, .go :: ms => p.attempt.2 :: outcomes (p.move .go) ms
  | p, m :: ms => outcomes (p.move m) ms

variable {p q : Process}

theorem alias_attempt (h : p.Alias q) : Board.EndAlike p.attempt q.attempt := by
  rw [attempt, attempt, h.request]
  cases p.request with
  | none => exact Board.alias_step h.board
  | some r => exact Board.alias_resume h.board r

theorem alias_settle {r r' : Board × Outcome} (h : Board.EndAlike r r') :
    (settle r).Alias (settle r') := by
  obtain ⟨b, o⟩ := r
  obtain ⟨b', o'⟩ := r'
  obtain ⟨hb, ho⟩ := h
  cases ho with
  | same o => cases o <;> exact ⟨hb, rfl⟩
  | overflow sp hpc => exact ⟨hb, rfl⟩

theorem alias_onKeypad (h : p.Alias q) (f : Keypad → Keypad) :
    (p.onKeypad f).Alias (q.onKeypad f) := by
  rw [onKeypad, onKeypad, onDevices, onDevices, h.board.devices.keypad_eq]
  exact ⟨⟨h.board.cpu, h.board.devices.withKeypad _⟩, h.request⟩

theorem alias_move (h : p.Alias q) (m : Move) : (p.move m).Alias (q.move m) := by
  cases m with
  | go => exact alias_settle (alias_attempt h)
  | push =>
    cases hr : p.request with
    | none =>
      simp only [move, h.request, hr, Option.isNone_none, if_true]
      exact ⟨(Board.alias_push h.board).1, rfl⟩
    | some r =>
      simp only [move, h.request, hr, Option.isNone_some, Bool.false_eq_true, if_false]
      exact h
  | key k down => exact alias_onKeypad h (·.set k down)
  | interrupt => exact alias_onKeypad h Keypad.interrupt
  | resume => exact alias_onKeypad h Keypad.resume
  | timers op =>
    rw [move, move, onDevices, onDevices, h.board.devices.timers_eq]
    exact ⟨⟨h.board.cpu, h.board.devices.withTimers _⟩, h.request⟩

theorem alias_moves (h : p.Alias q) (ms : List Move) : (p.moves ms).Alias (q.moves ms) := by
  induction ms generalizing p q with
  | nil => exact h
  | cons m ms ih => exact ih (alias_move h m)

theorem forall₂_outcomes (h : p.Alias q) (ms : List Move) :
    List.Forall₂ Outcome.Alias (p.outcomes ms) (q.outcomes ms) := by
  induction ms generalizing p q with
  | nil => exact .nil
  | cons m ms ih =>
    have hms := ih (alias_move h m)
    cases m with
    | go => exact .cons (alias_attempt h).2 hms
    | push | key | interrupt | resume | timers => exact hms

theorem high_bits_go_unnoticed (h : p.Alias q) (ms : List Move) :
    (p.moves ms).Alias (q.moves ms) ∧
      List.Forall₂ Outcome.Alias (p.outcomes ms) (q.outcomes ms) :=
  ⟨alias_moves h ms, forall₂_outcomes h ms⟩

def straddling : Process :=
  let memory := Memory.blank.store 0x0FFE [0xF1, 0x55, 0x00, 0xEE]
  ⟨⟨{ memory, i := 0x0FFF, pc := 0x0FFE, sp := 16, stack := Vector.replicate 16 0x0200 }, {}⟩, none⟩

def straddlingHigh : Process :=
  ⟨⟨{ straddling.cpu with i := 0xFFFF, pc := 0xFFFE, stack := Vector.replicate 16 0xF200 }, {}⟩, none⟩

theorem high_bits_of_straddling_go_unnoticed :
    straddling.Alias straddlingHigh ∧
      (straddling.moves [.go, .go]).Alias (straddlingHigh.moves [.go, .go]) ∧
      straddling.outcomes [.go, .go] = [.done, .failed (.stackOverflow 16 0x1000)] ∧
      straddlingHigh.outcomes [.go, .go] = [.done, .failed (.stackOverflow 16 0x0000)] := by
  have h : straddling.Alias straddlingHigh :=
    ⟨⟨.mk rfl rfl (by decide), .mk ⟨rfl, .nil⟩⟩, rfl⟩
  exact ⟨h, (high_bits_go_unnoticed h _).1, by decide +kernel, by decide +kernel⟩

end Process

end Chip8
