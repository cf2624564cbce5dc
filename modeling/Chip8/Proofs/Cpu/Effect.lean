import Chip8.Cpu.Run
import Chip8.Proofs.Timers.History

namespace Chip8

namespace Cpu

def instruction? (c : Cpu) : Option Instruction := Instruction.decode? (c.memory.word c.pc)

def opcode? (c : Cpu) : Option Opcode := c.instruction?.map (·.opcode)

theorem opcode?_eq_some_iff {c : Cpu} {o : Opcode} :
    c.opcode? = some o ↔ ∃ ins, c.instruction? = some ins ∧ ins.opcode = o :=
  Option.map_eq_some_iff

theorem opcode?_of_instruction? {c : Cpu} {ins : Instruction} (h : c.instruction? = some ins) :
    c.opcode? = some ins.opcode := by
  rw [opcode?, h, Option.map_some]

def timerOp? (c : Cpu) : Option Timers.Op :=
  c.instruction?.bind fun ins =>
    match ins.opcode with
    | .setDelay => some (.setDelay c.v[ins.x])
    | .setSound => some (.setSound c.v[ins.x])
    | _ => none

theorem skipIf_eq (c : Cpu) (p : Bool) :
    c.skipIf p = { c with pc := if p then c.pc + 2 else c.pc } := by
  cases p <;> rfl

theorem top?_of_lt {c : Cpu} (h : c.sp.toNat < 16) : c.top? = some ⟨c.sp.toNat, h⟩ := dif_pos h

theorem top?_of_not_lt {c : Cpu} (h : ¬ c.sp.toNat < 16) : c.top? = none := dif_neg h

end Cpu

namespace Board

theorem finish_fst_cpu (r : Board × Outcome) :
    (finish r).1.cpu = if r.2 = .done then r.1.cpu.advance else r.1.cpu := by
  obtain ⟨b, o⟩ := r
  cases o <;> rfl

theorem finish_fst_devices (r : Board × Outcome) : (finish r).1.devices = r.1.devices := by
  obtain ⟨b, o⟩ := r
  cases o <;> rfl

theorem finish_snd (r : Board × Outcome) : (finish r).2 = r.2 := by
  obtain ⟨b, o⟩ := r
  cases o <;> rfl

theorem push_of_clean {b : Board} (h : b.cpu.framebuffer.dirty = false) : b.push = (b, none) := by
  simp [push, Framebuffer.push, h]

theorem push_of_dirty {b : Board} (h : b.cpu.framebuffer.dirty = true)
    (hc : b.devices.screen.crash? = none) :
    b.push = ({ cpu := { b.cpu with framebuffer := { b.cpu.framebuffer with dirty := false } }
                devices := { b.devices with
                  screen := b.devices.screen.present b.cpu.framebuffer.picture } }, none) := by
  simp [push, Framebuffer.push, h, hc]

theorem push_of_crash {b : Board} {c : Crash} (h : b.cpu.framebuffer.dirty = true)
    (hc : b.devices.screen.crash? = some c) :
    b.push = ({ b with devices := { b.devices with
                  screen := b.devices.screen.present b.cpu.framebuffer.picture } }, some c) := by
  simp [push, Framebuffer.push, h, hc]

def begun (b : Board) (ins : Instruction) : Board := b.note (.executing b.cpu.pc ins.opcode ins.word)

def dispatch (b : Board) (word : UInt16) : Board × Outcome :=
  match Instruction.decode? word with
  | some ins => b.perform ins
  | none => ((b.note (.skippingData b.cpu.pc word)).advance, .done)

theorem step_eq_dispatch (b : Board) : b.step = b.dispatch (b.cpu.memory.word b.cpu.pc) := rfl

theorem dispatch_of_ne_awaitKey (b : Board) {word : UInt16} {ins : Instruction}
    (h : Instruction.decode? word = some ins) (ho : ins.opcode ≠ .awaitKey) :
    b.dispatch word = finish ((b.begun ins).execute ins) := by
  have hp : b.prepare ins = (b.begun ins, none) := if_neg ho
  simp only [dispatch, h, perform, hp]

theorem dispatch_of_become (b : Board) {word : UInt16} {ins : Instruction} (f : Cpu → Cpu)
    (h : Instruction.decode? word = some ins) (ho : ins.opcode ≠ .awaitKey)
    (hf : ∀ b : Board, b.execute ins = ({ b with cpu := f b.cpu }, .done)) :
    (b.dispatch word).2 = .done ∧ (b.dispatch word).1.cpu = (f b.cpu).advance := by
  rw [b.dispatch_of_ne_awaitKey h ho, hf]
  exact ⟨rfl, rfl⟩

theorem step_of_data {b : Board} (h : b.cpu.instruction? = none) :
    b.step =
      ((b.note (.skippingData b.cpu.pc (b.cpu.memory.word b.cpu.pc))).advance, .done) := by
  rw [Cpu.instruction?] at h
  simp only [step, h]

theorem step_of_ne_awaitKey {b : Board} {ins : Instruction} (h : b.cpu.instruction? = some ins)
    (ho : ins.opcode ≠ .awaitKey) : b.step = finish ((b.begun ins).execute ins) := by
  rw [step_eq_dispatch, b.dispatch_of_ne_awaitKey h ho]

theorem awaitKey_eq (b : Board) (x : Nibble) :
    b.awaitKey x =
      if b.devices.keypad.interrupted then
        ({ b with devices := { b.devices with
            keypad := { b.devices.keypad with waiting := false, asleep := false } } },
          .failed .interrupted)
      else
        ({ b with devices := { b.devices with
            keypad := { b.devices.keypad with waiting := true, asleep := true } } },
          .waiting ⟨⟨b.devices.keypad.presses⟩, x⟩) := by
  cases h : b.devices.keypad.interrupted <;>
    simp [awaitKey, receiveKey, Keypad.beginWait, Keypad.recheck, Keypad.verdict, h]

theorem step_of_awaitKey {b : Board} {ins : Instruction} (h : b.cpu.instruction? = some ins)
    (ho : ins.opcode = .awaitKey) :
    b.step =
      match (b.begun ins).push with
      | (b, some crash) => (b, .crashed crash)
      | (b, none) => b.awaitKey ins.x := by
  have hp : b.prepare ins = (b.begun ins).push := if_pos ho
  rw [Cpu.instruction?] at h
  simp only [step, h, perform, hp]
  obtain ⟨b', c⟩ := (b.begun ins).push
  cases c with
  | some c => rfl
  | none =>
    simp only [execute, ho, awaitKey_eq]
    split <;> rfl

theorem resume_eq (b : Board) (r : KeyRequest) :
    b.resume r =
      match b.devices.keypad.verdict r.wait with
      | .pending =>
        ({ b with devices := { b.devices with
            keypad := { b.devices.keypad with asleep := true } } }, .waiting r)
      | .interrupted =>
        ({ b with devices := { b.devices with
            keypad := { b.devices.keypad with waiting := false, asleep := false } } },
          .failed .interrupted)
      | .released key =>
        ({ cpu := (b.cpu.set r.register key.toByte).advance
           devices := { b.devices with
             keypad := { b.devices.keypad with waiting := false, asleep := false } } }, .done) := by
  simp only [resume, receiveKey, Keypad.recheck]
  cases b.devices.keypad.verdict r.wait <;> rfl

theorem execute_ret {b : Board} {ins : Instruction} (h : ins.opcode = .ret) :
    b.execute ins =
      if h : b.cpu.sp.toNat < 16 then ({ b with cpu := b.cpu.ret ⟨b.cpu.sp.toNat, h⟩ }, .done)
      else (b, .failed (.stackOverflow b.cpu.sp b.cpu.pc)) := by
  simp only [execute, h]
  by_cases hlt : b.cpu.sp.toNat < 16
  · rw [dif_pos hlt, Cpu.top?_of_lt hlt]
  · rw [dif_neg hlt, Cpu.top?_of_not_lt hlt]
    rfl

theorem execute_call {b : Board} {ins : Instruction} (h : ins.opcode = .call) :
    b.execute ins =
      if h : (b.cpu.sp + 1).toNat < 16 then
        ({ b with cpu := b.cpu.push.call ⟨(b.cpu.sp + 1).toNat, h⟩ ins.nnn.toWord }, .done)
      else
        ({ b with cpu := b.cpu.push }, .failed (.stackOverflow (b.cpu.sp + 1) b.cpu.pc)) := by
  simp only [execute, h]
  by_cases hlt : (b.cpu.sp + 1).toNat < 16
  · have ht : b.cpu.push.top? = some ⟨(b.cpu.sp + 1).toNat, hlt⟩ := Cpu.top?_of_lt hlt
    rw [dif_pos hlt, ht]
  · have ht : b.cpu.push.top? = none := Cpu.top?_of_not_lt hlt
    rw [dif_neg hlt, ht]
    rfl

theorem execute_snd {b : Board} {ins : Instruction} (hc : ins.opcode ≠ .call)
    (hr : ins.opcode ≠ .ret) (hk : ins.opcode ≠ .awaitKey) :
    (b.execute ins).2 = .done ∨
      ∃ c, b.devices.timers.speaker.flaw = some c ∧ (b.execute ins).2 = .crashed c := by
  cases ho : ins.opcode <;> simp only [execute, ho]
  case call => exact absurd ho hc
  case ret => exact absurd ho hr
  case awaitKey => exact absurd ho hk
  case setSound =>
    by_cases hv : b.cpu.v[ins.x] = 0
    · exact .inl (by simp only [setSound, Timers.setSound, if_pos hv])
    · cases hf : b.devices.timers.speaker.flaw with
      | none => exact .inl (by simp only [setSound, Timers.setSound, if_neg hv, hf])
      | some c => exact .inr ⟨c, rfl, by simp only [setSound, Timers.setSound, if_neg hv, hf]⟩
  all_goals exact .inl trivial

theorem callStack_execute {b : Board} {ins : Instruction} (hc : ins.opcode ≠ .call)
    (hr : ins.opcode ≠ .ret) :
    (b.execute ins).1.cpu.sp = b.cpu.sp ∧ (b.execute ins).1.cpu.stack = b.cpu.stack := by
  cases ho : ins.opcode <;> unfold execute <;> rw [ho]
  case call => exact absurd ho hc
  case ret => exact absurd ho hr
  case skipEqualByte | skipUnequalByte | skipEqual | skipUnequal =>
    simp only [Cpu.skipIf_eq, and_self]
  case skipPressed | skipReleased => simp only [skipOnKey, Cpu.skipIf_eq, and_self]
  case loadRegisters => simp only [Cpu.loadRegisters, and_self]
  case awaitKey =>
    simp only [awaitKey_eq]
    split <;> exact ⟨rfl, rfl⟩
  all_goals exact ⟨rfl, rfl⟩

theorem timers_poll (d : Devices) (key : UInt8) : (d.poll key).1.timers = d.timers := by
  unfold Devices.poll
  split <;> rfl

theorem timers_execute {b : Board} {ins : Instruction} (h : b.cpu.instruction? = some ins) :
    (b.execute ins).1.devices.timers = b.devices.timers.obey b.cpu.timerOp? := by
  simp only [Cpu.timerOp?, h, Option.bind_some]
  cases ho : ins.opcode <;> unfold execute <;> rw [ho]
  case ret =>
    dsimp only
    split <;> rfl
  case call =>
    dsimp only
    split <;> rfl
  case skipPressed | skipReleased => exact timers_poll b.devices b.cpu.v[ins.x]
  case awaitKey =>
    simp only [awaitKey_eq]
    split <;> rfl
  all_goals rfl

def KeptBut (b b' : Board) : Prop :=
  b' = { cpu := { b.cpu with framebuffer := b'.cpu.framebuffer }
         devices := { b.devices with
           screen := b'.devices.screen, keypad := b'.devices.keypad
           journal := b'.devices.journal } }

theorem keptBut_push (b : Board) : b.KeptBut b.push.1 := by
  cases hd : b.cpu.framebuffer.dirty with
  | false => rw [push_of_clean hd]; rfl
  | true =>
    cases hc : b.devices.screen.crash? with
    | none => rw [push_of_dirty hd hc]; rfl
    | some c => rw [push_of_crash hd hc]; rfl

theorem keptBut_awaitKey (b : Board) (x : Nibble) : b.KeptBut (b.awaitKey x).1 := by
  rw [awaitKey_eq]
  split <;> rfl

theorem KeptBut.trans {a b c : Board} (h : a.KeptBut b) (k : b.KeptBut c) : a.KeptBut c := by
  unfold KeptBut at h
  rw [h] at k
  exact k

theorem keptBut_begun (b : Board) (ins : Instruction) : b.KeptBut (b.begun ins) := rfl

theorem keptBut_step {b : Board} {ins : Instruction} (h : b.cpu.instruction? = some ins)
    (ho : ins.opcode = .awaitKey) : b.KeptBut b.step.1 := by
  have hp : b.KeptBut (b.begun ins).push.1 :=
    (keptBut_begun b ins).trans (keptBut_push (b.begun ins))
  rw [step_of_awaitKey h ho]
  cases hb : (b.begun ins).push with
  | mk b' c =>
    rw [hb] at hp
    cases c with
    | some c => exact hp
    | none => exact hp.trans (keptBut_awaitKey b' ins.x)

theorem KeptBut.callStack {b b' : Board} (h : b.KeptBut b') :
    b'.cpu.sp = b.cpu.sp ∧ b'.cpu.stack = b.cpu.stack := by
  rw [KeptBut] at h
  rw [h]
  exact ⟨rfl, rfl⟩

theorem KeptBut.timers {b b' : Board} (h : b.KeptBut b') :
    b'.devices.timers = b.devices.timers := by
  rw [KeptBut] at h
  rw [h]

theorem callStack_finish (r : Board × Outcome) :
    (finish r).1.cpu.sp = r.1.cpu.sp ∧ (finish r).1.cpu.stack = r.1.cpu.stack := by
  rw [finish_fst_cpu]
  split <;> exact ⟨rfl, rfl⟩

theorem callStack_step {b : Board} (hc : b.cpu.opcode? ≠ some .call)
    (hr : b.cpu.opcode? ≠ some .ret) :
    b.step.1.cpu.sp = b.cpu.sp ∧ b.step.1.cpu.stack = b.cpu.stack := by
  cases h : b.cpu.instruction? with
  | none => rw [step_of_data h]; exact ⟨rfl, rfl⟩
  | some ins =>
    rw [Cpu.opcode?_of_instruction? h] at hc hr
    by_cases ho : ins.opcode = .awaitKey
    · exact (keptBut_step h ho).callStack
    · rw [step_of_ne_awaitKey h ho]
      obtain ⟨hs, hk⟩ := callStack_finish ((b.begun ins).execute ins)
      obtain ⟨hs', hk'⟩ := callStack_execute (b := b.begun ins) (fun e => hc (congrArg some e))
        (fun e => hr (congrArg some e))
      exact ⟨hs.trans hs', hk.trans hk'⟩

theorem callStack_resume (b : Board) (r : KeyRequest) :
    (b.resume r).1.cpu.sp = b.cpu.sp ∧ (b.resume r).1.cpu.stack = b.cpu.stack := by
  rw [resume_eq]
  split <;> exact ⟨rfl, rfl⟩

theorem timers_resume (b : Board) (r : KeyRequest) :
    (b.resume r).1.devices.timers = b.devices.timers := by
  rw [resume_eq]
  split <;> rfl

theorem step_eq_call {b : Board} (h : b.cpu.opcode? = some .call) :
    ∃ ins, b.cpu.instruction? = some ins ∧ b.step = finish
      (if h : (b.cpu.sp + 1).toNat < 16 then
        ({ b.begun ins with
            cpu := b.cpu.push.call ⟨(b.cpu.sp + 1).toNat, h⟩ ins.nnn.toWord }, .done)
      else
        ({ b.begun ins with cpu := b.cpu.push },
          .failed (.stackOverflow (b.cpu.sp + 1) b.cpu.pc))) := by
  obtain ⟨ins, hi, ho⟩ := Cpu.opcode?_eq_some_iff.1 h
  have hk : ins.opcode ≠ .awaitKey := by rw [ho]; decide
  refine ⟨ins, hi, ?_⟩
  rw [step_of_ne_awaitKey hi hk, execute_call ho]
  rfl

theorem step_eq_ret {b : Board} (h : b.cpu.opcode? = some .ret) :
    ∃ ins, b.cpu.instruction? = some ins ∧ b.step = finish
      (if h : b.cpu.sp.toNat < 16 then
        ({ b.begun ins with cpu := b.cpu.ret ⟨b.cpu.sp.toNat, h⟩ }, .done)
      else (b.begun ins, .failed (.stackOverflow b.cpu.sp b.cpu.pc))) := by
  obtain ⟨ins, hi, ho⟩ := Cpu.opcode?_eq_some_iff.1 h
  have hk : ins.opcode ≠ .awaitKey := by rw [ho]; decide
  refine ⟨ins, hi, ?_⟩
  rw [step_of_ne_awaitKey hi hk, execute_ret ho]
  rfl

theorem step_call {b : Board} (h : b.cpu.opcode? = some .call)
    (hlt : (b.cpu.sp + 1).toNat < 16) :
    b.step.2 = .done ∧ b.step.1.cpu.sp = b.cpu.sp + 1 ∧
      b.step.1.cpu.stack = b.cpu.stack.set (b.cpu.sp + 1).toNat b.cpu.pc := by
  obtain ⟨ins, -, he⟩ := step_eq_call h
  rw [he, dif_pos hlt]
  exact ⟨rfl, rfl, rfl⟩

theorem step_ret {b : Board} (h : b.cpu.opcode? = some .ret) (hlt : b.cpu.sp.toNat < 16) :
    b.step.2 = .done ∧ b.step.1.cpu.sp = b.cpu.sp - 1 ∧ b.step.1.cpu.stack = b.cpu.stack ∧
      b.step.1.cpu.pc = b.cpu.stack[b.cpu.sp.toNat] + 2 := by
  obtain ⟨ins, -, he⟩ := step_eq_ret h
  rw [he, dif_pos hlt]
  exact ⟨rfl, rfl, rfl, rfl⟩

theorem step_call_overflow {b : Board} (h : b.cpu.opcode? = some .call)
    (hge : ¬ (b.cpu.sp + 1).toNat < 16) :
    ∃ ins, b.step = ({ b.begun ins with cpu := b.cpu.push },
      .failed (.stackOverflow (b.cpu.sp + 1) b.cpu.pc)) := by
  obtain ⟨ins, -, he⟩ := step_eq_call h
  rw [dif_neg hge] at he
  exact ⟨ins, he⟩

theorem step_ret_overflow {b : Board} (h : b.cpu.opcode? = some .ret)
    (hge : ¬ b.cpu.sp.toNat < 16) :
    ∃ ins, b.step = (b.begun ins, .failed (.stackOverflow b.cpu.sp b.cpu.pc)) := by
  obtain ⟨ins, -, he⟩ := step_eq_ret h
  rw [dif_neg hge] at he
  exact ⟨ins, he⟩

theorem step_awaitKey {b : Board} {ins : Instruction} (h : b.cpu.instruction? = some ins)
    (ho : ins.opcode = .awaitKey) (hp : b.push.2 = none) :
    b.step = (b.begun ins).push.1.awaitKey ins.x := by
  have hb : (b.begun ins).push = ((b.begun ins).push.1, none) := Prod.ext rfl hp
  rw [step_of_awaitKey h ho, hb]

theorem step_awaitKey_crash {b : Board} {ins : Instruction} {c : Crash}
    (h : b.cpu.instruction? = some ins) (ho : ins.opcode = .awaitKey) (hp : b.push.2 = some c) :
    b.step = ((b.begun ins).push.1, .crashed c) := by
  have hb : (b.begun ins).push = ((b.begun ins).push.1, some c) := Prod.ext rfl hp
  rw [step_of_awaitKey h ho, hb]

theorem keypad_push (b : Board) : b.push.1.devices.keypad = b.devices.keypad := by
  cases hd : b.cpu.framebuffer.dirty with
  | false => rw [push_of_clean hd]
  | true =>
    cases hc : b.devices.screen.crash? with
    | none => rw [push_of_dirty hd hc]
    | some c => rw [push_of_crash hd hc]

theorem step_snd_of_quiet {b : Board} {ins : Instruction} (h : b.cpu.instruction? = some ins)
    (hc : ins.opcode ≠ .call) (hr : ins.opcode ≠ .ret) (hk : ins.opcode ≠ .awaitKey) :
    b.step.2 = .done ∨
      ∃ c, b.devices.timers.speaker.flaw = some c ∧ b.step.2 = .crashed c := by
  rw [step_of_ne_awaitKey h hk, finish_snd]
  exact execute_snd (b := b.begun ins) hc hr hk

inductive Ends (b : Board) : Outcome → Prop
  | done : b.Ends .done
  | ret : b.cpu.opcode? = some .ret → ¬ b.cpu.sp.toNat < 16 →
      b.Ends (.failed (.stackOverflow b.cpu.sp b.cpu.pc))
  | call : b.cpu.opcode? = some .call → ¬ (b.cpu.sp + 1).toNat < 16 →
      b.Ends (.failed (.stackOverflow (b.cpu.sp + 1) b.cpu.pc))
  | interrupted : b.cpu.opcode? = some .awaitKey → b.push.2 = none →
      b.devices.keypad.interrupted = true → b.Ends (.failed .interrupted)
  | waiting (r : KeyRequest) : b.cpu.opcode? = some .awaitKey → b.push.2 = none →
      b.devices.keypad.interrupted = false → b.Ends (.waiting r)
  | screen {c : Crash} : b.cpu.opcode? = some .awaitKey → b.push.2 = some c → b.Ends (.crashed c)
  | speaker {c : Crash} : b.devices.timers.speaker.flaw = some c → b.Ends (.crashed c)

theorem ends_awaitKey {b : Board} (h : b.cpu.opcode? = some .awaitKey) : b.Ends b.step.2 := by
  obtain ⟨ins, hi, ho⟩ := Cpu.opcode?_eq_some_iff.1 h
  cases hp : b.push.2 with
  | some c =>
    rw [step_awaitKey_crash hi ho hp]
    exact .screen h hp
  | none =>
    have hk : (b.begun ins).push.1.devices.keypad = b.devices.keypad := keypad_push _
    rw [step_awaitKey hi ho hp, awaitKey_eq, hk]
    cases hint : b.devices.keypad.interrupted with
    | true => exact .interrupted h hp hint
    | false => exact .waiting _ h hp hint

theorem ends_step (b : Board) : b.Ends b.step.2 := by
  cases h : b.cpu.instruction? with
  | none =>
    rw [step_of_data h]
    exact .done
  | some ins =>
    have hop := Cpu.opcode?_of_instruction? h
    by_cases hr : ins.opcode = .ret
    · rw [hr] at hop
      by_cases hlt : b.cpu.sp.toNat < 16
      · rw [(step_ret hop hlt).1]
        exact .done
      · obtain ⟨_, he⟩ := step_ret_overflow hop hlt
        rw [he]
        exact .ret hop hlt
    by_cases hc : ins.opcode = .call
    · rw [hc] at hop
      by_cases hlt : (b.cpu.sp + 1).toNat < 16
      · rw [(step_call hop hlt).1]
        exact .done
      · obtain ⟨_, he⟩ := step_call_overflow hop hlt
        rw [he]
        exact .call hop hlt
    by_cases hk : ins.opcode = .awaitKey
    · rw [hk] at hop
      exact ends_awaitKey hop
    obtain hd | ⟨c, hf, hd⟩ := step_snd_of_quiet h hc hr hk
    · rw [hd]
      exact .done
    · rw [hd]
      exact .speaker hf

theorem step_failed_iff {b : Board} {f : Fault} :
    b.step.2 = .failed f ↔
      b.cpu.opcode? = some .ret ∧ ¬ b.cpu.sp.toNat < 16 ∧
          f = .stackOverflow b.cpu.sp b.cpu.pc ∨
        b.cpu.opcode? = some .call ∧ ¬ (b.cpu.sp + 1).toNat < 16 ∧
          f = .stackOverflow (b.cpu.sp + 1) b.cpu.pc ∨
        b.cpu.opcode? = some .awaitKey ∧ b.push.2 = none ∧
          b.devices.keypad.interrupted = true ∧ f = .interrupted := by
  constructor
  · intro hf
    have he := b.ends_step
    rw [hf] at he
    cases he with
    | ret ho hge => exact .inl ⟨ho, hge, rfl⟩
    | call ho hge => exact .inr (.inl ⟨ho, hge, rfl⟩)
    | interrupted ho hp hi => exact .inr (.inr ⟨ho, hp, hi, rfl⟩)
  · rintro (⟨ho, hge, rfl⟩ | ⟨ho, hge, rfl⟩ | ⟨ho, hp, hi, rfl⟩)
    · obtain ⟨_, he⟩ := step_ret_overflow ho hge
      rw [he]
    · obtain ⟨_, he⟩ := step_call_overflow ho hge
      rw [he]
    · obtain ⟨ins, hins, ho⟩ := Cpu.opcode?_eq_some_iff.1 ho
      have hk : (b.begun ins).push.1.devices.keypad = b.devices.keypad := keypad_push _
      rw [step_awaitKey hins ho hp, awaitKey_eq, hk, if_pos hi]

theorem timers_step (b : Board) :
    b.step.1.devices.timers = b.devices.timers.obey b.cpu.timerOp? := by
  cases h : b.cpu.instruction? with
  | none =>
    have hn : b.cpu.timerOp? = none := by rw [Cpu.timerOp?, h, Option.bind_none]
    rw [step_of_data h, hn]
    rfl
  | some ins =>
    by_cases ho : ins.opcode = .awaitKey
    · have hn : b.cpu.timerOp? = none := by simp only [Cpu.timerOp?, h, Option.bind_some, ho]
      rw [(keptBut_step h ho).timers, hn]
      rfl
    · rw [step_of_ne_awaitKey h ho, finish_fst_devices]
      exact timers_execute (b := b.begun ins) h

end Board

end Chip8
