import Chip8.Proofs.Cpu.Effect
import Chip8.Proofs.Keypad.Wait

namespace Chip8

def Outcome.isWaiting : Outcome → Bool
  | .waiting _ => true
  | _ => false

def Outcome.wait? : Outcome → Option Keypad.Wait
  | .waiting r => some r.wait
  | _ => none

def Event.isOfStep : Event → Bool
  | .executing .. | .skippingData .. | .polledMissingKey _ => true
  | _ => false

namespace Journal

def reports (j : Journal) : List Event := j.events.filter fun e => !e.isOfStep

theorem reports_note_of_step {e : Event} (h : e.isOfStep = true) (j : Journal) :
    (j.note e).reports = j.reports := by
  unfold note
  split
  · rfl
  · exact List.filter_cons_of_neg (by simp [h])

theorem reports_note {e : Event} (h : e.isOfStep = false) (j : Journal) :
    (j.note e).reports = e :: j.reports := by
  have hl : e.level ≠ .trace := by
    cases e with
    | executing | skippingData => cases h
    | _ => exact nofun
  rw [note, if_neg fun hn => hl hn.1]
  exact List.filter_cons_of_pos (by simp [h])

end Journal

theorem Devices.keypad_poll (d : Devices) (key : UInt8) : (d.poll key).1.keypad = d.keypad := by
  unfold poll
  split <;> rfl

theorem Devices.reports_poll (d : Devices) (key : UInt8) :
    (d.poll key).1.journal.reports = d.journal.reports := by
  unfold poll
  split
  · rfl
  · exact d.journal.reports_note_of_step rfl

namespace Board

theorem devices_execute (b : Board) (ins : Instruction) :
    (b.execute ins).1.devices =
      match ins.opcode with
      | .random => { b.devices with random := b.devices.random.advance }
      | .skipPressed | .skipReleased => (b.devices.poll b.cpu.v[ins.x]).1
      | .setDelay => { b.devices with timers := b.devices.timers.setDelay b.cpu.v[ins.x] }
      | .setSound => { b.devices with timers := (b.devices.timers.setSound b.cpu.v[ins.x]).1 }
      | .awaitKey => (b.awaitKey ins.x).1.devices
      | _ => b.devices := by
  cases ho : ins.opcode
  case ret =>
    rw [execute_ret ho]
    split <;> rfl
  case call =>
    rw [execute_call ho]
    split <;> rfl
  all_goals simp only [execute, ho] <;> rfl

theorem keypad_awaitKey (b : Board) (x : Nibble) :
    (b.awaitKey x).1.devices.keypad =
      { b.devices.keypad with
        waiting := (b.awaitKey x).2.isWaiting, asleep := (b.awaitKey x).2.isWaiting } := by
  rw [awaitKey_eq]
  split <;> rfl

theorem journal_awaitKey (b : Board) (x : Nibble) :
    (b.awaitKey x).1.devices.journal = b.devices.journal := by
  rw [awaitKey_eq]
  split <;> rfl

theorem journal_push (b : Board) : b.push.1.devices.journal = b.devices.journal := by
  cases hd : b.cpu.framebuffer.dirty with
  | false => rw [push_of_clean hd]
  | true =>
    cases hc : b.devices.screen.crash? with
    | none => rw [push_of_dirty hd hc]
    | some c => rw [push_of_crash hd hc]

theorem devices_step {b : Board} {ins : Instruction} (h : b.cpu.instruction? = some ins) :
    ins.opcode ≠ .awaitKey ∧ b.step.1.devices = ((b.begun ins).execute ins).1.devices ∨
      ins.opcode = .awaitKey ∧
        ((∃ c, b.push.2 = some c ∧ b.step = ((b.begun ins).push.1, .crashed c)) ∨
          b.push.2 = none ∧ b.step = (b.begun ins).push.1.awaitKey ins.x) := by
  by_cases ho : ins.opcode = .awaitKey
  · refine .inr ⟨ho, ?_⟩
    cases hp : b.push.2 with
    | some c => exact .inl ⟨c, rfl, step_awaitKey_crash h ho hp⟩
    | none => exact .inr ⟨rfl, step_awaitKey h ho hp⟩
  · rw [step_of_ne_awaitKey h ho, finish_fst_devices]
    exact .inl ⟨ho, rfl⟩

theorem keypad_execute {b : Board} {ins : Instruction} (ho : ins.opcode ≠ .awaitKey) :
    (b.execute ins).1.devices.keypad = b.devices.keypad := by
  rw [devices_execute]
  cases hop : ins.opcode
  case awaitKey => exact absurd hop ho
  case skipPressed | skipReleased => exact Devices.keypad_poll ..
  all_goals rfl

theorem reports_execute (b : Board) (ins : Instruction) :
    (b.execute ins).1.devices.journal.reports = b.devices.journal.reports := by
  rw [devices_execute]
  cases ins.opcode
  case awaitKey => exact congrArg Journal.reports (journal_awaitKey ..)
  case skipPressed | skipReleased => exact Devices.reports_poll ..
  all_goals rfl

theorem isWaiting_step_of_ne {b : Board} (h : b.cpu.opcode? ≠ some .awaitKey) :
    b.step.2.isWaiting = false := by
  cases hs : b.step.2 with
  | waiting r =>
    have he := b.ends_step
    rw [hs] at he
    cases he with
    | waiting r ho => exact absurd ho h
  | done | failed | crashed => rfl

theorem keypad_step (b : Board) :
    b.step.1.devices.keypad = b.devices.keypad ∧ b.step.2.isWaiting = false ∨
      b.step.1.devices.keypad =
        { b.devices.keypad with
          waiting := b.step.2.isWaiting, asleep := b.step.2.isWaiting } := by
  cases hi : b.cpu.instruction? with
  | none =>
    rw [step_of_data hi]
    exact .inl ⟨rfl, rfl⟩
  | some ins =>
    obtain ⟨ho, hd⟩ | ⟨-, ⟨c, -, he⟩ | ⟨-, he⟩⟩ := devices_step hi
    · have hne : b.cpu.opcode? ≠ some .awaitKey := by
        rw [Cpu.opcode?_of_instruction? hi]
        exact fun h => ho (Option.some.inj h)
      exact .inl ⟨hd ▸ keypad_execute ho, isWaiting_step_of_ne hne⟩
    · rw [he]
      exact .inl ⟨keypad_push _, rfl⟩
    · rw [he, keypad_awaitKey, keypad_push]
      exact .inr rfl

theorem waiting_step {b : Board} (h : b.devices.keypad.waiting = false) :
    b.step.1.devices.keypad.waiting = b.step.2.isWaiting := by
  obtain ⟨hk, ho⟩ | hk := b.keypad_step
  · rw [hk, h, ho]
  · rw [hk]

theorem waiting_resume {b : Board} (h : b.devices.keypad.waiting = true) (r : KeyRequest) :
    (b.resume r).1.devices.keypad.waiting = (b.resume r).2.isWaiting := by
  rw [resume_eq]
  cases b.devices.keypad.verdict r.wait with
  | pending => exact h
  | interrupted | released => rfl

theorem cpu_push {b : Board} (h : b.push.2 = none) :
    b.push.1.cpu = { b.cpu with framebuffer := { b.cpu.framebuffer with dirty := false } } := by
  cases hd : b.cpu.framebuffer.dirty with
  | false =>
    rw [push_of_clean hd, ← hd]
  | true =>
    cases hc : b.devices.screen.crash? with
    | none => rw [push_of_dirty hd hc]
    | some c =>
      rw [push_of_crash hd hc] at h
      cases h

theorem step_of_waiting {b c : Board} {r : KeyRequest} (h : b.step = (c, .waiting r)) :
    ∃ ins, b.cpu.instruction? = some ins ∧ ins.opcode = .awaitKey ∧
      r = ⟨⟨b.devices.keypad.presses⟩, ins.x⟩ ∧
      c.cpu = { b.cpu with framebuffer := { b.cpu.framebuffer with dirty := false } } ∧
      c.devices.keypad = { b.devices.keypad with waiting := true, asleep := true } ∧
      b.devices.keypad.interrupted = false := by
  have he := b.ends_step
  rw [h] at he
  cases he with
  | waiting _ ho hp hi =>
    obtain ⟨ins, hins, ho⟩ := Cpu.opcode?_eq_some_iff.1 ho
    have hk : (b.begun ins).push.1.devices.keypad = b.devices.keypad := keypad_push _
    have hcpu := cpu_push (b := b.begun ins) hp
    rw [step_awaitKey hins ho hp, awaitKey_eq, hk, hi, if_neg Bool.false_ne_true,
      Prod.mk.injEq] at h
    obtain ⟨rfl, hr⟩ := h
    exact ⟨ins, hins, ho, (Outcome.waiting.inj hr).symm, hcpu, rfl, hi⟩

theorem sleepsIn_step {b : Board} (h : b.devices.keypad.SleepsIn none) :
    b.step.1.devices.keypad.SleepsIn b.step.2.wait? := by
  cases ho : b.step.2 with
  | waiting r =>
    obtain ⟨_, -, -, rfl, -, hk, hi⟩ := step_of_waiting (Prod.ext rfl ho)
    rw [hk]
    exact fun _ => ⟨_, rfl, Keypad.verdict_eq_pending_iff.2 ⟨hi, rfl⟩⟩
  | done | failed | crashed =>
    obtain ⟨hk, -⟩ | hk := b.keypad_step
    · rw [hk]
      exact h
    · rw [hk, ho]
      exact .of_awake rfl none

theorem sleepsIn_resume (b : Board) (r : KeyRequest) :
    (b.resume r).1.devices.keypad.SleepsIn (b.resume r).2.wait? := by
  rw [resume_eq]
  cases hv : b.devices.keypad.verdict r.wait with
  | pending => exact fun _ => ⟨_, rfl, hv⟩
  | interrupted | released => exact .of_awake rfl none

theorem reports_step (b : Board) :
    b.step.1.devices.journal.reports = b.devices.journal.reports := by
  cases hi : b.cpu.instruction? with
  | none =>
    rw [step_of_data hi]
    exact b.devices.journal.reports_note_of_step rfl
  | some ins =>
    have hb : (b.begun ins).devices.journal.reports = b.devices.journal.reports :=
      b.devices.journal.reports_note_of_step rfl
    obtain ⟨-, hd⟩ | ⟨-, ⟨c, -, he⟩ | ⟨-, he⟩⟩ := devices_step hi
    · rw [hd, reports_execute, hb]
    · rw [he, journal_push, hb]
    · rw [he, journal_awaitKey, journal_push, hb]

theorem journal_resume (b : Board) (r : KeyRequest) :
    (b.resume r).1.devices.journal = b.devices.journal := by
  rw [resume_eq]
  cases b.devices.keypad.verdict r.wait <;> rfl

end Board

end Chip8
