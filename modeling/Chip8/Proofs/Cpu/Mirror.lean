import Chip8.Proofs.Cpu.Devices

namespace Chip8

def Screen.breaks (s : Screen) (n : Nat) : Option Crash :=
  match s.flaw with
  | some f => if s.received.length + n + 1 = f.frame then some f.crash else none
  | none => none

theorem Screen.breaks_present {s s' : Screen} (h : s.breaks = s'.breaks) (p : Picture) :
    (s.present p).breaks = (s'.present p).breaks := by
  have hnext (s : Screen) (n : Nat) : (s.present p).breaks n = s.breaks (n + 1) := by
    have hlength : (s.present p).received.length + n + 1 = s.received.length + (n + 1) + 1 := by
      simp only [present, List.length_cons]
      omega
    rw [breaks, breaks, hlength]
    rfl
  funext n
  rw [hnext, hnext, h]

def RandomTape.ahead (t : RandomTape) (n : Nat) : UInt8 := { t with drawn := t.drawn + n }.next

theorem RandomTape.ahead_advance {t t' : RandomTape} (h : t.ahead = t'.ahead) :
    t.advance.ahead = t'.advance.ahead := by
  have hnext (t : RandomTape) (n : Nat) : t.advance.ahead n = t.ahead (n + 1) := by
    have hdrawn : t.drawn + 1 + n = t.drawn + (n + 1) := by omega
    simp only [ahead, advance, next, hdrawn]
  funext n
  rw [hnext, hnext, h]

namespace Devices

/-- A relation of devices, and of the requests made to their keypads, that no processor can tell from
equality, but by reading the delay timer. -/
structure Mirror (R : Devices → Devices → Prop) (Q : KeyRequest → KeyRequest → Prop) : Prop where
  note : ∀ {d d'} {x : Event}, R d d' → x.isOfStep = true → R (d.note x) (d'.note x)
  held : ∀ {d d'}, R d d' → d.keypad.held = d'.keypad.held
  interrupted : ∀ {d d'}, R d d' → d.keypad.interrupted = d'.keypad.interrupted
  asleep : ∀ {d d'}, R d d' → ∀ asleep,
    R { d with keypad := { d.keypad with asleep } } { d' with keypad := { d'.keypad with asleep } }
  waiting : ∀ {d d'}, R d d' → ∀ waiting,
    R { d with keypad := { d.keypad with waiting } } { d' with keypad := { d'.keypad with waiting } }
  ask : ∀ {d d'}, R d d' → ∀ x, Q ⟨⟨d.keypad.presses⟩, x⟩ ⟨⟨d'.keypad.presses⟩, x⟩
  verdict : ∀ {d d' r r'}, R d d' → Q r r' →
    d.keypad.verdict r.wait = d'.keypad.verdict r'.wait ∧ r.register = r'.register
  random : ∀ {d d'}, R d d' → d.random.next = d'.random.next ∧
    R { d with random := d.random.advance } { d' with random := d'.random.advance }
  setDelay : ∀ {d d'}, R d d' → ∀ v,
    R { d with timers := d.timers.setDelay v } { d' with timers := d'.timers.setDelay v }
  setSound : ∀ {d d'}, R d d' → ∀ v, (d.timers.setSound v).2 = (d'.timers.setSound v).2 ∧
    R { d with timers := (d.timers.setSound v).1 } { d' with timers := (d'.timers.setSound v).1 }
  present : ∀ {d d'}, R d d' → ∀ p, d.screen.crash? = d'.screen.crash? ∧
    R { d with screen := d.screen.present p } { d' with screen := d'.screen.present p }

end Devices

inductive Outcome.Mirrors (Q : KeyRequest → KeyRequest → Prop) : Outcome → Outcome → Prop
  | done : Mirrors Q .done .done
  | failed (f : Fault) : Mirrors Q (.failed f) (.failed f)
  | crashed (c : Crash) : Mirrors Q (.crashed c) (.crashed c)
  | waiting {r r' : KeyRequest} : Q r r' → Mirrors Q (.waiting r) (.waiting r')

namespace Board

structure Mirrors (R : Devices → Devices → Prop) (Q : KeyRequest → KeyRequest → Prop)
    (r r' : Board × Outcome) : Prop where
  cpu : r.1.cpu = r'.1.cpu
  devices : R r.1.devices r'.1.devices
  outcome : r.2.Mirrors Q r'.2

variable {R : Devices → Devices → Prop} {Q : KeyRequest → KeyRequest → Prop}
variable {d d' : Devices}

theorem mirrors_done (h : R d d') (c : Cpu) :
    Mirrors R Q (⟨c, d⟩, .done) (⟨c, d'⟩, .done) := ⟨rfl, h, .done⟩

theorem mirrors_finish {r r' : Board × Outcome} (h : Mirrors R Q r r') :
    Mirrors R Q (finish r) (finish r') := by
  obtain ⟨⟨c, d⟩, o⟩ := r
  obtain ⟨⟨c', d'⟩, o'⟩ := r'
  obtain ⟨hc, hd, ho⟩ := h
  obtain rfl : c = c' := hc
  cases ho with
  | done => exact ⟨rfl, hd, .done⟩
  | failed f => exact ⟨rfl, hd, .failed f⟩
  | crashed x => exact ⟨rfl, hd, .crashed x⟩
  | waiting hr => exact ⟨rfl, hd, .waiting hr⟩

variable (hR : Devices.Mirror R Q)

include hR

theorem poll_mirror (h : R d d') (key : UInt8) :
    (d.poll key).2 = (d'.poll key).2 ∧ R (d.poll key).1 (d'.poll key).1 := by
  constructor
  · simp only [Devices.poll, Keypad.isPressed, hR.held h]
  · unfold Devices.poll
    dsimp only
    split
    · exact h
    · exact hR.note h rfl

theorem watch_mirror (h : R d d') (waiting asleep : Bool) :
    R { d with keypad := { d.keypad with waiting, asleep } }
      { d' with keypad := { d'.keypad with waiting, asleep } } :=
  hR.asleep (hR.waiting h waiting) asleep

theorem mirrors_awaitKey (h : R d d') (c : Cpu) (x : Nibble) :
    Mirrors R Q (awaitKey ⟨c, d⟩ x) (awaitKey ⟨c, d'⟩ x) := by
  rw [awaitKey_eq, awaitKey_eq, hR.interrupted h]
  split
  · exact ⟨rfl, watch_mirror hR h false false, .failed _⟩
  · exact ⟨rfl, watch_mirror hR h true true, .waiting (hR.ask h x)⟩

theorem mirrors_resume (h : R d d') (c : Cpu) {r r' : KeyRequest} (hr : Q r r') :
    Mirrors R Q (resume ⟨c, d⟩ r) (resume ⟨c, d'⟩ r') := by
  obtain ⟨hv, hreg⟩ := hR.verdict h hr
  rw [resume_eq, resume_eq, hv, hreg]
  cases d'.keypad.verdict r'.wait with
  | pending => exact ⟨rfl, hR.asleep h true, .waiting hr⟩
  | interrupted => exact ⟨rfl, watch_mirror hR h false false, .failed _⟩
  | released key => exact ⟨rfl, watch_mirror hR h false false, .done⟩

theorem mirrors_push (h : R d d') (c : Cpu) :
    (push ⟨c, d⟩).2 = (push ⟨c, d'⟩).2 ∧ (push ⟨c, d⟩).1.cpu = (push ⟨c, d'⟩).1.cpu ∧
      R (push ⟨c, d⟩).1.devices (push ⟨c, d'⟩).1.devices := by
  obtain ⟨hcrash, hshown⟩ := hR.present h c.framebuffer.picture
  cases hd : c.framebuffer.dirty with
  | false =>
    rw [push_of_clean (b := ⟨c, d⟩) hd, push_of_clean (b := ⟨c, d'⟩) hd]
    exact ⟨rfl, rfl, h⟩
  | true =>
    cases hc : d.screen.crash? with
    | none =>
      rw [push_of_dirty (b := ⟨c, d⟩) hd hc, push_of_dirty (b := ⟨c, d'⟩) hd (hcrash ▸ hc)]
      exact ⟨rfl, rfl, hshown⟩
    | some x =>
      rw [push_of_crash (b := ⟨c, d⟩) hd hc, push_of_crash (b := ⟨c, d'⟩) hd (hcrash ▸ hc)]
      exact ⟨rfl, rfl, hshown⟩

theorem mirrors_execute (h : R d d') (c : Cpu) (ins : Instruction)
    (hdelay : ins.opcode = .readDelay → d.timers.delay = d'.timers.delay) :
    Mirrors R Q (execute ⟨c, d⟩ ins) (execute ⟨c, d'⟩ ins) := by
  cases ho : ins.opcode
  case ret =>
    rw [execute_ret ho, execute_ret ho]
    dsimp only
    split
    · exact mirrors_done h _
    · exact ⟨rfl, h, .failed _⟩
  case call =>
    rw [execute_call ho, execute_call ho]
    dsimp only
    split
    · exact mirrors_done h _
    · exact ⟨rfl, h, .failed _⟩
  case awaitKey =>
    simp only [execute, ho]
    exact mirrors_awaitKey hR h c ins.x
  case random =>
    obtain ⟨hnext, hadvance⟩ := hR.random h
    simp only [execute, ho, random, hnext]
    exact mirrors_done hadvance _
  case skipPressed | skipReleased =>
    obtain ⟨hpressed, hpoll⟩ := poll_mirror hR h c.v[ins.x]
    simp only [execute, ho, skipOnKey, hpressed]
    exact mirrors_done hpoll _
  case readDelay =>
    simp only [execute, ho, hdelay ho]
    exact mirrors_done h _
  case setDelay =>
    simp only [execute, ho]
    exact mirrors_done (hR.setDelay h _) c
  case setSound =>
    obtain ⟨hcrash, hset⟩ := hR.setSound h c.v[ins.x]
    simp only [execute, ho, setSound, hcrash]
    refine ⟨rfl, hset, ?_⟩
    cases (d'.timers.setSound c.v[ins.x]).2 with
    | none => exact .done
    | some x => exact .crashed x
  all_goals
    simp only [execute, ho]
    exact mirrors_done h _

theorem mirrors_step (h : R d d') (c : Cpu)
    (hdelay : c.opcode? = some .readDelay → d.timers.delay = d'.timers.delay) :
    Mirrors R Q (step ⟨c, d⟩) (step ⟨c, d'⟩) := by
  cases hi : c.instruction? with
  | none =>
    rw [step_of_data (b := ⟨c, d⟩) hi, step_of_data (b := ⟨c, d'⟩) hi]
    exact mirrors_done (hR.note h rfl) _
  | some ins =>
    have hnote : R (begun ⟨c, d⟩ ins).devices (begun ⟨c, d'⟩ ins).devices := hR.note h rfl
    by_cases ho : ins.opcode = .awaitKey
    · have hpush : (begun ⟨c, d⟩ ins).push.2 = (begun ⟨c, d'⟩ ins).push.2 ∧
          (begun ⟨c, d⟩ ins).push.1.cpu = (begun ⟨c, d'⟩ ins).push.1.cpu ∧
          R (begun ⟨c, d⟩ ins).push.1.devices (begun ⟨c, d'⟩ ins).push.1.devices :=
        mirrors_push hR hnote c
      rw [step_of_awaitKey (b := ⟨c, d⟩) hi ho, step_of_awaitKey (b := ⟨c, d'⟩) hi ho]
      revert hpush
      generalize (begun ⟨c, d⟩ ins).push = p
      generalize (begun ⟨c, d'⟩ ins).push = p'
      obtain ⟨⟨c₁, d₁⟩, crash⟩ := p
      obtain ⟨⟨c₁', d₁'⟩, crash'⟩ := p'
      rintro ⟨hcrash, hcpu, hdev⟩
      obtain rfl : crash = crash' := hcrash
      obtain rfl : c₁ = c₁' := hcpu
      cases crash with
      | some x => exact ⟨rfl, hdev, .crashed x⟩
      | none => exact mirrors_awaitKey hR hdev c₁ ins.x
    · rw [step_of_ne_awaitKey (b := ⟨c, d⟩) hi ho, step_of_ne_awaitKey (b := ⟨c, d'⟩) hi ho]
      refine mirrors_finish (mirrors_execute hR hnote c ins fun hread => ?_)
      exact hdelay (by rw [Cpu.opcode?_of_instruction? hi, hread])

end Board

end Chip8
