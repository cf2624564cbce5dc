import Chip8.Proofs.Cpu.Effect

namespace Chip8.Board

structure Spared (o : Opcode) (b b' : Board) : Prop where
  pc : b'.cpu.pc = b.cpu.pc
  i : b'.cpu.i = b.cpu.i
  v : b'.cpu.v = b.cpu.v
  stack : b'.cpu.stack = b.cpu.stack
  memory : b'.cpu.memory = b.cpu.memory
  clip : b'.cpu.clip = b.cpu.clip
  picture : b'.cpu.framebuffer.picture = b.cpu.framebuffer.picture
  timers : b'.devices.timers = b.devices.timers
  random : b'.devices.random = b.devices.random
  journal : ∃ e, e.level = .trace ∧ b'.devices.journal = b.devices.journal.note e
  sp : b'.cpu.sp = if o = .call then b.cpu.sp + 1 else b.cpu.sp
  dirty : b'.cpu.framebuffer.dirty = if o = .awaitKey then false else b.cpu.framebuffer.dirty
  screen : b'.devices.screen =
    if o = .awaitKey ∧ b.cpu.framebuffer.dirty = true then
      b.devices.screen.present b.cpu.framebuffer.picture
    else b.devices.screen

theorem push_snd_of_sound {b : Board} (hs : b.devices.screen.crash? = none) : b.push.2 = none := by
  cases hd : b.cpu.framebuffer.dirty with
  | false => rw [push_of_clean hd]
  | true => rw [push_of_dirty hd hs]

theorem spared_push {b : Board} (ins : Instruction) (hs : b.devices.screen.crash? = none) :
    Spared .awaitKey b (b.begun ins).push.1 := by
  cases hd : b.cpu.framebuffer.dirty with
  | false =>
    rw [push_of_clean (b := b.begun ins) hd]
    constructor
    case journal => exact ⟨_, rfl, rfl⟩
    all_goals simp [begun, note, Devices.note, hd]
  | true =>
    rw [push_of_dirty (b := b.begun ins) hd hs]
    constructor
    case journal => exact ⟨_, rfl, rfl⟩
    all_goals simp [begun, note, Devices.note, hd]

theorem Spared.withKeypad {o : Opcode} {b b' : Board} (h : Spared o b b') (k : Keypad) :
    Spared o b { b' with devices := { b'.devices with keypad := k } } :=
  { h with }

theorem spared_awaitKey {b : Board} (h : b.cpu.opcode? = some .awaitKey)
    (hs : b.devices.screen.crash? = none) :
    Spared .awaitKey b b.step.1 ∧ b.step.1.devices.keypad =
      { b.devices.keypad with
        waiting := !b.devices.keypad.interrupted
        asleep := !b.devices.keypad.interrupted } := by
  obtain ⟨ins, hi, ho⟩ := Cpu.opcode?_eq_some_iff.1 h
  have hk : (b.begun ins).push.1.devices.keypad = b.devices.keypad := keypad_push _
  have hp := spared_push ins hs
  rw [step_awaitKey hi ho (push_snd_of_sound hs), awaitKey_eq, hk]
  cases b.devices.keypad.interrupted with
  | true => exact ⟨hp.withKeypad _, rfl⟩
  | false => exact ⟨hp.withKeypad _, rfl⟩

theorem spared_ret {b : Board} (h : b.cpu.opcode? = some .ret) (hge : ¬ b.cpu.sp.toNat < 16) :
    Spared .ret b b.step.1 ∧ b.step.1.devices.keypad = b.devices.keypad := by
  obtain ⟨ins, he⟩ := step_ret_overflow h hge
  rw [he]
  refine ⟨?_, rfl⟩
  constructor
  case journal => exact ⟨_, rfl, rfl⟩
  all_goals simp [begun, note, Devices.note]

theorem spared_call {b : Board} (h : b.cpu.opcode? = some .call)
    (hge : ¬ (b.cpu.sp + 1).toNat < 16) :
    Spared .call b b.step.1 ∧ b.step.1.devices.keypad = b.devices.keypad := by
  obtain ⟨ins, he⟩ := step_call_overflow h hge
  rw [he]
  refine ⟨?_, rfl⟩
  constructor
  case journal => exact ⟨_, rfl, rfl⟩
  all_goals simp [begun, note, Devices.note, Cpu.push]

theorem step_snd_ne_crashed {b : Board} (hs : b.devices.screen.crash? = none)
    (hk : b.devices.timers.speaker.flaw = none) (c : Crash) : b.step.2 ≠ .crashed c := by
  intro hc
  have he := b.ends_step
  rw [hc] at he
  cases he with
  | screen ho hp =>
    rw [push_snd_of_sound hs] at hp
    cases hp
  | speaker hf =>
    rw [hk] at hf
    cases hf

theorem run_succ_of_done {b b₀ : Board} (h : b.step = (b₀, .done)) (n : Nat) :
    b.run (n + 1) = b₀.run n := by
  rw [run, h]

theorem run_succ_of_not_done {b : Board} (h : b.step.2 ≠ .done) (n : Nat) :
    ∃ rest, b.run (n + 1) = (b.step.1, rest) ∧ rest ≠ .finished ∧
      ∀ f, rest = .failed f ↔ b.step.2 = .failed f := by
  cases hb : b.step with
  | mk b₀ o =>
    rw [hb] at h
    cases o with
    | done => exact absurd rfl h
    | failed f => exact ⟨.failed f, by rw [run, hb], nofun, by simp⟩
    | crashed c => exact ⟨.crashed c, by rw [run, hb], nofun, by simp⟩
    | waiting r => exact ⟨.waiting r n, by rw [run, hb], nofun, by simp⟩

theorem run_failed_iff {n : Nat} {b b' : Board} {f : Fault} :
    b.run n = (b', .failed f) ↔
      ∃ k < n, ∃ b₁, b.run k = (b₁, .finished) ∧ b₁.step = (b', .failed f) := by
  induction n generalizing b with
  | zero => simp [run]
  | succ n ih =>
    by_cases hd : b.step.2 = .done
    · have hb : b.step = (b.step.1, .done) := Prod.ext rfl hd
      have hrun := run_succ_of_done hb
      rw [hrun, ih]
      constructor
      · rintro ⟨k, hk, b₁, hr, hs⟩
        exact ⟨k + 1, Nat.succ_lt_succ hk, b₁, (hrun k).trans hr, hs⟩
      · rintro ⟨k, hk, b₁, hr, hs⟩
        cases k with
        | zero =>
          obtain rfl : b = b₁ := congrArg Prod.fst hr
          rw [hs] at hd
          cases hd
        | succ k => exact ⟨k, Nat.lt_of_succ_lt_succ hk, b₁, (hrun k).symm.trans hr, hs⟩
    · constructor
      · intro hr
        obtain ⟨rest, hrun, -, hrest⟩ := run_succ_of_not_done hd n
        rw [hrun, Prod.mk.injEq] at hr
        exact ⟨0, Nat.succ_pos n, b, rfl, Prod.ext hr.1 ((hrest f).1 hr.2)⟩
      · rintro ⟨k, hk, b₁, hr, hs⟩
        cases k with
        | zero =>
          obtain rfl : b = b₁ := congrArg Prod.fst hr
          obtain ⟨rest, hrun, -, hrest⟩ := run_succ_of_not_done hd n
          rw [hrun, (hrest f).2 (congrArg Prod.snd hs), hs]
        | succ k =>
          obtain ⟨rest, hrun, hne, -⟩ := run_succ_of_not_done hd k
          rw [hrun, Prod.mk.injEq] at hr
          exact absurd hr.2 hne

theorem closeBlock_failed_iff {r : Board × Rest} {b' : Board} {f : Fault} :
    closeBlock r = (b', .failed f) ↔ r = (b', .failed f) := by
  obtain ⟨b, rest⟩ := r
  cases rest with
  | finished =>
    rw [closeBlock]
    cases b.push with
    | mk b₀ c => cases c <;> simp
  | failed g => exact Iff.rfl
  | crashed c => exact Iff.rfl
  | waiting r n => exact Iff.rfl

theorem resumeRun_failed_iff {r : KeyRequest} {n : Nat} {b b' : Board} {f : Fault} :
    resumeRun r n b = (b', .failed f) ↔
      b.resume r = (b', .failed f) ∨
        ∃ b₀, b.resume r = (b₀, .done) ∧ b₀.run n = (b', .failed f) := by
  rw [resumeRun]
  cases b.resume r with
  | mk b₀ o => cases o <;> simp

theorem resume_snd_ne_crashed (b : Board) (r : KeyRequest) (c : Crash) :
    (b.resume r).2 ≠ .crashed c := by
  rw [resume_eq]
  cases b.devices.keypad.verdict r.wait <;> exact nofun

theorem resume_of_failed {b : Board} {r : KeyRequest} {f : Fault}
    (h : (b.resume r).2 = .failed f) :
    (b.resume r).1 = { b with devices := { b.devices with
      keypad := { b.devices.keypad with waiting := false, asleep := false } } } := by
  rw [resume_eq] at h ⊢
  cases hv : b.devices.keypad.verdict r.wait with
  | interrupted => rfl
  | pending => rw [hv] at h; cases h
  | released key => rw [hv] at h; cases h

theorem resume_of_waiting {b : Board} {r r' : KeyRequest} (h : (b.resume r).2 = .waiting r') :
    b.resume r =
      ({ b with devices := { b.devices with
          keypad := { b.devices.keypad with asleep := true } } }, .waiting r) := by
  rw [resume_eq] at h ⊢
  cases hv : b.devices.keypad.verdict r.wait with
  | pending => rfl
  | interrupted => rw [hv] at h; cases h
  | released key => rw [hv] at h; cases h

theorem resume_failed_iff {b : Board} {r : KeyRequest} {f : Fault} :
    (b.resume r).2 = .failed f ↔ b.devices.keypad.interrupted = true ∧ f = .interrupted := by
  rw [resume_eq, Keypad.verdict]
  cases b.devices.keypad.interrupted with
  | true => simp [eq_comm]
  | false =>
    by_cases hp : b.devices.keypad.presses = r.wait.seen
    · simp [hp]
    · simp [hp]

theorem spared_of_failed {b : Board} {f : Fault} (hs : b.devices.screen.crash? = none)
    (hf : b.step.2 = .failed f) :
    ∃ o, b.cpu.opcode? = some o ∧ Spared o b b.step.1 ∧
      b.step.1.devices.keypad =
        if o = .awaitKey then { b.devices.keypad with waiting := false, asleep := false }
        else b.devices.keypad := by
  obtain ⟨ho, hge, -⟩ | ⟨ho, hge, -⟩ | ⟨ho, -, hi, -⟩ := step_failed_iff.1 hf
  · exact ⟨.ret, ho, spared_ret ho hge⟩
  · exact ⟨.call, ho, spared_call ho hge⟩
  · obtain ⟨hsp, hk⟩ := spared_awaitKey ho hs
    rw [hi] at hk
    exact ⟨.awaitKey, ho, hsp, hk⟩

theorem spared_of_waiting {b : Board} {r : KeyRequest} (hs : b.devices.screen.crash? = none)
    (hw : b.step.2 = .waiting r) :
    b.cpu.opcode? = some .awaitKey ∧ Spared .awaitKey b b.step.1 ∧
      b.step.1.devices.keypad = { b.devices.keypad with waiting := true, asleep := true } := by
  have he := b.ends_step
  rw [hw] at he
  cases he with
  | waiting r ho hp hi =>
    obtain ⟨hsp, hk⟩ := spared_awaitKey ho hs
    rw [hi] at hk
    exact ⟨ho, hsp, hk⟩

theorem failures_are_classified (b : Board) (hs : b.devices.screen.crash? = none)
    (hk : b.devices.timers.speaker.flaw = none) :
    (∀ c, b.step.2 ≠ .crashed c) ∧
      (∀ f, b.step.2 = .failed f ↔
        b.cpu.opcode? = some .ret ∧ 16 ≤ b.cpu.sp.toNat ∧
            f = .stackOverflow b.cpu.sp b.cpu.pc ∨
          b.cpu.opcode? = some .call ∧ 16 ≤ (b.cpu.sp + 1).toNat ∧
            f = .stackOverflow (b.cpu.sp + 1) b.cpu.pc ∨
          b.cpu.opcode? = some .awaitKey ∧ b.devices.keypad.interrupted = true ∧
            f = .interrupted) ∧
      (∀ f, b.step.2 = .failed f →
        ∃ o, b.cpu.opcode? = some o ∧ Spared o b b.step.1 ∧
          b.step.1.devices.keypad =
            if o = .awaitKey then { b.devices.keypad with waiting := false, asleep := false }
            else b.devices.keypad) ∧
      (∀ r, b.step.2 = .waiting r →
        (b.cpu.opcode? = some .awaitKey ∧ Spared .awaitKey b b.step.1 ∧
          b.step.1.devices.keypad = { b.devices.keypad with waiting := true, asleep := true }) ∧
        ∀ d : Devices, let w : Board := ⟨b.step.1.cpu, d⟩
          (∀ c, (w.resume r).2 ≠ .crashed c) ∧
            (∀ f, (w.resume r).2 = .failed f ↔
              d.keypad.interrupted = true ∧ f = .interrupted) ∧
            (∀ f, (w.resume r).2 = .failed f → (w.resume r).1 =
              { w with devices := { d with
                  keypad := { d.keypad with waiting := false, asleep := false } } }) ∧
            ∀ r', (w.resume r).2 = .waiting r' → w.resume r =
              ({ w with devices := { d with keypad := { d.keypad with asleep := true } } },
                .waiting r)) ∧
      (∀ n b' f, b.runBlock n = (b', .failed f) ↔
        ∃ k < n, ∃ b₁, b.run k = (b₁, .finished) ∧ b₁.step = (b', .failed f)) ∧
      ∀ r n b' f, b.resumeBlock r n = (b', .failed f) ↔
        b.resume r = (b', .failed f) ∨
          ∃ b₀, b.resume r = (b₀, .done) ∧
            ∃ k < n, ∃ b₁, b₀.run k = (b₁, .finished) ∧ b₁.step = (b', .failed f) := by
  refine ⟨step_snd_ne_crashed hs hk, fun f => ?_, fun f => spared_of_failed hs, fun r hw => ?_,
    fun n b' f => ?_, fun r n b' f => ?_⟩
  · simp only [step_failed_iff, push_snd_of_sound hs, true_and, Nat.not_lt]
  · refine ⟨spared_of_waiting hs hw, fun d => ?_⟩
    exact ⟨resume_snd_ne_crashed _ r, fun f => resume_failed_iff, fun f => resume_of_failed,
      fun r' => resume_of_waiting⟩
  · rw [runBlock, closeBlock_failed_iff, run_failed_iff]
  · simp only [resumeBlock, closeBlock_failed_iff, resumeRun_failed_iff, run_failed_iff]

def brimful : Board :=
  ⟨{ memory := Memory.blank.write 0x200 0x22, sp := 15 }, {}⟩

theorem brimful_call_fails :
    brimful.devices.screen.crash? = none ∧ brimful.devices.timers.speaker.flaw = none ∧
      brimful.step.2 = .failed (.stackOverflow 16 0x200) ∧ brimful.step.1.cpu.sp = 16 := by
  have hs : brimful.devices.screen.crash? = none := rfl
  have hk : brimful.devices.timers.speaker.flaw = none := rfl
  have hop : brimful.cpu.opcode? = some .call := by decide +kernel
  obtain ⟨-, hfail, hspared, -⟩ := failures_are_classified brimful hs hk
  have hf : brimful.step.2 = .failed (.stackOverflow 16 0x200) :=
    (hfail _).2 (.inr (.inl ⟨hop, by decide, rfl⟩))
  obtain ⟨o, ho, hsp, -⟩ := hspared _ hf
  obtain rfl : .call = o := Option.some.inj (hop.symm.trans ho)
  exact ⟨hs, hk, hf, hsp.sp⟩

end Chip8.Board
