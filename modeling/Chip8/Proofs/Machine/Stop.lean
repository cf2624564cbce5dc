import Chip8.Proofs.Machine.Coherent

namespace Chip8

def Clock.remaining (k : Clock) (due firing : Nat) : Nat :=
  match k.stage with
  | .due => due
  | .firing => firing
  | .resting => 1
  | .ended => 0

theorem Clock.remaining_finish_le {k : Clock} (h : k.stage = .firing) (x : Ending)
    (due firing : Nat) : (k.finish x).1.remaining due firing ≤ 1 := by
  rw [Clock.remaining, (stage_finish h x).2]
  by_cases hx : x = .ok <;> simp [hx]

theorem Board.KeptBut.cpu {b b' : Board} (h : b.KeptBut b') :
    b'.cpu = { b.cpu with framebuffer := b'.cpu.framebuffer } :=
  congrArg Board.cpu h

theorem Board.step_of_interrupted {b : Board} (hi : b.devices.keypad.interrupted = true)
    (ho : b.cpu.opcode? = some .awaitKey) (hp : b.push.2 = none) :
    ∃ b' : Board, b.step = (b', .failed .interrupted) ∧
      b'.cpu = { b.cpu with framebuffer := b'.cpu.framebuffer } := by
  have hs : b.step.2 = .failed .interrupted := step_failed_iff.2 (.inr (.inr ⟨ho, hp, hi, rfl⟩))
  obtain ⟨ins, hins, ho⟩ := Cpu.opcode?_eq_some_iff.1 ho
  exact ⟨b.step.1, by rw [← hs], (keptBut_step hins ho).cpu⟩

namespace Engine

def AtKeyWait (e : Engine) : Prop :=
  e.request ≠ none ∨
    e.instructionClock.stage = .firing ∧ e.left ≠ 0 ∧ e.cpu.opcode? = some .awaitKey

def remaining (e : Engine) (block : Nat) : ClockName → Nat
  | .instruction => e.instructionClock.remaining (block + 3) (e.left + 2)
  | .timer => e.timerClock.remaining 2 2

variable {e : Engine} {d : Devices}

theorem interrupted_progress (e : Engine) (d : Devices) :
    (e.progress d).board.devices.keypad.interrupted = d.keypad.interrupted := by
  obtain ⟨waiting, asleep, hk⟩ := e.keypad_progress d
  rw [hk]

theorem resume_of_interrupted (h : d.keypad.interrupted = true) (c : Cpu) (r : KeyRequest) :
    Board.resume ⟨c, d⟩ r =
      (⟨c, { d with keypad := { d.keypad with waiting := false, asleep := false } }⟩,
        .failed .interrupted) := by
  have hv : d.keypad.verdict r.wait = .interrupted := if_pos h
  rw [Board.resume_eq]
  simp only [hv]

theorem left_progress_lt (hi : d.keypad.interrupted = true) (hn : (e.progress d).ending = none) :
    (e.progress d).left < e.left := by
  unfold progress at hn ⊢
  cases hr : e.request with
  | some r =>
    simp only [hr, resume_of_interrupted hi, Progress.ofStep, reduceCtorEq] at hn
  | none =>
    cases hl : e.left with
    | zero => simp only [hr, hl, reduceCtorEq] at hn
    | succ left => exact Nat.lt_succ_of_le (Progress.left_ofStep_le ..)

theorem request_progress_of_interrupted (hi : d.keypad.interrupted = true) :
    (e.progress d).request = none := by
  unfold progress
  cases hr : e.request with
  | some r => simp only [resume_of_interrupted hi, Progress.ofStep]
  | none =>
    cases e.left with
    | zero => rfl
    | succ left =>
      have hends := Board.ends_step ⟨e.cpu, d⟩
      rw [← Option.not_isSome_iff_eq_none, Progress.isSome_request_ofStep]
      cases ho : (Board.step ⟨e.cpu, d⟩).2 with
      | done | failed | crashed => nofun
      | waiting r =>
        rw [ho] at hends
        cases hends with
        | waiting _ _ _ hfalse => cases hi.symm.trans hfalse

theorem progress_of_atKeyWait (hi : d.keypad.interrupted = true) (hw : e.AtKeyWait)
    (hp : e.request = none → (Board.push ⟨e.cpu, d⟩).2 = none) :
    (e.progress d).ending = some (.failed .interrupted) ∧
      (e.progress d).board.cpu =
        { e.cpu with framebuffer := (e.progress d).board.cpu.framebuffer } := by
  unfold progress
  cases hr : e.request with
  | some r =>
    simp only [resume_of_interrupted hi]
    exact ⟨rfl, rfl⟩
  | none =>
    obtain hn | ⟨-, hl, ho⟩ := hw
    · exact absurd hr hn
    · obtain ⟨left, hl⟩ := Nat.exists_eq_succ_of_ne_zero hl
      obtain ⟨b, hb, hc⟩ := Board.step_of_interrupted (b := ⟨e.cpu, d⟩) hi ho (hp hr)
      simp only [hl, hb]
      exact ⟨rfl, hc⟩

end Engine

namespace Machine

def Act.isPlain (a : Act) : Bool :=
  !a.starts && a.outer? ≠ some (.happen (.keypad .resume))

def Cancelled (m : Machine) (c : ClockName) : Prop :=
  ∀ e ∈ m.engine, (e.clock c).cancelled = true

structure Halting (m : Machine) : Prop where
  interrupted : m.devices.keypad.interrupted = true
  cancelled : ∀ c, m.Cancelled c

/-- Inside of a wait the instruction clock sleeps, or goes to sleep with its next move. -/
def Blocked (m : Machine) : Prop :=
  ∃ e ∈ m.engine, ∃ r ∈ e.request,
    m.devices.keypad.asleep = true ∨ m.devices.keypad.verdict r.wait = .pending

def remaining (m : Machine) (c : ClockName) : Nat :=
  m.engine.elim 0 fun e => e.remaining m.options.block c

variable {m m' : Machine} {e e' : Engine} {a : Act} {c : ClockName}

theorem starts_of_isPlain (h : a.isPlain = true) : a.starts = false := by
  simpa using (Bool.and_eq_true_iff.1 h).1

theorem interrupted_undergo {d : Devices} {o : Outer} (h : a.outer? = some o)
    (ha : a.isPlain = true) (hi : d.keypad.interrupted = true) :
    (d.undergo o).keypad.interrupted = true := by
  match o with
  | .happen (.keypad (.set key down)) => exact (d.keypad.interrupted_apply (.set key down)).trans hi
  | .happen (.timers _) | .happen (.random _) | .wear _ | .rouse => exact hi
  | .happen (.keypad .interrupt) => rfl
  | .happen (.keypad .resume) => exact absurd h (of_decide_eq_true (Bool.and_eq_true_iff.1 ha).2)

theorem interrupted_act (ha : a.isPlain = true) (hi : m.devices.keypad.interrupted = true) :
    (m.act a).devices.keypad.interrupted = true := by
  cases h : m.engine with
  | none =>
    rw [act_of_stopped h (starts_of_isPlain ha)]
    cases ho : a.outer? with
    | none => exact hi
    | some o => exact interrupted_undergo ho ha hi
  | some e =>
    have hd := does_act h a
    revert hd
    generalize m.act a = m'
    intro hd
    cases hd with
    | nothing | begins | sleeps | cancels | closes => exact hi
    | outer ho => exact interrupted_undergo ho ha hi
    | proceeds hs =>
      rw [proceed, Devices.keypad_noteAll, Engine.interrupted_progress]
      exact hi
    | fires r hs hr =>
      rw [Devices.keypad_noteAll]
      exact hi
    | wakes c _ hs =>
      rw [Devices.keypad_noteAll]
      exact hi
    | stops => rfl

theorem cancelled_act (hm : m.Coherent) (ha : a.starts = false) (h : m.Cancelled c) :
    (m.act a).Cancelled c :=
  clock_act (P := fun k => k.cancelled = true)
    (fun _ _ _ hg => hg.cancelled_of_cancelled) hm ha h

theorem halting_act (hm : m.Coherent) (ha : a.isPlain = true) (h : m.Halting) :
    (m.act a).Halting :=
  ⟨interrupted_act ha h.interrupted,
    fun c => cancelled_act hm (starts_of_isPlain ha) (h.cancelled c)⟩

theorem halting_acts (hm : m.Coherent) {l : List Act} (hl : ∀ a ∈ l, a.isPlain = true)
    (h : m.Halting) : (m.acts l).Halting := by
  induction l generalizing m with
  | nil => exact h
  | cons a l ih =>
    obtain ⟨ha, hrest⟩ := List.forall_mem_cons.1 hl
    exact ih (coherent_act hm a) hrest (halting_act hm ha h)

theorem asleep_of_halting (hm : m.Coherent) (h : m.Halting) : m.keypad.asleep = false :=
  hm.asleep.awake h.interrupted

theorem sleeps_of_halting (hm : m.Coherent) (h : m.Halting) (e : Engine) :
    e.sleeps m.keypad = false := by
  rw [Engine.sleeps, asleep_of_halting hm h, Bool.and_false]

theorem not_blocked_of_halting (hm : m.Coherent) (h : m.Halting) : ¬ m.Blocked := by
  rintro ⟨e, -, r, -, hasleep | hv⟩
  · exact absurd ((asleep_of_halting hm h).symm.trans hasleep) Bool.false_ne_true
  · rw [Keypad.verdict, if_pos h.interrupted] at hv
    cases hv

def Spent (m : Machine) (c : ClockName) : Prop :=
  ∀ e ∈ m.engine, (e.clock c).cancelled = true ∧ (e.clock c).stage ≠ .due

theorem spent_act (hm : m.Coherent) (ha : a.starts = false) (h : m.Spent c) : (m.act a).Spent c :=
  clock_act (P := fun k => k.cancelled = true ∧ k.stage ≠ .due)
    (fun _ _ _ hg hk => ⟨hg.cancelled_of_cancelled hk.1, hg.stage_ne_due hk.1 hk.2⟩) hm ha h

theorem firings_of_spent (hm : m.Coherent) {l : List Act} (hl : ∀ a ∈ l, a.starts = false)
    (h : m.Spent c) : m.firings c l = 0 := by
  induction l generalizing m with
  | nil => rfl
  | cons a l ih =>
    obtain ⟨ha, hrest⟩ := List.forall_mem_cons.1 hl
    have hb : ¬ m.begins c a = true := by
      intro hb
      obtain ⟨-, e, he, hs⟩ := begins_iff.1 hb
      exact (h e he).2 hs
    rw [firings, if_neg hb, ih (coherent_act hm a) hrest (spent_act hm ha h)]

theorem firings_le_one (hm : m.Coherent) {l : List Act} (hl : ∀ a ∈ l, a.starts = false)
    (h : m.Cancelled c) : m.firings c l ≤ 1 := by
  induction l generalizing m with
  | nil => exact Nat.zero_le 1
  | cons a l ih =>
    obtain ⟨ha, hrest⟩ := List.forall_mem_cons.1 hl
    have hc := cancelled_act hm ha h
    rw [firings]
    by_cases hb : m.begins c a = true
    · have hs : (m.act a).Spent c := fun e he => ⟨hc e he, stage_of_begins hb e he⟩
      have hnone := firings_of_spent (coherent_act hm a) hrest hs
      rw [if_pos hb]
      omega
    · rw [if_neg hb, Nat.zero_add]
      exact ih (coherent_act hm a) hrest hc

theorem remaining_of_engine (h : m.engine = some e) :
    m.remaining c = e.remaining m.options.block c := by
  rw [remaining, h]
  rfl

theorem remaining_of_stopped (h : m.engine = none) : m.remaining c = 0 := by
  rw [remaining, h]
  rfl

structure Advances (c : ClockName) (a : Act) (n n' : Nat) : Prop where
  le : n' ≤ n
  move : a = .move (clockMove c) → n' ≤ 1 ∨ n' < n
  wake : a = .move (wakeMove c) → n ≤ 1 → n' = 0

theorem Advances.of_lt {n n' : Nat} (h : n' < n) (hw : a ≠ .move (wakeMove c)) :
    Advances c a n n' :=
  ⟨Nat.le_of_lt h, fun _ => .inr h, fun ha => absurd ha hw⟩

theorem Advances.zero (n : Nat) : Advances c a n 0 :=
  ⟨Nat.zero_le n, fun _ => .inl (Nat.zero_le 1), fun _ _ => rfl⟩

theorem Advances.same {n : Nat} (hm : a ≠ .move (clockMove c)) (hw : a ≠ .move (wakeMove c)) :
    Advances c a n n :=
  ⟨Nat.le_refl n, fun ha => absurd ha hm, fun ha => absurd ha hw⟩

theorem advances_idle (he : e.Coherent m.options.block) (h : a.isIdle e = true) :
    Advances c a (e.remaining m.options.block c) (e.remaining m.options.block c) := by
  refine ⟨Nat.le_refl _, ?_, ?_⟩
  · rintro rfl
    refine .inl ?_
    have ht := he.timer
    cases c <;> simp only [Act.isIdle, clockMove, decide_eq_true_iff] at h <;>
      simp only [Engine.remaining, Clock.remaining] <;> split <;> simp_all
  · rintro rfl hle
    cases c <;> simp only [Act.isIdle, wakeMove, decide_eq_true_iff] at h <;>
      simp only [Engine.remaining, Clock.remaining] at hle ⊢ <;> split <;> simp_all

theorem advances_wake {c' : ClockName} (hc : (e.clock c').cancelled = true)
    (hs : (e.clock c').stage = .resting) (block : Nat) (c : ClockName) :
    Advances c (.move (wakeMove c')) (e.remaining block c)
      ((e.withClock c' (e.clock c').wake.1).remaining block c) := by
  rw [Clock.wake_of_resting hs, if_pos hc]
  cases c <;> cases c'
  case instruction.instruction | timer.timer => exact .zero _
  case instruction.timer | timer.instruction => exact .same nofun nofun

theorem remaining_progress_lt {d : Devices} (hi : d.keypad.interrupted = true)
    (hs : e.instructionClock.stage = .firing) (block : Nat) :
    ((e.progress d).clock e.instructionClock).1.remaining (block + 3) ((e.progress d).left + 2) <
      e.left + 2 := by
  rw [Engine.Progress.clock]
  cases hp : (e.progress d).ending with
  | some x => exact Nat.lt_of_le_of_lt (Clock.remaining_finish_le hs x _ _) (by omega)
  | none =>
    have hlt := Engine.left_progress_lt hi hp
    simp only [Clock.remaining, hs]
    omega

theorem advances_of_does (hm : m.Coherent) (hh : m.Halting) (h : m.engine = some e)
    (hd : Does m e a m') (c : ClockName) : Advances c a (m.remaining c) (m'.remaining c) := by
  have he := hm.engine e h
  rw [remaining_of_engine h]
  cases hd with
  | nothing hidle =>
    rw [remaining_of_engine h]
    exact advances_idle he hidle
  | @outer _ o ho =>
    rw [remaining_of_engine (m := { m with devices := m.devices.undergo o }) h]
    refine .same ?_ ?_ <;> rintro rfl <;> cases c <;> cases ho
  | begins hs =>
    rw [remaining_of_engine rfl]
    cases c with
    | instruction =>
      refine .of_lt ?_ nofun
      simp only [Engine.remaining, Clock.remaining, Clock.begin_of_due hs, hs]
      omega
    | timer => exact .same nofun nofun
  | sleeps _ ha => cases (sleeps_of_halting hm hh e).symm.trans ha
  | proceeds hs =>
    rw [remaining_of_engine rfl]
    cases c with
    | instruction =>
      refine .of_lt ?_ nofun
      have hn : e.remaining m.options.block .instruction = e.left + 2 := by
        simp only [Engine.remaining, Clock.remaining, hs]
      rw [hn]
      exact remaining_progress_lt hh.interrupted hs m.options.block
    | timer => exact .same nofun nofun
  | fires r hs hr =>
    rw [remaining_of_engine rfl]
    cases c with
    | instruction => exact .same nofun nofun
    | timer =>
      refine .of_lt ?_ nofun
      have hle := Clock.remaining_finish_le (k := { e.timerClock with stage := .firing }) rfl
        (.ofCrash m.devices.timers.tickCrash?) 2 2
      rw [← Clock.begin_of_due hs, ← hr] at hle
      simp only [Engine.remaining, Clock.remaining, hs] at hle ⊢
      omega
  | wakes c' ha hs =>
    rw [remaining_of_engine rfl]
    subst ha
    exact advances_wake (hh.cancelled c' e h) hs m.options.block c
  | cancels c' =>
    rw [remaining_of_engine rfl]
    cases c' <;> cases c <;> exact .same nofun nofun
  | stops =>
    rw [remaining_of_engine rfl]
    cases c <;> exact .same nofun nofun
  | closes =>
    rw [remaining_of_stopped rfl]
    exact .zero _

theorem advances_act (hm : m.Coherent) (hh : m.Halting) (ha : a.starts = false) (c : ClockName) :
    Advances c a (m.remaining c) ((m.act a).remaining c) := by
  cases h : m.engine with
  | none =>
    rw [remaining_of_stopped (engine_of_stopped h ha)]
    exact .zero _
  | some e => exact advances_of_does hm hh h (does_act h a) c

theorem remaining_acts_le (hm : m.Coherent) (hh : m.Halting) {l : List Act}
    (hl : ∀ a ∈ l, a.isPlain = true) (c : ClockName) :
    (m.acts l).remaining c ≤ m.remaining c := by
  induction l generalizing m with
  | nil => exact Nat.le_refl _
  | cons a l ih =>
    obtain ⟨ha, hrest⟩ := List.forall_mem_cons.1 hl
    exact Nat.le_trans (ih (coherent_act hm a) (halting_act hm ha hh) hrest)
      (advances_act hm hh (starts_of_isPlain ha) c).le

theorem remaining_acts_of_moves (hm : m.Coherent) (hh : m.Halting) {l : List Act}
    (hl : ∀ a ∈ l, a.isPlain = true) (c : ClockName) :
    (m.acts l).remaining c ≤ 1 ∨
      (m.acts l).remaining c + l.count (.move (clockMove c)) ≤ m.remaining c := by
  induction l generalizing m with
  | nil => exact .inr (Nat.le_refl _)
  | cons a l ih =>
    obtain ⟨ha, hrest⟩ := List.forall_mem_cons.1 hl
    have hadv := advances_act hm hh (starts_of_isPlain ha) c
    have hmono := remaining_acts_le (coherent_act hm a) (halting_act hm ha hh) hrest c
    obtain hle | hle := ih (coherent_act hm a) (halting_act hm ha hh) hrest
    · exact .inl hle
    · rw [acts_cons]
      by_cases hmove : a = .move (clockMove c)
      · obtain hone | hlt := hadv.move hmove
        · exact .inl (Nat.le_trans hmono hone)
        · subst hmove
          rw [List.count_cons_self]
          exact .inr (by omega)
      · rw [List.count_cons_of_ne hmove]
        exact .inr (Nat.le_trans hle hadv.le)

theorem remaining_acts_of_wake (hm : m.Coherent) (hh : m.Halting) {l : List Act}
    (hl : ∀ a ∈ l, a.isPlain = true) (hw : .move (wakeMove c) ∈ l) (h : m.remaining c ≤ 1) :
    (m.acts l).remaining c = 0 := by
  induction l generalizing m with
  | nil => cases hw
  | cons a l ih =>
    obtain ⟨ha, hrest⟩ := List.forall_mem_cons.1 hl
    have hadv := advances_act hm hh (starts_of_isPlain ha) c
    have hm' := coherent_act hm a
    have hh' := halting_act hm ha hh
    obtain rfl | hw := List.mem_cons.1 hw
    · have hz := hadv.wake rfl h
      have hle := remaining_acts_le hm' hh' hrest c
      rw [hz] at hle
      exact Nat.le_zero.1 hle
    · exact ih hm' hh' hrest hw (Nat.le_trans hadv.le h)

def needed (block : Nat) : ClockName → Nat
  | .instruction => block + 2
  | .timer => 1

theorem remaining_le_needed (hm : m.Coherent) (c : ClockName) :
    m.remaining c ≤ needed m.options.block c + 1 := by
  cases h : m.engine with
  | none =>
    rw [remaining_of_stopped h]
    exact Nat.zero_le _
  | some e =>
    have hleft := (hm.engine e h).left
    rw [remaining_of_engine h]
    cases c <;> simp only [Engine.remaining, Clock.remaining, needed] <;> split <;> omega

theorem stage_of_remaining (h : m.remaining c = 0) :
    ∀ e ∈ m.engine, (e.clock c).stage = .ended := by
  intro e he
  rw [remaining_of_engine he] at h
  cases c <;> simp only [Engine.remaining, Clock.remaining] at h <;> split at h <;>
    first | assumption | omega

theorem engine_close (h : ∀ c, m.remaining c = 0) : (m.act (.move .close)).engine = none := by
  cases he : m.engine with
  | none => exact engine_of_stopped he rfl
  | some e =>
    have hi : e.instructionClock.stage = .ended := stage_of_remaining (h .instruction) e he
    have ht : e.timerClock.stage = .ended := stage_of_remaining (h .timer) e he
    have hclose : m.act (.move .close) = m.close := rfl
    simp [hclose, close, he, Clock.isEnded, hi, ht]

/-- Both clocks get the moves they need, and then wake once more. -/
structure Suffices (block : Nat) (l₁ l₂ : List Act) : Prop where
  moves : ∀ c, needed block c ≤ l₁.count (.move (clockMove c))
  wakes : ∀ c, .move (wakeMove c) ∈ l₂

theorem engine_of_wakes (hm : m.Coherent) (hh : m.Halting) {l : List Act}
    (hl : ∀ a ∈ l, a.isPlain = true) (hw : ∀ c, .move (wakeMove c) ∈ l)
    (h : ∀ c, m.remaining c ≤ 1) : ((m.acts l).act (.move .close)).engine = none :=
  engine_close fun c => remaining_acts_of_wake hm hh hl (hw c) (h c)

theorem engine_of_suffices (hm : m.Coherent) (hh : m.Halting) {l₁ l₂ : List Act}
    (h₁ : ∀ a ∈ l₁, a.isPlain = true) (h₂ : ∀ a ∈ l₂, a.isPlain = true)
    (h : Suffices m.options.block l₁ l₂) :
    ((m.acts (l₁ ++ l₂)).act (.move .close)).engine = none := by
  rw [acts_append]
  refine engine_of_wakes (coherent_acts hm l₁) (halting_acts hm h₁ hh) h₂ h.wakes fun c => ?_
  have hneed := h.moves c
  have hle := remaining_le_needed hm c
  obtain hone | hsum := remaining_acts_of_moves hm hh h₁ c
  · exact hone
  · omega

theorem remaining_of_not_goesOn (hm : m.Coherent) (hh : m.Halting) (h : m.goesOn = false) :
    m.remaining .instruction ≤ 1 := by
  cases he : m.engine with
  | none =>
    rw [remaining_of_stopped he]
    exact Nat.zero_le 1
  | some e =>
    rw [remaining_of_engine he]
    cases hs : e.instructionClock.stage with
    | due => simp [goesOn, he, hs] at h
    | firing =>
      simp [goesOn, he, hs, sleeps_of_halting hm hh e] at h
    | resting | ended => simp [Engine.remaining, Clock.remaining, hs]

theorem exists_acts_goOn (n : Nat) (m : Machine) :
    ∃ k, goOn n m = m.acts (List.replicate k (.move .instruction)) ∧
      (k = n ∨ (goOn n m).goesOn = false) := by
  induction n generalizing m with
  | zero => exact ⟨0, rfl, .inl rfl⟩
  | succ n ih =>
    rw [goOn]
    split
    · obtain ⟨k, hk, hend⟩ := ih (m.move .instruction)
      exact ⟨k + 1, hk, hend.imp_left (congrArg (· + 1))⟩
    · next hg => exact ⟨0, rfl, .inr (Bool.eq_false_iff.2 hg)⟩

theorem isPlain_replicate (k : Nat) :
    ∀ a ∈ List.replicate k (.move .instruction : Act), a.isPlain = true := by
  intro a ha
  rw [List.eq_of_mem_replicate ha]
  rfl

theorem remaining_goOn (hm : m.Coherent) (hh : m.Halting) {n : Nat}
    (h : m.remaining .instruction ≤ n + 1) : (goOn n m).remaining .instruction ≤ 1 := by
  obtain ⟨k, hk, hend⟩ := exists_acts_goOn n m
  have hl := isPlain_replicate k
  obtain rfl | hend := hend
  · have hmoves := remaining_acts_of_moves hm hh hl .instruction
    rw [← hk, clockMove, List.count_replicate_self] at hmoves
    omega
  · refine remaining_of_not_goesOn ?_ ?_ hend
    · rw [hk]
      exact coherent_acts hm _
    · rw [hk]
      exact halting_acts hm hl hh

theorem engine_acts_of_stopped (h : m.engine = none) {l : List Act}
    (hl : ∀ a ∈ l, a.starts = false) : (m.acts l).engine = none := by
  induction l generalizing m with
  | nil => exact h
  | cons a l ih =>
    obtain ⟨ha, hrest⟩ := List.forall_mem_cons.1 hl
    exact ih (engine_of_stopped h ha) hrest

theorem halting_cancel (h : m.engine = some e) : (m.move .cancel).Halting := by
  have hc : m.move .cancel = { m with
      devices := { m.devices with keypad := m.devices.keypad.interrupt }
      engine := some { e with
        instructionClock := e.instructionClock.cancel
        timerClock := e.timerClock.cancel } } := by
    rw [move, Machine.cancel, h]
  rw [hc]
  refine ⟨rfl, fun c x hx => ?_⟩
  obtain rfl := Option.some.inj hx
  cases c <;> rfl

theorem halting_acts_cancel (hm : m.Coherent) (h : m.isRunning = true) {l : List Act}
    (hl : ∀ a ∈ l, a.isPlain = true) : (m.acts (.move .cancel :: l)).Halting := by
  obtain ⟨e, he⟩ := isRunning_iff.1 h
  exact halting_acts (coherent_act hm (.move .cancel)) hl (halting_cancel he)

theorem remaining_settle (hm : m.Coherent) (hh : m.Halting) (c : ClockName) :
    m.settle.remaining c ≤ 1 := by
  have hm' : (m.act (.move .timer)).Coherent := coherent_act hm _
  have hh' : (m.act (.move .timer)).Halting := halting_act hm rfl hh
  have hadv := advances_act hm hh (a := .move .timer) rfl
  have hneed := remaining_le_needed hm c
  cases c with
  | instruction => exact remaining_goOn hm' hh' (Nat.le_trans (hadv _).le hneed)
  | timer =>
    obtain ⟨k, hk, -⟩ := exists_acts_goOn (m.options.block + 2) (m.act (.move .timer))
    have hle := remaining_acts_le hm' hh' (isPlain_replicate k) .timer
    rw [← hk] at hle
    have htick := (hadv .timer).move rfl
    simp only [needed] at hneed
    exact Nat.le_trans hle (by omega)

theorem exists_acts_settle (m : Machine) :
    ∃ l, (∀ a ∈ l, a.isPlain = true) ∧ m.settle = m.acts l := by
  obtain ⟨k, hk, -⟩ := exists_acts_goOn (m.options.block + 2) (m.act (.move .timer))
  exact ⟨.move .timer :: List.replicate k (.move .instruction),
    List.forall_mem_cons.2 ⟨rfl, isPlain_replicate k⟩, hk⟩

theorem engine_stop (hm : m.Coherent) : m.stop.engine = none := by
  obtain ⟨l, hl, hsettle⟩ := exists_acts_settle (m.move .cancel)
  have hstop : m.stop = ((m.move .cancel).settle.acts
    [.move .wakeInstruction, .move .wakeTimer]).act (.move .close) := rfl
  rw [hstop]
  cases h : m.engine with
  | none =>
    have hs : (m.move .cancel).settle.engine = none := by
      rw [hsettle]
      exact engine_acts_of_stopped (engine_of_stopped (a := .move .cancel) h rfl)
        fun a ha => starts_of_isPlain (hl a ha)
    exact engine_of_stopped (engine_acts_of_stopped hs (by decide)) rfl
  | some e =>
    have hm' : (m.move .cancel).Coherent := coherent_act hm (.move .cancel)
    have hh' := halting_cancel h
    have hone := remaining_settle hm' hh'
    rw [hsettle] at hone ⊢
    refine engine_of_wakes (coherent_acts hm' l) (halting_acts hm' hl hh') (by decide) ?_ hone
    intro c
    cases c <;> decide

theorem coherent_stop (hm : m.Coherent) : m.stop.Coherent := by
  obtain ⟨l, -, hsettle⟩ := exists_acts_settle (m.move .cancel)
  have hstop : m.stop = (m.move .cancel).settle.acts
    [.move .wakeInstruction, .move .wakeTimer, .move .close] := rfl
  rw [hstop, hsettle]
  exact coherent_acts (coherent_acts (coherent_act hm (.move .cancel)) l) _

theorem start_of_refused (hm : m.Coherent) (h : m.engine = none) (image : List UInt8)
    (r : Clock.Refusal) :
    let n := m.start image (some r)
    n.1.Coherent ∧ n.1.engine = none ∧
      n.2 = m.devices.screen.crash?.elim (.failed (.spawn r.cause)) .crashed := by
  intro n
  have hlaunch := launch_of_stopped h image (some r)
  have hcoherent := coherent_launch hm h image (some r)
  cases hc : m.devices.screen.crash? with
  | none =>
    rw [hc] at hlaunch
    rw [hlaunch] at hcoherent
    have hn : n = ((m.launched image (some r)).stop, .failed (.spawn r.cause)) := by
      simp only [n, start, hlaunch, Start.ofRefusal]
    rw [hn]
    exact ⟨coherent_stop hcoherent, engine_stop hcoherent, rfl⟩
  | some c =>
    rw [hc] at hlaunch
    have hn : n = m.launch image (some r) := by simp only [n, start, hlaunch]
    rw [hn]
    refine ⟨hcoherent, ?_, ?_⟩ <;> rw [hlaunch]
    · exact h
    · rfl

theorem refused_start_leaves_stopped (o : Options) (d : Devices) (past : List Act)
    (image : List UInt8) (r : Clock.Refusal) :
    let m := (new o d).acts past
    let n := m.start image (some r)
    (m.isRunning = true → n = (m, .failed .alreadyRunning)) ∧
      (m.isRunning = false →
        n.1.isRunning = false ∧ n.1.keypad.waiting = false ∧
          n.2 = m.devices.screen.crash?.elim (.failed (.spawn r.cause)) .crashed) := by
  intro m n
  have hm : m.Coherent := coherent_acts (coherent_new o d) past
  refine ⟨fun hrun => ?_, fun hrun => ?_⟩
  · obtain ⟨e, he⟩ := isRunning_iff.1 hrun
    simp only [n, start, launch_of_running he]
  · obtain ⟨hn, hstopped, hresult⟩ := start_of_refused hm (isRunning_eq_false_iff.1 hrun) image r
    exact ⟨isRunning_eq_false_iff.2 hstopped, hn.waiting_of_stopped hstopped, hresult⟩

theorem cancelled_cancel (m : Machine) (c : ClockName) : (m.act (.cancel c)).Cancelled c := by
  intro x hx
  obtain ⟨e, -, rfl⟩ := Option.map_eq_some_iff.1 hx
  cases c <;> rfl

theorem cancelled_acts (hm : m.Coherent) {l : List Act} (hl : ∀ a ∈ l, a.starts = false)
    (h : m.Cancelled c) : (m.acts l).Cancelled c := by
  induction l generalizing m with
  | nil => exact h
  | cons a l ih =>
    obtain ⟨ha, hrest⟩ := List.forall_mem_cons.1 hl
    exact ih (coherent_act hm a) hrest (cancelled_act hm ha h)

def interrupt : Act := .outer (.happen (.keypad .interrupt))

def stopParts (l₁ l₂ : List Act) : List Act :=
  [.cancel .instruction] ++ l₁ ++ [.cancel .timer] ++ l₂ ++ [interrupt]

theorem halting_stopParts (hm : m.Coherent) {l₁ l₂ : List Act} (h₁ : ∀ a ∈ l₁, a.starts = false)
    (h₂ : ∀ a ∈ l₂, a.starts = false) : (m.acts (stopParts l₁ l₂)).Halting := by
  let m₁ := m.act (.cancel .instruction)
  let m₂ := (m₁.acts l₁).act (.cancel .timer)
  have hm₁ : m₁.Coherent := coherent_act hm _
  have hm₂ : m₂.Coherent := coherent_act (coherent_acts hm₁ l₁) _
  have hi : m₂.Cancelled .instruction :=
    cancelled_act (coherent_acts hm₁ l₁) rfl (cancelled_acts hm₁ h₁ (cancelled_cancel m _))
  have ht : m₂.Cancelled .timer := cancelled_cancel (m₁.acts l₁) .timer
  have heq : m.acts (stopParts l₁ l₂) = (m₂.acts l₂).act interrupt := by
    simp only [stopParts, acts_append]
    rfl
  rw [heq]
  refine ⟨rfl, fun c => ?_⟩
  refine cancelled_act (coherent_acts hm₂ l₂) rfl (cancelled_acts hm₂ h₂ ?_)
  cases c
  · exact hi
  · exact ht

structure GivesUp (m : Machine) (e : Engine) (m' : Machine) : Prop where
  ending : (e.progress m.devices).ending = some (.failed .interrupted)
  ended : ∃ e', m'.engine = some e' ∧ e'.instructionClock.stage = .ended ∧
    e'.cpu = { e.cpu with framebuffer := e'.cpu.framebuffer }
  reports : m'.devices.journal.reports = .clockStopped .instruction :: m.devices.journal.reports

theorem gives_up (hm : m.Coherent) (hh : m.Halting) (h : m.engine = some e) (hw : e.AtKeyWait)
    (hp : e.request = none → (Board.push ⟨e.cpu, m.devices⟩).2 = none) :
    m.GivesUp e (m.act (.move .instruction)) := by
  have he := hm.engine e h
  have hs : e.instructionClock.stage = .firing := by
    obtain hr | ⟨hs, -⟩ := hw
    · exact he.request hr
    · exact hs
  have hname : e.instructionClock.name = .instruction := he.named .instruction
  obtain ⟨hending, hcpu⟩ := Engine.progress_of_atKeyWait hh.interrupted hw hp
  have hclock : (e.progress m.devices).clock e.instructionClock =
      ({ e.instructionClock with stage := .ended }, [.clockStopped .instruction]) := by
    have hne : Clock.Ending.failed .interrupted ≠ .ok := by decide
    rw [Engine.Progress.clock, hending, ← hname]
    exact Clock.finish_of_ne hs hne
  have hawake := sleeps_of_halting hm hh e
  refine ⟨hending, ?_, ?_⟩
  · rw [act_instruction_of_firing h hs hawake, proceed, hclock]
    exact ⟨_, rfl, rfl, hcpu⟩
  · rw [act_instruction_of_firing h hs hawake, proceed, hclock]
    have hstep : ∀ x ∈ [Event.clockStopped .instruction], x.isOfStep = false := by decide
    rw [Devices.reports_noteAll hstep, Engine.reports_progress]
    rfl

theorem waiting_act (hm : m.Coherent) (hh : m.Halting) (ha : a.starts = false)
    (h : m.keypad.waiting = false) : (m.act a).keypad.waiting = false := by
  cases he : m.engine with
  | none =>
    rw [act_of_stopped he ha]
    cases ho : a.outer? with
    | none => exact h
    | some o => exact (m.devices.waiting_undergo o).trans h
  | some e =>
    have hm' := coherent_act hm a
    have hd := does_act he a
    revert hd hm'
    generalize m.act a = m'
    intro hm' hd
    cases hd with
    | nothing | begins | sleeps | cancels | stops | closes => exact h
    | outer => exact (m.devices.waiting_undergo _).trans h
    | proceeds hs =>
      have hw := hm'.waiting
      simp only [proceed, Option.bind_some,
        Engine.request_progress_of_interrupted hh.interrupted] at hw
      exact hw
    | fires | wakes =>
      rw [keypad, Devices.keypad_noteAll]
      exact h

theorem waiting_acts (hm : m.Coherent) (hh : m.Halting) {l : List Act}
    (hl : ∀ a ∈ l, a.isPlain = true) (h : m.keypad.waiting = false) :
    (m.acts l).keypad.waiting = false := by
  induction l generalizing m with
  | nil => exact h
  | cons a l ih =>
    obtain ⟨ha, hrest⟩ := List.forall_mem_cons.1 hl
    exact ih (coherent_act hm a) (halting_act hm ha hh) hrest
      (waiting_act hm hh (starts_of_isPlain ha) h)

theorem acts_of_stopped (h : m.engine = none) {l : List Act} (hl : ∀ a ∈ l, a.starts = false) :
    m.acts l = { m with devices := m.devices.undergoAll (l.filterMap Act.outer?) } := by
  induction l generalizing m with
  | nil => rfl
  | cons a l ih =>
    obtain ⟨ha, hrest⟩ := List.forall_mem_cons.1 hl
    rw [acts_cons, ih (engine_of_stopped h ha) hrest, act_of_stopped h ha,
      List.filterMap_cons]
    cases a.outer? <;> rfl

theorem halting_machine_closes (o : Options) (d : Devices) (past : List Act) :
    let m := (new o d).acts past
    (m.isRunning = true → (m.move .cancel).Halting) ∧
      (∀ l₁ l₂, (∀ a ∈ l₁, a.starts = false) → (∀ a ∈ l₂, a.starts = false) →
        (m.acts (stopParts l₁ l₂)).Halting) ∧
      (m.Halting → ∀ l, (∀ a ∈ l, a.isPlain = true) →
        let m' := m.acts l
        ¬ m'.Blocked ∧
        (m.keypad.waiting = false → m'.keypad.waiting = false) ∧
        (∀ c, m.firings c l ≤ 1) ∧
        (∀ e, m'.engine = some e → e.AtKeyWait →
          (e.request = none → (Board.push ⟨e.cpu, m'.devices⟩).2 = none) →
            m'.GivesUp e (m'.act (.move .instruction))) ∧
        ∀ l₁ l₂, l = l₁ ++ l₂ → Suffices o.block l₁ l₂ → (m'.act (.move .close)).engine = none) ∧
      m.stop.isRunning = false ∧
      (m.isRunning = false → ∀ l, (∀ a ∈ l, a.starts = false) →
        let m' := m.acts l
        let outers := l.filterMap Act.outer?
        m' = { m with devices := m.devices.undergoAll outers } ∧
        m'.isRunning = false ∧ m'.keypad.waiting = false ∧
        m'.devices.journal = m.devices.journal ∧
        m'.devices.screen.received = m.devices.screen.received ∧
        m'.timers.plain = m.timers.plain.replay (outers.filterMap Outer.timerOp?)) := by
  intro m
  have hm : m.Coherent := coherent_acts (coherent_new o d) past
  have hblock : m.options.block = o.block := by
    rw [show m.options = o from options_acts (new o d) past]
  refine ⟨?_, ?_, ?_, ?_, ?_⟩
  · intro hrun
    obtain ⟨e, he⟩ := isRunning_iff.1 hrun
    exact halting_cancel he
  · intro l₁ l₂ h₁ h₂
    exact halting_stopParts hm h₁ h₂
  · intro hh l hl m'
    have hm' : m'.Coherent := coherent_acts hm l
    have hh' : m'.Halting := halting_acts hm hl hh
    refine ⟨not_blocked_of_halting hm' hh', waiting_acts hm hh hl, fun c => ?_, fun e he => ?_, ?_⟩
    · exact firings_le_one hm (fun a ha => starts_of_isPlain (hl a ha)) (hh.cancelled c)
    · exact gives_up hm' hh' he
    · rintro l₁ l₂ rfl hs
      obtain ⟨h₁, h₂⟩ := List.forall_mem_append.1 hl
      exact engine_of_suffices hm hh h₁ h₂ (hblock ▸ hs)
  · exact isRunning_eq_false_iff.2 (engine_stop hm)
  · intro hrun l hl m' outers
    have he : m.engine = none := isRunning_eq_false_iff.1 hrun
    have heq : m' = { m with devices := m.devices.undergoAll outers } := acts_of_stopped he hl
    have he' : m'.engine = none := engine_acts_of_stopped he hl
    obtain ⟨hj, hs, ht⟩ := m.devices.undergoAll_eq outers
    refine ⟨heq, ?_, ?_, ?_, ?_, ?_⟩
    · exact isRunning_eq_false_iff.2 he'
    · exact (coherent_acts hm l).waiting_of_stopped he'
    · rw [heq, hj]
    · rw [heq, hs]
    · rw [timers, heq]
      exact ht

def atWait : List Act := [.move (.start [0xF1, 0x0A]), .move .instruction, .move .instruction]

def pressedLate : List Act := [.move (.key 5 true)]

theorem acts_atWait (l : List Act) :
    (new {} {}).acts (atWait ++ l) =
      ((new {} {}).launched [0xF1, 0x0A]).acts (.move .instruction :: .move .instruction :: l) :=
  acts_start_new {} rfl _ _

theorem isRunning_atWait : ((new {} {}).acts atWait).isRunning = true := by
  rw [← List.append_nil atWait, acts_atWait]
  decide +kernel

theorem blocked_atWait : ((new {} {}).acts atWait).Blocked := by
  have hasleep : ((new {} {}).acts atWait).devices.keypad.asleep = true := by
    rw [← List.append_nil atWait, acts_atWait]
    decide +kernel
  have hrequest : ((new {} {}).acts atWait).engine.any (fun e => e.request.isSome) = true := by
    rw [← List.append_nil atWait, acts_atWait]
    decide +kernel
  obtain ⟨e, he, hr⟩ := (Option.any_eq_true _ _).1 hrequest
  obtain ⟨r, hr⟩ := Option.isSome_iff_exists.1 hr
  exact ⟨e, he, r, hr, .inl hasleep⟩

theorem waiting_atWait :
    ((new {} {}).acts (atWait ++ [.move .cancel])).keypad.waiting = true := by
  rw [acts_atWait]
  decide +kernel

theorem request_atWait :
    (((new {} {}).acts (atWait ++ [.move .cancel])).acts pressedLate).engine.any
      (fun e => e.request.isSome) = true := by
  rw [acts_atWait]
  decide +kernel

theorem halting_atWait : ((new {} {}).acts (atWait ++ [.move .cancel])).Halting := by
  rw [acts_append]
  exact halting_acts_cancel (coherent_acts (coherent_new {} {}) atWait) isRunning_atWait nofun

def lastMoves : List Act := .move .timer :: List.replicate 12 (.move .instruction)

def lastWakes : List Act := [.move .wakeInstruction, .move .wakeTimer]

theorem suffices_lastMoves : Suffices 10 lastMoves lastWakes := by
  constructor <;> intro c <;> cases c <;> decide +kernel

theorem halting_machine_closes_at_wait :
    let m := (new {} {}).acts (atWait ++ [.move .cancel])
    let m' := m.acts pressedLate
    ((new {} {}).acts atWait).Blocked ∧ m.Halting ∧ m.keypad.waiting = true ∧ ¬ m'.Blocked ∧
      (∃ e, m'.engine = some e ∧ e.AtKeyWait ∧ m'.GivesUp e (m'.act (.move .instruction))) ∧
      ((m.acts (lastMoves ++ lastWakes)).act (.move .close)).engine = none := by
  have hh := halting_atWait
  have hwaiting := waiting_atWait
  have hrequest := request_atWait
  obtain ⟨-, -, hhalting, -⟩ := halting_machine_closes {} {} (atWait ++ [.move .cancel])
  generalize (new {} {}).acts (atWait ++ [.move .cancel]) = m at hwaiting hrequest hh hhalting ⊢
  obtain ⟨e, he, hr⟩ := (Option.any_eq_true _ _).1 hrequest
  have hr : e.request ≠ none := Option.isSome_iff_ne_none.1 hr
  obtain ⟨hblocked, -, -, hgives, -⟩ := hhalting hh pressedLate (by decide +kernel)
  obtain ⟨-, -, -, -, hcloses⟩ := hhalting hh (lastMoves ++ lastWakes) (by decide +kernel)
  exact ⟨blocked_atWait, hh, hwaiting, hblocked,
    ⟨e, he, .inl hr, hgives e he (.inl hr) fun hn => absurd hn hr⟩,
    hcloses lastMoves lastWakes rfl suffices_lastMoves⟩

def frail : Devices := { screen := { flaw := some ⟨2, .text "frame broke"⟩ } }

def frameThenWait : List UInt8 := [0x00, 0xE0, 0xF0, 0x0A]

def beforeWait : List Act := [.move .cancel, .move .instruction, .move .instruction]

def brokenFrame : List Event :=
  [.clockStopped .instruction, .clockCrashed .instruction (.text "frame broke")]

theorem halting_beforeWait : (((new {} frail).launched frameThenWait).acts beforeWait).Halting := by
  have hm : ((new {} frail).launched frameThenWait).Coherent := coherent_launched _ _ none rfl rfl
  exact halting_acts_cancel hm rfl (by decide +kernel)

theorem engine_beforeWait :
    (((new {} frail).launched frameThenWait).acts beforeWait).engine.any (fun e =>
      e.instructionClock.stage = .firing ∧ e.left ≠ 0 ∧ e.cpu.opcode? = some .awaitKey) = true := by
  decide +kernel

theorem reports_beforeWait :
    let m := ((new {} frail).launched frameThenWait).acts beforeWait
    (m.act (.move .instruction)).devices.journal.reports =
      brokenFrame ++ m.devices.journal.reports := by
  decide +kernel

theorem not_givesUp (h : m'.devices.journal.reports = brokenFrame ++ m.devices.journal.reports) :
    ¬ m.GivesUp e m' := by
  intro hgives
  have hlength := congrArg List.length (h.symm.trans hgives.reports)
  simp [brokenFrame] at hlength

theorem broken_frame_ends_halting_clock :
    let m := (new {} frail).acts (.move (.start frameThenWait) :: beforeWait)
    let m' := m.act (.move .instruction)
    m.Halting ∧
      (∃ e, m.engine = some e ∧ e.AtKeyWait ∧ ¬ m.GivesUp e m') ∧
      m'.devices.journal.reports = brokenFrame ++ m.devices.journal.reports := by
  rw [acts_start_new {} rfl]
  obtain ⟨e, he, hw⟩ := (Option.any_eq_true _ _).1 engine_beforeWait
  exact ⟨halting_beforeWait, ⟨e, he, .inr (of_decide_eq_true hw), not_givesUp reports_beforeWait⟩,
    reports_beforeWait⟩

end Machine

end Chip8
