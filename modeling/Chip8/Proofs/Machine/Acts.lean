import Chip8.Machine.Basic
import Chip8.Proofs.Cpu.Devices
import Chip8.Proofs.Cpu.Display
import Chip8.Proofs.Machine.Clock

namespace Chip8

structure Wear where
  onStart : Option Crash := none
  onStop : Option Crash := none
  onFrame : Option Screen.Flaw := none
  deriving DecidableEq, Repr

inductive Outer where
  | happen (h : Happening)
  | wear (w : Wear)
  /-- The waiter wakes for no reason. -/
  | rouse
  deriving DecidableEq, Repr

def Outer.timerOp? : Outer → Option Timers.Op
  | .happen (.timers op) => some op
  | _ => none

def Timers.plain (t : Timers) : Timers := { t with speaker := { calls := t.speaker.calls } }

theorem Timers.plain_apply (t : Timers) (op : Op) : (t.apply op).plain = t.plain.apply op := by
  cases op with
  | setDelay | reset => rfl
  | setSound value =>
    simp only [apply, setSound, plain]
    split <;> rfl
  | tick => by_cases h : t.sound = 1 <;> simp [apply, Timers.tick, plain, h, Speaker.stop]

namespace Devices

def wear (d : Devices) (w : Wear) : Devices :=
  { d with
    timers := { d.timers with
      speaker := { d.timers.speaker with flaw := w.onStart, stopFlaw := w.onStop } }
    screen := { d.screen with flaw := w.onFrame } }

def undergo (d : Devices) : Outer → Devices
  | .happen h => d.happen h
  | .wear w => d.wear w
  | .rouse => d.roused

def undergoAll (d : Devices) (os : List Outer) : Devices := os.foldl undergo d

theorem waiting_undergo (d : Devices) (o : Outer) :
    (d.undergo o).keypad.waiting = d.keypad.waiting := by
  match o with
  | .happen (.keypad op) => exact d.keypad.waiting_apply op
  | .happen (.timers _) | .happen (.random _) | .wear _ | .rouse => rfl

theorem journal_undergo (d : Devices) (o : Outer) : (d.undergo o).journal = d.journal := by
  match o with
  | .happen (.keypad _) | .happen (.timers _) | .happen (.random _) | .wear _ | .rouse => rfl

theorem received_undergo (d : Devices) (o : Outer) :
    (d.undergo o).screen.received = d.screen.received := by
  match o with
  | .happen (.keypad _) | .happen (.timers _) | .happen (.random _) | .wear _ | .rouse => rfl

theorem plain_undergo (d : Devices) (o : Outer) :
    (d.undergo o).timers.plain = d.timers.plain.obey o.timerOp? := by
  match o with
  | .happen (.timers op) => exact d.timers.plain_apply op
  | .happen (.keypad _) | .happen (.random _) | .wear _ | .rouse => rfl

theorem undergoAll_eq (d : Devices) (os : List Outer) :
    (d.undergoAll os).journal = d.journal ∧
      (d.undergoAll os).screen.received = d.screen.received ∧
      (d.undergoAll os).timers.plain = d.timers.plain.replay (os.filterMap Outer.timerOp?) := by
  induction os generalizing d with
  | nil => exact ⟨rfl, rfl, rfl⟩
  | cons o os ih =>
    obtain ⟨hj, hs, ht⟩ := ih (d.undergo o)
    refine ⟨hj.trans (d.journal_undergo o), hs.trans (d.received_undergo o), ht.trans ?_⟩
    rw [plain_undergo, List.filterMap_cons]
    cases o.timerOp? <;> rfl

theorem noteAll_eq (d : Devices) (events : List Event) :
    d.noteAll events = { d with journal := (d.noteAll events).journal } := by
  induction events generalizing d with
  | nil => rfl
  | cons e events ih => exact ih (d.note e)

theorem keypad_noteAll (d : Devices) (events : List Event) :
    (d.noteAll events).keypad = d.keypad := by
  rw [noteAll_eq]

theorem timers_noteAll (d : Devices) (events : List Event) :
    (d.noteAll events).timers = d.timers := by
  rw [noteAll_eq]

theorem screen_noteAll (d : Devices) (events : List Event) :
    (d.noteAll events).screen = d.screen := by
  rw [noteAll_eq]

end Devices

namespace Engine

def clock (e : Engine) : ClockName → Clock
  | .instruction => e.instructionClock
  | .timer => e.timerClock

def withClock (e : Engine) (c : ClockName) (k : Clock) : Engine :=
  match c with
  | .instruction => { e with instructionClock := k }
  | .timer => { e with timerClock := k }

structure Progress where
  board : Board
  left : Nat := 0
  request : Option KeyRequest := none
  ending : Option Clock.Ending := none

namespace Progress

def ofStep (left : Nat) : Board × Outcome → Progress
  | (board, .done) => { board, left }
  | (board, .waiting r) => { board, left, request := some r }
  | (board, .failed f) => { board, ending := some (.failed f) }
  | (board, .crashed c) => { board, ending := some (.crashed c) }

def clock (p : Progress) (k : Clock) : Clock × List Event :=
  match p.ending with
  | none => (k, [])
  | some ending => k.finish ending

theorem board_ofStep (left : Nat) (r : Board × Outcome) : (ofStep left r).board = r.1 := by
  obtain ⟨b, o⟩ := r
  cases o <;> rfl

theorem left_ofStep_le (left : Nat) (r : Board × Outcome) : (ofStep left r).left ≤ left := by
  obtain ⟨b, o⟩ := r
  cases o
  case done | waiting => exact Nat.le_refl left
  case failed | crashed => exact Nat.zero_le left

theorem wait_ofStep (left : Nat) (r : Board × Outcome) :
    (ofStep left r).request.map (·.wait) = r.2.wait? := by
  obtain ⟨b, o⟩ := r
  cases o <;> rfl

theorem isSome_request_ofStep (left : Nat) (r : Board × Outcome) :
    (ofStep left r).request.isSome = r.2.isWaiting := by
  obtain ⟨b, o⟩ := r
  cases o <;> rfl

end Progress

def progress (e : Engine) (d : Devices) : Progress :=
  let b : Board := ⟨e.cpu, d⟩
  match e.request, e.left with
  | some r, left => .ofStep left (b.resume r)
  | none, left + 1 => .ofStep left b.step
  | none, 0 => { board := b.push.1, ending := some (.ofCrash b.push.2) }

end Engine

namespace Machine

def new (o : Options) (d : Devices) : Machine where
  options := o
  devices := { d with keypad := {}, timers := { speaker := d.timers.speaker } }

inductive Act where
  | move (v : Move)
  | cancel (c : ClockName)
  | outer (o : Outer)
  deriving DecidableEq, Repr

def Act.starts : Act → Bool
  | .move (.start _ _) => true
  | _ => false

def Act.outer? : Act → Option Outer
  | .move (.key k down) => some (.happen (.keypad (.set k down)))
  | .move (.setDelay value) => some (.happen (.timers (.setDelay value)))
  | .move (.setSound value) => some (.happen (.timers (.setSound value)))
  | .outer o => some o
  | _ => none

def cancelClock (m : Machine) (c : ClockName) : Machine :=
  { m with engine := m.engine.map fun e => e.withClock c (e.clock c).cancel }

def act (m : Machine) : Act → Machine
  | .move v => m.move v
  | .cancel c => m.cancelClock c
  | .outer o => { m with devices := m.devices.undergo o }

def acts (m : Machine) (l : List Act) : Machine := l.foldl act m

def proceed (m : Machine) (e : Engine) (p : Engine.Progress) : Machine :=
  { m with
    devices := p.board.devices.noteAll (p.clock e.instructionClock).2
    engine := some { e with
      cpu := p.board.cpu
      instructionClock := (p.clock e.instructionClock).1
      left := p.left
      request := p.request } }

def clockMove : ClockName → Move
  | .instruction => .instruction
  | .timer => .timer

def wakeMove : ClockName → Move
  | .instruction => .wakeInstruction
  | .timer => .wakeTimer

def Act.isIdle (e : Engine) : Act → Bool
  | .move (.start _ _) => true
  | .move .instruction => e.instructionClock.stage = .resting ∨ e.instructionClock.stage = .ended
  | .move .timer => e.timerClock.stage ≠ .due
  | .move .wakeInstruction => e.instructionClock.stage ≠ .resting
  | .move .wakeTimer => e.timerClock.stage ≠ .resting
  | .move .close => ¬ (e.instructionClock.stage = .ended ∧ e.timerClock.stage = .ended)
  | _ => false

inductive Does (m : Machine) (e : Engine) : Act → Machine → Prop
  | nothing {a : Act} : a.isIdle e = true → Does m e a m
  | outer {a : Act} {o : Outer} : a.outer? = some o →
      Does m e a { m with devices := m.devices.undergo o }
  | begins : e.instructionClock.stage = .due →
      Does m e (.move .instruction) { m with
        engine := some { e with
          instructionClock := e.instructionClock.begin
          left := m.options.block
          request := none } }
  | sleeps : e.instructionClock.stage = .firing → e.sleeps m.keypad = true →
      Does m e (.move .instruction) m
  | proceeds : e.instructionClock.stage = .firing → e.sleeps m.keypad = false →
      Does m e (.move .instruction) (m.proceed e (e.progress m.devices))
  | fires (r : Clock × List Event) : e.timerClock.stage = .due →
      r = e.timerClock.begin.finish (.ofCrash m.devices.timers.tickCrash?) →
      Does m e (.move .timer) { m with
        devices := { m.devices with timers := m.devices.timers.tick }.noteAll r.2
        engine := some { e with timerClock := r.1 } }
  | wakes {a : Act} (c : ClockName) : a = .move (wakeMove c) → (e.clock c).stage = .resting →
      Does m e a { m with
        devices := m.devices.noteAll (e.clock c).wake.2
        engine := some (e.withClock c (e.clock c).wake.1) }
  | cancels (c : ClockName) :
      Does m e (.cancel c) { m with engine := some (e.withClock c (e.clock c).cancel) }
  | stops :
      Does m e (.move .cancel) { m with
        devices := { m.devices with keypad := m.devices.keypad.interrupt }
        engine := some { e with
          instructionClock := e.instructionClock.cancel
          timerClock := e.timerClock.cancel } }
  | closes : e.instructionClock.stage = .ended → e.timerClock.stage = .ended →
      Does m e (.move .close) { m with
        devices := m.devices.note .machineStopped
        engine := none }

theorem acts_append (m : Machine) (l r : List Act) : m.acts (l ++ r) = (m.acts l).acts r :=
  List.foldl_append

theorem acts_nil (m : Machine) : m.acts [] = m := rfl

theorem acts_cons (m : Machine) (a : Act) (l : List Act) : m.acts (a :: l) = (m.act a).acts l := rfl

theorem act_of_outer? (m : Machine) {a : Act} {o : Outer} (h : a.outer? = some o) :
    m.act a = { m with devices := m.devices.undergo o } := by
  match a with
  | .move (.key _ _) | .move (.setDelay _) | .move (.setSound _) | .outer _ =>
    cases h
    rfl

theorem afterStep_eq (m : Machine) (e : Engine) (left : Nat) (r : Board × Outcome) :
    m.afterStep e left r = m.proceed e (.ofStep left r) := by
  obtain ⟨b, o⟩ := r
  cases o <;> rfl

theorem executeBlock_of_sleeps {m : Machine} {e : Engine} (h : e.sleeps m.keypad = true) :
    m.executeBlock e = m :=
  if_pos h

theorem executeBlock_of_awake {m : Machine} {e : Engine} (h : e.sleeps m.keypad = false) :
    m.executeBlock e = m.proceed e (e.progress m.devices) := by
  rw [executeBlock, if_neg (Bool.eq_false_iff.1 h), Engine.progress]
  cases e.request with
  | some r => exact afterStep_eq ..
  | none =>
    cases e.left with
    | succ left => exact afterStep_eq ..
    | zero =>
      dsimp only
      obtain ⟨b, crash⟩ := Board.push ⟨e.cpu, m.devices⟩
      cases crash <;> rfl

variable {m : Machine} {e : Engine}

theorem isRunning_iff : m.isRunning = true ↔ ∃ e, m.engine = some e := Option.isSome_iff_exists

theorem isRunning_eq_false_iff : m.isRunning = false ↔ m.engine = none :=
  Option.isSome_eq_false_iff.trans Option.isNone_iff_eq_none

theorem act_instruction_of_firing (h : m.engine = some e)
    (hs : e.instructionClock.stage = .firing) (ha : e.sleeps m.keypad = false) :
    m.act (.move .instruction) = m.proceed e (e.progress m.devices) := by
  have hm : m.act (.move .instruction) = m.moveInstruction e := by simp [act, move, h]
  rw [hm, moveInstruction, hs]
  exact executeBlock_of_awake ha

theorem act_of_sleeps (h : m.engine = some e) (hs : e.instructionClock.stage = .firing)
    (ha : e.sleeps m.keypad = true) : m.act (.move .instruction) = m := by
  have hm : m.act (.move .instruction) = m.moveInstruction e := by simp [act, move, h]
  rw [hm, moveInstruction, hs]
  exact executeBlock_of_sleeps ha

theorem does_instruction (h : m.engine = some e) :
    Does m e (.move .instruction) (m.move .instruction) := by
  have hm : m.move .instruction = m.moveInstruction e := by simp [move, h]
  rw [hm, moveInstruction]
  cases hs : e.instructionClock.stage with
  | due => exact .begins hs
  | firing =>
    dsimp only
    cases ha : e.sleeps m.keypad with
    | true =>
      rw [executeBlock_of_sleeps ha]
      exact .sleeps hs ha
    | false =>
      rw [executeBlock_of_awake ha]
      exact .proceeds hs ha
  | resting | ended => exact .nothing (by simp [Act.isIdle, hs])

theorem does_timer (h : m.engine = some e) : Does m e (.move .timer) (m.move .timer) := by
  have hm : m.move .timer = m.moveTimer e := by simp [move, h]
  rw [hm, moveTimer]
  cases hs : e.timerClock.stage with
  | due => exact .fires _ hs rfl
  | firing | resting | ended => exact .nothing (by simp [Act.isIdle, hs])

theorem does_wake (h : m.engine = some e) (c : ClockName) :
    Does m e (.move (wakeMove c)) (m.move (wakeMove c)) := by
  have hm : m.move (wakeMove c) = { m with
      devices := m.devices.noteAll (e.clock c).wake.2
      engine := some (e.withClock c (e.clock c).wake.1) } := by
    cases c <;> simp only [move, wakeMove, h, Option.map_some, Option.getD_some] <;> rfl
  by_cases hs : (e.clock c).stage = .resting
  · rw [hm]
    exact .wakes c rfl hs
  · have hw : (e.clock c).wake = (e.clock c, []) := Clock.wake_of_ne_resting hs
    have he : e.withClock c (e.clock c) = e := by cases c <;> rfl
    have hself : m.move (wakeMove c) = m := by
      rw [hm, hw, he, ← h]
      rfl
    rw [hself]
    refine .nothing ?_
    cases c <;> exact decide_eq_true hs

theorem does_close (h : m.engine = some e) : Does m e (.move .close) m.close := by
  rw [close, h]
  dsimp only
  split
  · next hc =>
    obtain ⟨hi, ht⟩ := Bool.and_eq_true_iff.1 hc
    exact .closes (of_decide_eq_true hi) (of_decide_eq_true ht)
  · next hc =>
    refine .nothing (decide_eq_true fun hended => hc ?_)
    exact Bool.and_eq_true_iff.2 ⟨decide_eq_true hended.1, decide_eq_true hended.2⟩

theorem does_act (h : m.engine = some e) (a : Act) : Does m e a (m.act a) := by
  match a with
  | .move (.start image refusal) =>
    have hm : m.act (.move (.start image refusal)) = m := by simp [act, move, launch, isRunning, h]
    rw [hm]
    exact .nothing rfl
  | .move .cancel =>
    have hm : m.act (.move .cancel) = m.cancel := rfl
    rw [hm, Machine.cancel, h]
    exact .stops
  | .move .close => exact does_close h
  | .move .instruction => exact does_instruction h
  | .move .timer => exact does_timer h
  | .move .wakeInstruction => exact does_wake h .instruction
  | .move .wakeTimer => exact does_wake h .timer
  | .cancel c =>
    have hm : m.act (.cancel c) = { m with engine := some (e.withClock c (e.clock c).cancel) } := by
      simp [act, cancelClock, h]
    rw [hm]
    exact .cancels c
  | .move (.key _ _) | .move (.setDelay _) | .move (.setSound _) | .outer _ =>
    rw [act_of_outer? m rfl]
    exact .outer rfl

theorem act_of_isIdle (h : m.engine = some e) {a : Act} (hi : a.isIdle e = true) : m.act a = m := by
  have hd := does_act h a
  revert hd
  generalize m.act a = m'
  intro hd
  cases hd with
  | nothing => rfl
  | sleeps => rfl
  | begins hs | proceeds hs => simp [Act.isIdle, hs] at hi
  | fires _ hs => simp [Act.isIdle, hs] at hi
  | wakes c hw hs =>
    subst hw
    cases c <;> exact absurd hs (of_decide_eq_true hi)
  | closes hi' ht => simp [Act.isIdle, hi', ht] at hi
  | cancels | stops => cases hi
  | outer ho =>
    match a with
    | .move (.key _ _) | .move (.setDelay _) | .move (.setSound _) | .outer _ => cases hi

end Machine

end Chip8
