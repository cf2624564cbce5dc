import Chip8.Proofs.Cpu.Mirror
import Chip8.Proofs.Machine.Coherent

namespace Chip8

section

variable {α β : Type} {R S : α → α → Prop} {x y : Option α}

theorem rel_mono (h : Option.Rel R x y) (hS : ∀ {a b}, R a b → S a b) : Option.Rel S x y := by
  cases h with
  | none => exact .none
  | some hr => exact .some (hS hr)

theorem map_eq_of_rel {f g : α → β} (h : Option.Rel R x y) (hf : ∀ {a b}, R a b → f a = g b) :
    x.map f = y.map g := by
  cases h with
  | none => rfl
  | some hr => exact congrArg some (hf hr)

end

def Grown {α : Type} (old old' new new' : List α) : Prop :=
  ∃ more, new = more ++ old ∧ new' = more ++ old'

section

variable {α : Type} {old old' new new' : List α}

theorem Grown.refl (old old' : List α) : Grown old old' old old' := ⟨[], rfl, rfl⟩

def gained (old new : List α) : List α := new.reverse.drop old.length

theorem gained_append (more old : List α) : gained old (more ++ old) = more.reverse := by
  rw [gained, List.reverse_append, ← List.length_reverse, List.drop_left]

theorem Grown.gained (h : Grown old old' new new') :
    Chip8.gained old new = Chip8.gained old' new' := by
  obtain ⟨more, rfl, rfl⟩ := h
  rw [gained_append, gained_append]

theorem Grown.cons (h : Grown old old' new new') (x : α) :
    Grown old old' (x :: new) (x :: new') := by
  obtain ⟨more, rfl, rfl⟩ := h
  exact ⟨x :: more, rfl, rfl⟩

end

/-- Keypads on which the same has happened since one of them had had `base` presses and the other
`δ` more. As long as no key has been pressed since, their last keys may differ. -/
structure Keypad.Since (base δ : UInt64) (pressed : Bool) (k k' : Keypad) : Prop where
  held : k.held = k'.held
  waiting : k.waiting = k'.waiting
  interrupted : k.interrupted = k'.interrupted
  asleep : k.asleep = k'.asleep
  presses : k'.presses = k.presses + δ
  quiet : pressed = false → k.presses = base
  lastKey : pressed = true → k.lastKey = k'.lastKey

structure KeyRequest.Since (base δ : UInt64) (pressed : Bool) (r r' : KeyRequest) : Prop where
  register : r.register = r'.register
  seen : r'.wait.seen = r.wait.seen + δ
  quiet : pressed = false → r.wait.seen = base

namespace Keypad.Since

variable {base δ : UInt64} {pressed : Bool} {k k' : Keypad}

theorem verdict (h : Since base δ pressed k k') {r r' : KeyRequest}
    (hr : KeyRequest.Since base δ pressed r r') : k.verdict r.wait = k'.verdict r'.wait := by
  have hseen : k.presses = r.wait.seen ↔ k'.presses = r'.wait.seen := by
    rw [h.presses, hr.seen, UInt64.add_left_inj]
  rw [Keypad.verdict, Keypad.verdict, ← h.interrupted]
  split
  · rfl
  · by_cases hp : k.presses = r.wait.seen
    · rw [if_pos hp, if_pos (hseen.1 hp)]
    · rw [if_neg hp, if_neg fun he => hp (hseen.2 he)]
      cases pressed with
      -- no wait is over without a press, and after one the last keys are the same
      | false => exact absurd ((h.quiet rfl).trans (hr.quiet rfl).symm) hp
      | true => rw [h.lastKey rfl]

theorem set (h : Since base δ pressed k k') (key : Nibble) (down : Bool) :
    Since base δ (pressed || down && !k.held[key]) (k.set key down) (k'.set key down) := by
  have hheld : k.held.set key down key.lt = k'.held.set key down key.lt := by rw [h.held]
  cases hf : down && !k.held[key] with
  | false =>
    have hf' : (down && !k'.held[key]) = false := h.held ▸ hf
    rw [Bool.or_false, set_of_stale hf, set_of_stale hf']
    exact { h with held := hheld }
  | true =>
    have hf' : (down && !k'.held[key]) = true := h.held ▸ hf
    have hpresses : k'.presses + 1 = k.presses + 1 + δ := by
      rw [h.presses, UInt64.add_assoc, UInt64.add_comm δ, ← UInt64.add_assoc]
    rw [Bool.or_true, set_of_fresh hf, set_of_fresh hf']
    exact { h with
      held := hheld, asleep := rfl, presses := hpresses, quiet := nofun, lastKey := fun _ => rfl }

theorem apply (h : Since base δ pressed k k') (op : Op) :
    ∃ more, Since base δ (pressed || more) (k.apply op) (k'.apply op) := by
  cases op with
  | set key down => exact ⟨_, h.set key down⟩
  | interrupt =>
    refine ⟨false, ?_⟩
    rw [Bool.or_false]
    exact { h with interrupted := rfl, asleep := rfl }
  | resume =>
    refine ⟨false, ?_⟩
    rw [Bool.or_false]
    exact { h with interrupted := rfl }

end Keypad.Since

theorem KeyRequest.Since.more {base δ : UInt64} {pressed : Bool} {r r' : KeyRequest}
    (h : Since base δ pressed r r') (more : Bool) : Since base δ (pressed || more) r r' := by
  refine ⟨h.register, h.seen, fun hp => h.quiet ?_⟩
  exact (Bool.or_eq_false_iff.1 hp).1

structure Devices.Past where
  calls : List ToneCall
  received : List Picture
  reports : List Event

structure Devices.Since (p p' : Past) (base δ : UInt64) (pressed : Bool) (d d' : Devices) : Prop where
  keypad : d.keypad.Since base δ pressed d'.keypad
  delay : d.timers.delay = d'.timers.delay
  sound : d.timers.sound = d'.timers.sound
  flaw : d.timers.speaker.flaw = d'.timers.speaker.flaw
  stopFlaw : d.timers.speaker.stopFlaw = d'.timers.speaker.stopFlaw
  breaks : d.screen.breaks = d'.screen.breaks
  ahead : d.random.ahead = d'.random.ahead
  calls : Grown p.calls p'.calls d.timers.speaker.calls d'.timers.speaker.calls
  received : Grown p.received p'.received d.screen.received d'.screen.received
  reports : Grown p.reports p'.reports d.journal.reports d'.journal.reports

namespace Devices.Since

variable {p p' : Past} {base δ : UInt64} {pressed : Bool} {d d' : Devices}

theorem withKeypad (h : Since p p' base δ pressed d d') {more : Bool} {k k' : Keypad}
    (hk : k.Since base δ more k') :
    Since p p' base δ more { d with keypad := k } { d' with keypad := k' } :=
  { h with keypad := hk }

theorem note (h : Since p p' base δ pressed d d') (x : Event) :
    Since p p' base δ pressed (d.note x) (d'.note x) := by
  refine { h with reports := ?_ }
  cases hx : x.isOfStep with
  | true =>
    have hj := Journal.reports_note_of_step hx
    simp only [Devices.note, hj]
    exact h.reports
  | false =>
    have hj := Journal.reports_note hx
    simp only [Devices.note, hj]
    exact h.reports.cons x

theorem noteAll (h : Since p p' base δ pressed d d') (events : List Event) :
    Since p p' base δ pressed (d.noteAll events) (d'.noteAll events) := by
  induction events generalizing d d' with
  | nil => exact h
  | cons x events ih => exact ih (h.note x)

theorem setDelay (h : Since p p' base δ pressed d d') (v : UInt8) :
    Since p p' base δ pressed { d with timers := d.timers.setDelay v }
      { d' with timers := d'.timers.setDelay v } :=
  { h with delay := rfl }

theorem setSound (h : Since p p' base δ pressed d d') (v : UInt8) :
    (d.timers.setSound v).2 = (d'.timers.setSound v).2 ∧
      Since p p' base δ pressed { d with timers := (d.timers.setSound v).1 }
        { d' with timers := (d'.timers.setSound v).1 } := by
  by_cases hv : v = 0
  · simp only [Timers.setSound, if_pos hv, true_and]
    exact { h with sound := rfl }
  · simp only [Timers.setSound, if_neg hv]
    exact ⟨h.flaw, { h with sound := rfl, calls := h.calls.cons .start }⟩

theorem tick (h : Since p p' base δ pressed d d') :
    d.timers.tickCrash? = d'.timers.tickCrash? ∧
      Since p p' base δ pressed { d with timers := d.timers.tick }
        { d' with timers := d'.timers.tick } := by
  have hlowered : Timers.lower d.timers.delay = Timers.lower d'.timers.delay := by rw [h.delay]
  have hsound : Timers.lower d.timers.sound = Timers.lower d'.timers.sound := by rw [h.sound]
  by_cases h1 : d.timers.sound = 1
  · have h1' : d'.timers.sound = 1 := h.sound ▸ h1
    simp only [Timers.tickCrash?, Timers.tick, if_pos h1, if_pos h1']
    exact ⟨h.stopFlaw, { h with
      delay := hlowered, sound := hsound, calls := h.calls.cons .stop }⟩
  · have h1' : ¬ d'.timers.sound = 1 := h.sound ▸ h1
    simp only [Timers.tickCrash?, Timers.tick, if_neg h1, if_neg h1', true_and]
    exact { h with delay := hlowered, sound := hsound }

theorem present (h : Since p p' base δ pressed d d') (picture : Picture) :
    d.screen.crash? = d'.screen.crash? ∧
      Since p p' base δ pressed { d with screen := d.screen.present picture }
        { d' with screen := d'.screen.present picture } := by
  have hbreaks := Screen.breaks_present h.breaks picture
  exact ⟨congrFun h.breaks 0, { h with breaks := hbreaks, received := h.received.cons picture }⟩

theorem random (h : Since p p' base δ pressed d d') :
    d.random.next = d'.random.next ∧
      Since p p' base δ pressed { d with random := d.random.advance }
        { d' with random := d'.random.advance } := by
  exact ⟨congrFun h.ahead 0, { h with ahead := RandomTape.ahead_advance h.ahead }⟩

theorem mirror (p p' : Past) (base δ : UInt64) (pressed : Bool) :
    Mirror (Since p p' base δ pressed) (KeyRequest.Since base δ pressed) where
  note h _ := h.note _
  held h := h.keypad.held
  interrupted h := h.keypad.interrupted
  asleep h _ := h.withKeypad { h.keypad with asleep := rfl }
  waiting h _ := h.withKeypad { h.keypad with waiting := rfl }
  ask h _ := ⟨rfl, h.keypad.presses, h.keypad.quiet⟩
  verdict h hr := ⟨h.keypad.verdict hr, hr.register⟩
  random h := h.random
  setDelay h v := h.setDelay v
  setSound h v := h.setSound v
  present h picture := h.present picture

end Devices.Since

def Machine.Act.isSteady : Act → Bool
  | .outer (.wear w) => w.onFrame.isNone
  | _ => true

theorem Devices.Since.undergo {p p' : Past} {base δ : UInt64} {pressed : Bool} {d d' : Devices}
    (h : Since p p' base δ pressed d d') {a : Machine.Act} {o : Outer} (ho : a.outer? = some o)
    (ha : a.isSteady = true) :
    ∃ more, Since p p' base δ (pressed || more) (d.undergo o) (d'.undergo o) := by
  match o with
  | .happen (.keypad op) =>
    obtain ⟨more, hk⟩ := h.keypad.apply op
    exact ⟨more, h.withKeypad hk⟩
  | .happen (.timers op) =>
    refine ⟨false, ?_⟩
    rw [Bool.or_false]
    cases op with
    | setDelay v => exact h.setDelay v
    | setSound v => exact (h.setSound v).2
    | tick => exact h.tick.2
    | reset => exact { h with delay := rfl, sound := rfl }
  | .happen (.random tape) =>
    refine ⟨false, ?_⟩
    rw [Bool.or_false]
    exact { h with ahead := rfl }
  | .wear w =>
    refine ⟨false, ?_⟩
    rw [Bool.or_false]
    match a with
    | .outer (.wear _) =>
      cases ho
      have hw : w.onFrame = none := Option.isNone_iff_eq_none.1 ha
      refine { h with flaw := rfl, stopFlaw := rfl, breaks := ?_ }
      funext n
      simp only [Devices.undergo, Devices.wear, Screen.breaks, hw]
    | .move (.key _ _) | .move (.setDelay _) | .move (.setSound _) => cases ho
  | .rouse =>
    refine ⟨false, ?_⟩
    rw [Bool.or_false]
    exact h.withKeypad { h.keypad with asleep := rfl }

namespace Engine

structure Since (base δ : UInt64) (pressed : Bool) (e e' : Engine) : Prop where
  rest : e' = { e with request := e'.request }
  request : Option.Rel (KeyRequest.Since base δ pressed) e.request e'.request

variable {p p' : Devices.Past} {base δ : UInt64} {pressed : Bool} {e e' : Engine} {d d' : Devices}

theorem Since.more (h : Since base δ pressed e e') (more : Bool) :
    Since base δ (pressed || more) e e' :=
  ⟨h.rest, rel_mono h.request fun hr => hr.more more⟩

structure Progress.Since (p p' : Devices.Past) (base δ : UInt64) (pressed : Bool)
    (q q' : Progress) : Prop where
  cpu : q.board.cpu = q'.board.cpu
  devices : Devices.Since p p' base δ pressed q.board.devices q'.board.devices
  left : q.left = q'.left
  ending : q.ending = q'.ending
  request : Option.Rel (KeyRequest.Since base δ pressed) q.request q'.request

theorem Progress.since_ofStep {r r' : Board × Outcome}
    (h : Board.Mirrors (Devices.Since p p' base δ pressed) (KeyRequest.Since base δ pressed) r r')
    (left : Nat) : Since p p' base δ pressed (ofStep left r) (ofStep left r') := by
  obtain ⟨b, o⟩ := r
  obtain ⟨b', o'⟩ := r'
  obtain ⟨hc, hd, ho⟩ := h
  cases ho with
  | done => exact ⟨hc, hd, rfl, rfl, .none⟩
  | failed f => exact ⟨hc, hd, rfl, rfl, .none⟩
  | crashed c => exact ⟨hc, hd, rfl, rfl, .none⟩
  | waiting hr => exact ⟨hc, hd, rfl, rfl, .some hr⟩

theorem Since.sleeps (h : Since base δ pressed e e') {k k' : Keypad}
    (hk : k.Since base δ pressed k') : e.sleeps k = e'.sleeps k' := by
  have hr := h.request
  unfold Engine.sleeps
  rw [hk.asleep]
  revert hr
  generalize e.request = r
  generalize e'.request = r'
  intro hr
  cases hr <;> rfl

theorem Since.progress (h : Since base δ pressed e e')
    (hd : Devices.Since p p' base δ pressed d d') :
    Progress.Since p p' base δ pressed (e.progress d) (e'.progress d') := by
  have hmirror := Devices.Since.mirror p p' base δ pressed
  have hcpu : e'.cpu = e.cpu := by rw [h.rest]
  have hleft : e'.left = e.left := by rw [h.rest]
  have hr := h.request
  unfold Engine.progress
  rw [hcpu, hleft]
  revert hr
  generalize e.request = r
  generalize e'.request = r'
  intro hr
  cases hr with
  | some hr => exact Progress.since_ofStep (Board.mirrors_resume hmirror hd e.cpu hr) e.left
  | none =>
    cases e.left with
    | succ left =>
      exact Progress.since_ofStep (Board.mirrors_step hmirror hd e.cpu fun _ => hd.delay) left
    | zero =>
      obtain ⟨hcrash, hc, hdev⟩ := Board.mirrors_push hmirror hd e.cpu
      exact ⟨hc, hdev, rfl, congrArg (fun x => some (Clock.Ending.ofCrash x)) hcrash, .none⟩

end Engine

namespace Machine

structure Since (p p' : Devices.Past) (base δ : UInt64) (pressed : Bool) (m m' : Machine) : Prop where
  options : m.options = m'.options
  devices : Devices.Since p p' base δ pressed m.devices m'.devices
  engine : Option.Rel (Engine.Since base δ pressed) m.engine m'.engine

variable {p p' : Devices.Past} {base δ : UInt64} {pressed : Bool} {m m' : Machine}
variable {e : Engine} {r' : Option KeyRequest} {a : Act}

section Running

variable (h : Since p p' base δ pressed m m') (he : m.engine = some e)
variable (he' : m'.engine = some { e with request := r' })

include h he he'

theorem since_close :
    Since p p' base δ pressed (m.act (.move .close)) (m'.act (.move .close)) := by
  simp only [act, move, close, he, he']
  split
  · exact ⟨h.options, h.devices.note _, .none⟩
  · exact h

variable (hr : Option.Rel (KeyRequest.Since base δ pressed) e.request r')

include hr

theorem since_instruction :
    Since p p' base δ pressed (m.act (.move .instruction)) (m'.act (.move .instruction)) := by
  cases hs : e.instructionClock.stage with
  | due =>
    simp only [act, move, he, he', Option.map_some, Option.getD_some, moveInstruction, hs]
    refine ⟨h.options, h.devices, .some ⟨?_, .none⟩⟩
    rw [h.options]
  | firing =>
    have hs' : ({ e with request := r' } : Engine).instructionClock.stage = .firing := hs
    have hsince : Engine.Since base δ pressed e { e with request := r' } := ⟨rfl, hr⟩
    have hp := hsince.progress h.devices
    have hsleeps : e.sleeps m.keypad = ({ e with request := r' } : Engine).sleeps m'.keypad :=
      hsince.sleeps h.devices.keypad
    cases ha : e.sleeps m.keypad with
    | true =>
      rw [act_of_sleeps he hs ha, act_of_sleeps he' hs' (hsleeps.symm.trans ha)]
      exact h
    | false =>
      rw [act_instruction_of_firing he hs ha,
        act_instruction_of_firing he' hs' (hsleeps.symm.trans ha), proceed, proceed]
      have hclock : (e.progress m.devices).clock e.instructionClock =
          (({ e with request := r' } : Engine).progress m'.devices).clock e.instructionClock := by
        rw [Engine.Progress.clock, Engine.Progress.clock, hp.ending]
      refine ⟨h.options, ?_, .some ⟨?_, hp.request⟩⟩
      · rw [hclock]
        exact hp.devices.noteAll _
      · rw [hclock, hp.cpu, hp.left]
  | resting | ended =>
    have hi : (Act.move .instruction).isIdle e = true := by simp [Act.isIdle, hs]
    rw [act_of_isIdle he hi, act_of_isIdle (a := .move .instruction) he' hi]
    exact h

theorem since_timer :
    Since p p' base δ pressed (m.act (.move .timer)) (m'.act (.move .timer)) := by
  cases hs : e.timerClock.stage with
  | due =>
    obtain ⟨hcrash, htick⟩ := h.devices.tick
    simp only [act, move, he, he', Option.map_some, Option.getD_some, moveTimer, hs, hcrash]
    exact ⟨h.options, htick.noteAll _, .some ⟨rfl, hr⟩⟩
  | firing | resting | ended =>
    have hi : (Act.move .timer).isIdle e = true := by simp [Act.isIdle, hs]
    rw [act_of_isIdle he hi, act_of_isIdle (a := .move .timer) he' hi]
    exact h

theorem since_wake (c : ClockName) :
    Since p p' base δ pressed (m.act (.move (wakeMove c))) (m'.act (.move (wakeMove c))) := by
  cases c <;> simp only [wakeMove, act, move, he, he', Option.map_some, Option.getD_some] <;>
    exact ⟨h.options, h.devices.noteAll _, .some ⟨rfl, hr⟩⟩

theorem since_cancel :
    Since p p' base δ pressed (m.act (.move .cancel)) (m'.act (.move .cancel)) := by
  simp only [act, move, Machine.cancel, he, he']
  exact ⟨h.options,
    h.devices.withKeypad { h.devices.keypad with interrupted := rfl, asleep := rfl },
    .some ⟨rfl, hr⟩⟩

theorem since_cancelClock (c : ClockName) :
    Since p p' base δ pressed (m.act (.cancel c)) (m'.act (.cancel c)) := by
  simp only [act, cancelClock, he, he', Option.map_some]
  cases c <;> exact ⟨h.options, h.devices, .some ⟨rfl, hr⟩⟩

end Running

def readied (d : Devices) : Devices :=
  { d with keypad := d.keypad.resume, timers := d.timers.reset }

def loadEvents (image : List UInt8) : List Event :=
  (if Memory.imageCapacity < image.length then [.truncated image.length] else []) ++
    [.loaded (Memory.loadSize image)]

theorem prepare_withScreen (d : Devices) (image : List UInt8) (screen : Screen) :
    { prepare d image with screen } =
      ({ readied d with screen } : Devices).noteAll (loadEvents image) := by
  rw [prepare, Journal.noteImage, loadEvents]
  split <;> rfl

theorem received_start (h : m.engine = none) (image : List UInt8) :
    (m.start image).1.devices.screen.received = .blank :: m.devices.screen.received := by
  rw [start_of_stopped h]
  cases m.devices.screen.crash? with
  | none => exact congrArg Screen.received (Devices.screen_noteAll _ _)
  | some c => rfl

theorem since_launch (ho : m.options = m'.options) (hm : m.engine = none) (hm' : m'.engine = none)
    (h : Devices.Since p p' base δ pressed (readied m.devices) (readied m'.devices))
    (image : List UInt8) (refusal : Option Clock.Refusal) :
    (m.launch image refusal).2 = (m'.launch image refusal).2 ∧
      Since p p' base δ pressed (m.launch image refusal).1 (m'.launch image refusal).1 := by
  obtain ⟨hcrash, hshown⟩ := h.present .blank
  have hcrash : m.devices.screen.crash? = m'.devices.screen.crash? := hcrash
  have hloaded := hshown.noteAll (loadEvents image)
  have hd : ∀ d : Devices, (readied d).screen = (prepare d image).screen := fun _ => rfl
  rw [hd, hd, ← prepare_withScreen, ← prepare_withScreen] at hloaded
  rw [launch_of_stopped hm, launch_of_stopped hm', hcrash]
  cases m'.devices.screen.crash? with
  | some c => exact ⟨rfl, ho, hloaded, by rw [hm, hm']; exact .none⟩
  | none =>
    rw [launched, launched, ← ho]
    refine ⟨rfl, rfl, hloaded.noteAll _, ?_⟩
    cases refusal with
    | none => exact .some ⟨rfl, .none⟩
    | some r =>
      obtain ⟨name, cause⟩ := r
      cases name with
      | instruction => exact .none
      | timer => exact .some ⟨rfl, .none⟩

theorem since_start (ho : m.options = m'.options) (hm : m.engine = none) (hm' : m'.engine = none)
    (h : Devices.Since p p' base δ pressed (readied m.devices) (readied m'.devices))
    (image : List UInt8) :
    (m.start image).2 = (m'.start image).2 ∧
      Since p p' base δ pressed (m.start image).1 (m'.start image).1 := by
  rw [start_eq_launch, start_eq_launch]
  exact since_launch ho hm hm' h image none

theorem Since.same (h : Since p p' base δ pressed m m') :
    ∃ more, Since p p' base δ (pressed || more) m m' :=
  ⟨false, by rwa [Bool.or_false]⟩

theorem since_outer {o : Outer} (h : Since p p' base δ pressed m m') (ho : a.outer? = some o)
    (ha : a.isSteady = true) :
    ∃ more, Since p p' base δ (pressed || more) { m with devices := m.devices.undergo o }
      { m' with devices := m'.devices.undergo o } := by
  obtain ⟨more, hd⟩ := h.devices.undergo ho ha
  exact ⟨more, h.options, hd, rel_mono h.engine fun he => he.more more⟩

theorem since_act_of_stopped (h : Since p p' base δ pressed m m') (ha : a.isSteady = true)
    (hm : m.engine = none) (hm' : m'.engine = none) :
    ∃ more, Since p p' base δ (pressed || more) (m.act a) (m'.act a) := by
  cases hstart : a.starts with
  | true =>
    obtain ⟨image, refusal, rfl⟩ := eq_start_of_starts hstart
    have hready : Devices.Since p p' base δ pressed (readied m.devices) (readied m'.devices) :=
      { h.devices with
        keypad := { h.devices.keypad with interrupted := rfl }, delay := rfl, sound := rfl }
    exact (since_launch h.options hm hm' hready image refusal).2.same
  | false =>
    rw [act_of_stopped hm hstart, act_of_stopped hm' hstart]
    cases ho : a.outer? with
    | none => exact h.same
    | some o => exact since_outer h ho ha

theorem Since.engines (h : Since p p' base δ pressed m m') :
    (m.engine = none ∧ m'.engine = none) ∨
      ∃ e r', m.engine = some e ∧ m'.engine = some { e with request := r' } ∧
        Option.Rel (KeyRequest.Since base δ pressed) e.request r' := by
  have hengine := h.engine
  revert hengine
  generalize m.engine = x
  generalize m'.engine = x'
  intro hengine
  cases hengine with
  | none => exact .inl ⟨rfl, rfl⟩
  | @some e e' he => exact .inr ⟨e, e'.request, rfl, congrArg some he.rest, he.request⟩

theorem since_act (h : Since p p' base δ pressed m m') (ha : a.isSteady = true) :
    ∃ more, Since p p' base δ (pressed || more) (m.act a) (m'.act a) := by
  obtain ⟨hm, hm'⟩ | ⟨e, r', hm, hm', hr⟩ := h.engines
  · exact since_act_of_stopped h ha hm hm'
  · match a with
    | .move (.start _ _) =>
      rw [act_of_isIdle hm rfl, act_of_isIdle hm' rfl]
      exact h.same
    | .move .instruction => exact (since_instruction h hm hm' hr).same
    | .move .timer => exact (since_timer h hm hm' hr).same
    | .move .wakeInstruction => exact (since_wake h hm hm' hr .instruction).same
    | .move .wakeTimer => exact (since_wake h hm hm' hr .timer).same
    | .move .cancel => exact (since_cancel h hm hm' hr).same
    | .move .close => exact (since_close h hm hm').same
    | .cancel c => exact (since_cancelClock h hm hm' hr c).same
    | .move (.key _ _) | .move (.setDelay _) | .move (.setSound _) | .outer _ =>
      rw [act_of_outer? m rfl, act_of_outer? m' rfl]
      exact since_outer h rfl ha

theorem since_acts (h : Since p p' base δ pressed m m') {l : List Act}
    (hl : ∀ a ∈ l, a.isSteady = true) :
    ∃ more, Since p p' base δ (pressed || more) (m.acts l) (m'.acts l) := by
  induction l generalizing m m' pressed with
  | nil => exact h.same
  | cons a l ih =>
    obtain ⟨ha, hrest⟩ := List.forall_mem_cons.1 hl
    obtain ⟨more, hact⟩ := since_act h ha
    obtain ⟨more', hacts⟩ := ih hact hrest
    exact ⟨more || more', by rwa [Bool.or_assoc] at hacts⟩

structure Startable (m m' : Machine) : Prop where
  stopped : m.engine = none
  stopped' : m'.engine = none
  held : m.devices.keypad.held = m'.devices.keypad.held
  ahead : m.devices.random.ahead = m'.devices.random.ahead
  flaw : m.devices.timers.speaker.flaw = m'.devices.timers.speaker.flaw
  stopFlaw : m.devices.timers.speaker.stopFlaw = m'.devices.timers.speaker.stopFlaw
  breaks : m.devices.screen.breaks = m'.devices.screen.breaks

def past (m : Machine) : Devices.Past where
  calls := m.devices.timers.speaker.calls
  received := m.devices.screen.received
  reports := m.devices.journal.reports

theorem Startable.readied (h : Startable m m') (hm : m.Coherent) (hm' : m'.Coherent) :
    Devices.Since m.past m'.past m.devices.keypad.presses
      (m'.devices.keypad.presses - m.devices.keypad.presses) false
      (Machine.readied m.devices) (Machine.readied m'.devices) := by
  have hpresses : m'.devices.keypad.presses =
      m.devices.keypad.presses + (m'.devices.keypad.presses - m.devices.keypad.presses) := by
    rw [UInt64.add_comm, UInt64.sub_add_cancel]
  exact {
    keypad := {
      held := h.held
      waiting := (hm.waiting_of_stopped h.stopped).trans (hm'.waiting_of_stopped h.stopped').symm
      interrupted := rfl
      asleep := (hm.asleep_of_stopped h.stopped).trans (hm'.asleep_of_stopped h.stopped').symm
      presses := hpresses
      quiet := fun _ => rfl
      lastKey := nofun }
    delay := rfl
    sound := rfl
    flaw := h.flaw
    stopFlaw := h.stopFlaw
    breaks := h.breaks
    ahead := h.ahead
    calls := .refl ..
    received := .refl ..
    reports := .refl .. }

structure EngineView where
  cpu : Cpu
  instructionClock : Clock
  timerClock : Clock
  left : Nat
  asked : Option (Nibble × Keypad.Verdict)
  deriving DecidableEq

structure Record where
  engine : Option EngineView
  held : Vector Bool 16
  waiting : Bool
  interrupted : Bool
  asleep : Bool
  delay : UInt8
  sound : UInt8
  frames : List Picture
  calls : List ToneCall
  reports : List Event
  deriving DecidableEq

def record (m : Machine) (p : Devices.Past) : Record where
  engine := m.engine.map fun e => {
    cpu := e.cpu
    instructionClock := e.instructionClock
    timerClock := e.timerClock
    left := e.left
    asked := e.request.map fun r => (r.register, m.keypad.verdict r.wait) }
  held := m.keypad.held
  waiting := m.keypad.waiting
  interrupted := m.keypad.interrupted
  asleep := m.keypad.asleep
  delay := m.timers.delay
  sound := m.timers.sound
  frames := gained p.received m.devices.screen.received
  calls := gained p.calls m.timers.speaker.calls
  reports := gained p.reports m.devices.journal.reports

theorem Since.record (h : Since p p' base δ pressed m m') : m.record p = m'.record p' := by
  have hk := h.devices.keypad
  rw [Machine.record, Machine.record, Record.mk.injEq]
  refine ⟨?_, hk.held, hk.waiting, hk.interrupted, hk.asleep, h.devices.delay, h.devices.sound,
    h.devices.received.gained, h.devices.calls.gained, h.devices.reports.gained⟩
  refine map_eq_of_rel h.engine fun {e e'} he => ?_
  have hasked : e.request.map (fun r => (r.register, m.keypad.verdict r.wait)) =
      e'.request.map fun r => (r.register, m'.keypad.verdict r.wait) :=
    map_eq_of_rel he.request fun hr => Prod.ext hr.register (hk.verdict hr)
  rw [hasked, he.rest]

theorem Since.recount (h : Since p p' base δ pressed m m') :
    Since { p with received := m.devices.screen.received }
      { p' with received := m'.devices.screen.received } base δ pressed m m' :=
  ⟨h.options, { h.devices with received := .refl .. }, h.engine⟩

theorem frames_record {more : List Picture}
    (h : m'.devices.screen.received = more ++ .blank :: m.devices.screen.received) :
    (m'.record m.past).frames = .blank :: more.reverse := by
  have hm : m'.devices.screen.received = (more ++ [.blank]) ++ m.devices.screen.received := by
    rw [h, List.append_assoc]
    rfl
  rw [record, hm, past, gained_append, List.reverse_append]
  rfl

theorem restart_leaves_no_trace (o : Options) (d d' : Devices) (before before' : List Act)
    (h : Startable ((new o d).acts before) ((new o d').acts before')) (image : List UInt8)
    {l : List Act} (hl : ∀ a ∈ l, a.isSteady = true) :
    let m := (new o d).acts before
    let m' := (new o d').acts before'
    let n := (m.start image).1.acts l
    let n' := (m'.start image).1.acts l
    (m.start image).2 = (m'.start image).2 ∧ n.record m.past = n'.record m'.past ∧
      (n.record m.past).frames.head? = some .blank := by
  intro m m' n n'
  have hm : m.Coherent := coherent_acts (coherent_new o d) before
  have hm' : m'.Coherent := coherent_acts (coherent_new o d') before'
  have ho : m.options = m'.options :=
    (options_acts _ before).trans (options_acts (new o d') before').symm
  have hready := h.readied hm hm'
  obtain ⟨hstart, hsince⟩ := since_start ho h.stopped h.stopped' hready image
  obtain ⟨_, hacts⟩ := since_acts hsince hl
  refine ⟨hstart, hacts.record, ?_⟩
  -- counted from the start on, the blank picture is the last of the frames before
  obtain ⟨_, hmore⟩ := since_acts hsince.recount hl
  obtain ⟨more, hreceived, -⟩ := hmore.devices.received
  rw [received_start h.stopped] at hreceived
  rw [frames_record hreceived]
  rfl

def interruptedWait : List Act :=
  [.move (.start [0xF0, 0x0A]), .move (.key 3 true), .move .instruction, .move .instruction,
    .move (.setSound 9), .move .cancel, .move .instruction, .move .timer, .move .wakeTimer,
    .move .close, .move (.key 3 false), .move (.key 4 true), .move (.key 4 false)]

def answeredWait : List Act :=
  [.move .instruction, .move .instruction, .move (.key 7 true), .move .instruction, .move .timer]

theorem devices_interruptedWait :
    let m := (new {} {}).acts interruptedWait
    m.engine = none ∧ m.devices.keypad.held = Vector.replicate 16 false ∧
      m.devices.keypad.presses = 2 ∧ m.devices.keypad.interrupted = true ∧
      m.devices.random = {} ∧ m.devices.timers.speaker.flaw = none ∧
      m.devices.timers.speaker.stopFlaw = none ∧ m.devices.screen.flaw = none := by
  rw [interruptedWait, acts_start_new {} rfl]
  decide +kernel

theorem record_answeredWait :
    let r := (((new {} {}).launched [0xF0, 0x0A]).acts answeredWait).record (new {} {}).past
    r.engine.map (fun e => e.cpu.v[(0 : Nibble)]) = some 7 ∧ r.frames.length = 1 ∧ r.calls = [] ∧
      r.interrupted = false := by
  decide +kernel

theorem Startable.of_flawless (h : m.engine = none) (h' : m'.engine = none)
    (hheld : m.devices.keypad.held = m'.devices.keypad.held)
    (hrandom : m.devices.random = m'.devices.random)
    (hflaw : m.devices.timers.speaker.flaw = m'.devices.timers.speaker.flaw)
    (hstop : m.devices.timers.speaker.stopFlaw = m'.devices.timers.speaker.stopFlaw)
    (hm : m.devices.screen.flaw = none) (hm' : m'.devices.screen.flaw = none) :
    Startable m m' := by
  refine ⟨h, h', hheld, congrArg RandomTape.ahead hrandom, hflaw, hstop, ?_⟩
  funext n
  simp only [Screen.breaks, hm, hm']

theorem restart_leaves_no_trace_after_wait :
    let m := (new {} {}).acts interruptedWait
    let r := ((m.start [0xF0, 0x0A]).1.acts answeredWait).record m.past
    Startable m ((new {} {}).acts []) ∧ (∀ a ∈ answeredWait, a.isSteady = true) ∧
      m.devices.keypad.presses = 2 ∧ m.devices.keypad.interrupted = true ∧
      r.frames.head? = some .blank ∧ r.engine.map (fun e => e.cpu.v[(0 : Nibble)]) = some 7 ∧
      r.frames.length = 1 ∧ r.calls = [] ∧ r.interrupted = false := by
  obtain ⟨hengine, hheld, hpresses, hinterrupted, hrandom, hflaw, hstop, hscreen⟩ :=
    devices_interruptedWait
  have hsteady : ∀ a ∈ answeredWait, a.isSteady = true := by decide
  have hstart : Startable ((new {} {}).acts interruptedWait) ((new {} {}).acts []) :=
    .of_flawless hengine rfl hheld hrandom hflaw hstop hscreen rfl
  obtain ⟨-, hrecord, hblank⟩ :=
    restart_leaves_no_trace {} {} {} interruptedWait [] hstart [0xF0, 0x0A] hsteady
  have hnew : (((new {} {}).acts []).start [0xF0, 0x0A]).1 = (new {} {}).launched [0xF0, 0x0A] :=
    congrArg Prod.fst (start_of_unbroken rfl rfl _)
  rw [hnew] at hrecord
  refine ⟨hstart, hsteady, hpresses, hinterrupted, hblank, ?_⟩
  have hseen := record_answeredWait
  rw [acts_nil] at hrecord
  rw [← hrecord] at hseen
  exact hseen

end Machine

end Chip8
