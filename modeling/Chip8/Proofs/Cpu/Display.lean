import Chip8.Cpu.Session
import Chip8.Proofs.Cpu.Process
import Chip8.Proofs.Keypad.Wait

namespace Chip8

inductive Happening where
  | keypad (op : Keypad.Op)
  | timers (op : Timers.Op)
  | random (tape : RandomTape)
  deriving DecidableEq, Repr

def Devices.happen (d : Devices) : Happening → Devices
  | .keypad op => { d with keypad := d.keypad.apply op }
  | .timers op => { d with timers := d.timers.apply op }
  | .random tape => { d with random := tape }

def Devices.roused (d : Devices) : Devices := { d with keypad := d.keypad.notify }

theorem Devices.screen_happen (d : Devices) (h : Happening) : (d.happen h).screen = d.screen := by
  cases h <;> rfl

theorem Devices.screen_poll (d : Devices) (key : UInt8) : (d.poll key).1.screen = d.screen := by
  unfold poll
  split <;> rfl

def Cpu.paints (c : Cpu) (ins : Instruction) : Bool :=
  match ins.opcode with
  | .clearDisplay => true
  | .draw => !(Sprite.placed c.clip c.v[ins.x] c.v[ins.y] (c.sprite ins.n)).isEmpty
  | _ => false

def Cpu.paintsNext (c : Cpu) : Bool := c.instruction?.any c.paints

namespace Board

theorem dirty_execute {b : Board} {ins : Instruction} (h : b.cpu.paints ins = true) :
    (b.execute ins).1.cpu.framebuffer.dirty = true := by
  cases ho : ins.opcode <;> simp only [Cpu.paints, ho, Bool.false_eq_true] at h
  case clearDisplay => simp only [execute, ho, Framebuffer.clear]
  case draw =>
    simp only [execute, ho, Cpu.draw, Cpu.set, Framebuffer.dirty_draw, h, Bool.or_true]

theorem framebuffer_execute {b : Board} {ins : Instruction} (h : b.cpu.paints ins = false) :
    (b.execute ins).1.cpu.framebuffer = b.cpu.framebuffer := by
  cases ho : ins.opcode
  case clearDisplay => simp only [Cpu.paints, ho, Bool.true_eq_false] at h
  case draw =>
    simp only [Cpu.paints, ho, Bool.not_eq_false'] at h
    simp only [execute, ho, Cpu.draw, Cpu.set, Framebuffer.draw_of_isEmpty _ h]
  case ret =>
    rw [execute_ret ho]
    split <;> rfl
  case call =>
    rw [execute_call ho]
    split <;> rfl
  case awaitKey =>
    simp only [execute, ho, awaitKey_eq]
    split <;> rfl
  case skipEqualByte | skipUnequalByte | skipEqual | skipUnequal | skipPressed | skipReleased =>
    simp only [execute, ho, skipOnKey, Cpu.skipIf_eq]
  all_goals simp only [execute, ho] <;> rfl

theorem screen_execute (b : Board) (ins : Instruction) :
    (b.execute ins).1.devices.screen = b.devices.screen := by
  cases ho : ins.opcode
  case ret =>
    rw [execute_ret ho]
    split <;> rfl
  case call =>
    rw [execute_call ho]
    split <;> rfl
  case awaitKey =>
    simp only [execute, ho, awaitKey_eq]
    split <;> rfl
  case skipPressed | skipReleased =>
    simp only [execute, ho, skipOnKey, Devices.screen_poll]
  all_goals simp only [execute, ho] <;> rfl

def IsShown (b : Board) : Prop :=
  b.devices.screen.received.head? = some b.cpu.framebuffer.picture

def IsClean (b : Board) : Prop := b.cpu.framebuffer.dirty = false

def Honest (b : Board) : Prop := b.IsClean → b.IsShown

def SameView (b b' : Board) : Prop :=
  b'.cpu.framebuffer = b.cpu.framebuffer ∧ b'.devices.screen = b.devices.screen

theorem SameView.isClean_iff {b b' : Board} (h : b.SameView b') : b'.IsClean ↔ b.IsClean := by
  rw [IsClean, IsClean, h.1]

theorem SameView.honest {b b' : Board} (h : b.SameView b') (hb : b.Honest) : b'.Honest := by
  rw [Honest, IsShown, h.1, h.2, h.isClean_iff]
  exact hb

theorem SameView.trans {a b c : Board} (h : a.SameView b) (k : b.SameView c) : a.SameView c :=
  ⟨k.1.trans h.1, k.2.trans h.2⟩

theorem sameView_finish (r : Board × Outcome) : SameView r.1 (finish r).1 := by
  obtain ⟨b, o⟩ := r
  cases o <;> exact ⟨rfl, rfl⟩

theorem sameView_awaitKey (b : Board) (x : Nibble) : b.SameView (b.awaitKey x).1 := by
  rw [awaitKey_eq]
  split <;> exact ⟨rfl, rfl⟩

theorem sameView_resume (b : Board) (r : KeyRequest) : b.SameView (b.resume r).1 := by
  rw [resume_eq]
  split <;> exact ⟨rfl, rfl⟩

theorem honest_push {b : Board} (h : b.Honest) : b.push.1.Honest := by
  cases hd : b.cpu.framebuffer.dirty with
  | false => rwa [push_of_clean hd]
  | true =>
    cases hc : b.devices.screen.crash? with
    | none =>
      rw [push_of_dirty hd hc]
      exact fun _ => rfl
    | some c =>
      rw [push_of_crash hd hc]
      exact fun hn => absurd (hd.symm.trans hn) Bool.true_eq_false.mp

theorem isClean_push {b : Board} (h : b.push.2 = none) : b.push.1.IsClean := by
  cases hd : b.cpu.framebuffer.dirty with
  | false => rwa [push_of_clean hd]
  | true =>
    cases hc : b.devices.screen.crash? with
    | none =>
      rw [push_of_dirty hd hc]
      rfl
    | some c =>
      rw [push_of_crash hd hc] at h
      cases h

theorem view_step (b : Board) :
    b.cpu.paintsNext = true ∧ b.step.1.cpu.framebuffer.dirty = true ∧
        b.step.1.devices.screen = b.devices.screen ∨
      b.cpu.paintsNext = false ∧ (b.SameView b.step.1 ∨ b.push.1.SameView b.step.1) := by
  cases hi : b.cpu.instruction? with
  | none =>
    rw [step_of_data hi, Cpu.paintsNext, hi]
    exact .inr ⟨rfl, .inl ⟨rfl, rfl⟩⟩
  | some ins =>
    rw [Cpu.paintsNext, hi, Option.any_some]
    by_cases ho : ins.opcode = .awaitKey
    · have hn : b.cpu.paints ins = false := by simp only [Cpu.paints, ho]
      have hb : b.push.1.SameView (b.begun ins).push.1 := ⟨rfl, rfl⟩
      refine .inr ⟨hn, .inr ?_⟩
      cases hp : b.push.2 with
      | none =>
        rw [step_awaitKey hi ho hp]
        exact hb.trans (sameView_awaitKey _ _)
      | some c =>
        rw [step_awaitKey_crash hi ho hp]
        exact hb
    · have hf := sameView_finish ((b.begun ins).execute ins)
      have hscreen := (b.begun ins).screen_execute ins
      rw [step_of_ne_awaitKey hi ho]
      cases hp : b.cpu.paints ins with
      | true => exact .inl ⟨rfl, hf.1 ▸ dirty_execute hp, hf.2.trans hscreen⟩
      | false =>
        have hb : b.SameView ((b.begun ins).execute ins).1 :=
          ⟨framebuffer_execute (b := b.begun ins) hp, hscreen⟩
        exact .inr ⟨rfl, .inl (hb.trans hf)⟩

theorem honest_step {b : Board} (h : b.Honest) : b.step.1.Honest := by
  obtain ⟨-, hd, -⟩ | ⟨-, hv | hv⟩ := b.view_step
  · exact fun hn => absurd (hd.symm.trans hn) nofun
  · exact hv.honest h
  · exact hv.honest (honest_push h)

theorem isClean_of_waiting {b : Board} {r : KeyRequest} (h : b.step.2 = .waiting r) :
    b.step.1.IsClean := by
  have he := b.ends_step
  rw [h] at he
  cases he with
  | waiting r ho hp _ =>
    obtain ⟨ins, hi, ho⟩ := Cpu.opcode?_eq_some_iff.1 ho
    have hc : (b.begun ins).push.1.IsClean := isClean_push hp
    rw [step_awaitKey hi ho hp]
    exact (sameView_awaitKey _ _).isClean_iff.2 hc

theorem run_preserves {P : Board → Prop} (hP : ∀ b, P b → P b.step.1) (n : Nat) {b : Board}
    (h : P b) : P (b.run n).1 := by
  induction n generalizing b with
  | zero => exact h
  | succ n ih =>
    have hs := hP b h
    rw [run]
    cases hb : b.step with
    | mk b' o =>
      rw [hb] at hs
      cases o with
      | done => exact ih hs
      | failed | crashed | waiting => exact hs

theorem isClean_of_run_waiting {n : Nat} {b : Board} {r : KeyRequest} {left : Nat}
    (h : (b.run n).2 = .waiting r left) : (b.run n).1.IsClean := by
  induction n generalizing b with
  | zero => cases h
  | succ n ih =>
    rw [run] at h ⊢
    cases hb : b.step with
    | mk b' o =>
      rw [hb] at h
      cases o with
      | done => exact ih h
      | failed | crashed => cases h
      | waiting r' =>
        have hc : b.step.1.IsClean := isClean_of_waiting (congrArg Prod.snd hb)
        rwa [hb] at hc

structure Shows (closed : Bool) (r : Board × Rest) : Prop where
  honest : r.1.Honest
  waiting : ∀ k left, r.2 = .waiting k left → r.1.IsClean
  finished : closed = true → r.2 = .finished → r.1.IsClean

theorem shows_run {b : Board} (h : b.Honest) (n : Nat) : Shows false (b.run n) :=
  ⟨run_preserves (fun _ => honest_step) n h, fun _ _ => isClean_of_run_waiting, nofun⟩

theorem shows_resumeRun {b : Board} (h : b.Honest) (hc : b.IsClean) (k : KeyRequest) (left : Nat) :
    Shows false (resumeRun k left b) := by
  have hv := sameView_resume b k
  rw [resumeRun]
  cases hb : b.resume k with
  | mk b' o =>
    rw [hb] at hv
    cases o with
    | done => exact shows_run (hv.honest h) left
    | failed | crashed => exact ⟨hv.honest h, nofun, nofun⟩
    | waiting k' => exact ⟨hv.honest h, fun _ _ _ => hv.isClean_iff.2 hc, nofun⟩

theorem closeBlock_of_pushed {b : Board} (h : b.push.2 = none) :
    closeBlock (b, .finished) = (b.push.1, .finished) := by
  have hp : b.push = (b.push.1, none) := Prod.ext rfl h
  rw [closeBlock, hp]

theorem closeBlock_of_crash {b : Board} {c : Crash} (h : b.push.2 = some c) :
    closeBlock (b, .finished) = (b.push.1, .crashed c) := by
  have hp : b.push = (b.push.1, some c) := Prod.ext rfl h
  rw [closeBlock, hp]

theorem shows_closeBlock {r : Board × Rest} (h : Shows false r) : Shows true (closeBlock r) := by
  obtain ⟨b, rest⟩ := r
  cases rest with
  | finished =>
    cases hp : b.push.2 with
    | none =>
      rw [closeBlock_of_pushed hp]
      exact ⟨honest_push h.honest, nofun, fun _ _ => isClean_push hp⟩
    | some c =>
      rw [closeBlock_of_crash hp]
      exact ⟨honest_push h.honest, nofun, nofun⟩
  | failed f => exact ⟨h.honest, nofun, nofun⟩
  | crashed c => exact ⟨h.honest, nofun, nofun⟩
  | waiting k left => exact ⟨h.honest, h.waiting, nofun⟩

end Board

namespace Session

inductive Move where
  | give (task : Task)
  | look
  | push
  | happen (h : Happening)
  deriving DecidableEq, Repr

def act (s : Session) : Move → Session × Option Reply
  | .give task =>
    if s.isHeld then (s, none)
    else
      let (s, reply) := s.give task
      (s, some reply)
  | .look => s.poke
  | .push => if s.isHeld then (s, none) else ({ s with board := s.board.push.1 }, none)
  | .happen h => (s.onDevices (·.happen h), none)

def moves (s : Session) (ms : List Move) : Session := ms.foldl (fun s m => (s.act m).1) s

def task? (s : Session) : Move → Option Task
  | .give task => if s.isHeld then none else some task
  | .look => s.held.map (·.2)
  | _ => none

def boot (memory : Memory) (clip : Bool) (devices : Devices) : Session :=
  ⟨⟨.boot memory clip, devices⟩, none⟩

structure Showing (s : Session) : Prop where
  honest : s.board.Honest
  held : s.isHeld = true → s.board.IsClean

theorem showing_boot (memory : Memory) (clip : Bool) (devices : Devices) :
    (boot memory clip devices).Showing :=
  ⟨fun hd => absurd hd nofun, nofun⟩

theorem showing_settle {closed : Bool} {r : Board × Board.Rest} (h : Board.Shows closed r)
    (task : Task) (trail : List Board) : (settle task trail r.1 r.2).1.Showing := by
  obtain ⟨b, rest⟩ := r
  cases rest with
  | waiting k left => exact ⟨h.honest, fun _ => h.waiting k left rfl⟩
  | finished | failed | crashed => exact ⟨h.honest, nofun⟩

theorem isClean_settle {r : Board × Board.Rest} (h : Board.Shows true r) {task : Task}
    {trail seen : List Board} (he : (settle task trail r.1 r.2).2 = .ended seen .finished) :
    (settle task trail r.1 r.2).1.board.IsClean := by
  obtain ⟨b, rest⟩ := r
  cases rest with
  | finished => exact h.finished rfl rfl
  | failed | crashed | waiting => cases he

theorem exists_shows_give {s : Session} (h : s.board.Honest) (task : Task) :
    ∃ r trail, Board.Shows task.asBlock r ∧ s.give task = settle task trail r.1 r.2 := by
  cases hb : task.asBlock with
  | false => exact ⟨_, _, Board.shows_run h task.steps, by simp only [give, hb]; rfl⟩
  | true =>
    have hs := Board.shows_closeBlock (Board.shows_run h task.steps)
    exact ⟨_, _, hs, by simp only [give, hb]; rfl⟩

theorem exists_shows_poke {s : Session} (h : s.Showing) {k : KeyRequest} {task : Task}
    (hk : s.held = some (k, task)) (hv : s.board.devices.keypad.asleep = false) :
    ∃ r trail, Board.Shows task.asBlock r ∧
      s.poke = ((settle task trail r.1 r.2).1, some (settle task trail r.1 r.2).2) := by
  have hc : s.board.IsClean := h.held (by rw [isHeld, hk]; rfl)
  have hr := Board.shows_resumeRun h.honest hc k task.steps
  cases hb : task.asBlock with
  | false => exact ⟨_, _, hr, by simp only [poke, hk, hv, hb]; rfl⟩
  | true => exact ⟨_, _, Board.shows_closeBlock hr, by simp only [poke, hk, hv, hb]; rfl⟩

theorem showing_or_settles {s : Session} (h : s.Showing) (m : Move) :
    (s.act m).1.Showing ∧ (s.act m).2 = none ∨
      ∃ task r trail, s.task? m = some task ∧ Board.Shows task.asBlock r ∧
        s.act m = ((settle task trail r.1 r.2).1, some (settle task trail r.1 r.2).2) := by
  cases m with
  | give task =>
    cases hh : s.isHeld with
    | true =>
      have he : s.act (.give task) = (s, none) := if_pos hh
      rw [he]
      exact .inl ⟨h, rfl⟩
    | false =>
      obtain ⟨r, trail, hs, hg⟩ := exists_shows_give h.honest task
      refine .inr ⟨task, r, trail, ?_, hs, ?_⟩
      · simp only [task?, hh, Bool.false_eq_true, if_false]
      · simp only [act, hh, Bool.false_eq_true, if_false, hg]
  | look =>
    cases hk : s.held with
    | none =>
      have he : s.act .look = (s, none) := by rw [act, poke, hk]
      rw [he]
      exact .inl ⟨h, rfl⟩
    | some kt =>
      obtain ⟨k, task⟩ := kt
      cases hv : s.board.devices.keypad.asleep with
      | true =>
        have he : s.act .look = (s, none) := by simp only [act, poke, hk, hv, if_true]
        rw [he]
        exact .inl ⟨h, rfl⟩
      | false =>
        obtain ⟨r, trail, hs, hp⟩ := exists_shows_poke h hk hv
        exact .inr ⟨task, r, trail, by rw [task?, hk]; rfl, hs, hp⟩
  | push =>
    left
    cases hh : s.isHeld with
    | true =>
      have he : s.act .push = (s, none) := if_pos hh
      rw [he]
      exact ⟨h, rfl⟩
    | false =>
      have he : s.act .push = ({ s with board := s.board.push.1 }, none) :=
        if_neg (by rw [hh]; exact Bool.false_ne_true)
      rw [he]
      exact ⟨⟨Board.honest_push h.honest, fun hn => absurd (hh.symm.trans hn) nofun⟩, rfl⟩
  | happen e =>
    have hv : s.board.SameView (s.act (.happen e)).1.board := ⟨rfl, Devices.screen_happen _ e⟩
    exact .inl ⟨⟨hv.honest h.honest, fun hh => hv.isClean_iff.2 (h.held hh)⟩, rfl⟩

theorem showing_act {s : Session} (h : s.Showing) (m : Move) : (s.act m).1.Showing := by
  obtain ⟨hs, -⟩ | ⟨task, r, trail, -, hs, he⟩ := showing_or_settles h m
  · exact hs
  · rw [he]
    exact showing_settle hs task trail

theorem showing_moves {s : Session} (h : s.Showing) (ms : List Move) : (s.moves ms).Showing := by
  induction ms generalizing s with
  | nil => exact h
  | cons m ms ih => exact ih (showing_act h m)

theorem isClean_of_finished {s : Session} (h : s.Showing) {m : Move} {task : Task}
    {trail : List Board} (ht : s.task? m = some task) (hb : task.asBlock = true)
    (hr : (s.act m).2 = some (.ended trail .finished)) : (s.act m).1.board.IsClean := by
  obtain ⟨-, hn⟩ | ⟨task', r, seen, ht', hs, he⟩ := showing_or_settles h m
  · rw [hn] at hr
    cases hr
  · obtain rfl : task = task' := Option.some.inj (ht.symm.trans ht')
    rw [hb] at hs
    rw [he] at hr ⊢
    exact isClean_settle hs (Option.some.inj hr)

end Session

namespace Process

structure Showing (p : Process) : Prop where
  honest : p.board.Honest
  waiting : p.request ≠ none → p.board.IsClean

theorem showing_boot (memory : Memory) (clip : Bool) (devices : Devices) :
    (boot memory clip devices).Showing :=
  ⟨fun hd => absurd hd nofun, fun hn => absurd rfl hn⟩

theorem showing_settle {r : Board × Outcome} (h : r.1.Honest)
    (hw : ∀ k, r.2 = .waiting k → r.1.IsClean) : (settle r).Showing := by
  obtain ⟨b, o⟩ := r
  cases o with
  | waiting k => exact ⟨h, fun _ => hw k rfl⟩
  | done | failed | crashed => exact ⟨h, fun hn => absurd rfl hn⟩

theorem showing_move {p : Process} (h : p.Showing) (m : Move) : (p.move m).Showing := by
  cases m with
  | go =>
    cases hr : p.request with
    | none =>
      rw [move, attempt_of_none hr]
      exact showing_settle (Board.honest_step h.honest) (fun _ => Board.isClean_of_waiting)
    | some k =>
      have hv := Board.sameView_resume p.board k
      have hc : p.board.IsClean := h.waiting (by rw [hr]; exact Option.some_ne_none k)
      rw [move, attempt_of_some hr]
      exact showing_settle (hv.honest h.honest) (fun _ _ => hv.isClean_iff.2 hc)
  | push =>
    cases hr : p.request with
    | none =>
      simp only [move, hr, Option.isNone_none, if_true]
      exact ⟨Board.honest_push h.honest, fun hn => absurd rfl hn⟩
    | some k =>
      simp only [move, hr, Option.isNone_some, Bool.false_eq_true, if_false]
      exact h
  | key | interrupt | resume | timers => exact ⟨h.honest, h.waiting⟩

theorem showing_moves {p : Process} (h : p.Showing) (ms : List Move) : (p.moves ms).Showing := by
  induction ms generalizing p with
  | nil => exact h
  | cons m ms ih => exact ih (showing_move h m)

end Process

theorem Session.clean_display_is_shown (memory : Memory) (clip : Bool) (devices : Devices) :
    (∀ ms, let s := (Session.boot memory clip devices).moves ms
      (s.board.cpu.framebuffer.dirty = false → s.board.IsShown) ∧
        (s.isHeld = true → s.board.IsShown) ∧
        ∀ m task trail, s.task? m = some task → task.asBlock = true →
          (s.act m).2 = some (.ended trail .finished) → (s.act m).1.board.IsShown) ∧
      ∀ ms, let p := (Process.boot memory clip devices).moves ms
        (p.board.cpu.framebuffer.dirty = false → p.board.IsShown) ∧
          (p.request ≠ none → p.board.IsShown) ∧
          (p.board.push.2 = none → p.board.push.1.IsShown) := by
  constructor
  · intro ms s
    have h : s.Showing := Session.showing_moves (Session.showing_boot memory clip devices) ms
    refine ⟨h.honest, fun hh => h.honest (h.held hh), ?_⟩
    intro m task trail ht hb hr
    exact (Session.showing_act h m).honest (Session.isClean_of_finished h ht hb hr)
  · intro ms p
    have h : p.Showing := Process.showing_moves (Process.showing_boot memory clip devices) ms
    exact ⟨h.honest, fun hw => h.honest (h.waiting hw),
      fun hp => Board.honest_push h.honest (Board.isClean_push hp)⟩

namespace Session

def sketch : Memory :=
  Memory.blank.store 0x200 [0xA2, 0x00, 0xD0, 0x01, 0xF1, 0x0A, 0x00, 0xE0]

def block : Move := .give { steps := 4, asBlock := true }

def press : Move := .happen (.keypad (.set 7 true))

theorem clean_display_of_sketch_is_shown :
    ((boot sketch false {}).moves [block]).isHeld = true ∧
      ((boot sketch false {}).moves [block]).board.IsShown ∧
      (((boot sketch false {}).moves [block, press]).act .look).2 = some (.ended [] .finished) ∧
      (((boot sketch false {}).moves [block, press]).act .look).1.board.IsShown := by
  obtain ⟨hsession, -⟩ := clean_display_is_shown sketch false {}
  obtain ⟨-, hwaits, -⟩ := hsession [block]
  obtain ⟨-, -, hends⟩ := hsession [block, press]
  have hheld : ((boot sketch false {}).moves [block]).isHeld = true := by decide +kernel
  have htask : ((boot sketch false {}).moves [block, press]).task? .look =
      some { steps := 1, asBlock := true } := by decide +kernel
  have hended : (((boot sketch false {}).moves [block, press]).act .look).2 =
      some (.ended [] .finished) := by decide +kernel
  exact ⟨hheld, hwaits hheld, hended, hends .look _ _ htask rfl hended⟩

end Session

end Chip8
