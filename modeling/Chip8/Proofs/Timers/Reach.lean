import Chip8.Proofs.Cpu.Mirror
import Chip8.Proofs.Cpu.View

namespace Chip8

inductive Woven {α : Type} (skip : α → Bool) : List α → List α → Prop
  | nil : Woven skip [] []
  | left {x : α} {l l' : List α} : skip x = true → Woven skip l l' → Woven skip (x :: l) l'
  | right {x : α} {l l' : List α} : skip x = true → Woven skip l l' → Woven skip l (x :: l')
  | both (x : α) {l l' : List α} : Woven skip l l' → Woven skip (x :: l) (x :: l')

theorem woven_of_filter_eq {α : Type} {skip : α → Bool} {l l' : List α}
    (h : (l.filter fun x => !skip x) = l'.filter fun x => !skip x) : Woven skip l l' := by
  induction l generalizing l' with
  | nil =>
    induction l' with
    | nil => exact .nil
    | cons y l' ih =>
      cases hy : skip y with
      | true =>
        rw [List.filter_cons_of_neg (by simp [hy])] at h
        exact .right hy (ih h)
      | false =>
        rw [List.filter_cons_of_pos (by simp [hy])] at h
        cases h
  | cons x l ih =>
    cases hx : skip x with
    | true =>
      rw [List.filter_cons_of_neg (by simp [hx])] at h
      exact .left hx (ih h)
    | false =>
      rw [List.filter_cons_of_pos (by simp [hx])] at h
      induction l' with
      | nil => cases h
      | cons y l' ih' =>
        cases hy : skip y with
        | true =>
          rw [List.filter_cons_of_neg (by simp [hy])] at h
          exact .right hy (ih' h)
        | false =>
          rw [List.filter_cons_of_pos (by simp [hy])] at h
          obtain ⟨rfl, hrest⟩ := List.cons_eq_cons.1 h
          exact .both x (ih hrest)

namespace Timers

theorem flaw_apply (t : Timers) (op : Op) : (t.apply op).speaker.flaw = t.speaker.flaw := by
  cases op with
  | setDelay value | reset => rfl
  | setSound value =>
    simp only [apply, setSound]
    split <;> rfl
  | tick =>
    simp only [apply, tick]
    split <;> rfl

theorem delay_setSound (t : Timers) (value : UInt8) : (t.setSound value).1.delay = t.delay := by
  rw [setSound]
  split <;> rfl

theorem delay_apply {t t' : Timers} (h : t.delay = t'.delay) (op : Op) :
    (t.apply op).delay = (t'.apply op).delay := by
  cases op with
  | setDelay value | reset => rfl
  | setSound value => rw [apply, apply, delay_setSound, delay_setSound, h]
  | tick => exact congrArg lower h

theorem crash_setSound {t : Timers} (h : t.speaker.flaw = none) (value : UInt8) :
    (t.setSound value).2 = none := by
  rw [setSound]
  split
  · rfl
  · exact h

end Timers

structure Devices.Untimed (tied : Bool) (d d' : Devices) : Prop where
  keypad : d.keypad = d'.keypad
  ahead : d.random.ahead = d'.random.ahead
  breaks : d.screen.breaks = d'.screen.breaks
  flaw : d.timers.speaker.flaw = none
  flaw' : d'.timers.speaker.flaw = none
  delay : tied = true → d.timers.delay = d'.timers.delay

namespace Devices.Untimed

variable {tied : Bool} {d d' : Devices}

theorem withKeypad (h : Untimed tied d d') (f : Keypad → Keypad) :
    Untimed tied { d with keypad := f d.keypad } { d' with keypad := f d'.keypad } :=
  { h with keypad := congrArg f h.keypad }

theorem withTimers (h : Untimed tied d d') {t t' : Timers} (ht : t.speaker.flaw = none)
    (ht' : t'.speaker.flaw = none) (hd : tied = true → t.delay = t'.delay) :
    Untimed tied { d with timers := t } { d' with timers := t' } :=
  { h with flaw := ht, flaw' := ht', delay := hd }

theorem apply (h : Untimed tied d d') (op : Timers.Op) :
    Untimed tied { d with timers := d.timers.apply op } { d' with timers := d'.timers.apply op } :=
  h.withTimers ((Timers.flaw_apply ..).trans h.flaw) ((Timers.flaw_apply ..).trans h.flaw')
    fun ht => Timers.delay_apply (h.delay ht) op

theorem mirror (tied : Bool) : Mirror (Untimed tied) Eq where
  note h _ := { h with }
  held h := congrArg Keypad.held h.keypad
  interrupted h := congrArg Keypad.interrupted h.keypad
  asleep h asleep := h.withKeypad fun k => { k with asleep }
  waiting h waiting := h.withKeypad fun k => { k with waiting }
  ask h x := by rw [h.keypad]
  verdict h hr := by rw [h.keypad, hr]; exact ⟨rfl, rfl⟩
  random h := ⟨congrFun h.ahead 0, { h with ahead := RandomTape.ahead_advance h.ahead }⟩
  setDelay h v := h.apply (.setDelay v)
  setSound h v := by
    rw [Timers.crash_setSound h.flaw, Timers.crash_setSound h.flaw']
    exact ⟨rfl, h.apply (.setSound v)⟩
  present h p := ⟨congrFun h.breaks 0, { h with breaks := Screen.breaks_present h.breaks p }⟩

end Devices.Untimed

structure Cpu.Core where
  pc : UInt16
  i : UInt16
  sp : UInt8
  v : Registers
  stack : CallStack
  memory : Memory
  picture : Picture
  deriving DecidableEq

def Cpu.core (c : Cpu) : Core :=
  ⟨c.pc, c.i, c.sp, c.v, c.stack, c.memory, c.framebuffer.picture⟩

namespace Process

def delayRead? (p : Process) : Option UInt8 :=
  if p.opcode? = some .readDelay then some p.timers.delay else none

def reads : Process → List Move → List UInt8
  | _, [] => []
  | p, .go :: ms => p.delayRead?.toList ++ reads (p.move .go) ms
  | p, m :: ms => reads (p.move m) ms

def sights : Process → List Move → List (Cpu.Core × Outcome)
  | _, [] => []
  | p, .go :: ms => ((p.move .go).cpu.core, p.attempt.2) :: sights (p.move .go) ms
  | p, m :: ms => sights (p.move m) ms

def Move.isAside (tied : Bool) : Move → Bool
  | .timers (.setSound _) => true
  | .timers _ => !tied
  | _ => false

structure Sim (skip : Move → Bool) (T : Process → Process → Prop) : Prop where
  opcode : ∀ {p q}, T p q → p.opcode? = q.opcode?
  left : ∀ {p q m}, T p q → skip m = true → T (p.move m) q
  right : ∀ {p q m}, T p q → skip m = true → T p (q.move m)
  both : ∀ {p q m}, T p q → m ≠ .go → T (p.move m) (q.move m)
  go : ∀ {p q}, T p q → p.delayRead? = q.delayRead? → T (p.move .go) (q.move .go) ∧
    (p.move .go).cpu.core = (q.move .go).cpu.core ∧ p.attempt.2 = q.attempt.2

theorem reads_cons_of_ne_go (p : Process) {m : Move} (h : m ≠ .go) (ms : List Move) :
    p.reads (m :: ms) = (p.move m).reads ms := by
  cases m with
  | go => exact absurd rfl h
  | push | key | interrupt | resume | timers => rfl

theorem sights_cons_of_ne_go (p : Process) {m : Move} (h : m ≠ .go) (ms : List Move) :
    p.sights (m :: ms) = (p.move m).sights ms := by
  cases m with
  | go => exact absurd rfl h
  | push | key | interrupt | resume | timers => rfl

namespace Sim

variable {skip : Move → Bool} {T : Process → Process → Prop}
variable {p q : Process} {ms ms' : List Move}

theorem reads_cons_inj (hs : Sim skip T) (h : T p q)
    (hr : p.reads (.go :: ms) = q.reads (.go :: ms')) :
    p.delayRead? = q.delayRead? ∧ (p.move .go).reads ms = (q.move .go).reads ms' := by
  have ho := hs.opcode h
  rw [reads, reads] at hr
  by_cases hp : p.opcode? = some .readDelay
  · have hq : q.opcode? = some .readDelay := ho ▸ hp
    simp only [delayRead?, hp, hq, if_true, Option.toList_some, List.singleton_append,
      List.cons.injEq] at hr ⊢
    exact ⟨congrArg some hr.1, hr.2⟩
  · have hq : ¬ q.opcode? = some .readDelay := ho ▸ hp
    simp only [delayRead?, hp, hq, if_false, Option.toList_none, List.nil_append] at hr ⊢
    exact ⟨trivial, hr⟩

theorem ne_go_of_skip (hgo : skip .go = false) {m : Move} (hm : skip m = true) : m ≠ .go := by
  rintro rfl
  cases hgo.symm.trans hm

variable (hs : Sim skip T) (hgo : skip .go = false)

include hs hgo

theorem sights_eq (hw : Woven skip ms ms') (h : T p q) (hr : p.reads ms = q.reads ms') :
    p.sights ms = q.sights ms' := by
  induction hw generalizing p q with
  | nil => rfl
  | left hm hw ih =>
    have hne := ne_go_of_skip hgo hm
    rw [reads_cons_of_ne_go p hne] at hr
    rw [sights_cons_of_ne_go p hne]
    exact ih (hs.left h hm) hr
  | right hm hw ih =>
    have hne := ne_go_of_skip hgo hm
    rw [reads_cons_of_ne_go q hne] at hr
    rw [sights_cons_of_ne_go q hne]
    exact ih (hs.right h hm) hr
  | both m hw ih =>
    by_cases hm : m = .go
    · subst hm
      -- both steps read the delay timer or neither does, so their reads come off together
      obtain ⟨hread, hrest⟩ := hs.reads_cons_inj h hr
      obtain ⟨hnext, hcore, hout⟩ := hs.go h hread
      rw [sights, sights, hcore, hout, ih hnext hrest]
    · rw [reads_cons_of_ne_go p hm, reads_cons_of_ne_go q hm] at hr
      rw [sights_cons_of_ne_go p hm, sights_cons_of_ne_go q hm]
      exact ih (hs.both h hm) hr

theorem reads_eq (hd : ∀ {p q}, T p q → p.timers.delay = q.timers.delay)
    (hw : Woven skip ms ms') (h : T p q) : p.reads ms = q.reads ms' := by
  induction hw generalizing p q with
  | nil => rfl
  | left hm hw ih =>
    rw [reads_cons_of_ne_go p (ne_go_of_skip hgo hm)]
    exact ih (hs.left h hm)
  | right hm hw ih =>
    rw [reads_cons_of_ne_go q (ne_go_of_skip hgo hm)]
    exact ih (hs.right h hm)
  | both m hw ih =>
    by_cases hm : m = .go
    · subst hm
      have hread : p.delayRead? = q.delayRead? := by
        rw [delayRead?, delayRead?, hs.opcode h, hd h]
      obtain ⟨hnext, -⟩ := hs.go h hread
      rw [reads, reads, hread, ih hnext]
    · rw [reads_cons_of_ne_go p hm, reads_cons_of_ne_go q hm]
      exact ih (hs.both h hm)

end Sim

structure Untimed (tied : Bool) (p q : Process) : Prop where
  cpu : p.cpu = q.cpu
  devices : Devices.Untimed tied p.board.devices q.board.devices
  request : p.request = q.request

variable {tied : Bool} {p q : Process}

theorem untimed_settle {r r' : Board × Outcome}
    (h : Board.Mirrors (Devices.Untimed tied) Eq r r') :
    Untimed tied (settle r) (settle r') ∧ r.2 = r'.2 := by
  obtain ⟨b, o⟩ := r
  obtain ⟨b', o'⟩ := r'
  obtain ⟨hc, hd, ho⟩ := h
  cases ho with
  | done | failed | crashed => exact ⟨⟨hc, hd, rfl⟩, rfl⟩
  | waiting hr =>
    obtain rfl := hr
    exact ⟨⟨hc, hd, rfl⟩, rfl⟩

namespace Untimed

theorem opcode (h : Untimed tied p q) : p.opcode? = q.opcode? := by
  rw [opcode?, opcode?, h.request, h.cpu]

theorem aside_left (h : Untimed tied p q) {m : Move} (hm : m.isAside tied = true) :
    Untimed tied (p.move m) q := by
  match m with
  | .timers op =>
    refine ⟨h.cpu, h.devices.withTimers ?_ h.devices.flaw' fun ht => ?_, h.request⟩
    · exact (Timers.flaw_apply ..).trans h.devices.flaw
    · subst ht
      match op with
      | .setSound value =>
        exact (Timers.delay_setSound ..).trans (h.devices.delay rfl)
      | .setDelay _ | .tick | .reset => cases hm
  | .go | .push | .key _ _ | .interrupt | .resume => cases hm

theorem symm (h : Untimed tied p q) : Untimed tied q p :=
  ⟨h.cpu.symm, ⟨h.devices.keypad.symm, h.devices.ahead.symm, h.devices.breaks.symm,
    h.devices.flaw', h.devices.flaw, fun ht => (h.devices.delay ht).symm⟩, h.request.symm⟩

theorem both (h : Untimed tied p q) {m : Move} (hm : m ≠ .go) :
    Untimed tied (p.move m) (q.move m) := by
  cases m with
  | go => exact absurd rfl hm
  | push =>
    obtain ⟨⟨c, d⟩, r⟩ := p
    obtain ⟨⟨c', d'⟩, r'⟩ := q
    obtain ⟨hc, hd, hr⟩ := h
    obtain rfl : c = c' := hc
    obtain rfl : r = r' := hr
    cases r with
    | none =>
      obtain ⟨-, hcpu, hpush⟩ := Board.mirrors_push (Devices.Untimed.mirror tied) hd c
      exact ⟨hcpu, hpush, rfl⟩
    | some r => exact ⟨rfl, hd, rfl⟩
  | key k down => exact ⟨h.cpu, h.devices.withKeypad (·.set k down), h.request⟩
  | interrupt => exact ⟨h.cpu, h.devices.withKeypad Keypad.interrupt, h.request⟩
  | resume => exact ⟨h.cpu, h.devices.withKeypad Keypad.resume, h.request⟩
  | timers op => exact ⟨h.cpu, h.devices.apply op, h.request⟩

theorem attempt (h : Untimed tied p q) (hread : p.delayRead? = q.delayRead?) :
    Board.Mirrors (Devices.Untimed tied) Eq p.attempt q.attempt := by
  have hmirror := Devices.Untimed.mirror tied
  obtain ⟨⟨c, d⟩, r⟩ := p
  obtain ⟨⟨c', d'⟩, r'⟩ := q
  obtain ⟨hc, hd, hr⟩ := h
  obtain rfl : c = c' := hc
  obtain rfl : r = r' := hr
  cases r with
  | some r => exact Board.mirrors_resume hmirror hd c rfl
  | none =>
    refine Board.mirrors_step hmirror hd c fun ho => ?_
    have hc : c.opcode? = some .readDelay := ho
    have hread : (if c.opcode? = some .readDelay then some d.timers.delay else none) =
        if c.opcode? = some .readDelay then some d'.timers.delay else none := hread
    rw [if_pos hc, if_pos hc] at hread
    exact Option.some.inj hread

theorem sim (tied : Bool) : Sim (Move.isAside tied) (Untimed tied) where
  opcode h := h.opcode
  left h hm := h.aside_left hm
  right h hm := (h.symm.aside_left hm).symm
  both h hm := h.both hm
  go h hread := by
    obtain ⟨hnext, hout⟩ := untimed_settle (h.attempt hread)
    exact ⟨hnext, congrArg Cpu.core hnext.cpu, hout⟩

end Untimed

def unshown (p : Process) : Process := { p with board := p.board.unshown }

def IsSound (p : Process) : Prop := p.board.devices.screen.IsSound

theorem unshown_settle {r r' : Board × Outcome} (h : r'.1.unshown = r.1.unshown)
    (ho : r'.2 = r.2) : (settle r').unshown = (settle r).unshown := by
  obtain ⟨b, o⟩ := r
  obtain ⟨b', o'⟩ := r'
  obtain rfl : o' = o := ho
  have hb : b'.unshown = b.unshown := h
  cases o' <;> simp only [settle, unshown, hb]

theorem unshown_attempt (h : p.IsSound) :
    p.unshown.attempt.1.unshown = p.attempt.1.unshown ∧ p.unshown.attempt.2 = p.attempt.2 := by
  obtain ⟨b, r⟩ := p
  cases r with
  | none => exact Board.unshown_step h
  | some r =>
    have hr : b.unshown.resume r = _ := Board.resume_withView b false {} r
    have ha : (⟨b, some r⟩ : Process).unshown.attempt = b.unshown.resume r := rfl
    rw [ha, hr]
    exact ⟨rfl, rfl⟩

theorem unshown_move (h : p.IsSound) (m : Move) :
    (p.unshown.move m).unshown = (p.move m).unshown := by
  cases m with
  | go =>
    obtain ⟨hb, ho⟩ := unshown_attempt h
    exact unshown_settle hb ho
  | push =>
    obtain ⟨b, r⟩ := p
    cases r with
    | some r => rfl
    | none =>
      obtain ⟨screen, -, hp, -⟩ := Board.push_of_sound (b := b) h
      have hq : b.unshown.push = (b.unshown, none) := Board.push_of_clean rfl
      have hm : (⟨b, none⟩ : Process).move .push = ⟨b.push.1, none⟩ := rfl
      have hm' : (⟨b, none⟩ : Process).unshown.move .push = ⟨b.unshown.push.1, none⟩ := rfl
      rw [hm, hm', hp, hq]
      rfl
  | key | interrupt | resume | timers => rfl

theorem isSound_move (h : p.IsSound) (m : Move) : (p.move m).IsSound := by
  cases m with
  | go =>
    rw [IsSound, move, board_settle]
    obtain ⟨b, r⟩ := p
    cases r with
    | none => exact Board.sound_step h
    | some r =>
      have hr : (⟨b, some r⟩ : Process).attempt = b.resume r := rfl
      rw [hr, (b.sameView_resume r).2]
      exact h
  | push =>
    obtain ⟨b, r⟩ := p
    cases r with
    | some r => exact h
    | none =>
      obtain ⟨screen, hs, hp, -⟩ := Board.push_of_sound (b := b) h
      have hm : (⟨b, none⟩ : Process).move .push = ⟨b.push.1, none⟩ := rfl
      rw [hm, hp]
      exact hs
  | key | interrupt | resume | timers => exact h

structure Unseen (T : Process → Process → Prop) (p q : Process) : Prop where
  rest : T p.unshown q.unshown
  left : p.IsSound
  right : q.IsSound

theorem Sim.unseen {skip : Move → Bool} {T : Process → Process → Prop} (hs : Sim skip T)
    (hT : ∀ {p q}, T p q → T p.unshown q.unshown) : Sim skip (Unseen T) where
  opcode {p q} h := hs.opcode (p := p.unshown) (q := q.unshown) h.rest
  left {p q m} h hm := by
    refine ⟨?_, isSound_move h.left m, h.right⟩
    rw [← unshown_move h.left]
    exact hT (q := q.unshown) (hs.left h.rest hm)
  right {p q m} h hm := by
    refine ⟨?_, h.left, isSound_move h.right m⟩
    rw [← unshown_move h.right]
    exact hT (p := p.unshown) (hs.right h.rest hm)
  both {p q m} h hm := by
    refine ⟨?_, isSound_move h.left m, isSound_move h.right m⟩
    rw [← unshown_move h.left, ← unshown_move h.right]
    exact hT (hs.both h.rest hm)
  go {p q} h hread := by
    obtain ⟨hnext, hcore, hout⟩ := hs.go h.rest hread
    have hp := congrArg (fun x => x.cpu.core) (unshown_move h.left .go)
    have hq := congrArg (fun x => x.cpu.core) (unshown_move h.right .go)
    refine ⟨⟨?_, isSound_move h.left .go, isSound_move h.right .go⟩, ?_, ?_⟩
    · rw [← unshown_move h.left, ← unshown_move h.right]
      exact hT hnext
    · exact hp.symm.trans (hcore.trans hq)
    · rw [← (unshown_attempt h.left).2, ← (unshown_attempt h.right).2, hout]

theorem Untimed.unshown (h : Untimed tied p q) : Untimed tied p.unshown q.unshown := by
  refine ⟨?_, { h.devices with breaks := rfl }, h.request⟩
  have hcpu := congrArg (fun c : Cpu =>
    { c with framebuffer := { c.framebuffer with dirty := false } }) h.cpu
  exact hcpu

structure AlikeButTimers (p q : Process) : Prop where
  core : p.cpu.core = q.cpu.core
  clip : p.cpu.clip = q.cpu.clip
  request : p.request = q.request
  keypad : p.board.devices.keypad = q.board.devices.keypad
  ahead : p.board.devices.random.ahead = q.board.devices.random.ahead
  flaw : p.timers.speaker.flaw = none
  flaw' : q.timers.speaker.flaw = none
  screen : p.cpu.framebuffer.dirty = q.cpu.framebuffer.dirty ∧
      p.board.devices.screen.breaks = q.board.devices.screen.breaks ∨
    p.IsSound ∧ q.IsSound

theorem cpu_eq_of_core {c c' : Cpu} (h : c.core = c'.core) (hclip : c.clip = c'.clip)
    (hdirty : c.framebuffer.dirty = c'.framebuffer.dirty) : c = c' := by
  obtain ⟨memory, ⟨picture, dirty⟩, v, i, pc, sp, stack, clip⟩ := c
  obtain ⟨memory', ⟨picture', dirty'⟩, v', i', pc', sp', stack', clip'⟩ := c'
  obtain ⟨⟩ := h
  obtain rfl : clip = clip' := hclip
  obtain rfl : dirty = dirty' := hdirty
  rfl

theorem AlikeButTimers.untimed (h : AlikeButTimers p q) (tied : Bool)
    (hd : tied = true → p.timers.delay = q.timers.delay) :
    Untimed tied p q ∨ Unseen (Untimed tied) p q := by
  obtain ⟨hdirty, hbreaks⟩ | ⟨hp, hq⟩ := h.screen
  · have hcpu : p.cpu = q.cpu := cpu_eq_of_core h.core h.clip hdirty
    exact .inl ⟨hcpu, ⟨h.keypad, h.ahead, hbreaks, h.flaw, h.flaw', hd⟩, h.request⟩
  · have hcpu : p.unshown.cpu = q.unshown.cpu := cpu_eq_of_core h.core h.clip rfl
    exact .inr ⟨⟨hcpu, ⟨h.keypad, h.ahead, rfl, h.flaw, h.flaw', hd⟩, h.request⟩, hp, hq⟩

theorem timers_reach_only_delay_reads (h : AlikeButTimers p q) (ms ms' : List Move) :
    ((ms.filter fun m => !m.isAside false) = (ms'.filter fun m => !m.isAside false) →
      p.reads ms = q.reads ms' → p.sights ms = q.sights ms') ∧
    (p.timers.delay = q.timers.delay →
      (ms.filter fun m => !m.isAside true) = (ms'.filter fun m => !m.isAside true) →
      p.reads ms = q.reads ms' ∧ p.sights ms = q.sights ms') := by
  have hsights (tied : Bool) (hd : tied = true → p.timers.delay = q.timers.delay)
      (hw : Woven (Move.isAside tied) ms ms') (hr : p.reads ms = q.reads ms') :
      p.sights ms = q.sights ms' := by
    cases h.untimed tied hd with
    | inl hu => exact (Untimed.sim tied).sights_eq rfl hw hu hr
    | inr hu => exact ((Untimed.sim tied).unseen Untimed.unshown).sights_eq rfl hw hu hr
  refine ⟨fun hms hr => hsights false nofun (woven_of_filter_eq hms) hr,
    fun hd hms => ?_⟩
  have hw : Woven (Move.isAside true) ms ms' := woven_of_filter_eq hms
  have hr : p.reads ms = q.reads ms' := by
    cases h.untimed true fun _ => hd with
    | inl hu => exact (Untimed.sim true).reads_eq rfl (fun h => h.devices.delay rfl) hw hu
    | inr hu =>
      exact ((Untimed.sim true).unseen Untimed.unshown).reads_eq rfl
        (fun h => h.rest.devices.delay rfl) hw hu
  exact ⟨hr, hsights true (fun _ => hd) hw hr⟩

def delayed (delay sound : UInt8) : Process :=
  let memory := Memory.blank.store 0x0200 [0xF0, 0x07, 0xF0, 0x18, 0x70, 0x01]
  ⟨⟨{ memory }, { timers := { delay, sound } }⟩, none⟩

def soonTicked : List Move := [.timers .tick, .go, .go, .timers .tick, .go]

def lateTicked : List Move :=
  [.timers .tick, .timers .tick, .go, .timers (.setSound 3), .go, .timers .reset, .go]

def resounded : List Move :=
  [.timers (.setSound 1), .timers .tick, .go, .timers (.setSound 0), .go, .timers .tick, .go]

theorem alike_delayed (delay delay' sound sound' : UInt8) :
    (delayed delay sound).AlikeButTimers (delayed delay' sound') :=
  ⟨rfl, rfl, rfl, rfl, rfl, rfl, rfl, .inl ⟨rfl, rfl⟩⟩

theorem timers_reach_only_delay_reads_of_delayed :
    (delayed 5 0).AlikeButTimers (delayed 6 9) ∧ (delayed 5 0).AlikeButTimers (delayed 5 9) ∧
      (delayed 5 0).reads soonTicked = [4] ∧ (delayed 6 9).reads lateTicked = [4] ∧
      (delayed 5 0).sights soonTicked = (delayed 6 9).sights lateTicked ∧
      (delayed 5 0).sights soonTicked = (delayed 5 9).sights resounded ∧
      ((delayed 6 9).sights lateTicked).map (fun s => s.1.v[(0 : Nibble)]) = [4, 4, 5] := by
  have hp : (delayed 5 0).reads soonTicked = [4] := by decide +kernel
  have hq : (delayed 6 9).reads lateTicked = [4] := by decide +kernel
  have hlate := timers_reach_only_delay_reads (alike_delayed 5 6 0 9) soonTicked lateTicked
  have hsound := timers_reach_only_delay_reads (alike_delayed 5 5 0 9) soonTicked resounded
  exact ⟨alike_delayed 5 6 0 9, alike_delayed 5 5 0 9, hp, hq, hlate.1 (by decide) (hp.trans hq.symm),
    (hsound.2 rfl (by decide)).2, by decide +kernel⟩

end Process

end Chip8
