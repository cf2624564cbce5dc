import Chip8.Proofs.Machine.Coherent

namespace Chip8

namespace Timers

theorem replay_append (t : Timers) (ops ops' : List Op) :
    t.replay (ops ++ ops') = (t.replay ops).replay ops' := List.foldl_append

theorem obey_eq_replay (t : Timers) (op : Option Op) : t.obey op = t.replay op.toList := by
  cases op <;> rfl

theorem replay_ticks (t : Timers) (n : Nat) :
    let t' := t.replay (List.replicate n .tick)
    t'.delay.toNat = t.delay.toNat - n ∧ t'.sound.toNat = t.sound.toNat - n ∧
      t'.speaker.calls =
        if 0 < t.sound.toNat ∧ t.sound.toNat ≤ n then .stop :: t.speaker.calls
        else t.speaker.calls := by
  induction n generalizing t with
  | zero =>
    have hn : ¬ (0 < t.sound.toNat ∧ t.sound.toNat ≤ 0) := by omega
    exact ⟨rfl, rfl, (if_neg hn).symm⟩
  | succ n ih =>
    obtain ⟨hd, hs, hc⟩ := ih t.tick
    have hdelay : t.tick.delay.toNat = t.delay.toNat - 1 := toNat_lower t.delay
    have hsound : t.tick.sound.toNat = t.sound.toNat - 1 := toNat_lower t.sound
    refine ⟨hd.trans (by omega), hs.trans (by omega), hc.trans ?_⟩
    by_cases h1 : t.sound = 1
    · have ht : t.sound.toNat = 1 := congrArg UInt8.toNat h1
      have hcalls : t.tick.speaker.calls = .stop :: t.speaker.calls := by
        simp only [Timers.tick, if_pos h1]
        rfl
      rw [if_neg (by omega), if_pos (by omega), hcalls]
    · have ht : t.sound.toNat ≠ 1 := fun h => h1 (UInt8.toNat_inj.1 h)
      have hcalls : t.tick.speaker.calls = t.speaker.calls := by
        simp only [Timers.tick, if_neg h1]
      rw [hcalls, hsound]
      by_cases hrange : 0 < t.sound.toNat ∧ t.sound.toNat ≤ n + 1
      · rw [if_pos (by omega), if_pos hrange]
      · rw [if_neg (by omega), if_neg hrange]

end Timers

theorem Journal.about_note {x : Event} (h : x.isOfStep = false) (j : Journal) (c : ClockName) :
    (j.note x).about c = j.about c ++ if x.clock? = some c then [x] else [] := by
  rw [about, reports_note h, List.filter_cons]
  split <;> simp_all [about]

theorem Journal.about_noteImage (j : Journal) (image : List UInt8) (c : ClockName) :
    (j.noteImage image).about c = j.about c := by
  rw [noteImage]
  split
  · rw [about_note rfl]
    exact List.append_nil _
  · rfl

namespace Machine

def withClock (m : Machine) (c : ClockName) (k : Clock) : Machine :=
  { m with engine := m.engine.map (·.withClock c k) }

def Act.isOf (c : ClockName) (a : Act) : Bool := a = .move (clockMove c) ∨ a = .move (wakeMove c)

def Act.cancels (c : ClockName) : Act → Bool
  | .cancel c' => c' = c
  | .move .cancel => true
  | _ => false

def Act.timerOp? (a : Act) : Option Timers.Op := a.outer?.bind Outer.timerOp?

def timerOp? (m : Machine) (a : Act) : Option Timers.Op :=
  if m.begins .timer a then some .tick else a.timerOp?

def timerOps : Machine → List Act → List Timers.Op
  | _, [] => []
  | m, a :: l => (m.timerOp? a).toList ++ timerOps (m.act a) l

variable {m m' : Machine} {e e' : Engine} {a : Act} {c : ClockName} {l : List Act}

theorem goes_of_ne_close (hm : m.Coherent) (h : m.engine = some e) (ha : a ≠ .move .close) :
    ∃ e', (m.act a).engine = some e' ∧ ∀ c, ∃ events, ClockGoes c m e (m.act a) e' events := by
  obtain hgoes | ⟨rfl, -⟩ := goes_act hm h a
  · exact hgoes
  · exact absurd rfl ha

theorem begins_of_leaves_due (h : m.engine = some e) (hd : Does m e a m') (h' : m'.engine = some e')
    (hdue : (e.clock c).stage = .due) (hleft : (e'.clock c).stage ≠ .due) : m.begins c a = true := by
  have hmove : a = .move (clockMove c) := by
    cases hd with
    | nothing | outer | sleeps =>
      obtain rfl := Option.some.inj (h.symm.trans h')
      exact absurd hdue hleft
    | begins hs =>
      obtain rfl := Option.some.inj h'
      cases c
      · rfl
      · exact absurd hdue hleft
    | proceeds hs =>
      obtain rfl := Option.some.inj h'
      cases c
      · cases hs.symm.trans hdue
      · exact absurd hdue hleft
    | fires r hs =>
      obtain rfl := Option.some.inj h'
      cases c
      · exact absurd hdue hleft
      · rfl
    | wakes c' _ hs =>
      obtain rfl := Option.some.inj h'
      rw [Engine.clock_withClock] at hleft
      split at hleft
      · next hc => cases (hc ▸ hs).symm.trans hdue
      · exact absurd hdue hleft
    | cancels c' =>
      obtain rfl := Option.some.inj h'
      rw [Engine.clock_withClock] at hleft
      split at hleft
      · next hc => exact absurd (hc ▸ hdue) hleft
      · exact absurd hdue hleft
    | stops =>
      obtain rfl := Option.some.inj h'
      cases c <;> exact absurd hdue hleft
    | closes => cases h'
  exact begins_iff.2 ⟨hmove, e, h, hdue⟩

theorem exists_turns_acts (hm : m.Coherent) (h : m.engine = some e) (hl : .move .close ∉ l)
    {life : Clock.Life} (hlife : life.clock = e.clock c) :
    ∃ e' ts events, (m.acts l).engine = some e' ∧ (life.turns ts).clock = e'.clock c ∧
      (life.turns ts).firings = life.firings + m.firings c l ∧
      (life.turns ts).log = life.log ++ events ∧
      (m.acts l).devices.journal.about c = m.devices.journal.about c ++ events := by
  induction l generalizing m e life with
  | nil => exact ⟨e, [], [], h, hlife, rfl, (List.append_nil _).symm, (List.append_nil _).symm⟩
  | cons a l ih =>
    obtain ⟨ha, hrest⟩ := List.ne_and_not_mem_of_not_mem_cons hl
    obtain ⟨e₁, h₁, hgoes⟩ := goes_of_ne_close hm h (Ne.symm ha)
    obtain ⟨events, hc⟩ := hgoes c
    have hg : life.clock.Goes (e₁.clock c) events := hlife ▸ hc.goes
    obtain ⟨ts, hclock, hlog, hfirings⟩ := Clock.Life.exists_turns_of_goes hg
    obtain ⟨e', ts', events', he', hclock', hfirings', hlog', habout⟩ :=
      ih (coherent_act hm a) h₁ hrest hclock
    have hbegins : (life.clock.stage = .due ∧ (e₁.clock c).stage ≠ .due) ↔ m.begins c a = true := by
      rw [hlife]
      constructor
      · rintro ⟨hdue, hleft⟩
        exact begins_of_leaves_due h (does_act h a) h₁ hdue hleft
      · intro hb
        obtain ⟨-, x, hx, hdue⟩ := begins_iff.1 hb
        obtain rfl := Option.some.inj (h.symm.trans hx)
        exact ⟨hdue, stage_of_begins hb e₁ h₁⟩
    refine ⟨e', ts ++ ts', events ++ events', he', ?_, ?_, ?_, ?_⟩
    · rw [Clock.Life.turns_append, hclock']
    · rw [Clock.Life.turns_append, hfirings', hfirings, firings, if_congr hbegins rfl rfl,
        Nat.add_assoc]
    · rw [Clock.Life.turns_append, hlog', hlog, List.append_assoc]
    · rw [acts_cons, habout, hc.about, List.append_assoc]

theorem about_launched (m : Machine) (image : List UInt8) (c : ClockName) :
    (m.launched image).devices.journal.about c =
      m.devices.journal.about c ++ [.clockStarted c] := by
  have hj : (m.launched image).devices.journal =
      (((prepare m.devices image).journal.note (.clockStarted .instruction)).note
        (.clockStarted .timer)).note (.machineStarted m.options) := rfl
  rw [hj, Journal.about_note rfl, Journal.about_note rfl, Journal.about_note rfl, prepare,
    Journal.about_note rfl, Journal.about_noteImage]
  cases c <;> simp [Event.clock?]

theorem start_eq_ok {image : List UInt8} (h : (m.start image).2 = .ok) :
    m.engine = none ∧ (m.start image).1 = m.launched image := by
  cases he : m.engine with
  | some e => simp [start_eq_launch, launch_of_running he] at h
  | none =>
    have hs := start_of_stopped he image
    cases hc : m.devices.screen.crash? with
    | none =>
      rw [hc] at hs
      exact ⟨rfl, congrArg Prod.fst hs⟩
    | some crash =>
      rw [hs, hc] at h
      cases h

theorem start_of_running (h : m.engine = some e) (image : List UInt8) :
    m.start image = (m, .failed .alreadyRunning) :=
  (start_eq_launch m image).trans (launch_of_running h image none)

theorem isHealthy_of_ended (h : m.engine = some e) (hs : (e.clock c).stage = .ended) :
    m.isHealthy = false := by
  cases c
  · have hi : e.instructionClock.stage = .ended := hs
    simp [isHealthy, h, Clock.isEnded, hi]
  · have ht : e.timerClock.stage = .ended := hs
    simp [isHealthy, h, Clock.isEnded, ht]

theorem ended_acts (hm : m.Coherent) (h : m.engine = some e) (hs : (e.clock c).stage = .ended)
    (hl : .move .close ∉ l) :
    ∃ e', (m.acts l).engine = some e' ∧ (e'.clock c).stage = .ended := by
  induction l generalizing m e with
  | nil => exact ⟨e, h, hs⟩
  | cons a l ih =>
    obtain ⟨ha, hrest⟩ := List.ne_and_not_mem_of_not_mem_cons hl
    obtain ⟨e', he', hgoes⟩ := goes_of_ne_close hm h (Ne.symm ha)
    obtain ⟨events, hc⟩ := hgoes c
    exact ih (coherent_act hm a) he' (hc.goes.stage_of_ended hs) hrest

theorem isIdle_of_ended (hs : (e.clock c).stage = .ended) (ha : a.isOf c = true) :
    a.isIdle e = true := by
  obtain rfl | rfl := of_decide_eq_true ha <;> cases c
  · have hi : e.instructionClock.stage = .ended := hs
    simp [clockMove, Act.isIdle, hi]
  · have ht : e.timerClock.stage = .ended := hs
    simp [clockMove, Act.isIdle, ht]
  · have hi : e.instructionClock.stage = .ended := hs
    simp [wakeMove, Act.isIdle, hi]
  · have ht : e.timerClock.stage = .ended := hs
    simp [wakeMove, Act.isIdle, ht]

theorem moveInstruction_withClock (m : Machine) (e : Engine) (k : Clock) :
    (m.withClock .timer k).moveInstruction (e.withClock .timer k) =
      (m.moveInstruction e).withClock .timer k := by
  have hi : (e.withClock .timer k).instructionClock = e.instructionClock := rfl
  rw [moveInstruction, moveInstruction, hi]
  cases e.instructionClock.stage with
  | due | resting | ended => rfl
  | firing =>
    have hsleeps : (e.withClock .timer k).sleeps (m.withClock .timer k).keypad =
        e.sleeps m.keypad := rfl
    dsimp only
    cases ha : e.sleeps m.keypad with
    | true => rw [executeBlock_of_sleeps ha, executeBlock_of_sleeps (hsleeps.trans ha)]
    | false =>
      rw [executeBlock_of_awake ha, executeBlock_of_awake (hsleeps.trans ha)]
      rfl

theorem moveTimer_withClock (m : Machine) (e : Engine) (k : Clock) :
    (m.withClock .instruction k).moveTimer (e.withClock .instruction k) =
      (m.moveTimer e).withClock .instruction k := by
  have ht : (e.withClock .instruction k).timerClock = e.timerClock := rfl
  rw [moveTimer, moveTimer, ht]
  cases e.timerClock.stage <;> rfl

theorem act_withClock (h : m.engine = some e) (ha : a.isOf c = false) (hc : a.cancels c = false)
    (hx : a ≠ .move .close) (k : Clock) : (m.withClock c k).act a = (m.act a).withClock c k := by
  have he : (m.withClock c k).engine = some (e.withClock c k) := by rw [withClock, h]; rfl
  match a with
  | .move (.start image refusal) =>
    have hs : m.act (.move (.start image refusal)) = m := act_of_isIdle h rfl
    rw [hs]
    exact act_of_isIdle he rfl
  | .move .cancel => cases hc
  | .move .close => exact absurd rfl hx
  | .move (.key _ _) | .move (.setDelay _) | .move (.setSound _) | .outer _ =>
    rw [act_of_outer? _ rfl, act_of_outer? _ rfl]
    rfl
  | .cancel c' =>
    have hne : c' ≠ c := of_decide_eq_false hc
    simp only [act, cancelClock, withClock, h, Option.map_some]
    cases c <;> cases c' <;> first | exact absurd rfl hne | rfl
  | .move .instruction =>
    cases c with
    | instruction => cases ha
    | timer =>
      simp only [act, move, he, h, Option.map_some, Option.getD_some]
      exact moveInstruction_withClock m e k
  | .move .timer =>
    cases c with
    | timer => cases ha
    | instruction =>
      simp only [act, move, he, h, Option.map_some, Option.getD_some]
      exact moveTimer_withClock m e k
  | .move .wakeInstruction =>
    cases c with
    | instruction => cases ha
    | timer =>
      simp only [act, move, he, h, Option.map_some, Option.getD_some]
      rfl
  | .move .wakeTimer =>
    cases c with
    | timer => cases ha
    | instruction =>
      simp only [act, move, he, h, Option.map_some, Option.getD_some]
      rfl

theorem withClock_self (h : m.engine = some e) : m.withClock c (e.clock c) = m := by
  have he : e.withClock c (e.clock c) = e := by cases c <;> rfl
  rw [withClock, h, Option.map_some, he, ← h]

theorem withClock_withClock (m : Machine) (k k' : Clock) :
    (m.withClock c k).withClock c k' = m.withClock c k' := by
  obtain ⟨o, d, engine⟩ := m
  cases engine with
  | none => rfl
  | some e => cases c <;> rfl

theorem acts_eq_without (hm : m.Coherent) (h : m.engine = some e)
    (hs : (e.clock c).stage = .ended) (hl : .move .close ∉ l)
    (hc : ∀ a ∈ l, a.cancels c = false) (k : Clock) :
    m.acts l =
      ((m.withClock c k).acts (l.filter fun a => !a.isOf c)).withClock c (e.clock c) := by
  induction l generalizing m e with
  | nil =>
    change m = (m.withClock c k).withClock c (e.clock c)
    rw [withClock_withClock, withClock_self h]
  | cons a l ih =>
    obtain ⟨ha, hrest⟩ := List.ne_and_not_mem_of_not_mem_cons hl
    obtain ⟨hca, hcrest⟩ := List.forall_mem_cons.1 hc
    cases hof : a.isOf c with
    | true =>
      rw [acts_cons, act_of_isIdle h (isIdle_of_ended hs hof), ih hm h hs hrest hcrest,
        List.filter_cons_of_neg (by simp [hof])]
    | false =>
      have hcommute := act_withClock h hof hca (Ne.symm ha)
      obtain ⟨e', he', -⟩ := goes_of_ne_close hm h (Ne.symm ha)
      have hclock : e'.clock c = e.clock c := by
        have hself := hcommute (e.clock c)
        rw [withClock_self h, withClock, he'] at hself
        have hengine := congrArg Machine.engine hself
        rw [he'] at hengine
        rw [Option.some.inj hengine, Engine.clock_withClock, if_pos rfl]
      have hnext := ih (coherent_act hm a) he' (hclock ▸ hs) hrest hcrest
      rw [acts_cons, hnext, hclock, List.filter_cons_of_pos (by simp [hof]), acts_cons, hcommute]

structure Stalled (m : Machine) (e : Engine) (ops : List Timers.Op) (m' : Machine) (e' : Engine) :
    Prop where
  engine : m'.engine = some e'
  clock : e'.instructionClock.stage = .ended
  cpu : e'.cpu = e.cpu
  received : m'.devices.screen.received = m.devices.screen.received
  timers : m'.timers.plain = m.timers.plain.replay ops

theorem timerOp?_of_ne (h : a ≠ .move .timer) : m.timerOp? a = a.timerOp? := by
  have hb : ¬ m.begins .timer a = true := fun hb => h (begins_iff.1 hb).1
  rw [timerOp?, if_neg hb]

theorem timerOp?_of_outer? {o : Outer} (h : a.outer? = some o) :
    m.timerOp? a = o.timerOp? := by
  have hne : a ≠ .move .timer := by
    rintro rfl
    cases h
  rw [timerOp?_of_ne hne, Act.timerOp?, h, Option.bind_some]

theorem timerOp?_of_isIdle (h : m.engine = some e) (hi : a.isIdle e = true) :
    m.timerOp? a = none := by
  by_cases ha : a = .move .timer
  · subst ha
    have hb : ¬ m.begins .timer (.move .timer) = true := by
      intro hb
      obtain ⟨-, x, hx, hdue⟩ := begins_iff.1 hb
      obtain rfl := Option.some.inj (h.symm.trans hx)
      exact of_decide_eq_true hi hdue
    rw [timerOp?, if_neg hb]
    rfl
  · rw [timerOp?_of_ne ha]
    match a with
    | .move (.start _ _) | .move .instruction | .move .wakeInstruction | .move .wakeTimer
    | .move .close | .move .timer | .move .cancel | .cancel _ => rfl
    | .move (.key _ _) | .move (.setDelay _) | .move (.setSound _) | .outer _ => cases hi

theorem stalled_act (h : m.engine = some e) (hs : e.instructionClock.stage = .ended)
    (ha : a ≠ .move .close) : ∃ e', Stalled m e (m.timerOp? a).toList (m.act a) e' := by
  have hd := does_act h a
  revert hd
  generalize m.act a = m'
  intro hd
  cases hd with
  | nothing hi =>
    rw [timerOp?_of_isIdle h hi]
    exact ⟨e, h, hs, rfl, rfl, rfl⟩
  | @outer _ o ho =>
    rw [timerOp?_of_outer? ho]
    refine ⟨e, h, hs, rfl, m.devices.received_undergo o, ?_⟩
    rw [← Timers.obey_eq_replay]
    exact m.devices.plain_undergo o
  | begins hdue => cases hs.symm.trans hdue
  | sleeps hf | proceeds hf => cases hs.symm.trans hf
  | fires r hdue =>
    have ht : (e.clock .timer).stage = .due := hdue
    have hop : m.timerOp? (.move .timer) = some .tick := if_pos (begins_iff.2 ⟨rfl, e, h, ht⟩)
    rw [hop]
    refine ⟨_, rfl, hs, rfl, congrArg Screen.received (Devices.screen_noteAll _ _), ?_⟩
    rw [timers, Devices.timers_noteAll]
    exact m.devices.timers.plain_apply .tick
  | wakes c hw hrest =>
    have hop : m.timerOp? a = none := by
      subst hw
      cases c <;> exact timerOp?_of_ne nofun
    rw [hop]
    refine ⟨_, rfl, ?_, ?_, congrArg Screen.received (Devices.screen_noteAll _ _),
      congrArg Timers.plain (Devices.timers_noteAll _ _)⟩
    · cases c
      · cases hs.symm.trans hrest
      · exact hs
    · cases c <;> rfl
  | cancels c =>
    have hop : m.timerOp? (.cancel c) = none := timerOp?_of_ne nofun
    rw [hop]
    refine ⟨_, rfl, ?_, ?_, rfl, rfl⟩
    · cases c <;> exact hs
    · cases c <;> rfl
  | stops =>
    have hop : m.timerOp? (.move .cancel) = none := timerOp?_of_ne nofun
    rw [hop]
    exact ⟨_, rfl, hs, rfl, rfl, rfl⟩
  | closes => exact absurd rfl ha

theorem stalled_acts (h : m.engine = some e) (hs : e.instructionClock.stage = .ended)
    (hl : .move .close ∉ l) : ∃ e', Stalled m e (m.timerOps l) (m.acts l) e' := by
  induction l generalizing m e with
  | nil => exact ⟨e, h, hs, rfl, rfl, rfl⟩
  | cons a l ih =>
    obtain ⟨ha, hrest⟩ := List.ne_and_not_mem_of_not_mem_cons hl
    obtain ⟨e₁, hone⟩ := stalled_act h hs (Ne.symm ha)
    obtain ⟨e', hmore⟩ := ih hone.engine hone.clock hrest
    refine ⟨e', hmore.engine, hmore.clock, hmore.cpu.trans hone.cpu,
      hmore.received.trans hone.received, ?_⟩
    rw [timerOps, Timers.replay_append, ← hone.timers]
    exact hmore.timers

theorem timerOps_eq_ticks (hl : ∀ a ∈ l, a.timerOp? = none) :
    m.timerOps l = List.replicate (m.firings .timer l) .tick := by
  induction l generalizing m with
  | nil => rfl
  | cons a l ih =>
    obtain ⟨ha, hrest⟩ := List.forall_mem_cons.1 hl
    rw [timerOps, firings, ih hrest, timerOp?, ha]
    split
    · rw [Nat.add_comm, List.replicate_succ]
      rfl
    · rw [Nat.zero_add]
      rfl

structure Survives (c : ClockName) (m : Machine) (e : Engine) (l : List Act) : Prop where
  ended : ∃ e', (m.acts l).engine = some e' ∧ (e'.clock c).stage = .ended
  isRunning : (m.acts l).isRunning = true
  isHealthy : (m.acts l).isHealthy = false
  start : ∀ image, (m.acts l).start image = (m.acts l, .failed .alreadyRunning)
  rest : (∀ a ∈ l, a.cancels c = false) → ∀ k,
    m.acts l = ((m.withClock c k).acts (l.filter fun a => !a.isOf c)).withClock c (e.clock c)

theorem survives (hm : m.Coherent) (h : m.engine = some e) (hs : (e.clock c).stage = .ended)
    (hl : .move .close ∉ l) : Survives c m e l := by
  obtain ⟨e', he', hs'⟩ := ended_acts hm h hs hl
  exact ⟨⟨e', he', hs'⟩, isRunning_iff.2 ⟨e', he'⟩, isHealthy_of_ended he' hs',
    start_of_running he', fun hc k => acts_eq_without hm h hs hl hc k⟩

theorem failing_clock_is_contained :
    (∀ name ts, let life := (Clock.Life.born name).turns ts
      life.Sane name ∧
      (∀ e, .go e ∈ ts → 1 ≤ life.firings) ∧
      (life.lastEnding ≠ .ok → life.clock.stage = .ended ∧
        ∀ us, (life.turns us).firings = life.firings ∧ (life.turns us).log = life.log) ∧
      (life.lastEnding.isFailure = false → Clock.complaint name life.lastEnding = []) ∧
      (life.lastEnding.isFailure = true → ∃ x, Clock.complaint name life.lastEnding = [x] ∧
        x.level = .error ∧ x.text = name.text ++ life.lastEnding.words)) ∧
    ∀ (o : Options) (d : Devices) (past : List Act),
      let m := (new o d).acts past
      (∀ image, (m.start image).2 = .ok → ∀ l, .move .close ∉ l → ∀ c,
        let m₁ := (m.start image).1
        ∃ e ts, (m₁.acts l).engine = some e ∧
          let life := (Clock.Life.born c).turns ts
          life.clock = e.clock c ∧ life.firings = m₁.firings c l ∧
          (m₁.acts l).devices.journal.about c = m.devices.journal.about c ++ life.log) ∧
      ∀ e c, m.engine = some e → (e.clock c).stage = .ended → ∀ l, .move .close ∉ l →
        Survives c m e l ∧
        (c = .instruction →
          (∃ e', Stalled m e (m.timerOps l) (m.acts l) e') ∧
          ((∀ a ∈ l, a.timerOp? = none) →
            let n := m.firings .timer l
            let t := (m.acts l).timers
            t.delay.toNat = m.timers.delay.toNat - n ∧ t.sound.toNat = m.timers.sound.toNat - n ∧
            t.speaker.calls =
              if 0 < m.timers.sound.toNat ∧ m.timers.sound.toNat ≤ n
              then .stop :: m.timers.speaker.calls else m.timers.speaker.calls)) := by
  refine ⟨fun name ts => ?_, fun o d past => ?_⟩
  · intro life
    have hsane : life.Sane name := Clock.Life.sane_turns (Clock.Life.sane_born name) ts
    refine ⟨hsane, ?_, ?_, fun hf => Clock.complaint_of_not_isFailure hf name,
      fun hf => Clock.complaint_of_isFailure hf name⟩
    · exact fun e he => Clock.Life.firings_pos_of_go (Clock.Life.sane_born name) he
    · intro hlast
      have hended := Clock.Life.ended_of_lastEnding_ne_ok hsane hlast
      refine ⟨hended, fun us => ?_⟩
      rw [(Clock.Life.turns_of_ended hended us).2]
      exact ⟨rfl, rfl⟩
  · intro m
    have hm : m.Coherent := coherent_acts (coherent_new o d) past
    refine ⟨fun image hok l hl c => ?_, fun e c he hs l hl => ⟨survives hm he hs hl, ?_⟩⟩
    · obtain ⟨hstopped, hstart⟩ := start_eq_ok hok
      have hm₁ : (m.launched image).Coherent := hstart ▸ coherent_start hm hstopped image
      intro m₁
      have hm₁eq : m₁ = m.launched image := hstart
      rw [hm₁eq]
      have hborn : (Clock.Life.born c).clock = { name := c } := rfl
      obtain ⟨e', ts, events, he', hclock, hfirings, hlog, habout⟩ :=
        exists_turns_acts (c := c) hm₁ rfl hl (hborn.trans (by cases c <;> rfl))
      refine ⟨e', ts, he', hclock, by simpa [Clock.Life.born] using hfirings, ?_⟩
      rw [habout, about_launched, hlog, List.append_assoc]
      rfl
    · rintro rfl
      obtain ⟨e', hstalled⟩ := stalled_acts he hs hl
      refine ⟨⟨e', hstalled⟩, fun hops => ?_⟩
      have ht := hstalled.timers
      rw [timerOps_eq_ticks hops] at ht
      have hticks := m.timers.plain.replay_ticks (m.firings .timer l)
      rw [← ht] at hticks
      exact hticks

def overflowing : List Act :=
  .move (.start [0x22, 0x00]) :: .move (.setSound 2) :: List.replicate 17 (.move .instruction)

def twoTicks : List Act := [.move .timer, .move .wakeTimer, .move .instruction, .move .timer]

def roomy : Options := { block := 20 }

theorem acts_overflowing :
    (new roomy {}).acts overflowing = ((new roomy {}).launched [0x22, 0x00]).acts
      (.move (.setSound 2) :: List.replicate 17 (.move .instruction)) :=
  acts_start_new roomy rfl _ _

theorem ended_overflowing :
    ((new roomy {}).acts overflowing).engine.any
      (fun e => (e.clock .instruction).stage = .ended) = true := by
  rw [acts_overflowing]
  decide +kernel

theorem timers_overflowing :
    ((new roomy {}).acts overflowing).timers = { sound := 2, speaker := { calls := [.start] } } ∧
      ((new roomy {}).acts overflowing).firings .timer twoTicks = 2 := by
  rw [acts_overflowing]
  decide +kernel

theorem failing_clock_is_contained_on_overflow :
    (∃ e, ((new roomy {}).acts overflowing).engine = some e ∧
        (e.clock .instruction).stage = .ended ∧
        Survives .instruction ((new roomy {}).acts overflowing) e twoTicks) ∧
      (((new roomy {}).acts overflowing).acts twoTicks).timers.sound.toNat = 0 ∧
      (((new roomy {}).acts overflowing).acts twoTicks).timers.speaker.calls = [.stop, .start] ∧
      1 ≤ ((Clock.Life.born .timer).turns [.cancel, .go .ok]).firings := by
  have hended := ended_overflowing
  obtain ⟨htimers, hfirings⟩ := timers_overflowing
  obtain ⟨hlife, hmachine⟩ := failing_clock_is_contained
  obtain ⟨-, hcontained⟩ := hmachine roomy {} overflowing
  obtain ⟨-, hgo, -⟩ := hlife .timer [.cancel, .go .ok]
  generalize (new roomy {}).acts overflowing = m at hended htimers hfirings hcontained ⊢
  obtain ⟨e, he, hs⟩ := (Option.any_eq_true _ _).1 hended
  have hstage : (e.clock .instruction).stage = .ended := of_decide_eq_true hs
  obtain ⟨hsurvives, hstalled⟩ := hcontained e .instruction he hstage twoTicks (by decide)
  obtain ⟨-, hticks⟩ := hstalled rfl
  obtain ⟨-, hsound, hcalls⟩ := hticks (by decide)
  rw [hfirings, htimers] at hsound hcalls
  exact ⟨⟨e, he, hstage, hsurvives⟩, hsound, hcalls, hgo .ok (by decide)⟩

end Machine

end Chip8
