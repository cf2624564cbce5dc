import Chip8.Proofs.Machine.Acts

namespace Chip8

def Event.clock? : Event → Option ClockName
  | .clockStarted c | .clockStopped c | .clockFailed c _ | .clockCrashed c _ => some c
  | _ => none

theorem Event.isOfStep_of_clock? {x : Event} {c : ClockName} (h : x.clock? = some c) :
    x.isOfStep = false := by
  cases x
  case clockStarted | clockStopped | clockFailed | clockCrashed => rfl
  all_goals cases h

namespace Clock

theorem clock?_complaint {name : ClockName} {e : Ending} {x : Event}
    (h : x ∈ complaint name e) : x.clock? = some name := by
  match e with
  | .ok | .failed .interrupted => cases h
  | .failed (.stackOverflow ..) | .failed .alreadyRunning | .failed (.spawn _) | .crashed _ =>
    rw [List.mem_singleton.1 h]
    rfl

theorem named_finish (c : Clock) (e : Ending) :
    (c.finish e).1.name = c.name ∧ ∀ x ∈ (c.finish e).2, x.clock? = some c.name := by
  by_cases hs : c.stage = .firing
  · by_cases he : e = .ok
    · rw [he, finish_of_ok hs]
      exact ⟨rfl, nofun⟩
    · rw [finish_of_ne hs he]
      refine ⟨rfl, fun x hx => ?_⟩
      obtain hx | hx := List.mem_append.1 hx
      · exact clock?_complaint hx
      · rw [List.mem_singleton.1 hx]
        rfl
  · rw [finish_of_ne_firing hs]
    exact ⟨rfl, nofun⟩

theorem Goes.named {c c' : Clock} {events : List Event} (h : c.Goes c' events) :
    c'.name = c.name ∧ ∀ x ∈ events, x.clock? = some c.name := by
  cases h with
  | still | cancelled => exact ⟨rfl, nofun⟩
  | begins hs =>
    rw [begin_of_due hs]
    exact ⟨rfl, nofun⟩
  | ends e => exact named_finish c e
  | fires e hs =>
    rw [begin_of_due hs]
    exact named_finish _ e
  | wakes hs =>
    rw [wake_of_resting hs]
    split
    · refine ⟨rfl, fun x hx => ?_⟩
      rw [List.mem_singleton.1 hx]
      rfl
    · exact ⟨rfl, nofun⟩

end Clock

namespace Journal

def about (j : Journal) (c : ClockName) : List Event :=
  (j.reports.filter fun x => x.clock? = some c).reverse

end Journal

namespace Devices

theorem reports_noteAll {d : Devices} {events : List Event} (h : ∀ x ∈ events, x.isOfStep = false) :
    (d.noteAll events).journal.reports = events.reverse ++ d.journal.reports := by
  induction events generalizing d with
  | nil => rfl
  | cons x events ih =>
    have hx : (d.note x).journal.reports = x :: d.journal.reports :=
      Journal.reports_note (h x List.mem_cons_self) d.journal
    have hrest : ((d.note x).noteAll events).journal.reports = _ :=
      ih fun y hy => h y (List.mem_cons_of_mem x hy)
    rw [List.reverse_cons, List.append_assoc, List.singleton_append, ← hx, ← hrest]
    rfl

theorem about_noteAll {d : Devices} {events : List Event} {c : ClockName}
    (h : ∀ x ∈ events, x.clock? = some c) (c' : ClockName) :
    (d.noteAll events).journal.about c' =
      d.journal.about c' ++ if c' = c then events else [] := by
  have hr := reports_noteAll (d := d) fun x hx => Event.isOfStep_of_clock? (h x hx)
  rw [Journal.about, hr, List.filter_append, List.reverse_append, List.filter_reverse,
    List.reverse_reverse]
  congr 1
  split
  · next hc =>
    subst hc
    exact List.filter_eq_self.2 fun x hx => decide_eq_true (h x hx)
  · next hc =>
    refine List.filter_eq_nil_iff.2 fun x hx => ?_
    rw [h x hx]
    simp [Ne.symm hc]

end Devices

namespace Engine

theorem clock_withClock (e : Engine) (c c' : ClockName) (k : Clock) :
    (e.withClock c k).clock c' = if c' = c then k else e.clock c' := by
  cases c <;> cases c' <;> rfl

structure Coherent (e : Engine) (block : Nat) : Prop where
  named : ∀ c, (e.clock c).name = c
  timer : e.timerClock.stage ≠ .firing
  left : e.left ≤ block
  request : e.request ≠ none → e.instructionClock.stage = .firing

theorem keypad_progress (e : Engine) (d : Devices) :
    ∃ waiting asleep,
      (e.progress d).board.devices.keypad = { d.keypad with waiting, asleep } := by
  unfold progress
  cases e.request with
  | some r =>
    rw [Progress.board_ofStep, Board.resume_eq]
    cases d.keypad.verdict r.wait with
    | pending => exact ⟨d.keypad.waiting, true, rfl⟩
    | interrupted | released => exact ⟨false, false, rfl⟩
  | none =>
    cases e.left with
    | zero => exact ⟨d.keypad.waiting, d.keypad.asleep, Board.keypad_push ⟨e.cpu, d⟩⟩
    | succ left =>
      dsimp only
      rw [Progress.board_ofStep]
      obtain ⟨hk, -⟩ | hk := Board.keypad_step ⟨e.cpu, d⟩
      · exact ⟨d.keypad.waiting, d.keypad.asleep, hk⟩
      · exact ⟨_, _, hk⟩

theorem waiting_progress {e : Engine} {d : Devices} (h : d.keypad.waiting = e.request.isSome) :
    (e.progress d).board.devices.keypad.waiting = (e.progress d).request.isSome := by
  unfold progress
  cases hr : e.request with
  | some r =>
    rw [hr] at h
    rw [Progress.board_ofStep, Progress.isSome_request_ofStep]
    exact Board.waiting_resume (b := ⟨e.cpu, d⟩) h r
  | none =>
    rw [hr] at h
    cases e.left with
    | zero =>
      dsimp only
      rw [Board.keypad_push]
      exact h
    | succ left =>
      dsimp only
      rw [Progress.board_ofStep, Progress.isSome_request_ofStep]
      exact Board.waiting_step (b := ⟨e.cpu, d⟩) h

theorem sleepsIn_progress {e : Engine} {d : Devices}
    (h : d.keypad.SleepsIn (e.request.map (·.wait))) :
    (e.progress d).board.devices.keypad.SleepsIn ((e.progress d).request.map (·.wait)) := by
  unfold progress
  cases hr : e.request with
  | some r =>
    rw [Progress.board_ofStep, Progress.wait_ofStep]
    exact Board.sleepsIn_resume ⟨e.cpu, d⟩ r
  | none =>
    rw [hr] at h
    cases e.left with
    | zero =>
      dsimp only
      rw [Board.keypad_push]
      exact h
    | succ left =>
      dsimp only
      rw [Progress.board_ofStep, Progress.wait_ofStep]
      exact Board.sleepsIn_step (b := ⟨e.cpu, d⟩) h

theorem reports_progress (e : Engine) (d : Devices) :
    (e.progress d).board.devices.journal.reports = d.journal.reports := by
  unfold progress
  cases e.request with
  | some r =>
    rw [Progress.board_ofStep]
    exact congrArg Journal.reports (Board.journal_resume ⟨e.cpu, d⟩ r)
  | none =>
    cases e.left with
    | zero => exact congrArg Journal.reports (Board.journal_push ⟨e.cpu, d⟩)
    | succ left =>
      dsimp only
      rw [Progress.board_ofStep]
      exact Board.reports_step ⟨e.cpu, d⟩

theorem left_progress_le (e : Engine) (d : Devices) : (e.progress d).left ≤ e.left := by
  unfold progress
  cases e.request with
  | some r => exact Progress.left_ofStep_le ..
  | none =>
    cases e.left with
    | zero => exact Nat.le_refl _
    | succ left => exact Nat.le_succ_of_le (Progress.left_ofStep_le ..)

theorem request_of_ending {p : Progress} {left : Nat} {r : Board × Outcome}
    (h : p = .ofStep left r) (hr : p.request ≠ none) : p.ending = none := by
  obtain ⟨b, o⟩ := r
  subst h
  cases o
  case done | waiting => rfl
  case failed | crashed => exact absurd rfl hr

theorem ending_progress {e : Engine} {d : Devices} (h : (e.progress d).request ≠ none) :
    (e.progress d).ending = none := by
  unfold progress at h ⊢
  cases hr : e.request with
  | some r =>
    simp only [hr] at h ⊢
    exact request_of_ending rfl h
  | none =>
    cases hl : e.left with
    | zero => simp only [hr, hl, ne_eq, not_true] at h
    | succ left =>
      simp only [hr, hl] at h ⊢
      exact request_of_ending rfl h

end Engine

namespace Machine

structure Coherent (m : Machine) : Prop where
  engine : ∀ e ∈ m.engine, e.Coherent m.options.block
  waiting : m.devices.keypad.waiting = (m.engine.bind (·.request)).isSome
  asleep : m.devices.keypad.SleepsIn ((m.engine.bind (·.request)).map (·.wait))

def launched (m : Machine) (image : List UInt8) (refusal : Option Clock.Refusal := none) :
    Machine :=
  let d := prepare m.devices image
  let spawned := spawn m.options
    { memory := Memory.blank.store (UInt16.ofNat Memory.imageStart)
        (image.take Memory.imageCapacity)
      framebuffer := { dirty := false }
      clip := m.options.clip }
    refusal
  { m with
    devices := { d with screen := d.screen.present .blank }.noteAll spawned.2
    engine := spawned.1 }

variable {m : Machine} {e : Engine} {a : Act} {c : ClockName}

theorem launch_of_stopped (h : m.engine = none) (image : List UInt8)
    (refusal : Option Clock.Refusal) :
    m.launch image refusal =
      match m.devices.screen.crash? with
      | none => (m.launched image refusal, .ofRefusal refusal)
      | some c =>
        let d := prepare m.devices image
        ({ m with devices := { d with screen := d.screen.present .blank } }, .crashed c) := by
  have hrun : m.isRunning = false := isRunning_eq_false_iff.2 h
  let b : Board := ⟨Cpu.start image m.options.clip, prepare m.devices image⟩
  have hload := Memory.blank.load_eq_store image
  have hdirty : b.cpu.framebuffer.dirty = true := rfl
  rw [launch, if_neg (by simp [hrun])]
  cases hc : m.devices.screen.crash? with
  | none =>
    have hp := Board.push_of_dirty (b := b) hdirty hc
    dsimp only
    rw [hp, launched, ← hload]
    rfl
  | some c =>
    have hp := Board.push_of_crash (b := b) hdirty hc
    dsimp only
    rw [hp]
    rfl

theorem launch_of_running (h : m.engine = some e) (image : List UInt8)
    (refusal : Option Clock.Refusal) : m.launch image refusal = (m, .failed .alreadyRunning) :=
  if_pos (isRunning_iff.2 ⟨e, h⟩)

theorem start_eq_launch (m : Machine) (image : List UInt8) :
    m.start image = m.launch image none := by
  rw [start]
  cases h : m.engine with
  | some e => rw [launch_of_running h]
  | none =>
    rw [launch_of_stopped h]
    cases m.devices.screen.crash? <;> rfl

theorem start_of_stopped (h : m.engine = none) (image : List UInt8) :
    m.start image =
      match m.devices.screen.crash? with
      | none => (m.launched image, .ok)
      | some c =>
        let d := prepare m.devices image
        ({ m with devices := { d with screen := d.screen.present .blank } }, .crashed c) :=
  (start_eq_launch m image).trans (launch_of_stopped h image none)

theorem start_of_unbroken (h : m.engine = none) (hc : m.devices.screen.crash? = none)
    (image : List UInt8) : m.start image = (m.launched image, .ok) := by
  rw [start_of_stopped h, hc]

theorem act_start (h : m.engine = none) (hc : m.devices.screen.crash? = none)
    (image : List UInt8) : m.act (.move (.start image)) = m.launched image := by
  have hs := launch_of_stopped h image none
  rw [hc] at hs
  exact congrArg Prod.fst hs

theorem acts_start_new (o : Options) {d : Devices} (hc : d.screen.crash? = none)
    (image : List UInt8) (l : List Act) :
    (new o d).acts (.move (.start image) :: l) = ((new o d).launched image).acts l := by
  rw [acts_cons, act_start rfl hc]

theorem eq_start_of_starts (h : a.starts = true) :
    ∃ image refusal, a = .move (.start image refusal) := by
  match a with
  | .move (.start image refusal) => exact ⟨image, refusal, rfl⟩

theorem act_of_stopped (h : m.engine = none) (ha : a.starts = false) :
    m.act a = (a.outer?.map fun o => { m with devices := m.devices.undergo o }).getD m := by
  match a with
  | .move (.start _ _) => cases ha
  | .move .cancel => simp only [act, move, Machine.cancel, h]; rfl
  | .move .close => simp only [act, move, close, h]; rfl
  | .cancel c => simp only [act, cancelClock, h, Option.map_none]; rw [← h]; rfl
  | .move .instruction | .move .timer | .move .wakeInstruction | .move .wakeTimer =>
    simp only [act, move, h]; rfl
  | .move (.key _ _) | .move (.setDelay _) | .move (.setSound _) | .outer _ => rfl

theorem coherent_new (o : Options) (d : Devices) : (new o d).Coherent :=
  ⟨fun _ he => absurd he (Option.not_mem_none _), rfl, .of_awake rfl none⟩

theorem coherent_spawned (o : Options) (cpu : Cpu) (refusal : Option Clock.Refusal) :
    ∀ e ∈ (spawn o cpu refusal).1, e.Coherent o.block ∧ e.request = none := by
  intro e he
  have hclocks : e = (spawn o cpu none).1.get rfl ∨
      e = { (spawn o cpu none).1.get rfl with
        timerClock := { name := .timer, stage := .ended } } := by
    match refusal with
    | none => exact .inl (Option.some.inj he).symm
    | some ⟨.instruction, _⟩ => cases he
    | some ⟨.timer, _⟩ => exact .inr (Option.some.inj he).symm
  obtain rfl | rfl := hclocks
  all_goals
    refine ⟨⟨fun c => ?_, nofun, Nat.zero_le _, fun hr => absurd rfl hr⟩, rfl⟩
    cases c <;> rfl

theorem Coherent.waiting_of_stopped (h : m.Coherent) (hm : m.engine = none) :
    m.devices.keypad.waiting = false := by
  rw [h.waiting, hm]
  rfl

theorem Coherent.asleep_of_stopped (h : m.Coherent) (hm : m.engine = none) :
    m.devices.keypad.asleep = false := by
  refine Bool.eq_false_iff.2 fun hasleep => ?_
  obtain ⟨w, hw, -⟩ := h.asleep hasleep
  rw [hm] at hw
  cases hw

theorem coherent_launched (m : Machine) (image : List UInt8) (refusal : Option Clock.Refusal)
    (hw : m.devices.keypad.waiting = false) (hs : m.devices.keypad.asleep = false) :
    (m.launched image refusal).Coherent := by
  have hspawned := coherent_spawned m.options
  have hk : (m.launched image refusal).devices.keypad = m.devices.keypad.resume :=
    Devices.keypad_noteAll _ _
  have hr : (m.launched image refusal).engine.bind (·.request) = none :=
    Option.bind_eq_none_iff.2 fun e he => (hspawned _ _ e he).2
  refine ⟨fun e he => (hspawned _ _ e he).1, ?_, ?_⟩
  · rw [hk, hr]
    exact hw
  · rw [hk]
    exact Keypad.sleepsIn_apply (.of_awake hs _) .resume

theorem coherent_launch (h : m.Coherent) (hm : m.engine = none) (image : List UInt8)
    (refusal : Option Clock.Refusal) : (m.launch image refusal).1.Coherent := by
  have hw := h.waiting_of_stopped hm
  have hs := h.asleep_of_stopped hm
  rw [launch_of_stopped hm]
  cases m.devices.screen.crash? with
  | none => exact coherent_launched m image refusal hw hs
  | some c =>
    refine ⟨fun e he => ?_, ?_, ?_⟩
    · rw [Option.mem_def, hm] at he
      cases he
    · rw [hm]
      exact hw
    · exact Keypad.sleepsIn_apply (.of_awake hs _) .resume

theorem coherent_start (h : m.Coherent) (hm : m.engine = none) (image : List UInt8) :
    (m.start image).1.Coherent := by
  rw [start_eq_launch]
  exact coherent_launch h hm image none

theorem Coherent.undergo (h : m.Coherent) (o : Outer) :
    Coherent { m with devices := m.devices.undergo o } := by
  refine ⟨h.engine, (m.devices.waiting_undergo o).trans h.waiting, ?_⟩
  match o with
  | .happen (.keypad op) => exact Keypad.sleepsIn_apply h.asleep op
  | .happen (.timers _) | .happen (.random _) | .wear _ => exact h.asleep
  | .rouse => exact .of_awake rfl _

structure ClockGoes (c : ClockName) (m : Machine) (e : Engine) (m' : Machine) (e' : Engine)
    (events : List Event) : Prop where
  goes : (e.clock c).Goes (e'.clock c) events
  about : m'.devices.journal.about c = m.devices.journal.about c ++ events

variable {m' : Machine} {e' : Engine}

theorem clockGoes_of_one {c : ClockName} {k : Clock} {d : Devices} {events : List Event}
    (hn : (e.clock c).name = c) (hg : (e.clock c).Goes k events)
    (he : ∀ c', e'.clock c' = if c' = c then k else e.clock c')
    (hd : d.journal.reports = m.devices.journal.reports)
    (hm : m'.devices = d.noteAll events) (c' : ClockName) :
    ∃ events', ClockGoes c' m e m' e' events' := by
  have hab : m'.devices.journal.about c' =
      m.devices.journal.about c' ++ if c' = c then events else [] := by
    rw [hm, Devices.about_noteAll (c := c) fun x hx => (hg.named.2 x hx).trans (congrArg some hn),
      Journal.about, hd, Journal.about]
  by_cases hc : c' = c
  · subst hc
    refine ⟨events, ?_, ?_⟩
    · rwa [he, if_pos rfl]
    · rwa [if_pos rfl] at hab
  · refine ⟨[], ?_, ?_⟩
    · rw [he, if_neg hc]
      exact .still
    · rwa [if_neg hc] at hab

theorem clockGoes_of_eq (he : ∀ c, e'.clock c = e.clock c)
    (hm : m'.devices.journal = m.devices.journal) (c : ClockName) :
    ∃ events, ClockGoes c m e m' e' events := by
  refine ⟨[], ?_, ?_⟩
  · rw [he]
    exact .still
  · rw [hm, List.append_nil]

theorem goes_proceed {p : Engine.Progress} (hs : e.instructionClock.stage = .firing) :
    e.instructionClock.Goes (p.clock e.instructionClock).1 (p.clock e.instructionClock).2 := by
  rw [Engine.Progress.clock]
  cases p.ending with
  | none => exact .still
  | some ending => exact .ends ending hs

theorem goes_act (hm : m.Coherent) (h : m.engine = some e) (a : Act) :
    (∃ e', (m.act a).engine = some e' ∧ ∀ c, ∃ events, ClockGoes c m e (m.act a) e' events) ∨
      a = .move .close ∧ (∀ c, (e.clock c).stage = .ended) ∧
        m.act a = { m with devices := m.devices.note .machineStopped, engine := none } := by
  have he := hm.engine e h
  have hd := does_act h a
  revert hd
  generalize m.act a = m'
  intro hd
  cases hd with
  | nothing | sleeps => exact .inl ⟨e, h, clockGoes_of_eq (fun _ => rfl) rfl⟩
  | outer => exact .inl ⟨e, h, clockGoes_of_eq (fun _ => rfl) (m.devices.journal_undergo _)⟩
  | begins hs =>
    refine .inl ⟨_, rfl, clockGoes_of_one (he.named .instruction) (.begins hs) ?_ rfl rfl⟩
    intro c
    cases c <;> rfl
  | proceeds hs =>
    refine .inl ⟨_, rfl, clockGoes_of_one (he.named .instruction) (goes_proceed hs) ?_
      (e.reports_progress m.devices) rfl⟩
    intro c
    cases c <;> rfl
  | fires r hs hr =>
    subst hr
    refine .inl ⟨_, rfl, clockGoes_of_one (he.named .timer) (.fires _ hs) ?_ ?_ rfl⟩
    · intro c
      cases c <;> rfl
    · rfl
  | wakes c _ hs =>
    exact .inl ⟨_, rfl, clockGoes_of_one (he.named c) (.wakes hs)
      (fun c' => e.clock_withClock c c' _) rfl rfl⟩
  | cancels c =>
    exact .inl ⟨_, rfl, clockGoes_of_one (he.named c) .cancelled
      (fun c' => e.clock_withClock c c' _) rfl rfl⟩
  | stops =>
    refine .inl ⟨_, rfl, fun c => ⟨[], ?_, (List.append_nil _).symm⟩⟩
    cases c <;> exact .cancelled
  | closes hi ht =>
    refine .inr ⟨rfl, fun c => ?_, rfl⟩
    cases c
    · exact hi
    · exact ht

theorem request_eq_none (he : e.Coherent m.options.block)
    (hs : e.instructionClock.stage ≠ .firing) :
    e.request = none := by
  by_contra hr
  exact hs (he.request hr)

theorem coherent_of_does (hm : m.Coherent) (h : m.engine = some e) {a : Act} (hd : Does m e a m')
    (h' : m'.engine = some e') (hnamed : ∀ c, (e'.clock c).name = c) : m'.Coherent := by
  have he := hm.engine e h
  have hw : m.devices.keypad.waiting = e.request.isSome := by rw [hm.waiting, h]; rfl
  have hs : m.devices.keypad.SleepsIn (e.request.map (·.wait)) := by simpa [h] using hm.asleep
  have hc : e'.timerClock.stage ≠ .firing → e'.left ≤ m'.options.block →
      (e'.request ≠ none → e'.instructionClock.stage = .firing) →
      m'.devices.keypad.waiting = e'.request.isSome →
      m'.devices.keypad.SleepsIn (e'.request.map (·.wait)) → m'.Coherent := by
    intro ht hl hr hk hk'
    refine ⟨fun x hx => ?_, by rw [h']; exact hk, by rw [h']; exact hk'⟩
    obtain rfl := Option.some.inj (h'.symm.trans hx)
    exact ⟨hnamed, ht, hl, hr⟩
  cases hd with
  | nothing | sleeps => exact hm
  | outer => exact hm.undergo _
  | begins hdue =>
    have hn : e.request = none := request_eq_none he (by simp [hdue])
    rw [hn] at hw hs
    obtain rfl := Option.some.inj h'
    exact hc he.timer (Nat.le_refl _) (fun hr => absurd rfl hr) hw hs
  | proceeds hfiring =>
    obtain rfl := Option.some.inj h'
    refine hc he.timer (Nat.le_trans (e.left_progress_le m.devices) he.left) ?_ ?_ ?_
    · intro hr
      simp only [Engine.Progress.clock, Engine.ending_progress hr]
      exact hfiring
    · rw [proceed, Devices.keypad_noteAll]
      exact Engine.waiting_progress hw
    · rw [proceed, Devices.keypad_noteAll]
      exact Engine.sleepsIn_progress hs
  | fires r hdue hr =>
    obtain rfl := Option.some.inj h'
    subst hr
    refine hc ?_ he.left he.request ?_ ?_
    · rw [Clock.begin_of_due hdue, (Clock.stage_finish rfl _).2]
      split <;> simp
    · rw [Devices.keypad_noteAll]
      exact hw
    · rw [Devices.keypad_noteAll]
      exact hs
  | wakes c _ hresting =>
    obtain rfl := Option.some.inj h'
    have hk : (m.devices.noteAll (e.clock c).wake.2).keypad = m.devices.keypad :=
      Devices.keypad_noteAll _ _
    rw [← hk] at hw hs
    cases c with
    | instruction =>
      have hi : e.instructionClock.stage = .resting := hresting
      refine hc he.timer he.left (fun hr => ?_) hw hs
      rw [he.request hr] at hi
      cases hi
    | timer =>
      refine hc ?_ he.left he.request hw hs
      have ht : e.timerClock.stage = .resting := hresting
      change e.timerClock.wake.1.stage ≠ .firing
      rw [Clock.wake_of_resting ht]
      split <;> simp
  | cancels c =>
    obtain rfl := Option.some.inj h'
    cases c <;> exact hc he.timer he.left he.request hw hs
  | stops =>
    obtain rfl := Option.some.inj h'
    exact hc he.timer he.left he.request hw (Keypad.sleepsIn_apply hs .interrupt)
  | closes => cases h'

theorem coherent_act (hm : m.Coherent) (a : Act) : (m.act a).Coherent := by
  cases h : m.engine with
  | none =>
    cases ha : a.starts with
    | true =>
      obtain ⟨image, refusal, rfl⟩ := eq_start_of_starts ha
      exact coherent_launch hm h image refusal
    | false =>
      rw [act_of_stopped h ha]
      cases a.outer? with
      | none => exact hm
      | some o => exact hm.undergo o
  | some e =>
    have he := hm.engine e h
    obtain ⟨e', h', hgoes⟩ | ⟨-, hended, hclosed⟩ := goes_act hm h a
    · refine coherent_of_does hm h (does_act h a) h' fun c => ?_
      obtain ⟨events, hc⟩ := hgoes c
      rw [hc.goes.named.1, he.named]
    · have hs : e.instructionClock.stage = .ended := hended .instruction
      have hn : e.request = none := request_eq_none he (by simp [hs])
      have hbind : m.engine.bind (·.request) = none := by rw [h, Option.bind_some, hn]
      rw [hclosed]
      refine ⟨fun _ hx => absurd hx (Option.not_mem_none _), ?_, ?_⟩
      · exact hm.waiting.trans (congrArg Option.isSome hbind)
      · have hasleep := hm.asleep
        rw [hbind] at hasleep
        exact hasleep

theorem options_act (m : Machine) (a : Act) : (m.act a).options = m.options := by
  cases h : m.engine with
  | none =>
    cases ha : a.starts with
    | true =>
      obtain ⟨image, refusal, rfl⟩ := eq_start_of_starts ha
      change (m.launch image refusal).1.options = m.options
      rw [launch_of_stopped h]
      cases m.devices.screen.crash? <;> rfl
    | false =>
      rw [act_of_stopped h ha]
      cases a.outer? <;> rfl
  | some e =>
    have hd := does_act h a
    revert hd
    generalize m.act a = m'
    intro hd
    cases hd <;> rfl

theorem options_acts (m : Machine) (l : List Act) : (m.acts l).options = m.options := by
  induction l generalizing m with
  | nil => rfl
  | cons a l ih => exact (ih (m.act a)).trans (options_act m a)

theorem coherent_acts (hm : m.Coherent) (l : List Act) : (m.acts l).Coherent := by
  induction l generalizing m with
  | nil => exact hm
  | cons a l ih => exact ih (coherent_act hm a)

def begins (m : Machine) (c : ClockName) (a : Act) : Bool :=
  a = .move (clockMove c) ∧ m.engine.any fun e => (e.clock c).stage = .due

def firings (c : ClockName) : Machine → List Act → Nat
  | _, [] => 0
  | m, a :: l => (if m.begins c a then 1 else 0) + firings c (m.act a) l

theorem engine_of_stopped (h : m.engine = none) (ha : a.starts = false) :
    (m.act a).engine = none := by
  rw [act_of_stopped h ha]
  cases a.outer? <;> exact h

theorem clock_act {P : Clock → Prop} (hP : ∀ k k' events, k.Goes k' events → P k → P k')
    (hm : m.Coherent) (ha : a.starts = false) (h : ∀ e ∈ m.engine, P (e.clock c)) :
    ∀ e ∈ (m.act a).engine, P (e.clock c) := by
  cases hn : m.engine with
  | none =>
    rw [engine_of_stopped hn ha]
    exact fun _ he => absurd he (Option.not_mem_none _)
  | some e =>
    obtain ⟨e', he', hgoes⟩ | ⟨-, -, hclosed⟩ := goes_act hm hn a
    · obtain ⟨events, hc⟩ := hgoes c
      intro x hx
      obtain rfl := Option.some.inj (he'.symm.trans hx)
      exact hP _ _ _ hc.goes (h e hn)
    · rw [hclosed]
      exact fun _ he => absurd he (Option.not_mem_none _)

theorem begins_iff :
    m.begins c a = true ↔
      a = .move (clockMove c) ∧ ∃ e, m.engine = some e ∧ (e.clock c).stage = .due := by
  rw [begins, decide_eq_true_iff, Option.any_eq_true]
  simp only [decide_eq_true_iff]

theorem stage_of_begins (h : m.begins c a = true) :
    ∀ e ∈ (m.act a).engine, (e.clock c).stage ≠ .due := by
  obtain ⟨rfl, e, he, hs⟩ := begins_iff.1 h
  have hd := does_act he (.move (clockMove c))
  revert hd
  generalize m.act (.move (clockMove c)) = m'
  intro hd x hx
  cases c with
  | instruction =>
    have hi : e.instructionClock.stage = .due := hs
    cases hd with
    | nothing hidle => simp [Act.isIdle, clockMove, hi] at hidle
    | outer ho => cases ho
    | begins =>
      obtain rfl := Option.some.inj hx
      simp [Engine.clock, Clock.begin_of_due hi]
    | sleeps hf | proceeds hf => cases hi.symm.trans hf
    | wakes c' hw => cases c' <;> cases hw
  | timer =>
    have ht : e.timerClock.stage = .due := hs
    cases hd with
    | nothing hidle => simp [Act.isIdle, clockMove, ht] at hidle
    | outer ho => cases ho
    | fires r _ hr =>
      obtain rfl := Option.some.inj hx
      subst hr
      simp only [Engine.clock, Clock.begin_of_due ht]
      exact Clock.stage_finish_ne_due rfl _
    | wakes c' hw => cases c' <;> cases hw

end Machine

end Chip8
