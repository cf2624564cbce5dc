import Chip8.Proofs.Machine.Containment
import Chip8.Proofs.Timers.Countdown

namespace Chip8

namespace Timers

def Stuck (t : Timers) : Prop := t.sound = 0 ∧ t.speaker.isOn = true

variable {t : Timers}

theorem isOn_iff_of_pos (h : 0 < t.sound → t.speaker.isOn = true) :
    t.speaker.isOn = true ↔ 0 < t.sound ∨ t.Stuck := by
  constructor
  · intro hon
    by_cases hs : t.sound = 0
    · exact .inr ⟨hs, hon⟩
    · exact .inl (pos_of_ne_zero hs)
  · rintro (hp | hs)
    · exact h hp
    · exact hs.2

theorem stuck_zeroed_iff (h : 0 < t.sound → t.speaker.isOn = true) {u : Timers} (hs : u.sound = 0)
    (hk : u.speaker = t.speaker) : u.Stuck ↔ 0 < t.sound ∨ t.Stuck := by
  rw [Stuck, hk, and_iff_right hs, isOn_iff_of_pos h]

theorem stuck_apply_iff (h : 0 < t.sound → t.speaker.isOn = true) (op : Op) :
    (t.apply op).Stuck ↔ t.CutBy op ∨ t.Stuck ∧ op.sounds = false := by
  have hcount {op : Op} (hz : op.zeroes = false) (hs : op.sounds = false) :
      (t.CutBy op ∨ t.Stuck ∧ op.sounds = false) ↔ t.Stuck := by
    rw [and_iff_left hs, or_iff_right]
    exact fun hc => Bool.false_ne_true (hz.symm.trans hc.2)
  have hzero {op : Op} (hz : op.zeroes = true) (hs : op.sounds = false) :
      (t.CutBy op ∨ t.Stuck ∧ op.sounds = false) ↔ 0 < t.sound ∨ t.Stuck := by
    rw [and_iff_left hs, CutBy, and_iff_left hz]
  cases op with
  | setDelay value =>
    rw [hcount rfl rfl]
    rfl
  | reset =>
    rw [hzero rfl rfl]
    exact stuck_zeroed_iff h rfl rfl
  | setSound value =>
    by_cases hv : value = 0
    · subst hv
      rw [hzero rfl rfl]
      exact stuck_zeroed_iff h rfl rfl
    · rw [apply, setSound_of_ne_zero hv]
      refine iff_of_false (fun hs => hv hs.1) ?_
      rintro (hc | ⟨-, hs⟩)
      · exact hv (of_decide_eq_true hc.2)
      · exact of_decide_eq_false hs (pos_of_ne_zero hv)
  | tick =>
    rw [hcount rfl rfl, apply]
    by_cases h1 : t.sound = 1
    · refine iff_of_false (fun hs => ?_) (fun hs => absurd (hs.1.symm.trans h1) (by decide))
      have hon := hs.2
      simp only [Timers.tick, if_pos h1, isOn_stop, Bool.false_eq_true] at hon
    · have hdown : lower t.sound = 0 ↔ t.sound = 0 := by
        have hne : t.sound.toNat ≠ 1 := fun e => h1 (UInt8.toNat_inj.1 e)
        rw [← UInt8.toNat_inj, ← UInt8.toNat_inj, toNat_lower, UInt8.toNat_zero]
        omega
      simp only [Stuck, Timers.tick, if_neg h1, hdown]

theorem plain_obey (t : Timers) (op : Option Op) : (t.obey op).plain = t.plain.obey op := by
  cases op with
  | none => rfl
  | some op => exact t.plain_apply op

theorem sound_obey_of_quiet (h : t.sound = 0) {op : Option Op} (hop : ∀ o ∈ op, o.sounds = false) :
    (t.obey op).sound = 0 := by
  cases op with
  | none => exact h
  | some op =>
    have hquiet := hop op rfl
    cases op with
    | setDelay value => exact h
    | setSound value =>
      have hv : value = 0 := by_contra fun hv => of_decide_eq_false hquiet (pos_of_ne_zero hv)
      rw [hv]
      rfl
    | tick =>
      rw [obey, apply, Timers.tick, h]
      rfl
    | reset => rfl

theorem quiet_of_unset {ops : List Op} (h : ∀ v, .setSound v ∉ ops) :
    ∀ op ∈ ops, op.sounds = false := by
  intro op hop
  rw [← Bool.not_eq_true, sounds_iff]
  rintro ⟨v, rfl, -⟩
  exact h v hop

theorem stuck_obey_iff (h : 0 < t.sound → t.speaker.isOn = true) (op : Option Op) :
    (t.obey op).Stuck ↔
      (∃ o ∈ op, t.CutBy o) ∨ t.Stuck ∧ ∀ o ∈ op, o.sounds = false := by
  cases op with
  | none => simp [obey]
  | some op => simp [obey, stuck_apply_iff h]

end Timers

def Engine.onTimers? (e : Engine) : Option Timers.Op :=
  if e.instructionClock.stage = .firing ∧ e.request = none ∧ 0 < e.left then e.cpu.timerOp?
  else none

theorem Cpu.timerOp?_ne_reset (c : Cpu) : c.timerOp? ≠ some .reset := by
  intro h
  obtain ⟨ins, -, hop⟩ := Option.bind_eq_some_iff.1 h
  split at hop <;> cases hop

theorem Engine.timers_progress {e : Engine} (h : e.instructionClock.stage = .firing) (d : Devices) :
    (e.progress d).board.devices.timers = d.timers.obey e.onTimers? := by
  unfold progress onTimers?
  cases hr : e.request with
  | some r =>
    rw [if_neg (fun hc => Option.some_ne_none r hc.2.1), Progress.board_ofStep]
    exact Board.timers_resume ⟨e.cpu, d⟩ r
  | none =>
    cases hl : e.left with
    | zero =>
      rw [if_neg (fun hc => absurd hc.2.2 (by decide))]
      exact (Board.keptBut_push ⟨e.cpu, d⟩).timers
    | succ left =>
      rw [if_pos ⟨h, rfl, Nat.succ_pos left⟩]
      dsimp only
      rw [Progress.board_ofStep]
      exact Board.timers_step ⟨e.cpu, d⟩

namespace Machine

def onTimers? (m : Machine) : Act → Option Timers.Op
  | .move (.start _ _) => if m.isRunning then none else some .reset
  | .move .instruction => m.engine.bind Engine.onTimers?
  | .move .timer => if m.begins .timer (.move .timer) then some .tick else none
  | a => a.timerOp?

def onTimers : Machine → List Act → List Timers.Op
  | _, [] => []
  | m, a :: l => (m.onTimers? a).toList ++ onTimers (m.act a) l

def Resets (m : Machine) (a : Act) : Prop :=
  a.starts = true ∧ m.isRunning = false ∨ a = .outer (.happen (.timers .reset))

variable {m : Machine} {e : Engine} {a : Act} {l : List Act}

theorem onTimers?_of_outer? (m : Machine) {o : Outer} (h : a.outer? = some o) :
    m.onTimers? a = o.timerOp? := by
  match a with
  | .move (.key _ _) | .move (.setDelay _) | .move (.setSound _) | .outer _ =>
    cases h
    rfl

theorem onTimers?_of_isIdle (h : m.engine = some e) (hi : a.isIdle e = true) :
    m.onTimers? a = none := by
  match a with
  | .move (.start _ _) => exact if_pos (isRunning_iff.2 ⟨e, h⟩)
  | .move .instruction =>
    have hs : e.instructionClock.stage ≠ .firing := by
      obtain hr | hr := of_decide_eq_true hi <;> simp [hr]
    have hidle : e.onTimers? = none := if_neg fun hf => hs hf.1
    simp only [onTimers?, h, Option.bind_some, hidle]
  | .move .timer =>
    refine if_neg fun hb => ?_
    obtain ⟨-, x, hx, hdue⟩ := begins_iff.1 hb
    obtain rfl := Option.some.inj (h.symm.trans hx)
    exact of_decide_eq_true hi hdue
  | .move .wakeInstruction | .move .wakeTimer | .move .close | .move .cancel | .cancel _ => rfl
  | .move (.key _ _) | .move (.setDelay _) | .move (.setSound _) | .outer _ => cases hi

theorem onTimers?_of_stopped (h : m.engine = none) (ha : a.starts = false) :
    m.onTimers? a = a.timerOp? := by
  match a with
  | .move (.start _ _) => cases ha
  | .move .instruction =>
    simp only [onTimers?, h, Option.bind_none]
    rfl
  | .move .timer =>
    refine if_neg fun hb => ?_
    obtain ⟨-, e, he, -⟩ := begins_iff.1 hb
    cases h.symm.trans he
  | .move .wakeInstruction | .move .wakeTimer | .move .close | .move .cancel | .cancel _ => rfl
  | .move (.key _ _) | .move (.setDelay _) | .move (.setSound _) | .outer _ => rfl

theorem onTimers?_start (h : m.engine = none) (image : List UInt8)
    (refusal : Option Clock.Refusal) : m.onTimers? (.move (.start image refusal)) = some .reset :=
  if_neg (Bool.eq_false_iff.1 (isRunning_eq_false_iff.2 h))

theorem plain_launch (h : m.engine = none) (image : List UInt8) (refusal : Option Clock.Refusal) :
    (m.launch image refusal).1.timers.plain = m.timers.plain.apply .reset := by
  rw [launch_of_stopped h]
  cases m.devices.screen.crash? with
  | none => exact congrArg Timers.plain (Devices.timers_noteAll ..)
  | some c => rfl

theorem plain_act (m : Machine) (a : Act) :
    (m.act a).timers.plain = m.timers.plain.obey (m.onTimers? a) := by
  cases he : m.engine with
  | none =>
    cases ha : a.starts with
    | true =>
      obtain ⟨image, refusal, rfl⟩ := eq_start_of_starts ha
      rw [onTimers?_start he]
      exact plain_launch he image refusal
    | false =>
      rw [onTimers?_of_stopped he ha, act_of_stopped he ha, Act.timerOp?]
      cases a.outer? with
      | none => rfl
      | some o => exact m.devices.plain_undergo o
  | some e =>
    have hd := does_act he a
    revert hd
    generalize m.act a = m'
    intro hd
    cases hd with
    | nothing hi => rw [onTimers?_of_isIdle he hi]; rfl
    | outer ho =>
      rw [onTimers?_of_outer? m ho]
      exact m.devices.plain_undergo _
    | begins hs =>
      have hop : e.onTimers? = none := if_neg fun hf => by cases hs.symm.trans hf.1
      simp only [onTimers?, he, Option.bind_some, hop]
      rfl
    | sleeps _ ha =>
      have hr : e.request.isSome = true := (Bool.and_eq_true_iff.1 ha).1
      have hop : e.onTimers? = none := if_neg fun hf => by simp [hf.2.1] at hr
      simp only [onTimers?, he, Option.bind_some, hop]
      rfl
    | proceeds hs =>
      simp only [onTimers?, he, Option.bind_some]
      rw [timers, proceed, Devices.timers_noteAll, Engine.timers_progress hs]
      exact m.devices.timers.plain_obey e.onTimers?
    | fires r hs hr =>
      have hdue : (e.clock .timer).stage = .due := hs
      have hop : m.onTimers? (.move .timer) = some .tick :=
        if_pos (begins_iff.2 ⟨rfl, e, he, hdue⟩)
      rw [hop, timers, Devices.timers_noteAll]
      exact m.devices.timers.plain_apply .tick
    | wakes c hw =>
      subst hw
      cases c <;> exact congrArg Timers.plain (Devices.timers_noteAll ..)
    | cancels | stops | closes => rfl

theorem onTimers_append (m : Machine) (l r : List Act) :
    m.onTimers (l ++ r) = m.onTimers l ++ (m.acts l).onTimers r := by
  induction l generalizing m with
  | nil => rfl
  | cons a l ih => rw [List.cons_append, onTimers, ih, onTimers, acts_cons, List.append_assoc]

theorem isOn_acts_of_pos (h : 0 < m.timers.sound → m.timers.speaker.isOn = true) (l : List Act)
    (hp : 0 < (m.acts l).timers.sound) : (m.acts l).timers.speaker.isOn = true :=
  Timers.isOn_foldl_of_pos act (·.timers.plain) onTimers? plain_act l m h hp

def Cut (m : Machine) (l : List Act) : Prop :=
  ∃ pre a post, l = pre ++ a :: post ∧
    (∃ op ∈ (m.acts pre).onTimers? a, (m.acts pre).timers.CutBy op) ∧
    ∀ op ∈ (m.acts (pre ++ [a])).onTimers post, op.sounds = false

theorem onTimers_concat (m : Machine) (l : List Act) (a : Act) :
    m.onTimers (l ++ [a]) = m.onTimers l ++ ((m.acts l).onTimers? a).toList := by
  rw [onTimers_append, onTimers, onTimers, List.append_nil]

theorem acts_concat_acts (m : Machine) (pre : List Act) (a : Act) (post : List Act) :
    (m.acts (pre ++ [a])).acts post = m.acts (pre ++ a :: post) := by
  rw [← acts_append, List.append_assoc, List.singleton_append]

theorem cut_concat_iff : m.Cut (l ++ [a]) ↔
    (∃ op ∈ (m.acts l).onTimers? a, (m.acts l).timers.CutBy op) ∨
      m.Cut l ∧ ∀ op ∈ (m.acts l).onTimers? a, op.sounds = false := by
  constructor
  · rintro ⟨pre, b, post, hl, hcut, hquiet⟩
    obtain ⟨rfl, rfl, rfl⟩ | ⟨post, rfl, rfl⟩ := Timers.eq_or_cut_of_concat hl
    · exact .inl hcut
    · rw [onTimers_concat, acts_concat_acts, List.forall_mem_append] at hquiet
      exact .inr ⟨⟨pre, b, post, rfl, hcut, hquiet.1⟩,
        fun op hop => hquiet.2 op (Option.mem_toList.2 hop)⟩
  · rintro (hcut | ⟨⟨pre, b, post, rfl, hcut, hquiet⟩, hlast⟩)
    · exact ⟨l, a, [], rfl, hcut, List.forall_mem_nil _⟩
    · refine ⟨pre, b, post ++ [a], by rw [List.append_assoc, List.cons_append], hcut, ?_⟩
      rw [onTimers_concat, acts_concat_acts, List.forall_mem_append]
      exact ⟨hquiet, fun op hop => hlast op (Option.mem_toList.1 hop)⟩

theorem not_cut_nil (m : Machine) : ¬ m.Cut [] := by
  rintro ⟨pre, a, post, h, -⟩
  exact List.append_ne_nil_of_right_ne_nil pre (List.cons_ne_nil a post) h.symm

theorem stuck_acts_iff (hoff : m.timers.speaker.isOn = false) (hs : m.timers.sound = 0)
    (l : List Act) : (m.acts l).timers.Stuck ↔ m.Cut l := by
  have hpos : 0 < m.timers.sound → m.timers.speaker.isOn = true :=
    fun hp => absurd (hs ▸ hp) Timers.not_zero_lt_zero
  -- from the end: the last act cuts the tone off, or an earlier one has and this one is quiet
  induction l using List.reverseRecOn with
  | nil =>
    refine iff_of_false (fun hstuck => ?_) m.not_cut_nil
    exact Bool.false_ne_true (hoff.symm.trans hstuck.2)
  | append_singleton l a ih =>
    have hstep : (m.acts (l ++ [a])).timers.plain =
        (m.acts l).timers.plain.obey ((m.acts l).onTimers? a) := by
      rw [acts_append]
      exact plain_act (m.acts l) a
    have hobey := Timers.stuck_obey_iff (t := (m.acts l).timers.plain)
      (isOn_acts_of_pos hpos l) ((m.acts l).onTimers? a)
    rw [← hstep] at hobey
    exact hobey.trans ((or_congr_right (and_congr_left' ih)).trans cut_concat_iff.symm)

theorem onTimers?_eq_reset_iff : m.onTimers? a = some .reset ↔ m.Resets a := by
  match a with
  | .move (.start _ _) =>
    cases hr : m.isRunning <;> simp [onTimers?, Resets, Act.starts, hr]
  | .move .instruction =>
    refine iff_of_false (fun h => ?_) (by simp [Resets, Act.starts])
    obtain ⟨e, -, he⟩ := Option.bind_eq_some_iff.1 h
    rw [Engine.onTimers?] at he
    split at he
    · exact e.cpu.timerOp?_ne_reset he
    · cases he
  | .move .timer =>
    refine iff_of_false (fun h => ?_) (by simp [Resets, Act.starts])
    rw [onTimers?] at h
    split at h <;> cases h
  | .move .wakeInstruction | .move .wakeTimer | .move .close | .move .cancel | .cancel _
  | .move (.key _ _) | .move (.setDelay _) | .move (.setSound _) =>
    simp [onTimers?, Act.timerOp?, Act.outer?, Outer.timerOp?, Resets, Act.starts]
  | .outer (.happen (.timers op)) =>
    simp [onTimers?, Act.timerOp?, Act.outer?, Outer.timerOp?, Resets, Act.starts]
  | .outer (.happen (.keypad _)) | .outer (.happen (.random _)) | .outer (.wear _)
  | .outer .rouse =>
    simp [onTimers?, Act.timerOp?, Act.outer?, Outer.timerOp?, Resets, Act.starts]

theorem mem_onTimers_of_split {pre post : List Act} {op : Timers.Op}
    (h : op ∈ (m.acts pre).onTimers? a) : op ∈ m.onTimers (pre ++ a :: post) := by
  rw [onTimers_append, onTimers]
  exact List.mem_append_right _ (List.mem_append_left _ (Option.mem_toList.2 h))

theorem cut_iff_of_pos (hpos : ∀ v, .setSound v ∈ m.onTimers l → 0 < v) :
    m.Cut l ↔ ∃ pre a post, l = pre ++ a :: post ∧ (m.acts pre).Resets a ∧
      0 < (m.acts pre).timers.sound ∧
      ∀ v, .setSound v ∉ (m.acts (pre ++ [a])).onTimers post := by
  constructor
  · rintro ⟨pre, a, post, rfl, ⟨op, hop, hp, hz⟩, hquiet⟩
    refine ⟨pre, a, post, rfl, ?_, hp, fun v hv => ?_⟩
    · cases op with
      | setSound v =>
        obtain rfl : v = 0 := of_decide_eq_true hz
        exact absurd (hpos 0 (mem_onTimers_of_split hop)) Timers.not_zero_lt_zero
      | reset => exact onTimers?_eq_reset_iff.1 hop
      | setDelay | tick => cases hz
    · have hmem : .setSound v ∈ m.onTimers (pre ++ a :: post) := by
        rw [List.append_cons, onTimers_append]
        exact List.mem_append_right _ hv
      have hsounds := Timers.sounds_iff.2 ⟨v, rfl, hpos v hmem⟩
      exact Bool.false_ne_true ((hquiet _ hv).symm.trans hsounds)
  · rintro ⟨pre, a, post, rfl, hreset, hp, hunset⟩
    exact ⟨pre, a, post, rfl, ⟨.reset, onTimers?_eq_reset_iff.2 hreset, hp, rfl⟩,
      Timers.quiet_of_unset hunset⟩

theorem sound_acts_of_quiet (h : m.timers.sound = 0)
    (hl : ∀ op ∈ m.onTimers l, op.sounds = false) : (m.acts l).timers.sound = 0 := by
  induction l generalizing m with
  | nil => exact h
  | cons a l ih =>
    rw [onTimers, List.forall_mem_append] at hl
    refine ih ?_ hl.2
    have hstep := congrArg Timers.sound (plain_act m a)
    have hplain : m.timers.plain.sound = 0 := h
    refine hstep.trans (Timers.sound_obey_of_quiet hplain fun op hop => hl.1 op ?_)
    exact Option.mem_toList.2 hop

theorem tone_off_iff_uncut (o : Options) (d : Devices) (past since : List Act) (image : List UInt8)
    (hoff : d.timers.speaker.isOn = false)
    (hok : (((new o d).acts past).start image).2 = .ok)
    (hpos : ∀ v, .setSound v ∈ (new o d).onTimers (past ++ .move (.start image) :: since) → 0 < v)
    (hsince : ∀ v,
      .setSound v ∉ ((new o d).acts (past ++ [.move (.start image)])).onTimers since) :
    let m (l : List Act) : Machine := (new o d).acts l
    let l := past ++ .move (.start image) :: since
    (m l).timers.sound = 0 ∧
      ((m l).timers.speaker.isOn = false ↔
        ∀ pre a post, l = pre ++ a :: post → (m pre).Resets a → 0 < (m pre).timers.sound →
          ∃ v, .setSound v ∈ (m (pre ++ [a])).onTimers post) := by
  intro m l
  have hstopped := (start_eq_ok hok).1
  have hsound : (m l).timers.sound = 0 := by
    have hstart : (m (past ++ [.move (.start image)])).timers.sound = 0 := by
      have hm := acts_append (new o d) past [.move (.start image)]
      refine (congrArg (·.timers.sound) hm).trans ?_
      exact congrArg Timers.sound (plain_launch hstopped image none)
    have hl := sound_acts_of_quiet hstart (Timers.quiet_of_unset hsince)
    rwa [acts_concat_acts] at hl
  refine ⟨hsound, ?_⟩
  have hstuck : (m l).timers.speaker.isOn = true ↔ (new o d).Cut l := by
    have hnew : (new o d).timers.speaker.isOn = false := hoff
    rw [← stuck_acts_iff hnew rfl l]
    exact (and_iff_right hsound).symm
  rw [← Bool.not_eq_true, hstuck, cut_iff_of_pos hpos]
  constructor
  · intro hcut pre a post hl hreset hp
    exact by_contra fun hnone => hcut ⟨pre, a, post, hl, hreset, hp, fun v hv => hnone ⟨v, hv⟩⟩
  · rintro hset ⟨pre, a, post, hl, hreset, hp, hunset⟩
    obtain ⟨v, hv⟩ := hset pre a post hl hreset hp
    exact hunset v hv

theorem onTimers_start (h : m.engine = none) (hc : m.devices.screen.crash? = none)
    (image : List UInt8) (l : List Act) :
    m.onTimers (.move (.start image) :: l) = .reset :: (m.launched image).onTimers l := by
  rw [onTimers, onTimers?_start h, act_start h hc]
  rfl

theorem isOn_start (h : m.engine = none) (image : List UInt8) :
    (m.start image).1.timers.speaker.isOn = m.timers.speaker.isOn := by
  rw [start_eq_launch]
  exact congrArg (·.speaker.isOn) (plain_launch h image none)

theorem started_tick (h : m.engine = none) (hc : m.devices.screen.crash? = none)
    (image : List UInt8) :
    (m.acts [.move (.start image)]).onTimers [.move .timer] = [.tick] ∧
      m.onTimers [.move (.start image), .move .timer] = [.reset, .tick] ∧
      (m.acts [.move (.start image), .move .timer]).timers.speaker.isOn =
        m.timers.speaker.isOn := by
  rw [onTimers_start h hc, acts_cons, acts_cons, act_start h hc]
  exact ⟨rfl, rfl, rfl⟩

def brief : Options := { block := 2 }

def toneOf (n : UInt8) : List UInt8 := [0x60, n, 0xF0, 0x18]

def idle : List UInt8 := [0x12, 0x00]

def lastActs : List Act :=
  [.move .cancel, .move .wakeInstruction, .move .wakeTimer, .move .close]

def countedDown : List Act :=
  .move (.start (toneOf 1)) :: List.replicate 4 (.move .instruction) ++ .move .timer :: lastActs

theorem countedDown_stops :
    let m := (new brief {}).acts countedDown
    m.engine = none ∧ m.devices.screen.crash? = none ∧ m.timers.speaker.isOn = false := by
  have hm : (new brief {}).acts countedDown = ((new brief {}).launched (toneOf 1)).acts
      (List.replicate 4 (.move .instruction) ++ .move .timer :: lastActs) :=
    acts_start_new brief rfl _ _
  rw [hm]
  decide +kernel

theorem onTimers_countedDown :
    (new brief {}).onTimers countedDown = [.reset, .setSound 1, .tick] := by
  refine (onTimers_start (m := new brief {}) rfl rfl (toneOf 1) _).trans ?_
  decide +kernel

theorem tone_off_iff_uncut_of_countedDown :
    let m (l : List Act) : Machine := (new brief {}).acts l
    let l := countedDown ++ [.move (.start idle), .move .timer]
    ((m countedDown).start idle).2 = .ok ∧
      (new brief {}).onTimers l = [.reset, .setSound 1, .tick, .reset, .tick] ∧
      (m l).timers.sound = 0 ∧
      ∀ pre a post, l = pre ++ a :: post → (m pre).Resets a → 0 < (m pre).timers.sound →
        ∃ v, .setSound v ∈ (m (pre ++ [a])).onTimers post := by
  intro m l
  obtain ⟨hstopped, hc, hoff⟩ := countedDown_stops
  have hok := congrArg Prod.snd (start_of_unbroken hstopped hc idle)
  obtain ⟨htick, hticks, hon⟩ := started_tick hstopped hc idle
  have hl : (new brief {}).onTimers l = [.reset, .setSound 1, .tick, .reset, .tick] := by
    rw [onTimers_append, onTimers_countedDown, hticks]
    rfl
  have hpos : ∀ v, .setSound v ∈ (new brief {}).onTimers l → 0 < v := by
    intro v hv
    obtain rfl : v = 1 := by simpa [hl] using hv
    decide
  have hsince : ∀ v,
      .setSound v ∉ ((new brief {}).acts (countedDown ++ [.move (.start idle)])).onTimers
        [.move .timer] := by
    intro v
    rw [acts_append, htick]
    simp
  have hend : ((new brief {}).acts l).timers.speaker.isOn = false := by
    rw [acts_append, hon, hoff]
  obtain ⟨hsound, huncut⟩ :=
    tone_off_iff_uncut brief {} countedDown [.move .timer] idle rfl hok hpos hsince
  exact ⟨hok, hl, hsound, huncut.1 hend⟩

def cutShort : List Act :=
  .move (.start (toneOf 5)) :: .move .timer :: List.replicate 4 (.move .instruction) ++ lastActs

theorem tone_outlives_restart :
    let m := (new brief {}).acts cutShort
    (new brief {}).onTimers cutShort = [.reset, .tick, .setSound 5] ∧
      (m.start idle).2 = .ok ∧ (m.start idle).1.timers.speaker.isOn = true := by
  intro m
  have hm : m = ((new brief {}).launched (toneOf 5)).acts
      (.move .timer :: List.replicate 4 (.move .instruction) ++ lastActs) :=
    acts_start_new brief rfl _ _
  have hstopped : m.engine = none ∧ m.devices.screen.crash? = none := by
    rw [hm]
    decide +kernel
  refine ⟨?_, congrArg Prod.snd (start_of_unbroken hstopped.1 hstopped.2 idle), ?_⟩
  · have hl := onTimers_start (m := new brief {}) rfl rfl (toneOf 5)
      (.move .timer :: List.replicate 4 (.move .instruction) ++ lastActs)
    refine hl.trans ?_
    decide +kernel
  · rw [isOn_start hstopped.1, hm]
    decide +kernel

end Machine

end Chip8
