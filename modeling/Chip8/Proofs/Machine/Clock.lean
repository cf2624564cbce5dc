import Chip8.Machine.Clock

namespace Chip8.Clock

namespace Ending

def isFailure : Ending → Bool
  | .ok | .failed .interrupted => false
  | .failed _ | .crashed _ => true

def words : Ending → String
  | .ok => ""
  | .failed f => " terminated: " ++ f.message
  | .crashed c => " terminated by panic: " ++ c.message

end Ending

theorem complaint_of_not_isFailure {e : Ending} (h : e.isFailure = false) (name : ClockName) :
    complaint name e = [] := by
  match e with
  | .ok | .failed .interrupted => rfl
  | .failed (.stackOverflow ..) | .failed .alreadyRunning | .failed (.spawn _) | .crashed _ => cases h

theorem complaint_of_isFailure {e : Ending} (h : e.isFailure = true) (name : ClockName) :
    ∃ x, complaint name e = [x] ∧ x.level = .error ∧ x.text = name.text ++ e.words := by
  match e with
  | .ok | .failed .interrupted => cases h
  | .failed (.stackOverflow ..) | .failed .alreadyRunning | .failed (.spawn _) | .crashed _ =>
    exact ⟨_, rfl, rfl, String.append_assoc ..⟩

theorem finish_of_ok {c : Clock} (h : c.stage = .firing) :
    c.finish .ok = ({ c with stage := .resting }, []) := by
  simp only [finish, h]

theorem finish_of_ne {c : Clock} (h : c.stage = .firing) {e : Ending} (he : e ≠ .ok) :
    c.finish e = ({ c with stage := .ended }, complaint c.name e ++ [.clockStopped c.name]) := by
  cases e with
  | ok => exact absurd rfl he
  | failed | crashed =>
    simp only [finish, h]
    rfl

theorem finish_of_ne_firing {c : Clock} (h : c.stage ≠ .firing) (e : Ending) :
    c.finish e = (c, []) := by
  unfold finish
  split
  · next hs => exact absurd hs h
  · next hs _ => exact absurd hs h
  · rfl

theorem stage_finish {c : Clock} (hs : c.stage = .firing) (e : Ending) :
    (c.finish e).1.cancelled = c.cancelled ∧
      (c.finish e).1.stage = if e = .ok then .resting else .ended := by
  by_cases he : e = .ok
  · rw [he, finish_of_ok hs]
    exact ⟨rfl, rfl⟩
  · rw [finish_of_ne hs he, if_neg he]
    exact ⟨rfl, rfl⟩

theorem stage_finish_ne_due {c : Clock} (hs : c.stage = .firing) (e : Ending) :
    (c.finish e).1.stage ≠ .due := by
  rw [(stage_finish hs e).2]
  split <;> exact nofun

theorem begin_of_due {c : Clock} (h : c.stage = .due) : c.begin = { c with stage := .firing } := by
  simp only [begin, h]

theorem wake_of_resting {c : Clock} (h : c.stage = .resting) :
    c.wake =
      if c.cancelled then ({ c with stage := .ended }, [.clockStopped c.name])
      else ({ c with stage := .due }, []) := by
  simp only [wake, h]
  rfl

theorem wake_of_ne_resting {c : Clock} (h : c.stage ≠ .resting) : c.wake = (c, []) := by
  unfold wake
  split
  · next hr => exact absurd hr h
  · rfl

def advance (c : Clock) (e : Ending) : Clock × List Event :=
  match c.stage with
  | .due => (c.begin, [])
  | .firing => c.finish e
  | .resting => c.wake
  | .ended => (c, [])

inductive Turn where
  | go (e : Ending)
  | cancel
  deriving DecidableEq, Repr

structure Life where
  clock : Clock
  firings : Nat := 0
  endings : List Ending := []
  log : List Event := []

namespace Life

def born (name : ClockName) : Life where
  clock := (spawn name).1
  log := (spawn name).2

def turn (l : Life) : Turn → Life
  | .go e =>
    { clock := (l.clock.advance e).1
      firings := if l.clock.stage = .due then l.firings + 1 else l.firings
      endings := if l.clock.stage = .firing then l.endings ++ [e] else l.endings
      log := l.log ++ (l.clock.advance e).2 }
  | .cancel => { l with clock := l.clock.cancel }

def turns (l : Life) (ts : List Turn) : Life := ts.foldl turn l

def lastEnding (l : Life) : Ending := l.endings.getLastD .ok

structure Sane (name : ClockName) (l : Life) : Prop where
  named : l.clock.name = name
  firings : l.firings = l.endings.length + if l.clock.stage = .firing then 1 else 0
  fired : l.clock.stage ≠ .due → 1 ≤ l.firings
  ok_of_dropLast : ∀ e ∈ l.endings.dropLast, e = .ok
  ok_of_alive : l.clock.stage ≠ .ended → ∀ e ∈ l.endings, e = .ok
  log : l.log = .clockStarted name ::
    if l.clock.stage = .ended then complaint name l.lastEnding ++ [.clockStopped name] else []

theorem turns_append (l : Life) (ts us : List Turn) :
    l.turns (ts ++ us) = (l.turns ts).turns us := List.foldl_append

theorem sane_born (name : ClockName) : Sane name (born name) where
  named := rfl
  firings := rfl
  fired h := absurd rfl h
  ok_of_dropLast := nofun
  ok_of_alive := nofun
  log := rfl

variable {name : ClockName} {l : Life}

theorem lastEnding_of_ok (h : ∀ e ∈ l.endings, e = .ok) : l.lastEnding = .ok := by
  rw [lastEnding, List.getLastD_eq_getLast?]
  cases hl : l.endings.getLast? with
  | none => rfl
  | some e => exact h e (List.mem_of_getLast? hl)

theorem sane_due (h : Sane name l) (hs : l.clock.stage = .due) (e : Ending) :
    Sane name (l.turn (.go e)) := by
  have ht : l.turn (.go e) =
      { l with clock := { l.clock with stage := .firing }, firings := l.firings + 1 } := by
    simp [turn, advance, hs, begin_of_due hs]
  have hf := h.firings
  have hlog := h.log
  have hok := h.ok_of_alive (by simp [hs])
  simp only [hs, reduceCtorEq, if_false] at hf hlog
  rw [ht]
  exact ⟨h.named, by simp [hf], fun _ => Nat.succ_pos _, h.ok_of_dropLast, fun _ => hok, hlog⟩

theorem sane_firing (h : Sane name l) (hs : l.clock.stage = .firing) (e : Ending) :
    Sane name (l.turn (.go e)) := by
  have hf := h.firings
  have hlog := h.log
  have hok := h.ok_of_alive (by simp [hs])
  simp only [hs, reduceCtorEq, if_true, if_false] at hf hlog
  by_cases he : e = .ok
  · subst he
    have ht : l.turn (.go .ok) =
        { l with clock := { l.clock with stage := .resting }, endings := l.endings ++ [.ok] } := by
      simp [turn, advance, hs, finish_of_ok hs]
    have hall : ∀ e ∈ l.endings ++ [.ok], e = .ok := by
      intro e he
      obtain he | he := List.mem_append.1 he
      · exact hok e he
      · exact List.mem_singleton.1 he
    rw [ht]
    refine ⟨h.named, by simp [hf], fun _ => by simp [hf], ?_, fun _ => hall, hlog⟩
    exact fun e he => hall e ((List.dropLast_sublist _).subset he)
  · have ht : l.turn (.go e) =
        { l with
          clock := { l.clock with stage := .ended }
          endings := l.endings ++ [e]
          log := l.log ++ (complaint name e ++ [.clockStopped name]) } := by
      simp [turn, advance, hs, finish_of_ne hs he, h.named]
    rw [ht]
    refine ⟨h.named, by simp [hf], fun _ => by simp [hf], ?_, fun ha => absurd rfl ha, ?_⟩
    · simpa using hok
    · simp [hlog, lastEnding]

theorem sane_resting (h : Sane name l) (hs : l.clock.stage = .resting) (e : Ending) :
    Sane name (l.turn (.go e)) := by
  have hf := h.firings
  have hlog := h.log
  have hok := h.ok_of_alive (by simp [hs])
  have hfired := h.fired (by simp [hs])
  simp only [hs, reduceCtorEq, if_false] at hf hlog
  cases hc : l.clock.cancelled with
  | true =>
    have ht : l.turn (.go e) =
        { l with
          clock := { l.clock with stage := .ended }
          log := l.log ++ [.clockStopped name] } := by
      simp [turn, advance, hs, wake_of_resting hs, hc, h.named]
    have hlast : ({ l with
        clock := { l.clock with stage := .ended }
        log := l.log ++ [.clockStopped name] } : Life).lastEnding = .ok := lastEnding_of_ok hok
    rw [ht]
    refine ⟨h.named, by simp [hf], fun _ => hfired, h.ok_of_dropLast, fun ha => absurd rfl ha, ?_⟩
    rw [hlast]
    simp [hlog, complaint]
  | false =>
    have ht : l.turn (.go e) = { l with clock := { l.clock with stage := .due } } := by
      simp [turn, advance, hs, wake_of_resting hs, hc]
    rw [ht]
    exact ⟨h.named, by simp [hf], fun _ => hfired, h.ok_of_dropLast, fun _ => hok, hlog⟩

theorem turn_of_ended (hs : l.clock.stage = .ended) (e : Ending) : l.turn (.go e) = l := by
  simp [turn, advance, hs]

theorem sane_turn (h : Sane name l) (t : Turn) : Sane name (l.turn t) := by
  cases t with
  | cancel => exact { h with }
  | go e =>
    cases hs : l.clock.stage with
    | due => exact sane_due h hs e
    | firing => exact sane_firing h hs e
    | resting => exact sane_resting h hs e
    | ended => rwa [turn_of_ended hs]

theorem sane_turns (h : Sane name l) (ts : List Turn) : Sane name (l.turns ts) := by
  induction ts generalizing l with
  | nil => exact h
  | cons t ts ih => exact ih (sane_turn h t)

theorem firings_le_turns (l : Life) (ts : List Turn) : l.firings ≤ (l.turns ts).firings := by
  induction ts generalizing l with
  | nil => exact Nat.le_refl _
  | cons t ts ih =>
    refine Nat.le_trans ?_ (ih (l.turn t))
    cases t with
    | cancel => exact Nat.le_refl _
    | go e =>
      rw [turn]
      split
      · exact Nat.le_succ _
      · exact Nat.le_refl _

theorem firings_pos_of_go (h : Sane name l) {ts : List Turn} {e : Ending} (hmem : .go e ∈ ts) :
    1 ≤ (l.turns ts).firings := by
  obtain ⟨before, after, rfl⟩ := List.append_of_mem hmem
  have hb := sane_turns h before
  rw [turns_append]
  refine Nat.le_trans ?_ (firings_le_turns ((l.turns before).turn (.go e)) after)
  rw [turn]
  split
  · exact Nat.succ_pos _
  · next hd => exact hb.fired hd

theorem turns_of_ended (hs : l.clock.stage = .ended) (ts : List Turn) :
    (l.turns ts).clock.stage = .ended ∧
      l.turns ts = { l with clock := (l.turns ts).clock } := by
  induction ts generalizing l with
  | nil => exact ⟨hs, rfl⟩
  | cons t ts ih =>
    cases t with
    | cancel => exact ih hs
    | go e =>
      have ht : l.turns (.go e :: ts) = l.turns ts := by
        rw [turns, List.foldl_cons, turn_of_ended hs, turns]
      rw [ht]
      exact ih hs

theorem ended_of_lastEnding_ne_ok (h : Sane name l) (he : l.lastEnding ≠ .ok) :
    l.clock.stage = .ended := by
  by_cases hs : l.clock.stage = .ended
  · exact hs
  · exact absurd (lastEnding_of_ok (h.ok_of_alive hs)) he

end Life

inductive Goes (c : Clock) : Clock → List Event → Prop
  | still : Goes c c []
  | begins : c.stage = .due → Goes c c.begin []
  | ends (e : Ending) : c.stage = .firing → Goes c (c.finish e).1 (c.finish e).2
  | fires (e : Ending) : c.stage = .due → Goes c (c.begin.finish e).1 (c.begin.finish e).2
  | wakes : c.stage = .resting → Goes c c.wake.1 c.wake.2
  | cancelled : Goes c c.cancel []

namespace Goes

variable {c c' : Clock} {events : List Event}

theorem stage_of_ended (h : c.Goes c' events) (hs : c.stage = .ended) : c'.stage = .ended := by
  cases h with
  | still | cancelled => exact hs
  | begins hd | ends _ hd | fires _ hd | wakes hd => cases hs.symm.trans hd

theorem cancelled_of_cancelled (h : c.Goes c' events) (hc : c.cancelled = true) :
    c'.cancelled = true := by
  cases h with
  | still => exact hc
  | begins hs =>
    rw [begin_of_due hs]
    exact hc
  | ends e hs => rw [(stage_finish hs e).1, hc]
  | fires e hs =>
    rw [begin_of_due hs, (stage_finish rfl e).1]
    exact hc
  | wakes hs =>
    rw [wake_of_resting hs, if_pos hc]
    exact hc
  | cancelled => rfl

theorem stage_ne_due (h : c.Goes c' events) (hc : c.cancelled = true)
    (hs : c.stage ≠ .due) : c'.stage ≠ .due := by
  cases h with
  | still | cancelled => exact hs
  | begins hd | fires _ hd => exact absurd hd hs
  | ends e hf => exact stage_finish_ne_due hf e
  | wakes hr =>
    rw [wake_of_resting hr, if_pos hc]
    exact nofun

end Goes

theorem Life.exists_turns_of_goes {l : Life} {c' : Clock} {events : List Event}
    (h : l.clock.Goes c' events) :
    ∃ ts, (l.turns ts).clock = c' ∧ (l.turns ts).log = l.log ++ events ∧
      (l.turns ts).firings =
        l.firings + if l.clock.stage = .due ∧ c'.stage ≠ .due then 1 else 0 := by
  cases h with
  | still => exact ⟨[], rfl, by simp [turns], by simp [turns]⟩
  | cancelled => exact ⟨[.cancel], rfl, by simp [turns, turn], by simp [turns, turn, cancel]⟩
  | begins hs =>
    refine ⟨[.go .ok], ?_, ?_, ?_⟩ <;> simp [turns, turn, advance, begin_of_due hs, hs]
  | ends e hs =>
    refine ⟨[.go e], ?_, ?_, ?_⟩ <;> simp [turns, turn, advance, hs]
  | wakes hs =>
    refine ⟨[.go .ok], ?_, ?_, ?_⟩ <;> simp [turns, turn, advance, hs]
  | fires e hs =>
    have hd : (l.clock.begin.finish e).1.stage ≠ .due := by
      rw [begin_of_due hs]
      exact stage_finish_ne_due rfl e
    rw [if_pos ⟨hs, hd⟩]
    refine ⟨[.go .ok, .go e], ?_, ?_, ?_⟩ <;> simp [turns, turn, advance, begin_of_due hs, hs]

end Chip8.Clock
