import Chip8.Proofs.Timers.History
import Mathlib.Data.List.Induction

namespace Chip8.Timers

structure Occurrence where
  op : Op
  onStart : Option Crash := none
  onStop : Option Crash := none
  deriving DecidableEq, Repr

def facing (t : Timers) (e : Occurrence) : Timers :=
  { t with speaker := { t.speaker with flaw := e.onStart, stopFlaw := e.onStop } }

def undergo (t : Timers) (e : Occurrence) : Timers := (t.facing e).apply e.op

def after (es : List Occurrence) : Timers := es.foldl undergo {}

def told (es : List Occurrence) : List ToneCall := (after es).speaker.calls.reverse

def Op.delay? : Op → Option UInt8
  | .setDelay value => some value
  | .reset => some 0
  | .setSound _ | .tick => none

def Op.sound? : Op → Option UInt8
  | .setSound value => some value
  | .reset => some 0
  | .setDelay _ | .tick => none

def Op.sounds : Op → Bool
  | .setSound value => 0 < value
  | .setDelay _ | .tick | .reset => false

def ticks (es : List Occurrence) : Nat := es.countP fun e => e.op = .tick

theorem after_concat (es : List Occurrence) (e : Occurrence) :
    after (es ++ [e]) = (after es).undergo e := by
  rw [after, List.foldl_append]
  rfl

theorem after_append (es since : List Occurrence) :
    after (es ++ since) = since.foldl undergo (after es) :=
  List.foldl_append

structure Counter (value : Timers → UInt8) (setting? : Op → Option UInt8) : Prop where
  fresh : value {} = 0
  set (t : Timers) (e : Occurrence) (v : UInt8) :
    setting? e.op = some v → value (t.undergo e) = v
  keep (t : Timers) (e : Occurrence) :
    setting? e.op = none → (value (t.undergo e)).toNat = (value t).toNat - ticks [e]

theorem counter_delay : Counter Timers.delay Op.delay? where
  fresh := rfl
  set t e v hv := by
    obtain ⟨op, a, b⟩ := e
    cases op with
    | setDelay | reset => exact Option.some.inj hv
    | setSound | tick => cases hv
  keep t e hv := by
    obtain ⟨op, a, b⟩ := e
    cases op with
    | setDelay | reset => cases hv
    | setSound value =>
      rw [undergo, apply, setSound]
      split <;> rfl
    | tick => exact toNat_lower t.delay

theorem counter_sound : Counter Timers.sound Op.sound? where
  fresh := rfl
  set t e v hv := by
    obtain ⟨op, a, b⟩ := e
    cases op with
    | setSound value =>
      rw [← Option.some.inj hv, undergo, apply, setSound]
      split
      · next h => exact h.symm
      · rfl
    | reset => exact Option.some.inj hv
    | setDelay | tick => cases hv
  keep t e hv := by
    obtain ⟨op, a, b⟩ := e
    cases op with
    | setSound | reset => cases hv
    | setDelay => rfl
    | tick => exact toNat_lower t.sound

namespace Counter

variable {value : Timers → UInt8} {setting? : Op → Option UInt8} {es since : List Occurrence}
  {e : Occurrence} {v : UInt8}

theorem toNat_foldl (hc : Counter value setting?) (hs : ∀ x ∈ since, setting? x.op = none)
    (t : Timers) : (value (since.foldl undergo t)).toNat = (value t).toNat - ticks since := by
  induction since generalizing t with
  | nil => rfl
  | cons e since ih =>
    have hticks : ticks (e :: since) = ticks [e] + ticks since := by
      rw [ticks, ← List.singleton_append, List.countP_append]
      rfl
    rw [List.foldl_cons, ih (fun x hx => hs x (List.mem_cons_of_mem e hx)),
      hc.keep t e (hs e List.mem_cons_self), hticks, Nat.sub_sub]

theorem toNat_after (hc : Counter value setting?) (he : setting? e.op = some v)
    (hs : ∀ x ∈ since, setting? x.op = none) :
    (value (after (es ++ e :: since))).toNat = v.toNat - ticks since := by
  rw [after_append, List.foldl_cons, hc.toNat_foldl hs, hc.set (after es) e v he]

theorem after_of_unset (hc : Counter value setting?) (hs : ∀ x ∈ es, setting? x.op = none) :
    value (after es) = 0 := by
  apply UInt8.toNat_inj.1
  rw [after, hc.toNat_foldl hs, hc.fresh, UInt8.toNat_zero, Nat.zero_sub]

end Counter

theorem unset_or_last (setting? : Op → Option UInt8) (es : List Occurrence) :
    (∀ x ∈ es, setting? x.op = none) ∨
      ∃ pre e since v, es = pre ++ e :: since ∧ setting? e.op = some v ∧
        ∀ x ∈ since, setting? x.op = none := by
  induction es with
  | nil => exact .inl (List.forall_mem_nil _)
  | cons e es ih =>
    obtain hs | ⟨pre, e', since, v, rfl, he, hs⟩ := ih
    · cases he : setting? e.op with
      | none => exact .inl (List.forall_mem_cons.2 ⟨he, hs⟩)
      | some v => exact .inr ⟨[], e, es, v, rfl, he, hs⟩
    · exact .inr ⟨e :: pre, e', since, v, rfl, he, hs⟩

theorem sound?_eq_some_of_pos {op : Op} {v : UInt8} (h : op.sound? = some v) (hv : 0 < v) :
    op = .setSound v := by
  cases op with
  | setSound value => rw [Option.some.inj h]
  | reset => exact absurd (Option.some.inj h ▸ hv) not_zero_lt_zero
  | setDelay | tick => cases h

theorem sound_after_eq_one_iff (es : List Occurrence) :
    (after es).sound = 1 ↔ ∃ pre e since n, es = pre ++ e :: since ∧ e.op = .setSound n ∧ 0 < n ∧
      (∀ x ∈ since, x.op.sound? = none) ∧ ticks since + 1 = n.toNat := by
  constructor
  · intro h1
    obtain hs | ⟨pre, e, since, v, rfl, he, hs⟩ := unset_or_last Op.sound? es
    · rw [counter_sound.after_of_unset hs] at h1
      exact absurd h1 (by decide)
    · have hval : (after (pre ++ e :: since)).sound.toNat = v.toNat - ticks since :=
        counter_sound.toNat_after he hs
      rw [h1, UInt8.toNat_one] at hval
      have hticks : ticks since + 1 = v.toNat := by omega
      have hv : 0 < v := by
        rw [UInt8.lt_iff_toNat_lt, UInt8.toNat_zero]
        omega
      exact ⟨pre, e, since, v, rfl, sound?_eq_some_of_pos he hv, hv, hs, hticks⟩
  · rintro ⟨pre, e, since, n, rfl, he, -, hs, hticks⟩
    apply UInt8.toNat_inj.1
    have he : e.op.sound? = some n := by rw [he, Op.sound?]
    rw [counter_sound.toNat_after he hs, UInt8.toNat_one]
    omega

def tells (t : Timers) (op : Op) : List ToneCall :=
  if op.sounds then [.start] else if op = .tick ∧ t.sound = 1 then [.stop] else []

theorem calls_undergo (t : Timers) (e : Occurrence) :
    (t.undergo e).speaker.calls = t.tells e.op ++ t.speaker.calls := by
  obtain ⟨op, a, b⟩ := e
  cases op with
  | setDelay | reset => rfl
  | setSound value =>
    by_cases hv : value = 0
    · subst hv
      rfl
    · have hs : (Op.setSound value).sounds = true := decide_eq_true (pos_of_ne_zero hv)
      rw [undergo, apply, setSound_of_ne_zero hv, tells, if_pos hs]
      rfl
  | tick =>
    have hs : ¬ Op.tick.sounds = true := Bool.false_ne_true
    rw [undergo, apply, tells, if_neg hs]
    by_cases h1 : t.sound = 1
    · have hk : ((t.facing ⟨.tick, a, b⟩).tick).speaker = (t.facing ⟨.tick, a, b⟩).speaker.stop :=
        if_pos h1
      rw [if_pos ⟨rfl, h1⟩, hk]
      rfl
    · have hk : ((t.facing ⟨.tick, a, b⟩).tick).speaker = (t.facing ⟨.tick, a, b⟩).speaker :=
        if_neg h1
      rw [if_neg fun h => h1 h.2, hk]
      rfl

theorem tells_cases (t : Timers) (op : Op) :
    t.tells op = [] ∨ t.tells op = [.start] ∨ t.tells op = [.stop] ∧ t.sound = 1 := by
  rw [tells]
  split
  · exact .inr (.inl rfl)
  · split
    · next h => exact .inr (.inr ⟨rfl, h.2⟩)
    · exact .inl rfl

theorem reverse_tells (t : Timers) (op : Op) : (t.tells op).reverse = t.tells op := by
  obtain h | h | ⟨h, -⟩ := t.tells_cases op <;> rw [h] <;> rfl

theorem told_concat (es : List Occurrence) (e : Occurrence) :
    told (es ++ [e]) = told es ++ (after es).tells e.op := by
  rw [told, after_concat, calls_undergo, List.reverse_append, reverse_tells, told]

theorem mem_tells_start {t : Timers} {op : Op} : .start ∈ t.tells op ↔ op.sounds = true := by
  rw [tells]
  split
  · next h => exact iff_of_true List.mem_cons_self h
  · next h =>
    refine iff_of_false ?_ h
    split <;> decide

theorem mem_tells_stop {t : Timers} {op : Op} :
    .stop ∈ t.tells op ↔ op = .tick ∧ t.sound = 1 := by
  rw [tells]
  split
  · next h =>
    refine iff_of_false (by decide) fun ht => ?_
    rw [ht.1] at h
    exact Bool.false_ne_true h
  · split
    · next h => exact iff_of_true List.mem_cons_self h
    · next h => exact iff_of_false List.not_mem_nil h

theorem sounds_iff {op : Op} : op.sounds = true ↔ ∃ n, op = .setSound n ∧ 0 < n := by
  cases op with
  | setSound value => simp [Op.sounds]
  | setDelay | tick | reset => simp [Op.sounds]

theorem count_start_told (es : List Occurrence) :
    (told es).count .start = es.countP fun e => e.op.sounds := by
  induction es using List.reverseRecOn with
  | nil => rfl
  | append_singleton es e ih =>
    rw [told_concat, List.count_append, ih, List.countP_append, List.countP_singleton, tells]
    congr 1
    split
    · rfl
    · split <;> rfl

theorem isOn_after (es : List Occurrence) (h : 0 < (after es).sound) :
    (after es).speaker.isOn = true := by
  induction es using List.reverseRecOn with
  | nil => exact absurd h not_zero_lt_zero
  | append_singleton es e ih =>
    rw [after_concat] at h ⊢
    exact isOn_apply_of_pos (t := (after es).facing e) ih e.op h

theorem getLast?_told (es : List Occurrence) (h : 0 < (after es).sound) :
    (told es).getLast? = some .start := by
  rw [told, List.getLast?_reverse]
  exact of_decide_eq_true (isOn_after es h)

theorem eq_or_cut_of_concat {α : Type} {l a c : List α} {x y : α} (h : l ++ [x] = a ++ y :: c) :
    (l = a ∧ x = y ∧ c = []) ∨ ∃ c', l = a ++ y :: c' ∧ c = c' ++ [x] := by
  obtain rfl | ⟨c, z, rfl⟩ := List.eq_nil_or_concat c
  · obtain ⟨hl, hx⟩ := List.append_inj' h rfl
    exact .inl ⟨hl, List.head_eq_of_cons_eq hx, rfl⟩
  · rw [List.concat_eq_append] at h ⊢
    rw [← List.cons_append, ← List.append_assoc] at h
    obtain ⟨hl, hz⟩ := List.append_inj' h rfl
    obtain rfl := List.singleton_inj.1 hz
    exact .inr ⟨c, hl, rfl⟩

theorem getLast?_of_stop {es : List Occurrence} {a c : List ToneCall}
    (h : told es = a ++ .stop :: c) : a.getLast? = some .start := by
  induction es using List.reverseRecOn generalizing c with
  | nil => cases a <;> cases h
  | append_singleton es e ih =>
    rw [told_concat] at h
    -- the stop is an earlier one, unless this occurrence tells it: then the sound timer was at 1,
    -- and the tone has been on since it was set
    obtain ht | ht | ⟨ht, h1⟩ := (after es).tells_cases e.op <;> rw [ht] at h
    · rw [List.append_nil] at h
      exact ih h
    · obtain ⟨-, hcall, -⟩ | ⟨c', hc, -⟩ := eq_or_cut_of_concat h
      · cases hcall
      · exact ih hc
    · obtain ⟨ha, -⟩ | ⟨c', hc, -⟩ := eq_or_cut_of_concat h
      · rw [← ha]
        exact getLast?_told es (by rw [h1]; decide)
      · exact ih hc

theorem tells_stop_iff (es : List Occurrence) (e : Occurrence) :
    .stop ∈ (after es).tells e.op ↔
      e.op = .tick ∧ (after es).sound = 1 ∧ (after (es ++ [e])).sound = 0 := by
  rw [mem_tells_stop]
  refine and_congr_right fun he => (and_iff_left_of_imp fun h1 => ?_).symm
  obtain ⟨op, a, b⟩ := e
  obtain rfl : op = .tick := he
  have hs : (after (es ++ [⟨.tick, a, b⟩])).sound = lower (after es).sound := by
    rw [after_concat]
    rfl
  rw [hs, h1]
  rfl

theorem history_determines_timers (es : List Occurrence) :
    (∀ pre e since v, es = pre ++ e :: since →
      (e.op.delay? = some v → (∀ x ∈ since, x.op.delay? = none) →
        (after es).delay.toNat = v.toNat - ticks since) ∧
      (e.op.sound? = some v → (∀ x ∈ since, x.op.sound? = none) →
        (after es).sound.toNat = v.toNat - ticks since)) ∧
    ((∀ x ∈ es, x.op.delay? = none) → (after es).delay = 0) ∧
    ((∀ x ∈ es, x.op.sound? = none) → (after es).sound = 0) ∧
    (told es).count .start = es.countP (fun e => e.op.sounds) ∧
    (∀ e, ∃ calls, told (es ++ [e]) = told es ++ calls ∧ calls.length ≤ 1 ∧
      (.start ∈ calls ↔ ∃ n, e.op = .setSound n ∧ 0 < n) ∧
      (.stop ∈ calls ↔
        e.op = .tick ∧ (after es).sound = 1 ∧ (after (es ++ [e])).sound = 0) ∧
      (.stop ∈ calls ↔
        e.op = .tick ∧ ∃ pre s since n, es = pre ++ s :: since ∧ s.op = .setSound n ∧ 0 < n ∧
          (∀ x ∈ since, x.op.sound? = none) ∧ ticks since + 1 = n.toNat)) ∧
    (∀ a c, told es = a ++ .stop :: c → .start ∈ a) ∧
    ∀ a m c, told es = a ++ .stop :: (m ++ .stop :: c) → .start ∈ m := by
  refine ⟨?_, counter_delay.after_of_unset, counter_sound.after_of_unset, count_start_told es,
    fun e => ?_, fun a c h => ?_, fun a m c h => ?_⟩
  · rintro pre e since v rfl
    exact ⟨counter_delay.toNat_after, counter_sound.toNat_after⟩
  · refine ⟨_, told_concat es e, ?_, mem_tells_start.trans sounds_iff, tells_stop_iff es e, ?_⟩
    · obtain h | h | ⟨h, -⟩ := (after es).tells_cases e.op <;> simp [h]
    · rw [mem_tells_stop, sound_after_eq_one_iff]
  · exact List.mem_of_getLast? (getLast?_of_stop h)
  · rw [← List.cons_append, ← List.append_assoc] at h
    have hlast := getLast?_of_stop h
    rw [List.getLast?_append, List.getLast?_cons, Option.some_or] at hlast
    cases hm : m.getLast? with
    | none =>
      rw [hm] at hlast
      cases hlast
    | some call =>
      rw [hm] at hlast
      obtain rfl : call = .start := Option.some.inj hlast
      exact List.mem_of_getLast? hm

def brokenStart : Occurrence := { op := .setSound 3, onStart := some (.text "speaker broke") }

def resounded : List Occurrence :=
  [{ op := .setDelay 9 }, brokenStart, { op := .tick },
    { op := .setSound 1, onStart := some .unreadable }, { op := .tick }, { op := .setSound 2 },
    { op := .tick }, { op := .tick }]

theorem history_determines_timers_resounded :
    ((after (resounded.take 1)).facing brokenStart).setSound 3 =
        (after (resounded.take 2), some (.text "speaker broke")) ∧
      (after resounded).delay.toNat = 5 ∧ (after resounded).sound.toNat = 0 ∧
      (told resounded).count .start = 3 ∧
      (∃ calls, told resounded = told (resounded.take 7) ++ calls ∧ .stop ∈ calls) ∧
      ∃ m, told resounded = [.start, .start, .stop] ++ m ++ [.stop] ∧ .start ∈ m := by
  obtain ⟨hvalues, -, -, hstarts, -, -, hbetween⟩ := history_determines_timers resounded
  obtain ⟨-, -, -, -, hnext, -, -⟩ := history_determines_timers (resounded.take 7)
  obtain ⟨calls, hcalls, -, -, -, hstop⟩ := hnext { op := .tick }
  refine ⟨rfl, ?_, ?_, hstarts, ⟨calls, hcalls, ?_⟩, [.start], rfl, ?_⟩
  · exact (hvalues [] { op := .setDelay 9 } (resounded.drop 1) 9 rfl).1 rfl (by decide)
  · exact (hvalues (resounded.take 5) { op := .setSound 2 } (resounded.drop 6) 2 rfl).2 rfl
      (by decide)
  · exact hstop.2 ⟨rfl, resounded.take 5, { op := .setSound 2 }, [{ op := .tick }], 2, rfl, rfl,
      by decide, by decide, rfl⟩
  · exact hbetween [.start, .start] [.start] [] rfl

end Chip8.Timers
