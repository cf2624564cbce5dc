import Chip8.Keypad
import Mathlib.Logic.Function.Basic

namespace Chip8.Keypad

inductive Op where
  | set (key : Nibble) (down : Bool)
  | interrupt
  | resume
  deriving DecidableEq, Repr

def apply (k : Keypad) : Op → Keypad
  | .set key down => k.set key down
  | .interrupt => k.interrupt
  | .resume => k.resume

def replay (k : Keypad) (ops : List Op) : Keypad := ops.foldl apply k

def isDown (k : Keypad) (key : Nibble) : Bool := k.held[key]

def pressed (down : Nibble → Bool) : List Op → List Nibble
  | [] => []
  | .set key d :: ops =>
    let rest := pressed (Function.update down key d) ops
    if d && !down key then key :: rest else rest
  | .interrupt :: ops => pressed down ops
  | .resume :: ops => pressed down ops

def halted : Bool → List Op → Bool
  | h, [] => h
  | h, .set _ _ :: ops => halted h ops
  | _, .interrupt :: ops => halted true ops
  | _, .resume :: ops => halted false ops

def answer (halted : Bool) (latest : Option Nibble) : Verdict :=
  if halted then .interrupted
  else
    match latest with
    | none => .pending
    | some key => .released key

theorem isDown_set (k : Keypad) (key : Nibble) (down : Bool) :
    (k.set key down).isDown = Function.update k.isDown key down := by
  funext other
  rw [isDown, held_set, Function.update_apply]
  simp only [eq_comm, isDown]

theorem waiting_apply (k : Keypad) (op : Op) : (k.apply op).waiting = k.waiting := by
  cases op with
  | set key down =>
    rw [apply, set]
    split <;> rfl
  | interrupt | resume => rfl

theorem interrupted_apply (k : Keypad) (op : Op) :
    (k.apply op).interrupted = halted k.interrupted [op] := by
  cases op with
  | set key down =>
    rw [apply, set]
    split <;> rfl
  | interrupt | resume => rfl

theorem interrupted_replay (k : Keypad) (ops : List Op) :
    (k.replay ops).interrupted = halted k.interrupted ops := by
  induction ops generalizing k with
  | nil => rfl
  | cons op ops ih =>
    have hop := ih (k.apply op)
    rw [interrupted_apply] at hop
    cases op <;> exact hop

theorem presses_replay (k : Keypad) (ops : List Op) :
    (k.replay ops).presses = k.presses + UInt64.ofNat (pressed k.isDown ops).length := by
  induction ops generalizing k with
  | nil => exact (UInt64.add_zero _).symm
  | cons op ops ih =>
    have hop := ih (k.apply op)
    cases op with
    | set key down =>
      rw [apply, isDown_set] at hop
      rw [replay, List.foldl_cons, ← replay, apply, hop, pressed, isDown]
      cases hf : down && !k.held[key] with
      | true =>
        rw [set_of_fresh hf, if_pos rfl, List.length_cons, UInt64.ofNat_add, UInt64.add_assoc,
          UInt64.add_comm 1]
        rfl
      | false =>
        rw [set_of_stale hf]
        rfl
    | interrupt | resume => exact hop

theorem lastKey_replay (k : Keypad) (ops : List Op) :
    (k.replay ops).lastKey = (pressed k.isDown ops).getLastD k.lastKey := by
  induction ops generalizing k with
  | nil => rfl
  | cons op ops ih =>
    have hop := ih (k.apply op)
    cases op with
    | set key down =>
      rw [apply, isDown_set] at hop
      rw [replay, List.foldl_cons, ← replay, apply, hop, pressed, isDown]
      cases hf : down && !k.held[key] with
      | true => rw [set_of_fresh hf, if_pos rfl, List.getLastD_cons]
      | false =>
        rw [set_of_stale hf]
        rfl
    | interrupt | resume => exact hop

theorem add_ofNat_eq_self_iff {a : UInt64} {n : Nat} (h : n < UInt64.size) :
    a + UInt64.ofNat n = a ↔ n = 0 := by
  have ha := a.toNat_lt
  rw [← UInt64.toNat_inj, UInt64.toNat_add, UInt64.toNat_ofNat']
  simp only [UInt64.size] at h
  omega

theorem verdict_replay (k : Keypad) (ops : List Op)
    (h : (pressed k.isDown ops).length < UInt64.size) :
    (k.replay ops).verdict ⟨k.presses⟩ =
      answer (halted k.interrupted ops) (pressed k.isDown ops).getLast? := by
  simp only [verdict, interrupted_replay, presses_replay, lastKey_replay, add_ofNat_eq_self_iff h,
    List.length_eq_zero_iff, List.getLastD_eq_getLast?]
  unfold answer
  split
  · rfl
  · cases hl : (pressed k.isDown ops).getLast? with
    | none => rw [if_pos (List.getLast?_eq_none_iff.1 hl)]
    | some key =>
      have hne : pressed k.isDown ops ≠ [] := fun he => by rw [he] at hl; cases hl
      rw [if_neg hne, Option.getD_some]

theorem getLast?_of_released {k : Keypad} {ops : List Op} {key : Nibble}
    (h : (k.replay ops).verdict ⟨k.presses⟩ = .released key) :
    (pressed k.isDown ops).getLast? = some key := by
  rw [verdict, presses_replay, lastKey_replay, List.getLastD_eq_getLast?] at h
  split at h
  · cases h
  · split at h
    · cases h
    · next hne =>
      cases hl : (pressed k.isDown ops).getLast? with
      | none =>
        have hnil : pressed k.isDown ops = [] := List.getLast?_eq_none_iff.1 hl
        rw [hnil] at hne
        exact absurd (UInt64.add_zero _) hne
      | some last =>
        rw [hl, Option.getD_some] at h
        exact congrArg some (Verdict.released.inj h)

/-- A waiter sleeps inside of a wait that goes on, and nowhere else. -/
def SleepsIn (k : Keypad) (wait : Option Wait) : Prop :=
  k.asleep = true → ∃ w ∈ wait, k.verdict w = .pending

theorem SleepsIn.of_awake {k : Keypad} (h : k.asleep = false) (wait : Option Wait) :
    k.SleepsIn wait :=
  fun hk => absurd (h.symm.trans hk) Bool.false_ne_true

theorem SleepsIn.awake {k : Keypad} {wait : Option Wait} (h : k.SleepsIn wait)
    (hk : k.interrupted = true) : k.asleep = false := by
  refine Bool.eq_false_iff.2 fun hasleep => ?_
  obtain ⟨w, -, hw⟩ := h hasleep
  exact absurd (hk.symm.trans (verdict_eq_pending_iff.1 hw).1) Bool.true_eq_false.mp

/-- What would end a wait wakes the waiter. -/
theorem sleepsIn_apply {k : Keypad} {wait : Option Wait} (h : k.SleepsIn wait) (op : Op) :
    (k.apply op).SleepsIn wait := by
  cases op with
  | set key down =>
    rw [apply]
    cases hf : down && !k.held[key] with
    | true =>
      rw [set_of_fresh hf]
      exact .of_awake rfl wait
    | false =>
      rw [set_of_stale hf]
      exact h
  | interrupt => exact .of_awake rfl wait
  | resume =>
    intro hk
    obtain ⟨w, hw, hv⟩ := h hk
    exact ⟨w, hw, verdict_eq_pending_iff.2 ⟨rfl, (verdict_eq_pending_iff.1 hv).2⟩⟩

theorem notify_apply {k k' : Keypad} (h : k.notify = k'.notify) (op : Op) :
    (k.apply op).notify = (k'.apply op).notify := by
  obtain ⟨held, lastKey, presses, waiting, interrupted, asleep⟩ := k
  obtain ⟨held', lastKey', presses', waiting', interrupted', asleep'⟩ := k'
  cases h
  cases op with
  | set key down =>
    simp only [apply, set]
    split <;> rfl
  | interrupt | resume => rfl

theorem notify_replay {k k' : Keypad} (h : k.notify = k'.notify) (ops : List Op) :
    (k.replay ops).notify = (k'.replay ops).notify := by
  induction ops generalizing k k' with
  | nil => exact h
  | cons op ops ih => exact ih (notify_apply h op)

structure Watch where
  keypad : Keypad := {}
  wait : Option Wait := none

namespace Watch

inductive Move where
  | op (o : Op)
  | enter
  | look
  deriving DecidableEq, Repr

def look (w : Watch) : Watch × Option Verdict :=
  match w.wait with
  | none => (w, none)
  | some wait =>
    match w.keypad.recheck wait with
    | (keypad, .pending) => (⟨keypad, some wait⟩, some .pending)
    | (keypad, verdict) => (⟨keypad, none⟩, some verdict)

def enter (w : Watch) : Watch × Option Verdict :=
  match w.wait with
  | none => Watch.look ⟨w.keypad.beginWait.1, some w.keypad.beginWait.2⟩
  | some _ => (w, none)

def act (w : Watch) : Move → Watch × Option Verdict
  | .op o => ({ w with keypad := w.keypad.apply o }, none)
  | .enter => w.enter
  | .look => w.look

def moves (w : Watch) (ms : List Move) : Watch := ms.foldl (fun w m => (w.act m).1) w

theorem moves_cons (w : Watch) (m : Move) (ms : List Move) :
    w.moves (m :: ms) = (w.act m).1.moves ms := rfl

def Move.op? : Move → Option Op
  | .op o => some o
  | _ => none

def ops (ms : List Move) : List Op := ms.filterMap Move.op?

theorem look_of_none {w : Watch} (h : w.wait = none) : w.look = (w, none) := by
  rw [look, h]

theorem look_of_some {w : Watch} {wait : Wait} (h : w.wait = some wait) :
    w.look.2 = some (w.keypad.verdict wait) ∧
      w.look.1 =
        if w.keypad.verdict wait = .pending then ⟨{ w.keypad with asleep := true }, some wait⟩
        else ⟨{ w.keypad with waiting := false, asleep := false }, none⟩ := by
  obtain ⟨k, s⟩ := w
  obtain rfl : s = some wait := h
  simp only [look, recheck]
  cases k.verdict wait <;> exact ⟨rfl, rfl⟩

theorem enter_of_none {w : Watch} (h : w.wait = none) :
    w.enter =
      if w.keypad.interrupted then
        (⟨{ w.keypad with waiting := false, asleep := false }, none⟩, some .interrupted)
      else
        (⟨{ w.keypad with waiting := true, asleep := true }, some ⟨w.keypad.presses⟩⟩,
          some .pending) := by
  simp only [enter, h, look, recheck, verdict_beginWait]
  cases hi : w.keypad.interrupted <;> simp [beginWait, hi]

theorem waiting_act {w : Watch} (h : w.keypad.waiting = w.wait.isSome) (m : Move) :
    (w.act m).1.keypad.waiting = (w.act m).1.wait.isSome := by
  cases m with
  | op o => exact (waiting_apply w.keypad o).trans h
  | enter =>
    cases hw : w.wait with
    | none =>
      rw [act, enter_of_none hw]
      split <;> rfl
    | some wait =>
      simp only [act, enter, hw] at h ⊢
      exact h
  | look =>
    cases hw : w.wait with
    | none => rwa [act, look_of_none hw]
    | some wait =>
      rw [act, (look_of_some hw).2]
      split
      · rw [hw] at h
        exact h
      · rfl

theorem waiting_moves {w : Watch} (h : w.keypad.waiting = w.wait.isSome) (ms : List Move) :
    (w.moves ms).keypad.waiting = (w.moves ms).wait.isSome := by
  induction ms generalizing w with
  | nil => exact h
  | cons m ms ih => exact ih (waiting_act h m)

theorem sleepsIn_look {w : Watch} (h : w.keypad.SleepsIn w.wait) :
    w.look.1.keypad.SleepsIn w.look.1.wait := by
  cases hw : w.wait with
  | none => rwa [look_of_none hw]
  | some wait =>
    rw [(look_of_some hw).2]
    split
    · next hv => exact fun _ => ⟨wait, rfl, hv⟩
    · exact .of_awake rfl none

theorem sleepsIn_act {w : Watch} (h : w.keypad.SleepsIn w.wait) (m : Move) :
    (w.act m).1.keypad.SleepsIn (w.act m).1.wait := by
  cases m with
  | op o => exact sleepsIn_apply h o
  | look => exact sleepsIn_look h
  | enter =>
    cases hw : w.wait with
    | none =>
      rw [act, enter_of_none hw]
      cases hi : w.keypad.interrupted with
      | true => exact .of_awake rfl none
      | false => exact fun _ => ⟨_, rfl, verdict_eq_pending_iff.2 ⟨hi, rfl⟩⟩
    | some wait => simpa only [act, enter, hw] using h

theorem sleepsIn_moves {w : Watch} (h : w.keypad.SleepsIn w.wait) (ms : List Move) :
    (w.moves ms).keypad.SleepsIn (w.moves ms).wait := by
  induction ms generalizing w with
  | nil => exact h
  | cons m ms ih => exact ih (sleepsIn_act h m)

theorem sleeps_only_while_pending (past : List Move) :
    let w := ({} : Watch).moves past
    w.keypad.asleep = true → ∃ wait ∈ w.wait, w.keypad.verdict wait = .pending :=
  sleepsIn_moves (.of_awake rfl none) past

theorem look_of_waiting_on {w : Watch} (h : (w.act .look).1.wait ≠ none) :
    (w.act .look).1.keypad.notify = w.keypad.notify ∧ (w.act .look).1.wait = w.wait := by
  cases hw : w.wait with
  | none => rw [act, look_of_none hw, hw]; exact ⟨rfl, rfl⟩
  | some wait =>
    have hlook : (w.act .look).1 = _ := (look_of_some hw).2
    rw [hlook] at h ⊢
    by_cases hp : w.keypad.verdict wait = .pending
    · rw [if_pos hp]
      exact ⟨rfl, rfl⟩
    · rw [if_neg hp] at h
      exact absurd rfl h

theorem wait_moves_of_none {w : Watch} {ms : List Move} (hms : .enter ∉ ms) (h : w.wait = none) :
    (w.moves ms).wait = none := by
  induction ms generalizing w with
  | nil => exact h
  | cons m ms ih =>
    obtain ⟨hm, hrest⟩ := List.ne_and_not_mem_of_not_mem_cons hms
    rw [moves_cons]
    apply ih hrest
    cases m with
    | op o => exact h
    | enter => exact absurd rfl hm
    | look => rwa [act, look_of_none h]

theorem moves_of_waiting {w : Watch} {ms : List Move} (hms : .enter ∉ ms)
    (h : (w.moves ms).wait ≠ none) :
    (w.moves ms).keypad.notify = (w.keypad.replay (ops ms)).notify ∧
      (w.moves ms).wait = w.wait := by
  induction ms generalizing w with
  | nil => exact ⟨rfl, rfl⟩
  | cons m ms ih =>
    obtain ⟨hm, hrest⟩ := List.ne_and_not_mem_of_not_mem_cons hms
    rw [moves_cons] at h ⊢
    obtain ⟨hkeypad, hwait⟩ := ih hrest h
    cases m with
    | op o => exact ⟨hkeypad, hwait⟩
    | enter => exact absurd rfl hm
    | look =>
      have hnext : (w.act .look).1.wait ≠ none := fun hn => h (wait_moves_of_none hrest hn)
      obtain ⟨hlooked, hkept⟩ := look_of_waiting_on hnext
      exact ⟨hkeypad.trans (notify_replay hlooked (ops ms)), hwait.trans hkept⟩

theorem wait_look_eq_none_iff {w : Watch} (h : w.wait ≠ none) :
    w.look.1.wait = none ↔ w.look.2 ≠ some .pending := by
  obtain ⟨wait, hw⟩ := Option.ne_none_iff_exists'.1 h
  obtain ⟨hans, hnext⟩ := look_of_some hw
  rw [hans, hnext]
  by_cases hp : w.keypad.verdict wait = .pending <;> simp [hp]

theorem look_of_waiting {w : Watch} (hw : w.wait = none) {ms : List Move} (hms : .enter ∉ ms)
    (hlt : (pressed w.keypad.isDown (ops ms)).length < UInt64.size)
    (hv : (w.enter.1.moves ms).wait ≠ none) :
    (w.enter.1.moves ms).keypad.interrupted = halted w.keypad.interrupted (ops ms) ∧
      (w.enter.1.moves ms).look.2 = some (answer (halted w.keypad.interrupted (ops ms))
        (pressed w.keypad.isDown (ops ms)).getLast?) := by
  rw [enter_of_none hw] at hv ⊢
  cases hi : w.keypad.interrupted with
  | true =>
    rw [hi, if_pos rfl] at hv
    exact absurd (wait_moves_of_none hms rfl) hv
  | false =>
    rw [hi, if_neg Bool.false_ne_true] at hv
    rw [if_neg Bool.false_ne_true]
    let k : Keypad := { w.keypad with waiting := true, asleep := true }
    have hk : k.interrupted = false := hi
    obtain ⟨hkeypad, hwait⟩ := moves_of_waiting hms hv
    have hinterrupted := congrArg Keypad.interrupted hkeypad
    have hverdict := congrArg (Keypad.verdict · ⟨k.presses⟩) hkeypad
    rw [← hk]
    refine ⟨?_, ?_⟩
    · exact hinterrupted.trans (interrupted_replay k (ops ms))
    · rw [(look_of_some hwait).1]
      exact congrArg some (hverdict.trans (verdict_replay k (ops ms) hlt))

theorem look_gives_latest_press (past : List Move) :
    let w := ({} : Watch).moves past
    w.keypad.waiting = w.wait.isSome ∧
      (w.wait = none →
        (w.act .enter).2 = some (if w.keypad.interrupted then .interrupted else .pending) ∧
        ((w.act .enter).1.wait = none ↔ w.keypad.interrupted = true) ∧
        ∀ ms, .enter ∉ ms → (pressed w.keypad.isDown (ops ms)).length < UInt64.size →
          let v := (w.act .enter).1.moves ms
          v.wait ≠ none →
            v.keypad.interrupted = halted w.keypad.interrupted (ops ms) ∧
            (v.act .look).2 = some (answer (halted w.keypad.interrupted (ops ms))
              (pressed w.keypad.isDown (ops ms)).getLast?) ∧
            ((v.act .look).1.wait = none ↔ (v.act .look).2 ≠ some .pending) ∧
            ∀ o, (v.act (.op o)).1.wait = v.wait) := by
  intro w
  refine ⟨waiting_moves rfl past, fun hw => ⟨?_, ?_, ?_⟩⟩
  · rw [act, enter_of_none hw]
    split <;> rfl
  · rw [act, enter_of_none hw]
    split <;> simp [*]
  · intro ms hms hlt v hv
    obtain ⟨hint, hans⟩ := look_of_waiting hw hms hlt hv
    exact ⟨hint, hans, wait_look_eq_none_iff hv, fun o => rfl⟩

def heldBefore : List Move := [.op (.set 3 true), .op .interrupt, .enter, .op .resume]

def meantime : List Move :=
  [.op (.set 3 true), .look, .op (.set 3 false), .op (.set 5 true), .op (.set 5 false),
    .op .interrupt, .op .resume]

theorem look_gives_latest_press_after_meantime :
    let w := ({} : Watch).moves heldBefore
    let v := (w.act .enter).1.moves meantime
    w.wait = none ∧ .enter ∉ meantime ∧
      (pressed w.keypad.isDown (ops meantime)).length < UInt64.size ∧ v.wait ≠ none ∧
      (v.act .look).2 = some (.released 5) := by
  intro w v
  have hw : w.wait = none := by decide
  have hms : .enter ∉ meantime := by decide
  have hpressed : pressed w.keypad.isDown (ops meantime) = [5] := by decide
  have hlt : (pressed w.keypad.isDown (ops meantime)).length < UInt64.size := by
    rw [hpressed]
    decide
  have hv : v.wait ≠ none := by decide
  obtain ⟨-, hwait⟩ := look_gives_latest_press heldBefore
  obtain ⟨-, -, hlook⟩ := hwait hw
  obtain ⟨-, hans, -⟩ := hlook meantime hms hlt hv
  refine ⟨hw, hms, hlt, hv, hans.trans ?_⟩
  decide

end Watch

end Chip8.Keypad
