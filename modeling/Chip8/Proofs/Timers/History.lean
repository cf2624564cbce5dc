import Chip8.Timers

namespace Chip8.Timers

inductive Op where
  | setDelay (value : UInt8)
  | setSound (value : UInt8)
  | tick
  | reset
  deriving DecidableEq, Repr

def apply (t : Timers) : Op → Timers
  | .setDelay value => t.setDelay value
  | .setSound value => (t.setSound value).1
  | .tick => t.tick
  | .reset => t.reset

def replay (t : Timers) (ops : List Op) : Timers := ops.foldl apply t

def obey (t : Timers) : Option Op → Timers
  | none => t
  | some op => t.apply op

def Op.zeroes : Op → Bool
  | .setSound value => value = 0
  | .reset => true
  | _ => false

def CutBy (t : Timers) (op : Op) : Prop := 0 < t.sound ∧ op.zeroes = true

instance (t : Timers) (op : Op) : Decidable (t.CutBy op) := inferInstanceAs (Decidable (_ ∧ _))

def Follows (t : Timers) : Prop := t.speaker.isOn = true ↔ 0 < t.sound

instance (t : Timers) : Decidable t.Follows := inferInstanceAs (Decidable (_ ↔ _))

theorem isOn_start (s : Speaker) : s.start.isOn = true := rfl

theorem isOn_stop (s : Speaker) : s.stop.isOn = false := rfl

theorem pos_of_ne_zero {n : UInt8} (h : n ≠ 0) : 0 < n := UInt8.pos_iff_ne_zero.2 h

theorem setSound_of_ne_zero {t : Timers} {value : UInt8} (h : value ≠ 0) :
    (t.setSound value).1 = { t with sound := value, speaker := t.speaker.start } := by
  rw [setSound, if_neg h]

theorem lower_pos_iff {n : UInt8} : 0 < lower n ↔ 1 < n := by
  rw [UInt8.lt_iff_toNat_lt, UInt8.lt_iff_toNat_lt, toNat_lower]
  simp only [UInt8.toNat_zero, UInt8.toNat_one]
  omega

theorem not_zero_lt_zero : ¬ (0 : UInt8) < 0 := by decide

theorem isOn_apply_of_pos {t : Timers} (h : 0 < t.sound → t.speaker.isOn = true) (op : Op)
    (hp : 0 < (t.apply op).sound) : (t.apply op).speaker.isOn = true := by
  cases op with
  | setDelay value => exact h hp
  | setSound value =>
    by_cases hv : value = 0
    · subst hv
      exact absurd hp not_zero_lt_zero
    · rw [apply, setSound_of_ne_zero hv]
      exact isOn_start t.speaker
  | tick =>
    have h1 : 1 < t.sound := lower_pos_iff.1 hp
    have hne : t.sound ≠ 1 := fun e => absurd (e ▸ h1) (by decide)
    simp only [apply, Timers.tick, if_neg hne]
    exact h (by rw [UInt8.lt_iff_toNat_lt] at h1 ⊢; exact Nat.lt_of_succ_lt h1)
  | reset => exact absurd hp not_zero_lt_zero

theorem follows_zeroed_iff {t u : Timers} (h : t.Follows) (hs : u.sound = 0)
    (hk : u.speaker = t.speaker) : u.Follows ↔ ¬ 0 < t.sound := by
  have hz : ¬ 0 < u.sound := by rw [hs]; exact not_zero_lt_zero
  unfold Follows at h ⊢
  rw [hk, iff_false_right hz, h]

theorem follows_apply_iff {t : Timers} (h : t.Follows) (op : Op) :
    (t.apply op).Follows ↔ ¬ t.CutBy op := by
  cases op with
  | setDelay value => exact iff_of_true h (fun hc => absurd hc.2 Bool.false_ne_true)
  | setSound value =>
    by_cases hv : value = 0
    · subst hv
      have hc : t.CutBy (.setSound 0) ↔ 0 < t.sound := and_iff_left rfl
      rw [hc]
      exact follows_zeroed_iff h rfl rfl
    · refine iff_of_true ?_ (fun hc => hv (of_decide_eq_true hc.2))
      rw [apply, setSound_of_ne_zero hv]
      exact iff_of_true (isOn_start t.speaker) (pos_of_ne_zero hv)
  | tick =>
    refine iff_of_true ?_ (fun hc => absurd hc.2 Bool.false_ne_true)
    by_cases h1 : t.sound = 1
    · have hs : lower t.sound = 0 := by rw [h1]; rfl
      simp only [Follows, apply, Timers.tick, if_pos h1, isOn_stop, hs]
      decide
    · have hp : 0 < lower t.sound ↔ 0 < t.sound := by
        rw [lower_pos_iff, UInt8.lt_iff_toNat_lt, UInt8.lt_iff_toNat_lt]
        have : t.sound.toNat ≠ 1 := fun e => h1 (UInt8.toNat_inj.1 e)
        simp only [UInt8.toNat_zero, UInt8.toNat_one]
        omega
      simp only [Follows, apply, Timers.tick, if_neg h1, hp]
      exact h
  | reset =>
    have hc : t.CutBy .reset ↔ 0 < t.sound := and_iff_left rfl
    rw [hc]
    exact follows_zeroed_iff h rfl rfl

theorem follows_obey_iff {t : Timers} (h : t.Follows) (op : Option Op) :
    (t.obey op).Follows ↔ ∀ o ∈ op, ¬ t.CutBy o := by
  cases op with
  | none => exact iff_of_true h (fun o ho => absurd ho (Option.not_mem_none o))
  | some op =>
    rw [obey, follows_apply_iff h]
    constructor
    · intro hc o ho
      rwa [← Option.mem_some_iff.1 ho]
    · intro hc
      exact hc op rfl

section Driven

variable {S M : Type} (next : S → M → S) (view : S → Timers) (act : S → M → Option Op)

theorem isOn_foldl_of_pos (hv : ∀ s m, view (next s m) = (view s).obey (act s m))
    (ms : List M) (s : S) (hs : 0 < (view s).sound → (view s).speaker.isOn = true)
    (hp : 0 < (view (ms.foldl next s)).sound) :
    (view (ms.foldl next s)).speaker.isOn = true := by
  induction ms generalizing s with
  | nil => exact hs hp
  | cons m ms ih =>
    apply ih (next s m) _ hp
    rw [hv]
    cases act s m with
    | none => exact hs
    | some op => exact isOn_apply_of_pos hs op

theorem follows_foldl_iff (hv : ∀ s m, view (next s m) = (view s).obey (act s m))
    (ms : List M) (s : S) (hs : (view s).Follows) :
    (∀ pre, pre <+: ms → (view (pre.foldl next s)).Follows) ↔
      ∀ pre m, pre ++ [m] <+: ms →
        ∀ op ∈ act (pre.foldl next s) m, ¬ (view (pre.foldl next s)).CutBy op := by
  induction ms generalizing s with
  | nil =>
    refine iff_of_true ?_ ?_
    · intro pre hpre
      rwa [List.prefix_nil.1 hpre]
    · intro pre m hpre
      exact absurd (List.prefix_nil.1 hpre) (List.append_ne_nil_of_right_ne_nil pre (by simp))
  | cons m ms ih =>
    have hstep : (view (next s m)).Follows ↔ ∀ op ∈ act s m, ¬ (view s).CutBy op := by
      rw [hv]
      exact follows_obey_iff hs (act s m)
    constructor
    · intro h pre m' hpre
      have hm : (view (next s m)).Follows := h [m] (by simp)
      cases pre with
      | nil =>
        obtain rfl : m' = m := by simpa using hpre
        exact hstep.1 hm
      | cons x pre =>
        obtain ⟨rfl, hrest⟩ := List.cons_prefix_cons.1 hpre
        refine (ih (next s x) hm).1 ?_ pre m' hrest
        intro pre hpre
        exact h (x :: pre) (List.cons_prefix_cons.2 ⟨rfl, hpre⟩)
    · intro h pre hpre
      have hm : (view (next s m)).Follows := hstep.2 (h [] m (by simp))
      cases pre with
      | nil => exact hs
      | cons x pre =>
        obtain ⟨rfl, hrest⟩ := List.cons_prefix_cons.1 hpre
        refine (ih (next s x) hm).2 ?_ pre hrest
        intro pre m' hpre
        exact h (x :: pre) m' (List.cons_prefix_cons.2 ⟨rfl, hpre⟩)

end Driven

end Chip8.Timers
