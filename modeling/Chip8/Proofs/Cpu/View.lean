import Chip8.Proofs.Cpu.Display

namespace Chip8

def Screen.IsSound (s : Screen) : Prop := ∀ f ∈ s.flaw, f.frame ≤ s.received.length

theorem Screen.IsSound.crash? {s : Screen} (h : s.IsSound) : s.crash? = none := by
  rw [Screen.crash?]
  cases hf : s.flaw with
  | none => rfl
  | some f =>
    have hle := h f hf
    exact if_neg (by omega)

theorem Screen.IsSound.present {s : Screen} (h : s.IsSound) (p : Picture) :
    (s.present p).IsSound :=
  fun f hf => Nat.le_succ_of_le (h f hf)

theorem Devices.poll_withScreen (d : Devices) (screen : Screen) (key : UInt8) :
    ({ d with screen } : Devices).poll key =
      ({ (d.poll key).1 with screen }, (d.poll key).2) := by
  unfold poll
  split <;> rfl

namespace Board

def withView (b : Board) (dirty : Bool) (screen : Screen) : Board :=
  ⟨{ b.cpu with framebuffer := { b.cpu.framebuffer with dirty } }, { b.devices with screen }⟩

def unshown (b : Board) : Board := b.withView false {}

def face (b : Board) : Option Picture :=
  if b.cpu.framebuffer.dirty then some b.cpu.framebuffer.picture
  else b.devices.screen.received.head?

theorem paintsNext_unshown (b : Board) : b.unshown.cpu.paintsNext = b.cpu.paintsNext := rfl

theorem awaitKey_withView (b : Board) (dirty : Bool) (screen : Screen) (x : Nibble) :
    (b.withView dirty screen).awaitKey x =
      ((b.awaitKey x).1.withView dirty screen, (b.awaitKey x).2) := by
  have hk : (b.withView dirty screen).devices.keypad = b.devices.keypad := rfl
  rw [awaitKey_eq, awaitKey_eq, hk]
  cases b.devices.keypad.interrupted <;> rfl

theorem resume_withView (b : Board) (dirty : Bool) (screen : Screen) (r : KeyRequest) :
    (b.withView dirty screen).resume r =
      ((b.resume r).1.withView dirty screen, (b.resume r).2) := by
  have hk : (b.withView dirty screen).devices.keypad = b.devices.keypad := rfl
  rw [resume_eq, resume_eq, hk]
  cases b.devices.keypad.verdict r.wait <;> rfl

theorem finish_withView (r : Board × Outcome) (dirty : Bool) (screen : Screen) :
    finish (r.1.withView dirty screen, r.2) =
      ((finish r).1.withView dirty screen, (finish r).2) := by
  obtain ⟨b, o⟩ := r
  cases o <;> rfl

theorem execute_withView (b : Board) (dirty : Bool) (screen : Screen) (ins : Instruction) :
    (b.withView dirty screen).execute ins =
      ((b.execute ins).1.withView (dirty || b.cpu.paints ins) screen, (b.execute ins).2) := by
  cases ho : ins.opcode
  -- the two that paint mark the framebuffer, whatever its mark was
  case clearDisplay => simp only [execute, ho, Cpu.paints, Bool.or_true]; rfl
  case draw => simp only [execute, ho, Cpu.paints]; rfl
  all_goals rw [show b.cpu.paints ins = false by simp only [Cpu.paints, ho], Bool.or_false]
  case ret =>
    rw [execute_ret ho, execute_ret ho]
    by_cases h : b.cpu.sp.toNat < 16
    · rw [dif_pos h, dif_pos (show (b.withView dirty screen).cpu.sp.toNat < 16 from h)]
      rfl
    · rw [dif_neg h, dif_neg (show ¬ (b.withView dirty screen).cpu.sp.toNat < 16 from h)]
      rfl
  case call =>
    rw [execute_call ho, execute_call ho]
    by_cases h : (b.cpu.sp + 1).toNat < 16
    · rw [dif_pos h, dif_pos (show ((b.withView dirty screen).cpu.sp + 1).toNat < 16 from h)]
      rfl
    · rw [dif_neg h, dif_neg (show ¬ ((b.withView dirty screen).cpu.sp + 1).toNat < 16 from h)]
      rfl
  case awaitKey =>
    simp only [execute, ho]
    exact awaitKey_withView b dirty screen ins.x
  case skipPressed | skipReleased =>
    have hp := b.devices.poll_withScreen screen b.cpu.v[ins.x]
    have hv : (b.withView dirty screen).devices.poll (b.withView dirty screen).cpu.v[ins.x] = _ := hp
    simp only [execute, ho, skipOnKey, Cpu.skipIf_eq, hv]
    rfl
  case skipEqualByte | skipUnequalByte | skipEqual | skipUnequal =>
    simp only [execute, ho, Cpu.skipIf_eq]
    rfl
  all_goals (simp only [execute, ho]; rfl)

theorem push_of_sound {b : Board} (hs : b.devices.screen.IsSound) :
    ∃ screen, screen.IsSound ∧ b.push = (b.withView false screen, none) ∧
      b.push.1.face = b.face := by
  cases hd : b.cpu.framebuffer.dirty with
  | false =>
    have hb : b.withView false b.devices.screen = b := by
      rw [← hd]
      rfl
    rw [push_of_clean hd]
    exact ⟨b.devices.screen, hs, by rw [hb], rfl⟩
  | true =>
    rw [push_of_dirty hd hs.crash?, face, face, if_pos hd]
    exact ⟨_, hs.present _, rfl, rfl⟩

theorem SameView.face {b b' : Board} (h : b.SameView b') : b'.face = b.face := by
  rw [Board.face, h.1, h.2, Board.face]

theorem sound_step {b : Board} (hs : b.devices.screen.IsSound) :
    b.step.1.devices.screen.IsSound := by
  obtain ⟨-, -, he⟩ | ⟨-, hv | hv⟩ := b.view_step
  · rwa [he]
  · rwa [hv.2]
  · obtain ⟨screen, hs', hp, -⟩ := push_of_sound hs
    rw [hv.2, hp]
    exact hs'

theorem face_step {b : Board} (hs : b.devices.screen.IsSound) :
    b.step.1.face =
      if b.cpu.paintsNext then some b.step.1.cpu.framebuffer.picture else b.face := by
  obtain ⟨hn, hd, -⟩ | ⟨hn, hv | hv⟩ := b.view_step
  · rw [hn, if_pos rfl, face, if_pos hd]
  · rw [hn, if_neg Bool.false_ne_true, hv.face]
  · obtain ⟨-, -, -, hf⟩ := push_of_sound hs
    rw [hn, if_neg Bool.false_ne_true, hv.face, hf]

theorem unshown_step {b : Board} (hs : b.devices.screen.IsSound) :
    b.unshown.step.1.unshown = b.step.1.unshown ∧ b.unshown.step.2 = b.step.2 := by
  cases hi : b.cpu.instruction? with
  | none =>
    have hu : b.unshown.cpu.instruction? = none := hi
    rw [step_of_data hi, step_of_data hu]
    exact ⟨rfl, rfl⟩
  | some ins =>
    have hu : b.unshown.cpu.instruction? = some ins := hi
    by_cases ho : ins.opcode = .awaitKey
    · obtain ⟨screen, -, hp, -⟩ := push_of_sound (b := b.begun ins) hs
      have hq : (b.unshown.begun ins).push = (b.unshown.begun ins, none) := push_of_clean rfl
      have hstep : b.step = (((b.begun ins).awaitKey ins.x).1.withView false screen,
          ((b.begun ins).awaitKey ins.x).2) := by
        rw [step_of_awaitKey hi ho, hp]
        exact awaitKey_withView (b.begun ins) false screen ins.x
      have hstep' : b.unshown.step = (((b.begun ins).awaitKey ins.x).1.withView false {},
          ((b.begun ins).awaitKey ins.x).2) := by
        rw [step_of_awaitKey hu ho, hq]
        exact awaitKey_withView (b.begun ins) false {} ins.x
      rw [hstep, hstep']
      exact ⟨rfl, rfl⟩
    · have hb : b.unshown.begun ins = (b.begun ins).withView false {} := rfl
      rw [step_of_ne_awaitKey hi ho, step_of_ne_awaitKey hu ho, hb, execute_withView,
        finish_withView]
      exact ⟨rfl, rfl⟩

/-- Boards that are alike but for what has been shown, and for frames yet to come. -/
structure Akin (b b' : Board) : Prop where
  unshown : b.unshown = b'.unshown
  face : b.face = b'.face
  left : b.devices.screen.IsSound
  right : b'.devices.screen.IsSound

namespace Akin

variable {b b' b'' : Board}

theorem refl (h : b.devices.screen.IsSound) : b.Akin b := ⟨rfl, rfl, h, h⟩

theorem symm (h : b.Akin b') : b'.Akin b := ⟨h.unshown.symm, h.face.symm, h.right, h.left⟩

theorem trans (h : b.Akin b') (k : b'.Akin b'') : b.Akin b'' :=
  ⟨h.unshown.trans k.unshown, h.face.trans k.face, h.left, k.right⟩

theorem step (h : b.Akin b') : b.step.1.Akin b'.step.1 ∧ b.step.2 = b'.step.2 := by
  obtain ⟨hb, ho⟩ := unshown_step h.left
  obtain ⟨hb', ho'⟩ := unshown_step h.right
  have hunshown : b.step.1.unshown = b'.step.1.unshown := by rw [← hb, ← hb', h.unshown]
  have hpicture : b.step.1.cpu.framebuffer.picture = b'.step.1.cpu.framebuffer.picture :=
    congrArg (·.cpu.framebuffer.picture) hunshown
  have hpaints : b.cpu.paintsNext = b'.cpu.paintsNext := by
    rw [← b.paintsNext_unshown, h.unshown, paintsNext_unshown]
  have hface : b.step.1.face = b'.step.1.face := by
    rw [face_step h.left, face_step h.right, hpicture, hpaints, h.face]
  exact ⟨⟨hunshown, hface, sound_step h.left, sound_step h.right⟩, by rw [← ho, ← ho', h.unshown]⟩

theorem push (h : b.devices.screen.IsSound) : b.Akin b.push.1 ∧ b.push.2 = none := by
  obtain ⟨screen, hs, hp, hf⟩ := push_of_sound h
  refine ⟨⟨?_, hf.symm, h, ?_⟩, ?_⟩
  · rw [hp]
    rfl
  · rw [hp]
    exact hs
  · rw [hp]

theorem resume (h : b.Akin b') (r : KeyRequest) :
    (b.resume r).1.Akin (b'.resume r).1 ∧ (b.resume r).2 = (b'.resume r).2 := by
  have hv := b.sameView_resume r
  have hv' := b'.sameView_resume r
  have hr : b.unshown.resume r = _ := resume_withView b false {} r
  have hr' : b'.unshown.resume r = _ := resume_withView b' false {} r
  rw [h.unshown, hr', Prod.mk.injEq] at hr
  refine ⟨⟨hr.1.symm, ?_, ?_, ?_⟩, hr.2.symm⟩
  · rw [hv.face, hv'.face, h.face]
  · rw [hv.2]
    exact h.left
  · rw [hv'.2]
    exact h.right

end Akin

end Board

namespace Screen

/-- No frame on the way from one state of a screen to another is the one that it breaks down on. -/
def Unbroken (s s' : Screen) : Prop :=
  ∀ f ∈ s.flaw, s.received.length < f.frame → s'.received.length < f.frame

structure Before (s s' : Screen) : Prop where
  flaw : s'.flaw = s.flaw
  received : s.received.length ≤ s'.received.length

variable {s s' s'' : Screen}

theorem Before.refl (s : Screen) : s.Before s := ⟨rfl, Nat.le_refl _⟩

theorem Before.trans (h : s.Before s') (k : s'.Before s'') : s.Before s'' :=
  ⟨k.flaw.trans h.flaw, Nat.le_trans h.received k.received⟩

theorem Unbroken.left (h : s.Unbroken s'') (k : s'.Before s'') : s.Unbroken s' :=
  fun f hf hlt => Nat.lt_of_le_of_lt k.received (h f hf hlt)

theorem Unbroken.right (h : s.Unbroken s'') (k : s.Before s') : s'.Unbroken s'' :=
  fun f hf hlt => h f (k.flaw ▸ hf) (Nat.lt_of_le_of_lt k.received hlt)

def flawless (s : Screen) : Screen := { s with flaw := none }

end Screen

namespace Board

def Unbroken (b b' : Board) : Prop := b.devices.screen.Unbroken b'.devices.screen

def flawless (b : Board) : Board :=
  b.withView b.cpu.framebuffer.dirty b.devices.screen.flawless

theorem unbroken_push_iff {b : Board} : b.Unbroken b.push.1 ↔ b.push.2 = none := by
  cases hd : b.cpu.framebuffer.dirty with
  | false =>
    rw [push_of_clean hd]
    exact iff_of_true (fun _ _ hlt => hlt) rfl
  | true =>
    cases hc : b.devices.screen.crash? with
    | none =>
      rw [push_of_dirty hd hc]
      refine iff_of_true (fun f hf hlt => ?_) rfl
      rw [Screen.crash?, Option.mem_def.1 hf] at hc
      have hne : ¬ b.devices.screen.received.length + 1 = f.frame := fun he => by simp [he] at hc
      simp only [Screen.present, List.length_cons]
      omega
    | some c =>
      rw [push_of_crash hd hc]
      refine iff_of_false (fun h => ?_) (Option.some_ne_none c)
      cases hf : b.devices.screen.flaw with
      | none => simp [Screen.crash?, hf] at hc
      | some f =>
        simp only [Screen.crash?, hf, Option.ite_none_right_eq_some] at hc
        have hlt := h f hf (by omega)
        simp only [Screen.present, List.length_cons] at hlt
        omega

/-- What is done to a board is heedless of its screen's flaw if it does the same without it, as long
as the screen does not break down on the way. -/
structure Heedless {α : Type} (act : Board → Board × α) : Prop where
  before : ∀ b : Board, b.devices.screen.Before (act b).1.devices.screen
  flawless : ∀ b : Board, b.Unbroken (act b).1 → act b.flawless = ((act b).1.flawless, (act b).2)

theorem Heedless.pure {α : Type} (a : α) : Heedless fun b : Board => (b, a) :=
  ⟨fun b => .refl b.devices.screen, fun _ _ => rfl⟩

theorem Heedless.bind {α β : Type} {act : Board → Board × α} {whole : Board → Board × β}
    (h : Heedless act)
    (hn : ∀ a, ∃ next, Heedless next ∧ ∀ b, (act b).2 = a → whole b = next (act b).1) :
    Heedless whole := by
  refine ⟨fun b => ?_, fun b hb => ?_⟩ <;> obtain ⟨next, hnext, heq⟩ := hn (act b).2
  · rw [heq b rfl]
    exact (h.before b).trans (hnext.before _)
  · rw [heq b rfl] at hb
    have hfirst := h.flawless b (Screen.Unbroken.left hb (hnext.before _))
    have hrest := hnext.flawless (act b).1 (Screen.Unbroken.right hb (h.before b))
    have hsame : (act b.flawless).2 = (act b).2 := by rw [hfirst]
    rw [heq b rfl, heq b.flawless hsame, hfirst]
    exact hrest

theorem heedless_push : Heedless push := by
  refine ⟨fun b => ?_, fun b hb => ?_⟩
  · cases hd : b.cpu.framebuffer.dirty with
    | false =>
      rw [push_of_clean hd]
      exact .refl _
    | true =>
      cases hc : b.devices.screen.crash? with
      | none =>
        rw [push_of_dirty hd hc]
        exact ⟨rfl, Nat.le_succ _⟩
      | some c =>
        rw [push_of_crash hd hc]
        exact ⟨rfl, Nat.le_succ _⟩
  · have hnone := unbroken_push_iff.1 hb
    cases hd : b.cpu.framebuffer.dirty with
    | false =>
      have hd' : b.flawless.cpu.framebuffer.dirty = false := hd
      rw [push_of_clean hd, push_of_clean hd']
    | true =>
      have hd' : b.flawless.cpu.framebuffer.dirty = true := hd
      have hc' : b.flawless.devices.screen.crash? = none := rfl
      cases hc : b.devices.screen.crash? with
      | none =>
        rw [push_of_dirty hd hc, push_of_dirty hd' hc']
        rfl
      | some c =>
        rw [push_of_crash hd hc] at hnone
        cases hnone

end Board

end Chip8
