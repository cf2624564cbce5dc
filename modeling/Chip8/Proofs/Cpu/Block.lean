import Chip8.Proofs.Cpu.Devices
import Chip8.Proofs.Cpu.Failure
import Chip8.Proofs.Cpu.View
import Mathlib.Logic.Function.Basic

namespace Chip8

def Happening.keypadOp? : Happening → Option Keypad.Op
  | .keypad op => some op
  | _ => none

def Devices.meet (d : Devices) (hs : List Happening) : Devices := hs.foldl Devices.happen d

theorem Devices.screen_meet (d : Devices) (hs : List Happening) :
    (d.meet hs).screen = d.screen := by
  induction hs generalizing d with
  | nil => rfl
  | cons h hs ih => exact (ih (d.happen h)).trans (screen_happen d h)

theorem Devices.keypad_meet (d : Devices) (hs : List Happening) :
    (d.meet hs).keypad = d.keypad.replay (hs.filterMap Happening.keypadOp?) := by
  induction hs generalizing d with
  | nil => rfl
  | cons h hs ih => cases h <;> exact ih _

theorem Devices.meet_withScreen (d : Devices) (screen : Screen) (hs : List Happening) :
    ({ d with screen } : Devices).meet hs = { d.meet hs with screen } := by
  induction hs generalizing d with
  | nil => rfl
  | cons h hs ih =>
    have hh : ({ d with screen } : Devices).happen h = { d.happen h with screen } := by
      cases h <;> rfl
    rw [meet, List.foldl_cons, hh]
    exact ih (d.happen h)

namespace Board

def meet (b : Board) (hs : List Happening) : Board := { b with devices := b.devices.meet hs }

theorem Akin.meet {b b' : Board} (h : b.Akin b') (hs : List Happening) :
    (b.meet hs).Akin (b'.meet hs) := by
  have hv : b.SameView (b.meet hs) := ⟨rfl, b.devices.screen_meet hs⟩
  have hv' : b'.SameView (b'.meet hs) := ⟨rfl, b'.devices.screen_meet hs⟩
  have hm (b : Board) : b.unshown.meet hs = (b.meet hs).unshown :=
    congrArg (Board.mk b.unshown.cpu) (b.devices.meet_withScreen {} hs)
  refine ⟨by rw [← hm, ← hm, h.unshown], by rw [hv.face, hv'.face, h.face], ?_, ?_⟩
  · rw [hv.2]
    exact h.left
  · rw [hv'.2]
    exact h.right

def andThen (r : Board × Rest) (next : Board → Board × Rest) : Board × Rest :=
  match r with
  | (b, .finished) => next b
  | r => r

def Rest.outcome : Rest → Outcome
  | .finished => .done
  | .failed f => .failed f
  | .crashed c => .crashed c
  | .waiting r _ => .waiting r

theorem Rest.outcome_eq_done_iff {rest : Rest} : rest.outcome = .done ↔ rest = .finished := by
  cases rest <;> simp [outcome]

theorem andThen_of_finished {r : Board × Rest} (h : r.2 = .finished) (next : Board → Board × Rest) :
    andThen r next = next r.1 := by
  obtain ⟨b, rest⟩ := r
  obtain rfl : rest = .finished := h
  rfl

theorem andThen_of_ne {r : Board × Rest} (h : r.2 ≠ .finished) (next : Board → Board × Rest) :
    andThen r next = r := by
  obtain ⟨b, rest⟩ := r
  cases rest with
  | finished => exact absurd rfl h
  | failed | crashed | waiting => rfl

structure Tallies (r r' : Board × Rest) : Prop where
  board : r.1.Akin r'.1
  outcome : r.2.outcome = r'.2.outcome

namespace Tallies

variable {r r' r'' : Board × Rest}

theorem symm (h : Tallies r r') : Tallies r' r := ⟨h.board.symm, h.outcome.symm⟩

theorem trans (h : Tallies r r') (k : Tallies r' r'') : Tallies r r'' :=
  ⟨h.board.trans k.board, h.outcome.trans k.outcome⟩

theorem finished_iff (h : Tallies r r') : r.2 = .finished ↔ r'.2 = .finished := by
  rw [← Rest.outcome_eq_done_iff, ← Rest.outcome_eq_done_iff, h.outcome]

theorem closeBlock (h : r.1.devices.screen.IsSound) : Tallies r (closeBlock r) := by
  obtain ⟨b, rest⟩ := r
  cases rest with
  | finished =>
    obtain ⟨ha, hn⟩ := Akin.push h
    rw [closeBlock_of_pushed hn]
    exact ⟨ha, rfl⟩
  | failed | crashed | waiting => exact ⟨.refl h, rfl⟩

theorem andThen {next next' : Board → Board × Rest} (h : Tallies r r')
    (hn : ∀ b b', b.Akin b' → Tallies (next b) (next' b')) :
    Tallies (andThen r next) (andThen r' next') := by
  by_cases hf : r.2 = .finished
  · rw [andThen_of_finished hf, andThen_of_finished (h.finished_iff.1 hf)]
    exact hn _ _ h.board
  · rw [andThen_of_ne hf, andThen_of_ne (fun hf' => hf (h.finished_iff.2 hf'))]
    exact h

end Tallies

theorem Heedless.andThen {act next : Board → Board × Rest} (h : Heedless act)
    (hn : Heedless next) : Heedless fun b => Board.andThen (act b) next := by
  refine h.bind fun rest => ?_
  by_cases hf : rest = .finished
  · exact ⟨next, hn, fun b hb => andThen_of_finished (hb.trans hf) next⟩
  · refine ⟨_, .pure rest, fun b hb => ?_⟩
    rw [andThen_of_ne (fun hb' => hf (hb.symm.trans hb'))]
    exact Prod.ext rfl hb

theorem heedless_closeBlock : Heedless fun b : Board => Board.closeBlock (b, .finished) := by
  refine heedless_push.bind fun c => ⟨_, .pure (c.elim Rest.finished .crashed), fun b hb => ?_⟩
  cases c with
  | none => exact closeBlock_of_pushed hb
  | some crash => exact closeBlock_of_crash hb

theorem Heedless.closeBlock {act : Board → Board × Rest} (h : Heedless act) :
    Heedless fun b => Board.closeBlock (act b) := by
  refine h.bind fun rest => ?_
  have hpair (b : Board) (hb : (act b).2 = rest) : act b = ((act b).1, rest) := Prod.ext rfl hb
  cases rest with
  | finished => exact ⟨_, heedless_closeBlock, fun b hb => congrArg Board.closeBlock (hpair b hb)⟩
  | failed | crashed | waiting =>
    exact ⟨_, .pure _, fun b hb => congrArg Board.closeBlock (hpair b hb)⟩

inductive Whole (b : Board) : Board → Prop
  | done {b' : Board} : b.step = (b', .done) → b.Whole b'
  | waited {b₁ b' : Board} {r : KeyRequest} (hs : List Happening) :
      b.step = (b₁, .waiting r) → (b₁.meet hs).resume r = (b', .done) → b.Whole b'

inductive Course : Nat → Board → Board → Prop
  | nil (b : Board) : Course 0 b b
  | cons {n : Nat} {b b₁ b' : Board} : b.Whole b₁ → Course n b₁ b' → Course (n + 1) b b'

theorem Course.append {n m : Nat} {b b₁ b' : Board} (h : Course n b b₁) (k : Course m b₁ b') :
    Course (n + m) b b' := by
  induction h with
  | nil b => rwa [Nat.zero_add]
  | cons hw _ ih =>
    rw [Nat.succ_add]
    exact .cons hw (ih k)

def serve : List (List Happening) → Board × Rest → Board × Rest
  | hs :: stays, (b, .waiting r left) => serve stays (resumeBlock r left (b.meet hs))
  | _, r => r

theorem key_of_waited {b c b' : Board} {r : KeyRequest} {hs : List Happening}
    (hb : b.step = (c, .waiting r)) (hr : (c.meet hs).resume r = (b', .done)) :
    ∃ ins key, b.cpu.instruction? = some ins ∧ ins.opcode = .awaitKey ∧
      (Keypad.pressed b.devices.keypad.isDown (hs.filterMap Happening.keypadOp?)).getLast? =
        some key ∧
      b'.cpu = (Cpu.set { b.cpu with framebuffer := { b.cpu.framebuffer with dirty := false } }
        ins.x key.toByte).advance := by
  obtain ⟨ins, hi, ho, rfl, hcpu, hkeypad, -⟩ := step_of_waiting hb
  have hk : (c.meet hs).devices.keypad = _ := c.devices.keypad_meet hs
  rw [resume_eq, hk, hkeypad] at hr
  let k : Keypad := { b.devices.keypad with waiting := true, asleep := true }
  cases hv : (k.replay (hs.filterMap Happening.keypadOp?)).verdict ⟨b.devices.keypad.presses⟩ with
  | released key =>
    have hlast := Keypad.getLast?_of_released (k := k) hv
    rw [hv] at hr
    cases hr
    exact ⟨ins, key, hi, ho, hlast, by rw [← hcpu]; rfl⟩
  | pending | interrupted =>
    rw [hv] at hr
    cases hr

end Board

end Chip8
