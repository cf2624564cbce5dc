import Chip8.Proofs.Cpu.Effect

namespace Chip8

def Outcome.succeeds : Outcome → Bool
  | .done | .waiting _ => true
  | .failed _ | .crashed _ => false

structure Process where
  board : Board
  request : Option KeyRequest := none

def Cpu.boot (memory : Memory) (clip : Bool) : Cpu := { memory, clip }

namespace Process

inductive Move where
  | go
  | push
  | key (k : Nibble) (down : Bool)
  | interrupt
  | resume
  | timers (op : Timers.Op)
  deriving DecidableEq, Repr

def boot (memory : Memory) (clip : Bool) (devices : Devices) : Process :=
  ⟨⟨.boot memory clip, devices⟩, none⟩

def cpu (p : Process) : Cpu := p.board.cpu

def timers (p : Process) : Timers := p.board.devices.timers

def attempt (p : Process) : Board × Outcome :=
  match p.request with
  | none => p.board.step
  | some r => p.board.resume r

def settle : Board × Outcome → Process
  | (b, .waiting r) => ⟨b, some r⟩
  | (b, _) => ⟨b, none⟩

def onDevices (p : Process) (f : Devices → Devices) : Process :=
  { p with board := { p.board with devices := f p.board.devices } }

def onKeypad (p : Process) (f : Keypad → Keypad) : Process :=
  p.onDevices fun d => { d with keypad := f d.keypad }

def move (p : Process) : Move → Process
  | .go => settle p.attempt
  | .push => if p.request.isNone then { p with board := p.board.push.1 } else p
  | .key k down => p.onKeypad (·.set k down)
  | .interrupt => p.onKeypad Keypad.interrupt
  | .resume => p.onKeypad Keypad.resume
  | .timers op => p.onDevices fun d => { d with timers := d.timers.apply op }

def moves (p : Process) (ms : List Move) : Process := ms.foldl move p

def opcode? (p : Process) : Option Opcode :=
  match p.request with
  | none => p.cpu.opcode?
  | some _ => none

def takes? (p : Process) : Move → Option Opcode
  | .go => p.opcode?
  | _ => none

def executed : Process → List Move → List Opcode
  | _, [] => []
  | p, m :: ms => (p.takes? m).toList ++ executed (p.move m) ms

def timerOp? (p : Process) : Move → Option Timers.Op
  | .go =>
    match p.request with
    | none => p.cpu.timerOp?
    | some _ => none
  | .timers op => some op
  | _ => none

def SucceedsAt (p : Process) : Move → Prop
  | .go => p.attempt.2.succeeds = true
  | _ => True

instance (p : Process) (m : Move) : Decidable (p.SucceedsAt m) :=
  match m with
  | .go => inferInstanceAs (Decidable (_ = true))
  | .push | .key _ _ | .interrupt | .resume | .timers _ => inferInstanceAs (Decidable True)

def Succeeds : Process → List Move → Prop
  | _, [] => True
  | p, m :: ms => p.SucceedsAt m ∧ Succeeds (p.move m) ms

instance decidableSucceeds : (p : Process) → (ms : List Move) → Decidable (p.Succeeds ms)
  | _, [] => inferInstanceAs (Decidable True)
  | p, m :: ms =>
    have := decidableSucceeds (p.move m) ms
    inferInstanceAs (Decidable (_ ∧ _))

theorem moves_append (p : Process) (xs ys : List Move) :
    p.moves (xs ++ ys) = (p.moves xs).moves ys := List.foldl_append

theorem moves_cons (p : Process) (m : Move) (ms : List Move) :
    p.moves (m :: ms) = (p.move m).moves ms := rfl

theorem moves_concat (p : Process) (ms : List Move) (m : Move) :
    p.moves (ms ++ [m]) = (p.moves ms).move m := moves_append p ms [m]

theorem executed_append (p : Process) (xs ys : List Move) :
    p.executed (xs ++ ys) = p.executed xs ++ (p.moves xs).executed ys := by
  induction xs generalizing p with
  | nil => rfl
  | cons m xs ih =>
    rw [List.cons_append, executed, executed, ih, List.append_assoc]
    rfl

theorem executed_concat (p : Process) (ms : List Move) (m : Move) :
    p.executed (ms ++ [m]) = p.executed ms ++ ((p.moves ms).takes? m).toList := by
  rw [executed_append, executed, executed, List.append_nil]

theorem succeeds_append {p : Process} {xs ys : List Move} :
    p.Succeeds (xs ++ ys) ↔ p.Succeeds xs ∧ (p.moves xs).Succeeds ys := by
  induction xs generalizing p with
  | nil => rw [List.nil_append, Succeeds, true_and, moves, List.foldl_nil]
  | cons m xs ih =>
    rw [List.cons_append, Succeeds, Succeeds, ih, and_assoc]
    rfl

theorem succeeds_concat {p : Process} {ms : List Move} {m : Move} :
    p.Succeeds (ms ++ [m]) ↔ p.Succeeds ms ∧ (p.moves ms).SucceedsAt m := by
  rw [succeeds_append]
  rw [Succeeds, Succeeds, and_true]

theorem board_settle (r : Board × Outcome) : (settle r).board = r.1 := by
  obtain ⟨b, o⟩ := r
  cases o <;> rfl

theorem attempt_of_none {p : Process} (h : p.request = none) : p.attempt = p.board.step := by
  rw [attempt, h]

theorem attempt_of_some {p : Process} {r : KeyRequest} (h : p.request = some r) :
    p.attempt = p.board.resume r := by
  rw [attempt, h]

theorem cpu_move_go_of_none {p : Process} (h : p.request = none) :
    (p.move .go).cpu = p.board.step.1.cpu := by
  rw [cpu, move, board_settle, attempt_of_none h]

theorem takes?_eq_some {p : Process} {m : Move} {o : Opcode} (h : p.takes? m = some o) :
    m = .go ∧ p.request = none ∧ p.cpu.opcode? = some o := by
  cases m with
  | go =>
    cases hr : p.request with
    | none => exact ⟨rfl, rfl, by simpa only [takes?, opcode?, hr] using h⟩
    | some r => simp only [takes?, opcode?, hr, reduceCtorEq] at h
  | push | key | interrupt | resume | timers => cases h

theorem cpu_move_of_ne_go {p : Process} {m : Move} (h : m ≠ .go) :
    (p.move m).cpu = { p.cpu with framebuffer := (p.move m).cpu.framebuffer } := by
  cases m with
  | go => exact absurd rfl h
  | push =>
    cases hr : p.request with
    | none =>
      simp only [move, hr, Option.isNone_none, if_true]
      exact congrArg Board.cpu (Board.keptBut_push p.board)
    | some r =>
      simp only [move, hr, Option.isNone_some, Bool.false_eq_true, if_false]
  | key k down => rfl
  | interrupt => rfl
  | resume => rfl
  | timers op => rfl

theorem timers_move (p : Process) (m : Move) :
    (p.move m).timers = p.timers.obey (p.timerOp? m) := by
  cases m with
  | go =>
    rw [timers, move, board_settle]
    cases hr : p.request with
    | none =>
      rw [attempt_of_none hr]
      simp only [timerOp?, hr]
      exact Board.timers_step p.board
    | some r =>
      rw [attempt_of_some hr]
      simp only [timerOp?, hr]
      exact Board.timers_resume p.board r
  | push =>
    rw [timers, move]
    split
    · exact (Board.keptBut_push p.board).timers
    · rfl
  | key k down => rfl
  | interrupt => rfl
  | resume => rfl
  | timers op => rfl

end Process

end Chip8
