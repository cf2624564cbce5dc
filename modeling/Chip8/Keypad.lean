import Chip8.Nibble

namespace Chip8

structure Keypad where
  held : Vector Bool 16 := Vector.replicate 16 false
  lastKey : Nibble := 0
  presses : UInt64 := 0
  waiting : Bool := false
  interrupted : Bool := false
  /-- Whether the waiter sleeps. It makes no move of its own until it is notified. -/
  asleep : Bool := false
  deriving DecidableEq

namespace Keypad

def notify (k : Keypad) : Keypad := { k with asleep := false }

def set (k : Keypad) (key : Nibble) (down : Bool) : Keypad :=
  let fresh := down && !k.held[key]
  let k := { k with held := k.held.set key down key.lt }
  if fresh then { k with lastKey := key, presses := k.presses + 1 }.notify else k

def isPressed (k : Keypad) (key : UInt8) : Bool :=
  match Nibble.ofByte key with
  | .ok n => k.held[n]
  | .error _ => false

def interrupt (k : Keypad) : Keypad := { k with interrupted := true }.notify

def resume (k : Keypad) : Keypad := { k with interrupted := false }

structure Wait where
  seen : UInt64
  deriving DecidableEq, Repr

inductive Verdict where
  | pending
  | interrupted
  | released (key : Nibble)
  deriving DecidableEq, Repr

def verdict (k : Keypad) (w : Wait) : Verdict :=
  if k.interrupted then .interrupted
  else if k.presses = w.seen then .pending
  else .released k.lastKey

def beginWait (k : Keypad) : Keypad × Wait := ({ k with waiting := true }, ⟨k.presses⟩)

def recheck (k : Keypad) (w : Wait) : Keypad × Verdict :=
  match k.verdict w with
  | .pending => ({ k with asleep := true }, .pending)
  | v => ({ k with waiting := false, asleep := false }, v)

def keys (k : Keypad) : List Bool := k.held.toList

def layout : Vector Char 16 :=
  #v['x', '1', '2', '3', 'q', 'w', 'e', 'a', 's', 'd', 'z', 'c', '4', 'r', 'f', 'v']

def keyOf? (c : Char) : Option Nibble := layout.finIdxOf? c.toLower

theorem set_of_fresh {k : Keypad} {key : Nibble} {down : Bool} (h : (down && !k.held[key]) = true) :
    k.set key down =
      { k with
        held := k.held.set key down key.lt
        lastKey := key
        presses := k.presses + 1
        asleep := false } := by
  simp only [set, h, if_true, notify]

theorem set_of_stale {k : Keypad} {key : Nibble} {down : Bool}
    (h : (down && !k.held[key]) = false) :
    k.set key down = { k with held := k.held.set key down key.lt } := by
  simp only [set, h, Bool.false_eq_true, if_false]

theorem set_held (k : Keypad) (key : Nibble) (down : Bool) :
    (k.set key down).held = k.held.set key down key.lt := by
  rw [set]
  split <;> rfl

theorem held_set (k : Keypad) (key other : Nibble) (down : Bool) :
    (k.set key down).held[other] = if key = other then down else k.held[other] := by
  simp only [set_held, Nibble.getElem_nibble, Vector.getElem_set, Fin.ext_iff]

theorem isPressed_of_lt (k : Keypad) {key : UInt8} (h : key.toNat < 16) :
    k.isPressed key = k.held[key.toNat] := by
  simp [isPressed, Nibble.ofByte, h]

theorem isPressed_of_le (k : Keypad) {key : UInt8} (h : 16 ≤ key.toNat) :
    k.isPressed key = false := by
  simp [isPressed, Nibble.ofByte, Nat.not_lt.2 h]

theorem verdict_eq_pending_iff {k : Keypad} {w : Wait} :
    k.verdict w = .pending ↔ k.interrupted = false ∧ k.presses = w.seen := by
  rw [verdict]
  cases k.interrupted with
  | true => simp
  | false => by_cases h : k.presses = w.seen <;> simp [h]

theorem verdict_beginWait (k : Keypad) :
    k.beginWait.1.verdict k.beginWait.2 = if k.interrupted then .interrupted else .pending := by
  simp [beginWait, verdict]

end Keypad

end Chip8
