namespace Chip8

structure Rect where
  x : Nat
  y : Nat
  width : Nat
  height : Nat
  deriving DecidableEq, Repr

inductive Direction where
  | horizontal
  | vertical
  deriving DecidableEq, Repr

inductive Constraint where
  | length (n : Nat)
  | min (n : Nat)
  deriving DecidableEq, Repr

def Constraint.total : List Nat → Nat
  | [] => 0
  | n :: rest => n + Constraint.total rest

namespace Constraint

def least : Constraint → Nat
  | length n | min n => n

def isMin : Constraint → Bool
  | length _ => false
  | min _ => true

def size (rest : Nat) : Constraint → Nat
  | length n => n
  | min _ => rest

def sizes (extent : Nat) (cs : List Constraint) : List Nat :=
  cs.map (size (extent - total (cs.map (size 0))))

end Constraint

namespace Rect

def limit : Nat := 65535

def clamped (x y width height : Nat) : Rect := ⟨x, y, min width (limit - x), min height (limit - y)⟩

def Contains (r : Rect) (x y : Nat) : Prop :=
  r.x ≤ x ∧ x < r.x + r.width ∧ r.y ≤ y ∧ y < r.y + r.height

instance (r : Rect) (x y : Nat) : Decidable (r.Contains x y) :=
  inferInstanceAs (Decidable (_ ∧ _))

def inner (r : Rect) : Rect := ⟨r.x + 1, r.y + 1, r.width - 2, r.height - 2⟩

def extent (r : Rect) : Direction → Nat
  | .horizontal => r.width
  | .vertical => r.height

def first (r : Rect) : Direction → Nat → Rect
  | .horizontal, n => { r with width := n }
  | .vertical, n => { r with height := n }

def rest (r : Rect) : Direction → Nat → Rect
  | .horizontal, n => { r with x := r.x + n, width := r.width - n }
  | .vertical, n => { r with y := r.y + n, height := r.height - n }

def pieces (d : Direction) : Rect → List Nat → List Rect
  | _, [] => []
  | r, n :: sizes => r.first d n :: (r.rest d n).pieces d sizes

end Rect

abbrev Layout := Direction → List Constraint → Rect → Nat → Rect

def Layout.standard : Layout := fun d cs r k =>
  ((r.pieces d (Constraint.sizes (r.extent d) cs))[k]?).getD ⟨0, 0, 0, 0⟩

end Chip8
