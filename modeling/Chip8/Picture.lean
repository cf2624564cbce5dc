namespace Chip8

structure Picture where
  cells : Vector Bool 2048
  deriving DecidableEq

namespace Picture

abbrev Column := Fin 64

abbrev Row := Fin 32

instance neZero_width : @NeZero Nat (@Zero.ofOfNat0 Nat (instOfNatNat 0)) 64 := ⟨by decide⟩

instance neZero_height : @NeZero Nat (@Zero.ofOfNat0 Nat (instOfNatNat 0)) 32 := ⟨by decide⟩

def index (x : Column) (y : Row) : Fin 2048 := ⟨y.val * 64 + x.val, by omega⟩

def pixel (p : Picture) (x : Column) (y : Row) : Bool := p.cells[index x y]

def blank : Picture := ⟨Vector.replicate 2048 false⟩

def ofFn (f : Column → Row → Bool) : Picture :=
  ⟨Vector.ofFn fun k => f (Fin.ofNat 64 k.val) (Fin.ofNat 32 (k.val / 64))⟩

def toggle (p : Picture) (x : Column) (y : Row) : Picture :=
  ⟨p.cells.set (index x y) (!p.pixel x y)⟩

def pixel? (p : Picture) (x y : Nat) : Option Bool :=
  if h : x < 64 ∧ y < 32 then some (p.pixel ⟨x, h.1⟩ ⟨y, h.2⟩) else none

def row (p : Picture) (y : Row) : List Bool := (List.finRange 64).map (p.pixel · y)

def rows (p : Picture) : List (List Bool) := (List.finRange 32).map p.row

theorem index_inj {x x' : Column} {y y' : Row} :
    index x y = index x' y' ↔ x = x' ∧ y = y' := by
  simp only [index, Fin.ext_iff]
  omega

theorem pixel_blank (x : Column) (y : Row) : blank.pixel x y = false := by
  simp [pixel, blank]

theorem pixel_toggle (p : Picture) (x x' : Column) (y y' : Row) :
    (p.toggle x y).pixel x' y' = (p.pixel x' y' ^^ decide (x = x' ∧ y = y')) := by
  by_cases h : x = x' ∧ y = y'
  · obtain ⟨rfl, rfl⟩ := h
    simp [pixel, toggle]
  · have hi : (index x y).val ≠ (index x' y').val := fun e => h (index_inj.1 (Fin.ext e))
    simp only [pixel, toggle, Fin.getElem_fin, Vector.getElem_set, hi, h, decide_false,
      Bool.xor_false, if_false]

theorem ext_pixel {p q : Picture} (h : ∀ x y, p.pixel x y = q.pixel x y) : p = q := by
  obtain ⟨p⟩ := p
  obtain ⟨q⟩ := q
  congr 1
  ext k hk
  have := h (Fin.ofNat 64 k) (Fin.ofNat 32 (k / 64))
  have e : (index (Fin.ofNat 64 k) (Fin.ofNat 32 (k / 64))).val = k := by
    simp only [index, Fin.val_ofNat]
    omega
  simpa only [pixel, Fin.getElem_fin, e] using this

theorem length_row (p : Picture) (y : Row) : (p.row y).length = 64 := by simp [row]

end Picture

end Chip8
