import Chip8.Instruction
import Mathlib.Tactic.ByContra

namespace Chip8

namespace Nibble

theorem toNat_join (a b c d : Nibble) :
    (join a b c d).toNat = ((a.val * 16 + b.val) * 16 + c.val) * 16 + d.val := by
  simp only [join, UInt16.toNat_ofNat']
  omega

theorem join_inj {a b c d a' b' c' d' : Nibble} :
    join a b c d = join a' b' c' d' ↔ a = a' ∧ b = b' ∧ c = c' ∧ d = d' := by
  rw [← UInt16.toNat_inj, toNat_join, toNat_join]
  simp only [Fin.ext_iff]
  omega

theorem exists_join (w : UInt16) : ∃ a b c d : Nibble, w = join a b c d := by
  have hw := w.toNat_lt
  refine ⟨Fin.ofNat 16 (w.toNat / 4096), Fin.ofNat 16 (w.toNat / 256),
    Fin.ofNat 16 (w.toNat / 16), Fin.ofNat 16 w.toNat, ?_⟩
  rw [← UInt16.toNat_inj, toNat_join]
  simp only [Fin.val_ofNat]
  omega

theorem land_append {b b' : Nat} (a a' : Nat) (h : b < 16) (h' : b' < 16) :
    (a * 16 + b) &&& (a' * 16 + b') = (a &&& a') * 16 + (b &&& b') := by
  have hbit (m n : Nat) (hn : n < 16) (i : Nat) :
      (m * 16 + n).testBit i = if i < 4 then n.testBit i else m.testBit (i - 4) := by
    rw [Nat.mul_comm]
    exact Nat.testBit_two_pow_mul_add (i := 4) m hn i
  have hland : b &&& b' < 16 := Nat.and_lt_two_pow (n := 4) b h'
  apply Nat.eq_of_testBit_eq
  intro i
  rw [Nat.testBit_and, hbit a b h, hbit a' b' h', hbit _ _ hland, Nat.testBit_and, Nat.testBit_and]
  split <;> rfl

theorem val_land (a b : Nibble) : (a &&& b).val = a.val &&& b.val :=
  Nat.mod_eq_of_lt (Nat.and_lt_two_pow (n := 4) a.val b.lt)

theorem join_land (a b c d a' b' c' d' : Nibble) :
    join a b c d &&& join a' b' c' d' = join (a &&& a') (b &&& b') (c &&& c') (d &&& d') := by
  rw [← UInt16.toNat_inj, UInt16.toNat_and]
  simp only [toNat_join, val_land, land_append _ _ (lt _) (lt _)]

end Nibble

theorem Hex.word_join (c : Hex.LetterCase) (p q r s : Nibble) :
    Hex.word c (Nibble.join p q r s) = [p, q, r, s].map (Hex.digit c) := by
  rw [Hex.word, Nibble.toNat_join, Hex.digits_mul_add, Hex.digits_mul_add, Hex.digits_mul_add,
    Hex.digits_one]
  rfl

def Slot.Takes : Slot → Nibble → Prop
  | .digit e, d => d = e
  | .operand _, _ => True

theorem Slot.takes_iff (s : Slot) (d : Nibble) : s.Takes d ↔ d &&& s.mask = s.bits := by
  cases s with
  | digit e =>
    have hd : d &&& 0xF = d := by decide +revert
    rw [Takes, mask, bits, hd]
  | operand f =>
    have hd : d &&& 0 = 0 := by decide +revert
    rw [Takes, mask, bits, hd, true_iff]

def Slot.Clashes : Slot → Slot → Bool
  | .digit d, .digit e => d ≠ e
  | _, _ => false

theorem Slot.not_takes_of_clashes {s t : Slot} (h : s.Clashes t = true) {d : Nibble}
    (hs : s.Takes d) : ¬ t.Takes d := by
  cases s with
  | operand f => exact absurd h Bool.false_ne_true
  | digit a =>
    cases t with
    | operand f => exact absurd h Bool.false_ne_true
    | digit b =>
      intro ht
      exact of_decide_eq_true h (hs.symm.trans ht)

def Pattern.Clashes (p q : Pattern) : Bool :=
  p.first.Clashes q.first || p.second.Clashes q.second || p.third.Clashes q.third ||
    p.fourth.Clashes q.fourth

open Operand in
inductive Pattern.Shape : Pattern → Prop
  | fixed (d e f g : Nibble) : Shape ⟨.digit d, .digit e, .digit f, .digit g⟩
  | address (d : Nibble) : Shape ⟨.digit d, nnn, nnn, nnn⟩
  | byte (d : Nibble) : Shape ⟨.digit d, x, kk, kk⟩
  | pair (d e : Nibble) : Shape ⟨.digit d, x, y, .digit e⟩
  | sprite (d : Nibble) : Shape ⟨.digit d, x, y, n⟩
  | single (d e f : Nibble) : Shape ⟨.digit d, x, .digit e, .digit f⟩

theorem Opcode.shape (o : Opcode) : o.pattern.Shape := by
  cases o <;> constructor

def Operand.places (f : Operand) (b c d : Nibble) : List Nibble :=
  match f with
  | nnn => [b, c, d]
  | n => [d]
  | x => [b]
  | y => [c]
  | kk => [c, d]

def Operand.part : Operand → UInt16
  | nnn => 0x0FFF
  | n => 0x000F
  | x => 0x0F00
  | y => 0x00F0
  | kk => 0x00FF

def Operand.start : Operand → Nat
  | nnn | x => 1
  | y | kk => 2
  | n => 3

def Operand.inscribe (text : List Char) (f : Operand) : List Char :=
  text.take f.start ++ f.name.toList ++ text.drop (f.start + f.name.toList.length)

namespace Opcode

theorem matches_join_iff (o : Opcode) (a b c d : Nibble) :
    o.Matches (Nibble.join a b c d) ↔
      o.pattern.first.Takes a ∧ o.pattern.second.Takes b ∧ o.pattern.third.Takes c ∧
        o.pattern.fourth.Takes d := by
  simp only [Slot.takes_iff, Matches, mask, Pattern.mask, bits, Pattern.bits, Nibble.join_land,
    Nibble.join_inj]

section Shapes

variable {o : Opcode} {d e f : Nibble}

theorem matches_address (h : o.pattern = ⟨.digit d, .operand .nnn, .operand .nnn, .operand .nnn⟩)
    (p q r : Nibble) : o.Matches (Nibble.join d p q r) := by
  rw [matches_join_iff, h]
  exact ⟨rfl, trivial, trivial, trivial⟩

theorem matches_byte (h : o.pattern = ⟨.digit d, .operand .x, .operand .kk, .operand .kk⟩)
    (x p q : Nibble) : o.Matches (Nibble.join d x p q) := by
  rw [matches_join_iff, h]
  exact ⟨rfl, trivial, trivial, trivial⟩

theorem matches_pair (h : o.pattern = ⟨.digit d, .operand .x, .operand .y, .digit e⟩)
    (x y : Nibble) : o.Matches (Nibble.join d x y e) := by
  rw [matches_join_iff, h]
  exact ⟨rfl, trivial, trivial, rfl⟩

theorem matches_single (h : o.pattern = ⟨.digit d, .operand .x, .digit e, .digit f⟩)
    (x : Nibble) : o.Matches (Nibble.join d x e f) := by
  rw [matches_join_iff, h]
  exact ⟨rfl, trivial, rfl, rfl⟩

end Shapes

/-- What is left of a word without the fields of an opcode. -/
def fixed (o : Opcode) : UInt16 := o.fields.foldl (fun m f => m &&& ~~~f.part) 0xFFFF

def inscribed (o : Opcode) : List Char :=
  o.fields.foldl Operand.inscribe (Hex.word .upper o.bits)

theorem mask_eq : ∀ o ∈ all, o.mask = o.fixed := by
  decide +kernel

theorem letters_eq : ∀ o ∈ all, o.pattern.letters = o.inscribed := by
  decide +kernel

theorem matches_iff_fixed (o : Opcode) (w : UInt16) : o.Matches w ↔ w &&& o.fixed = o.bits := by
  rw [Matches, mask_eq o o.mem_all]

theorem clashes_of_ne : ∀ o ∈ all, ∀ o' ∈ all, o ≠ o' → o.pattern.Clashes o'.pattern = true := by
  decide +kernel

theorem eq_of_matches {o o' : Opcode} {w : UInt16} (h : o.Matches w) (h' : o'.Matches w) :
    o = o' := by
  by_contra hne
  have hclash := clashes_of_ne o o.mem_all o' o'.mem_all hne
  obtain ⟨a, b, c, d, rfl⟩ := Nibble.exists_join w
  rw [matches_join_iff] at h h'
  simp only [Pattern.Clashes, Bool.or_eq_true] at hclash
  rcases hclash with ((hc | hc) | hc) | hc
  · exact Slot.not_takes_of_clashes hc h.1 h'.1
  · exact Slot.not_takes_of_clashes hc h.2.1 h'.2.1
  · exact Slot.not_takes_of_clashes hc h.2.2.1 h'.2.2.1
  · exact Slot.not_takes_of_clashes hc h.2.2.2 h'.2.2.2

end Opcode

namespace Instruction

theorem decode?_of_matches {o : Opcode} {w : UInt16} (h : o.Matches w) :
    decode? w = some ⟨o, w⟩ := by
  cases hd : decode? w with
  | none => exact absurd h (decode?_eq_none_iff.1 hd o)
  | some ins =>
    have ho : ins.opcode = o := Opcode.eq_of_matches (matches_of_decode? hd) h
    have hw : ins.word = w := word_of_decode? hd
    rw [← ho, ← hw]

theorem x_join (o : Opcode) (a b c d : Nibble) : x ⟨o, Nibble.join a b c d⟩ = b := by
  have hshift (w : UInt16) : (w >>> 8).toNat = w.toNat / 256 := by
    rw [UInt16.toNat_shiftRight, Nat.shiftRight_eq_div_pow]
    rfl
  apply Fin.ext
  simp only [x, Nibble.ofWord, Fin.val_ofNat, hshift, Nibble.toNat_join]
  omega

theorem y_join (o : Opcode) (a b c d : Nibble) : y ⟨o, Nibble.join a b c d⟩ = c := by
  have hshift (w : UInt16) : (w >>> 4).toNat = w.toNat / 16 := by
    rw [UInt16.toNat_shiftRight, Nat.shiftRight_eq_div_pow]
    rfl
  apply Fin.ext
  simp only [y, Nibble.ofWord, Fin.val_ofNat, hshift, Nibble.toNat_join]
  omega

theorem n_join (o : Opcode) (a b c d : Nibble) : n ⟨o, Nibble.join a b c d⟩ = d := by
  apply Fin.ext
  simp only [n, Nibble.ofWord, Fin.val_ofNat, Nibble.toNat_join]
  omega

theorem val_nnn_join (o : Opcode) (a b c d : Nibble) :
    (nnn ⟨o, Nibble.join a b c d⟩).val = (b.val * 16 + c.val) * 16 + d.val := by
  rw [nnn, Address.val_ofWord, Nibble.toNat_join]
  omega

theorem toNat_kk_join (o : Opcode) (a b c d : Nibble) :
    (kk ⟨o, Nibble.join a b c d⟩).toNat = c.val * 16 + d.val := by
  rw [kk, UInt16.toNat_toUInt8, Nibble.toNat_join]
  omega

end Instruction

end Chip8
