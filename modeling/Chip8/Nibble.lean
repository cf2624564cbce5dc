import Chip8.Text.Hex

namespace Chip8

abbrev Nibble := Fin 16

namespace Nibble

theorem lt (x : Nibble) : x.val < 16 := x.isLt

instance {α : Type} : GetElem (Vector α 16) Nibble α fun _ _ => True := ⟨fun v x _ => v.get x⟩

@[simp] theorem getElem_nibble {α : Type} (v : Vector α 16) (x : Nibble) : v[x] = v[x.val] := rfl

def ofWord (w : UInt16) : Nibble := Fin.ofNat 16 w.toNat

structure Overflow where
  value : UInt8
  deriving DecidableEq, Repr

def Overflow.message (_ : Overflow) : String := "u4 value must be in range 0x0-0xF"

def ofByte (b : UInt8) : Except Overflow Nibble :=
  if h : b.toNat < 16 then .ok ⟨b.toNat, h⟩ else .error ⟨b⟩

def toByte (n : Nibble) : UInt8 := UInt8.ofNat n.val

def describe (n : Nibble) : String := s!"u4({n.val})"

def join (a b c d : Nibble) : UInt16 :=
  UInt16.ofNat (((a.val * 16 + b.val) * 16 + c.val) * 16 + d.val)

end Nibble

def wordOf (high low : UInt8) : UInt16 := UInt16.ofNat (high.toNat * 256 + low.toNat)

theorem toNat_wordOf (high low : UInt8) : (wordOf high low).toNat = high.toNat * 256 + low.toNat := by
  have := high.toNat_lt
  have := low.toNat_lt
  simp only [wordOf, UInt16.toNat_ofNat']
  omega

theorem wordOf_inj {a b a' b' : UInt8} : wordOf a b = wordOf a' b' ↔ a = a' ∧ b = b' := by
  have := b.toNat_lt
  have := b'.toNat_lt
  rw [← UInt16.toNat_inj, toNat_wordOf, toNat_wordOf, ← UInt8.toNat_inj, ← UInt8.toNat_inj]
  omega

abbrev Address := Fin 4096

instance Address.neZero : @NeZero Nat (@Zero.ofOfNat0 Nat (instOfNatNat 0)) 4096 := ⟨by decide⟩

namespace Address

def ofWord (w : UInt16) : Address := Fin.ofNat 4096 w.toNat

def toWord (a : Address) : UInt16 := UInt16.ofNat a.val

def describe (a : Address) : String := s!"u12({a.val})"

theorem val_ofWord (w : UInt16) : (ofWord w).val = w.toNat % 4096 := rfl

theorem toNat_toWord (a : Address) : a.toWord.toNat = a.val := by
  simp only [toWord, UInt16.toNat_ofNat']
  omega

theorem ofWord_toWord (a : Address) : ofWord a.toWord = a := by
  ext
  rw [val_ofWord, toNat_toWord]
  omega

end Address

end Chip8
