import Chip8.Nibble

namespace Chip8

structure Memory where
  bytes : Vector UInt8 4096
  deriving DecidableEq

namespace Memory

def imageStart : Nat := 0x200

def imageCapacity : Nat := 4096 - imageStart

def blank : Memory := ⟨Vector.replicate 4096 0⟩

def read (m : Memory) (a : UInt16) : UInt8 := m.bytes[Address.ofWord a]

def write (m : Memory) (a : UInt16) (b : UInt8) : Memory := ⟨m.bytes.set (Address.ofWord a) b⟩

def word (m : Memory) (a : UInt16) : UInt16 := wordOf (m.read a) (m.read (a + 1))

def window (m : Memory) (a : UInt16) (n : Nat) : List UInt8 :=
  (List.range n).map fun k => m.read (a + UInt16.ofNat k)

def span (m : Memory) (first last : UInt16) : List UInt8 :=
  m.window first (last - first).toNat

def store (m : Memory) : UInt16 → List UInt8 → Memory
  | _, [] => m
  | a, b :: rest => (m.write a b).store (a + 1) rest

def load (m : Memory) (image : List UInt8) : Memory :=
  let source := image.toArray
  ⟨Vector.ofFn fun k =>
    if imageStart ≤ k.val then source[k.val - imageStart]?.getD m.bytes[k] else m.bytes[k]⟩

def loadSize (image : List UInt8) : Nat := min image.length imageCapacity

theorem read_eq_of_ofWord_eq (m : Memory) {a b : UInt16}
    (h : Address.ofWord a = Address.ofWord b) : m.read a = m.read b := by
  simp only [read, h]

theorem read_write (m : Memory) (a b : UInt16) (v : UInt8) :
    (m.write a v).read b = if Address.ofWord a = Address.ofWord b then v else m.read b := by
  simp only [read, write, Fin.getElem_fin, Vector.getElem_set, Fin.ext_iff]

theorem read_load (m : Memory) (image : List UInt8) (a : UInt16) :
    (m.load image).read a =
      if imageStart ≤ (Address.ofWord a).val then
        image[(Address.ofWord a).val - imageStart]?.getD (m.read a)
      else m.read a := by
  simp only [read, load, Fin.getElem_fin, Vector.getElem_ofFn, List.getElem?_toArray]

theorem getElem_write (m : Memory) (a : UInt16) (b : UInt8) {k : Nat} (hk : k < 4096) :
    (m.write a b).bytes[k] = if a.toNat % 4096 = k then b else m.bytes[k] := by
  simp only [write, Vector.getElem_set, Address.val_ofWord]

theorem getElem_store {a : UInt16} {bytes : List UInt8} (h : a.toNat + bytes.length ≤ 4096)
    (m : Memory) {k : Nat} (hk : k < 4096) :
    (m.store a bytes).bytes[k] =
      if a.toNat ≤ k then bytes[k - a.toNat]?.getD m.bytes[k] else m.bytes[k] := by
  induction bytes generalizing a m with
  | nil => simp [store]
  | cons b bytes ih =>
    rw [List.length_cons] at h
    have ha : (a + 1).toNat = a.toNat + 1 := by
      rw [UInt16.toNat_add, UInt16.toNat_one]
      omega
    have hmod : a.toNat % 4096 = a.toNat := Nat.mod_eq_of_lt (by omega)
    rw [store, ih (by omega), ha, getElem_write, hmod]
    obtain hlt | rfl | hgt := Nat.lt_trichotomy k a.toNat
    · rw [if_neg (by omega), if_neg (by omega), if_neg (by omega)]
    · rw [if_neg (by omega), if_pos rfl, if_pos (Nat.le_refl _), Nat.sub_self]
      rfl
    · obtain ⟨j, rfl⟩ := Nat.exists_eq_add_of_lt hgt
      rw [if_pos (by omega), if_neg (by omega), if_pos (by omega)]
      have hj : a.toNat + j + 1 - a.toNat = (a.toNat + j + 1 - (a.toNat + 1)) + 1 := by omega
      rw [hj, List.getElem?_cons_succ]

theorem load_eq_store (m : Memory) (image : List UInt8) :
    m.load image = m.store (UInt16.ofNat imageStart) (image.take imageCapacity) := by
  have hfit : (UInt16.ofNat imageStart).toNat + (image.take imageCapacity).length ≤ 4096 :=
    Nat.add_le_of_le_sub' (by decide) (List.length_take_le ..)
  have hbytes : (m.load image).bytes =
      (m.store (UInt16.ofNat imageStart) (image.take imageCapacity)).bytes := by
    ext k hk
    have hk' : k - imageStart < imageCapacity := by
      simp only [imageStart, imageCapacity]
      omega
    have htake : (image.take imageCapacity)[k - imageStart]? = image[k - imageStart]? :=
      List.getElem?_take_of_lt hk'
    have hstart : (UInt16.ofNat imageStart).toNat = imageStart := rfl
    rw [getElem_store hfit m hk, hstart, htake]
    simp only [load, Vector.getElem_ofFn, List.getElem?_toArray]
    rfl
  exact congrArg Memory.mk hbytes

theorem length_window (m : Memory) (a : UInt16) (n : Nat) : (m.window a n).length = n := by
  simp [window]

def stretches (m : Memory) : List (Nat × List UInt8) :=
  let close (found : List (Nat × List UInt8)) (run : List UInt8) (k : Nat) :=
    if run.isEmpty then found else (k - run.length, run.reverse) :: found
  let (found, run, last) := m.bytes.toList.foldl
    (fun (found, run, k) b =>
      if b = 0 then (close found run k, [], k + 1) else (found, b :: run, k + 1))
    ([], [], 0)
  (close found run last).reverse

end Memory

end Chip8
