import Chip8.Memory

namespace Chip8.Memory

variable (m : Memory) (a : UInt16)

def cell (n : Nat) : UInt8 := m.bytes[(Fin.ofNat 4096 n : Address)]

theorem read_eq_cell : m.read a = m.cell a.toNat := rfl

theorem cell_congr {n n' : Nat} (h : n % 4096 = n' % 4096) : m.cell n = m.cell n' :=
  congrArg m.bytes.get (Fin.ext h)

theorem read_add (k : Nat) : m.read (a + UInt16.ofNat k) = m.cell (a.toNat + k) := by
  rw [read_eq_cell]
  apply cell_congr
  rw [UInt16.toNat_add, UInt16.toNat_ofNat']
  omega

theorem word_eq_cells : m.word a = wordOf (m.cell a.toNat) (m.cell (a.toNat + 1)) :=
  congrArg (wordOf (m.read a)) (m.read_add a 1)

theorem window_eq_cells (n : Nat) :
    m.window a n = (List.range n).map fun k => m.cell (a.toNat + k) :=
  List.map_congr_left fun k _ => m.read_add a k

theorem getElem_window {n k : Nat} (h : k < (m.window a n).length) :
    (m.window a n)[k] = m.cell (a.toNat + k) := by
  simp only [window_eq_cells, List.getElem_map, List.getElem_range]

theorem span_add (n : Nat) (h : n < 65536) : m.span a (a + UInt16.ofNat n) = m.window a n := by
  rw [span, UInt16.add_comm, UInt16.add_sub_cancel, UInt16.toNat_ofNat', Nat.mod_eq_of_lt h]

theorem add_one_add (k : Nat) : a + 1 + UInt16.ofNat k = a + UInt16.ofNat (k + 1) := by
  rw [UInt16.ofNat_add, UInt16.add_assoc, UInt16.add_comm 1]
  rfl

theorem window_cons (n : Nat) : m.window a (n + 1) = m.read a :: m.window (a + 1) n := by
  have hfirst : a + UInt16.ofNat 0 = a := UInt16.add_zero a
  rw [window, List.range_succ_eq_map, List.map_cons, List.map_map, hfirst]
  exact congrArg _ (List.map_congr_left fun k _ => congrArg m.read (add_one_add a k).symm)

theorem write_read : m.write a (m.read a) = m :=
  congrArg Memory.mk (Vector.set_getElem_self _)

variable {a} in
theorem read_store_of_ne {w : UInt16} {bytes : List UInt8}
    (h : ∀ k < bytes.length, Address.ofWord w ≠ Address.ofWord (a + UInt16.ofNat k)) :
    (m.store a bytes).read w = m.read w := by
  induction bytes generalizing a m with
  | nil => rfl
  | cons b bytes ih =>
    have hfirst : Address.ofWord a ≠ Address.ofWord w := by
      have h0 := h 0 (by simp)
      simpa using h0.symm
    rw [store, ih, read_write, if_neg hfirst]
    intro k hk
    rw [add_one_add]
    exact h (k + 1) (by simpa using hk)

theorem ofWord_add_ne {k : Nat} (h0 : 0 < k) (h : k < 4096) :
    Address.ofWord a ≠ Address.ofWord (a + UInt16.ofNat k) := by
  intro he
  have hval := congrArg Fin.val he
  rw [Address.val_ofWord, Address.val_ofWord, UInt16.toNat_add, UInt16.toNat_ofNat'] at hval
  omega

theorem window_store {bytes : List UInt8} (h : bytes.length ≤ 4096) :
    (m.store a bytes).window a bytes.length = bytes := by
  induction bytes generalizing a m with
  | nil => rfl
  | cons b bytes ih =>
    rw [List.length_cons] at h
    have hfirst : ((m.write a b).store (a + 1) bytes).read a = b := by
      rw [read_store_of_ne, read_write, if_pos rfl]
      intro k hk
      rw [add_one_add]
      exact ofWord_add_ne a (Nat.succ_pos k) (by omega)
    rw [List.length_cons, store, window_cons, hfirst, ih _ _ (by omega)]

theorem cell_store {bytes : List UInt8} (h : bytes.length ≤ 4096) {k : Nat}
    (hk : k < bytes.length) : (m.store a bytes).cell (a.toNat + k) = bytes[k] := by
  have hlen : k < ((m.store a bytes).window a bytes.length).length := by rwa [length_window]
  rw [← getElem_window _ _ hlen]
  exact List.getElem_of_eq (m.window_store a h) hlen

theorem store_window (n : Nat) : m.store a (m.window a n) = m := by
  induction n generalizing a with
  | zero => rfl
  | succ n ih => rw [window_cons, store, write_read, ih]

end Chip8.Memory
