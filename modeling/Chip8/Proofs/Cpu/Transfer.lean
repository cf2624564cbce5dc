import Chip8.Proofs.Cpu.Footprint
import Chip8.Proofs.Instruction.Encoding

namespace Chip8

namespace Cpu

variable (c : Cpu) (x : Nibble)

theorem getElem_registersTo {k : Nibble} (hk : k.val < (c.registersTo x).length) :
    (c.registersTo x)[k.val] = c.v[k] := by
  simp only [registersTo, List.getElem_take, Vector.getElem_toList, Nibble.getElem_nibble]

theorem v_loadRegisters (k : Nibble) :
    (c.loadRegisters x).v[k] =
      if k ≤ x then c.memory.cell (c.i.toNat + k.val) else c.v[k] := by
  rw [← Memory.read_add]
  simp only [loadRegisters, Nibble.getElem_nibble, Vector.getElem_ofFn]

theorem registersTo_loadRegisters :
    (c.loadRegisters x).registersTo x = c.memory.window c.i (x.val + 1) := by
  apply List.ext_getElem
  · rw [length_registersTo, Memory.length_window]
  · intro k hk hk'
    have hlt : k < x.val + 1 := by rwa [length_registersTo] at hk
    have hx := x.lt
    let n : Nibble := ⟨k, by omega⟩
    have hle : n ≤ x := Nat.le_of_lt_succ hlt
    rw [Memory.getElem_window]
    exact (getElem_registersTo _ x (k := n) hk).trans ((c.v_loadRegisters x n).trans (if_pos hle))

theorem cell_storeRegisters {k : Nibble} (h : k ≤ x) :
    (c.storeRegisters x).memory.cell (c.i.toNat + k.val) = c.v[k] := by
  have hx := x.lt
  have hlen := c.length_registersTo x
  have hk : k.val < (c.registersTo x).length := by
    rw [hlen]
    exact Nat.lt_succ_of_le h
  rw [← c.getElem_registersTo x hk]
  exact Memory.cell_store _ _ (by omega) hk

theorem storeRegisters_loadRegisters :
    ((c.loadRegisters x).storeRegisters x).memory = c.memory := by
  have hmemory : (c.loadRegisters x).memory = c.memory := rfl
  rw [storeRegisters, registersTo_loadRegisters, hmemory]
  exact c.memory.store_window c.i _

theorem memory_advance : c.advance.memory = c.memory := rfl

theorem storeRegisters_advance : c.advance.storeRegisters x = (c.storeRegisters x).advance := rfl

theorem cell_storeDecimal {k : Nat} (h : k < 3) :
    (c.storeDecimal x).memory.cell (c.i.toNat + k) =
      [c.v[x] / 100, c.v[x] / 10 % 10, c.v[x] % 10][k] :=
  Memory.cell_store _ _ (by simp) h

theorem sprite_eq_span (n : Nibble) :
    c.memory.span c.i (c.i + UInt16.ofNat n.val) = c.sprite n :=
  Memory.span_add _ _ _ (by have := n.lt; omega)

theorem v_flag_draw (y n : Nibble) :
    (c.draw x y n).v[flag] =
      if (c.framebuffer.draw c.v[x] c.v[y] (c.sprite n) c.clip).2 then 1 else 0 := by
  exact (v_set ..).trans (if_pos rfl)

end Cpu

theorem decimal_digits (n : UInt8) :
    ((n / 100).toNat ≤ 9 ∧ (n / 10 % 10).toNat ≤ 9 ∧ (n % 10).toNat ≤ 9) ∧
      100 * (n / 100).toNat + 10 * (n / 10 % 10).toNat + (n % 10).toNat = n.toNat := by
  have hn := n.toNat_lt
  simp only [UInt8.toNat_div, UInt8.toNat_mod, UInt8.reduceToNat]
  omega

namespace Board

variable (b : Board) (x : Nibble)

def sharing (c b : Board) : Board :=
  { c with cpu := { c.cpu with memory := b.cpu.memory, i := b.cpu.i } }

theorem dispatch_single {o : Opcode} {d e f : Nibble} (g : Cpu → Nibble → Cpu)
    (h : o.pattern = ⟨.digit d, .operand .x, .digit e, .digit f⟩) (ho : o ≠ .awaitKey)
    (hf : ∀ (b : Board) (w : UInt16), b.execute ⟨o, w⟩ =
      ({ b with cpu := g b.cpu (Instruction.x ⟨o, w⟩) }, .done)) :
    (b.dispatch (Nibble.join d x e f)).2 = .done ∧
      (b.dispatch (Nibble.join d x e f)).1.cpu = (g b.cpu x).advance := by
  have hi := Instruction.decode?_of_matches (Opcode.matches_single h x)
  refine b.dispatch_of_become (g · x) hi ho fun b => ?_
  rw [hf, Instruction.x_join]

theorem dispatch_store : (b.dispatch (Nibble.join 0xF x 5 5)).2 = .done ∧
    (b.dispatch (Nibble.join 0xF x 5 5)).1.cpu = (b.cpu.storeRegisters x).advance :=
  b.dispatch_single (o := .storeRegisters) x Cpu.storeRegisters rfl nofun fun _ _ => rfl

theorem dispatch_load : (b.dispatch (Nibble.join 0xF x 6 5)).2 = .done ∧
    (b.dispatch (Nibble.join 0xF x 6 5)).1.cpu = (b.cpu.loadRegisters x).advance :=
  b.dispatch_single (o := .loadRegisters) x Cpu.loadRegisters rfl nofun fun _ _ => rfl

theorem dispatch_decimal : (b.dispatch (Nibble.join 0xF x 3 3)).2 = .done ∧
    (b.dispatch (Nibble.join 0xF x 3 3)).1.cpu = (b.cpu.storeDecimal x).advance :=
  b.dispatch_single (o := .storeDecimal) x Cpu.storeDecimal rfl nofun fun _ _ => rfl

theorem dispatch_draw (y n : Nibble) : (b.dispatch (Nibble.join 0xD x y n)).2 = .done ∧
    (b.dispatch (Nibble.join 0xD x y n)).1.cpu = (b.cpu.draw x y n).advance := by
  have hm : Opcode.draw.Matches (Nibble.join 0xD x y n) :=
    (Opcode.matches_join_iff ..).2 ⟨rfl, trivial, trivial, trivial⟩
  refine b.dispatch_of_become (·.draw x y n) (Instruction.decode?_of_matches hm) nofun fun b => ?_
  simp only [execute, Instruction.x_join, Instruction.y_join, Instruction.n_join]

def cell (k : Nat) : UInt8 := b.cpu.memory.cell (b.cpu.i.toNat + k)

theorem v_load {k : Nibble} (h : k ≤ x) :
    (b.dispatch (Nibble.join 0xF x 6 5)).1.cpu.v[k] = b.cell k.val := by
  rw [(b.dispatch_load x).2]
  exact (b.cpu.v_loadRegisters x k).trans (if_pos h)

theorem cell_store {k : Nibble} (h : k ≤ x) :
    (b.dispatch (Nibble.join 0xF x 5 5)).1.cell k.val = b.cpu.v[k] := by
  rw [cell, (b.dispatch_store x).2]
  exact b.cpu.cell_storeRegisters x h

theorem memory_store_load :
    ((b.dispatch (Nibble.join 0xF x 6 5)).1.dispatch (Nibble.join 0xF x 5 5)).1.cpu.memory =
      b.cpu.memory := by
  rw [(dispatch_store _ x).2, (b.dispatch_load x).2, Cpu.storeRegisters_advance,
    Cpu.memory_advance, Cpu.memory_advance, Cpu.storeRegisters_loadRegisters]

theorem cell_decimal {k : Nat} (h : k < 3) :
    (b.dispatch (Nibble.join 0xF x 3 3)).1.cell k =
      [b.cpu.v[x] / 100, b.cpu.v[x] / 10 % 10, b.cpu.v[x] % 10][k] := by
  rw [cell, (b.dispatch_decimal x).2]
  exact b.cpu.cell_storeDecimal x h

theorem digit_le_nine {k : Nat} (h : k < 3) :
    ((b.dispatch (Nibble.join 0xF x 3 3)).1.cell k).toNat ≤ 9 := by
  rw [b.cell_decimal x h]
  obtain ⟨⟨h₀, h₁, h₂⟩, -⟩ := decimal_digits b.cpu.v[x]
  match k with
  | 0 => exact h₀
  | 1 => exact h₁
  | 2 => exact h₂

theorem digits_decimal :
    let digit (k : Nat) : Nat := ((b.dispatch (Nibble.join 0xF x 3 3)).1.cell k).toNat
    100 * digit 0 + 10 * digit 1 + digit 2 = b.cpu.v[x].toNat := by
  intro digit
  simp only [digit, b.cell_decimal x (by decide : 0 < 3), b.cell_decimal x (by decide : 1 < 3),
    b.cell_decimal x (by decide : 2 < 3)]
  exact (decimal_digits b.cpu.v[x]).2

theorem sprite_eq_cells (n : Nibble) : b.cpu.sprite n = (List.range n.val).map b.cell := by
  rw [Cpu.sprite, Memory.window_eq_cells]
  rfl

theorem windows_round_trip (b : Board) (x : Nibble) :
    let store (b : Board) : Board × Outcome := b.dispatch (Nibble.join 0xF x 5 5)
    let load (x : Nibble) (b : Board) : Board × Outcome := b.dispatch (Nibble.join 0xF x 6 5)
    let decimal (b : Board) : Board × Outcome := b.dispatch (Nibble.join 0xF x 3 3)
    let digit (k : Nat) : Nat := ((decimal b).1.cell k).toNat
    ((store b).2 = .done ∧ (store b).1.cpu.i = b.cpu.i ∧
        ∀ c : Board, (load x (c.sharing (store b).1)).2 = .done ∧
          ∀ k ≤ x, (load x (c.sharing (store b).1)).1.cpu.v[k] = b.cpu.v[k]) ∧
      ((load x b).2 = .done ∧ (store (load x b).1).2 = .done ∧
        (store (load x b).1).1.cpu.memory = b.cpu.memory) ∧
      ((decimal b).2 = .done ∧ (decimal b).1.cpu.i = b.cpu.i ∧ (∀ k, k < 3 → digit k ≤ 9) ∧
        100 * digit 0 + 10 * digit 1 + digit 2 = b.cpu.v[x].toNat ∧
        ∀ c : Board, (load 2 (c.sharing (decimal b).1)).2 = .done ∧
          ∀ k : Nibble, k ≤ 2 →
            (load 2 (c.sharing (decimal b).1)).1.cpu.v[k] = (decimal b).1.cell k.val) ∧
      ∀ y n : Nibble,
        let sprite : List UInt8 := (List.range n.val).map b.cell
        let drawing : Framebuffer × Bool :=
          b.cpu.framebuffer.draw b.cpu.v[x] b.cpu.v[y] sprite b.cpu.clip
        let drawn : Board × Outcome := b.dispatch (Nibble.join 0xD x y n)
        drawn.2 = .done ∧ b.cpu.memory.span b.cpu.i (b.cpu.i + UInt16.ofNat n.val) = sprite ∧
          drawn.1.cpu.framebuffer = drawing.1 ∧
          drawn.1.cpu.v[Cpu.flag] = if drawing.2 then 1 else 0 := by
  intro store load decimal digit
  refine ⟨⟨?_, ?_, fun c => ⟨?_, fun k hk => ?_⟩⟩, ⟨?_, ?_, ?_⟩,
    ⟨?_, ?_, ?_, ?_, fun c => ⟨?_, fun k hk => ?_⟩⟩, fun y n => ?_⟩
  · exact (b.dispatch_store x).1
  · rw [(b.dispatch_store x).2]
    rfl
  · exact (dispatch_load _ x).1
  · exact (v_load _ x hk).trans (b.cell_store x hk)
  · exact (b.dispatch_load x).1
  · exact (dispatch_store _ x).1
  · exact b.memory_store_load x
  · exact (b.dispatch_decimal x).1
  · rw [(b.dispatch_decimal x).2]
    rfl
  · exact fun k hk => b.digit_le_nine x hk
  · exact b.digits_decimal x
  · exact (dispatch_load _ 2).1
  · exact v_load _ 2 hk
  · intro sprite drawing drawn
    obtain ⟨hd, hcpu⟩ := b.dispatch_draw x y n
    have hsprite : b.cpu.sprite n = sprite := b.sprite_eq_cells n
    have hdrawing : b.cpu.framebuffer.draw b.cpu.v[x] b.cpu.v[y] (b.cpu.sprite n) b.cpu.clip =
        drawing := by rw [hsprite]
    refine ⟨hd, (b.cpu.sprite_eq_span n).trans hsprite, ?_, ?_⟩
    · rw [hcpu, ← hdrawing]
      rfl
    · rw [hcpu, ← hdrawing]
      exact b.cpu.v_flag_draw x y n

def overBothEnds : Board := ⟨{ i := 0xFFFE, v := Vector.replicate 16 254 }, {}⟩

theorem windows_round_trip_over_both_ends :
    let b : Board := overBothEnds
    let stored : Board := (b.dispatch (Nibble.join 0xF 3 5 5)).1
    let decimal : Board := (b.dispatch (Nibble.join 0xF 3 3 3)).1
    let c : Board := ⟨{}, {}⟩
    (3 : Nibble) ≤ 3 ∧ (stored.cpu.memory.cell 0xFFF = 254 ∧ stored.cpu.memory.cell 0 = 254) ∧
      ((c.sharing stored).dispatch (Nibble.join 0xF 3 6 5)).1.cpu.v[(3 : Nibble)] = 254 ∧
      2 < 3 ∧ (decimal.cell 0 = 2 ∧ decimal.cell 1 = 5 ∧ decimal.cell 2 = 4) ∧
      (decimal.cell 2).toNat ≤ 9 ∧ (2 : Nibble) ≤ 2 ∧
      ((c.sharing decimal).dispatch (Nibble.join 0xF 2 6 5)).1.cpu.v[(2 : Nibble)] = 4 := by
  intro b stored decimal c
  obtain ⟨⟨-, -, hstored⟩, -, ⟨-, -, hdigits, -, hdecimal⟩, -⟩ := windows_round_trip b 3
  have hcells : stored.cpu.memory.cell 0xFFF = 254 ∧ stored.cpu.memory.cell 0 = 254 := by
    decide +kernel
  have hcells' : decimal.cell 0 = 2 ∧ decimal.cell 1 = 5 ∧ decimal.cell 2 = 4 := by
    decide +kernel
  have hv : b.cpu.v[(3 : Nibble)] = 254 := by decide +kernel
  have hloaded := (hstored c).2 3 (by decide)
  have hloaded' := (hdecimal c).2 2 (by decide)
  exact ⟨by decide, hcells, hloaded.trans hv, by decide, hcells', hdigits 2 (by decide), by decide,
    hloaded'.trans hcells'.2.2⟩

end Board

end Chip8
