import Chip8.Proofs.Cpu.Effect
import Chip8.Proofs.Instruction.Encoding

namespace Chip8

namespace Cpu

section Byte

variable (a b : UInt8)

theorem carry_add_toNat :
    256 * (decide (256 ≤ a.toNat + b.toNat)).toNat + (a + b).toNat = a.toNat + b.toNat := by
  have ha := a.toNat_lt
  have hb := b.toNat_lt
  rw [UInt8.toNat_add]
  by_cases h : 256 ≤ a.toNat + b.toNat
  · rw [decide_eq_true h, Bool.toNat_true]
    omega
  · rw [decide_eq_false h, Bool.toNat_false]
    omega

theorem toNat_sub_borrow :
    (a - b).toNat + b.toNat = a.toNat + 256 * (1 - (decide (b ≤ a)).toNat) := by
  have ha := a.toNat_lt
  have hb := b.toNat_lt
  rw [UInt8.toNat_sub]
  by_cases h : b ≤ a
  · have hle := UInt8.le_iff_toNat_le.1 h
    rw [decide_eq_true h, Bool.toNat_true]
    omega
  · have hlt := mt UInt8.le_iff_toNat_le.2 h
    rw [decide_eq_false h, Bool.toNat_false]
    omega

theorem toNat_shiftRight_one : (a >>> 1).toNat = a.toNat / 2 := by
  rw [UInt8.toNat_shiftRight, Nat.shiftRight_eq_div_pow]
  rfl

theorem toNat_shiftRight_seven : (a >>> 7).toNat = a.toNat / 128 := by
  rw [UInt8.toNat_shiftRight, Nat.shiftRight_eq_div_pow]
  rfl

theorem toNat_shiftLeft_one : (a <<< 1).toNat = 2 * a.toNat % 256 := by
  rw [UInt8.toNat_shiftLeft, Nat.shiftLeft_eq, Nat.mul_comm]
  rfl

theorem toNat_land_one : (a &&& 1).toNat = a.toNat % 2 := by
  rw [UInt8.toNat_and]
  exact Nat.and_one_is_mod a.toNat

end Byte

variable (c : Cpu) (x : Nibble)

theorem v_setFlagged_self (flagged : Bool) (b : UInt8) : (c.setFlagged x flagged b).v[x] = b := by
  rw [setFlagged, v_set, if_pos rfl]

variable {x} in
theorem toNat_setFlagged_flag (h : x ≠ flag) (flagged : Bool) (b : UInt8) :
    (c.setFlagged x flagged b).v[flag].toNat = flagged.toNat := by
  rw [setFlagged, v_set, if_neg h, v_set, if_pos rfl]
  cases flagged <;> rfl

theorem v_set_after_flag (bit rest : UInt8 → UInt8) :
    let c' : Cpu := c.set flag (bit c.v[x])
    let v' : Registers := (c'.set x (rest c'.v[x])).v
    v'[x] = rest (if x = flag then bit c.v[x] else c.v[x]) ∧ (x ≠ flag → v'[flag] = bit c.v[x]) := by
  intro c' v'
  constructor
  · rw [v_set, if_pos rfl, v_set]
    simp only [eq_comm]
  · intro h
    rw [v_set, if_neg h, v_set, if_pos rfl]

theorem shiftRight_exact_iff :
    let v : Registers := c.v
    let v' : Registers := (c.shiftRight x).v
    (v'[x].toNat = v[x].toNat / 2 ↔ x ≠ flag ∨ v[x].toNat < 2) ∧
      (x = flag → v'[x].toNat = 0) ∧
      (x ≠ flag → v'[flag].toNat = v[x].toNat % 2 ∧
        2 * v'[x].toNat + v'[flag].toNat = v[x].toNat) := by
  intro v v'
  obtain ⟨hself, hflag⟩ := v_set_after_flag c x (· &&& 1) (· >>> 1)
  change v'[x] = _ at hself
  change _ → v'[flag] = _ at hflag
  by_cases h : x = flag
  · have hx : v'[x].toNat = v[x].toNat % 2 / 2 := by
      rw [hself, if_pos h, toNat_shiftRight_one, toNat_land_one]
    refine ⟨?_, fun _ => by omega, fun hne => absurd h hne⟩
    rw [hx, or_iff_right (not_not_intro h)]
    omega
  · have hx : v'[x].toNat = v[x].toNat / 2 := by rw [hself, if_neg h, toNat_shiftRight_one]
    have hf : v'[flag].toNat = v[x].toNat % 2 := by rw [hflag h, toNat_land_one]
    exact ⟨iff_of_true hx (.inl h), fun he => absurd he h, fun _ => ⟨hf, by omega⟩⟩

theorem shiftLeft_exact_iff :
    let v : Registers := c.v
    let v' : Registers := (c.shiftLeft x).v
    (v'[x].toNat = 2 * v[x].toNat % 256 ↔ x ≠ flag ∨ v[x].toNat = 0 ∨ v[x].toNat = 129) ∧
      (x = flag → v'[x].toNat = 2 * (v[x].toNat / 128)) ∧
      (x ≠ flag → v'[flag].toNat = v[x].toNat / 128 ∧
        256 * v'[flag].toNat + v'[x].toNat = 2 * v[x].toNat) := by
  intro v v'
  have hlt := v[x].toNat_lt
  obtain ⟨hself, hflag⟩ := v_set_after_flag c x (· >>> 7) (· <<< 1)
  change v'[x] = _ at hself
  change _ → v'[flag] = _ at hflag
  by_cases h : x = flag
  · have hx : v'[x].toNat = 2 * (v[x].toNat / 128) % 256 := by
      rw [hself, if_pos h, toNat_shiftLeft_one, toNat_shiftRight_seven]
    refine ⟨?_, fun _ => by omega, fun hne => absurd h hne⟩
    rw [hx, or_iff_right (not_not_intro h)]
    obtain hbit | hbit : v[x].toNat / 128 = 0 ∨ v[x].toNat / 128 = 1 := by omega
    · rw [hbit]
      omega
    · rw [hbit]
      omega
  · have hx : v'[x].toNat = 2 * v[x].toNat % 256 := by rw [hself, if_neg h, toNat_shiftLeft_one]
    have hf : v'[flag].toNat = v[x].toNat / 128 := by rw [hflag h, toNat_shiftRight_seven]
    exact ⟨iff_of_true hx (.inl h), fun he => absurd he h, fun _ => ⟨hf, by omega⟩⟩

end Cpu

namespace Board

theorem step_of_join {b : Board} {x y d : Nibble} {o : Opcode} (f : Cpu → Nibble → Nibble → Cpu)
    (h : b.cpu.memory.word b.cpu.pc = Nibble.join 8 x y d)
    (ho : o.pattern = ⟨.digit 8, .operand .x, .operand .y, .digit d⟩)
    (hf : ∀ (b : Board) (w : UInt16), b.execute ⟨o, w⟩ =
      ({ b with cpu := f b.cpu (Instruction.x ⟨o, w⟩) (Instruction.y ⟨o, w⟩) }, .done)) :
    b.step.2 = .done ∧ b.step.1.cpu.v = (f b.cpu x y).v := by
  have hk : o ≠ .awaitKey := by
    rintro rfl
    have height : Opcode.awaitKey.pattern.first = .digit 8 := congrArg Pattern.first ho
    exact absurd height (by decide)
  have hi := Instruction.decode?_of_matches (Opcode.matches_pair ho x y)
  obtain ⟨hd, hcpu⟩ := b.dispatch_of_become (fun c => f c x y) hi hk fun b => by
    rw [hf, Instruction.x_join, Instruction.y_join]
  rw [step_eq_dispatch, h, hcpu]
  exact ⟨hd, rfl⟩

theorem step_of_flagged {b : Board} {x y d : Nibble} {o : Opcode} (p : UInt8 → UInt8 → Bool)
    (r : UInt8 → UInt8 → UInt8) (h : b.cpu.memory.word b.cpu.pc = Nibble.join 8 x y d)
    (ho : o.pattern = ⟨.digit 8, .operand .x, .operand .y, .digit d⟩)
    (hf : ∀ (b : Board) (w : UInt16), let ins : Instruction := ⟨o, w⟩
      let vx := b.cpu.v[ins.x]
      let vy := b.cpu.v[ins.y]
      b.execute ins = ({ b with cpu := b.cpu.setFlagged ins.x (p vx vy) (r vx vy) }, .done)) :
    b.step.2 = .done ∧ b.step.1.cpu.v[x] = r b.cpu.v[x] b.cpu.v[y] ∧
      (x ≠ Cpu.flag →
        b.step.1.cpu.v[Cpu.flag].toNat = (p b.cpu.v[x] b.cpu.v[y]).toNat) := by
  obtain ⟨hd, hv⟩ :=
    step_of_join (fun c x y => c.setFlagged x (p c.v[x] c.v[y]) (r c.v[x] c.v[y])) h ho hf
  rw [hv]
  exact ⟨hd, Cpu.v_setFlagged_self .., fun hx => Cpu.toNat_setFlagged_flag _ hx _ _⟩

def poised (high low : UInt8) (x : Nibble) (vx : UInt8) (y : Nibble) (vy : UInt8) : Board :=
  let c : Cpu := { memory := Memory.blank.store 0x0200 [high, low] }
  ⟨(c.set y vy).set x vx, {}⟩

theorem sums_and_differences_are_exact (b : Board) (x y : Nibble) :
    let word : UInt16 := b.cpu.memory.word b.cpu.pc
    let v : Registers := b.cpu.v
    let v' : Registers := b.step.1.cpu.v
    (word = Nibble.join 8 x y 4 → b.step.2 = .done ∧ v'[x] = v[x] + v[y] ∧
        (x ≠ Cpu.flag → v'[Cpu.flag].toNat ≤ 1 ∧
          256 * v'[Cpu.flag].toNat + v'[x].toNat = v[x].toNat + v[y].toNat)) ∧
      (word = Nibble.join 8 x y 5 → b.step.2 = .done ∧ v'[x] = v[x] - v[y] ∧
        (x ≠ Cpu.flag → v'[Cpu.flag].toNat ≤ 1 ∧
          v'[x].toNat + v[y].toNat = v[x].toNat + 256 * (1 - v'[Cpu.flag].toNat))) ∧
      (word = Nibble.join 8 x y 7 → b.step.2 = .done ∧ v'[x] = v[y] - v[x] ∧
        (x ≠ Cpu.flag → v'[Cpu.flag].toNat ≤ 1 ∧
          v'[x].toNat + v[x].toNat = v[y].toNat + 256 * (1 - v'[Cpu.flag].toNat))) := by
  refine ⟨fun h => ?_, fun h => ?_, fun h => ?_⟩
  · obtain ⟨hd, hx, hflag⟩ :=
      step_of_flagged (o := .add) (256 ≤ ·.toNat + ·.toNat) (· + ·) h rfl fun _ _ => rfl
    refine ⟨hd, hx, fun hne => ?_⟩
    rw [hflag hne, hx]
    exact ⟨Bool.toNat_le _, Cpu.carry_add_toNat ..⟩
  · obtain ⟨hd, hx, hflag⟩ :=
      step_of_flagged (o := .sub) (fun vx vy => vy ≤ vx) (· - ·) h rfl fun _ _ => rfl
    refine ⟨hd, hx, fun hne => ?_⟩
    rw [hflag hne, hx]
    exact ⟨Bool.toNat_le _, Cpu.toNat_sub_borrow ..⟩
  · obtain ⟨hd, hx, hflag⟩ :=
      step_of_flagged (o := .subFrom) (· ≤ ·) (fun vx vy => vy - vx) h rfl fun _ _ => rfl
    refine ⟨hd, hx, fun hne => ?_⟩
    rw [hflag hne, hx]
    exact ⟨Bool.toNat_le _, Cpu.toNat_sub_borrow ..⟩

theorem sums_and_differences_of_aliases_are_exact :
    let sum : Board := poised 0x8F 0xF4 0xF 200 0xF 200
    let difference : Board := poised 0x81 0xF5 1 5 0xF 7
    let reverse : Board := poised 0x83 0x37 3 9 3 9
    (sum.step.2 = .done ∧ sum.step.1.cpu.v[Cpu.flag] = 144) ∧
      (difference.step.2 = .done ∧ difference.step.1.cpu.v[(1 : Nibble)] = 254 ∧
        difference.step.1.cpu.v[(1 : Nibble)].toNat + 7 =
          5 + 256 * (1 - difference.step.1.cpu.v[Cpu.flag].toNat)) ∧
      (reverse.step.2 = .done ∧ reverse.step.1.cpu.v[(3 : Nibble)] = 0 ∧
        reverse.step.1.cpu.v[(3 : Nibble)].toNat + 9 =
          9 + 256 * (1 - reverse.step.1.cpu.v[Cpu.flag].toNat)) := by
  intro sum difference reverse
  have hsum : sum.cpu.memory.word sum.cpu.pc = Nibble.join 8 0xF 0xF 4 ∧
      sum.cpu.v[(0xF : Nibble)] = 200 := by decide +kernel
  have hdiff : difference.cpu.memory.word difference.cpu.pc = Nibble.join 8 1 0xF 5 ∧
      difference.cpu.v[(1 : Nibble)] = 5 ∧ difference.cpu.v[(0xF : Nibble)] = 7 := by
    decide +kernel
  have hrev : reverse.cpu.memory.word reverse.cpu.pc = Nibble.join 8 3 3 7 ∧
      reverse.cpu.v[(3 : Nibble)] = 9 := by decide +kernel
  obtain ⟨hdone₁, hx₁, -⟩ := (sums_and_differences_are_exact sum 0xF 0xF).1 hsum.1
  obtain ⟨hdone₂, hx₂, hwide₂⟩ := (sums_and_differences_are_exact difference 1 0xF).2.1 hdiff.1
  obtain ⟨hdone₃, hx₃, hwide₃⟩ := (sums_and_differences_are_exact reverse 3 3).2.2 hrev.1
  rw [hsum.2] at hx₁
  rw [hdiff.2.1, hdiff.2.2] at hx₂ hwide₂
  rw [hrev.2] at hx₃ hwide₃
  exact ⟨⟨hdone₁, hx₁⟩, ⟨hdone₂, hx₂, (hwide₂ (by decide)).2⟩, hdone₃, hx₃,
    (hwide₃ (by decide)).2⟩

theorem shifts_are_exact_iff (b : Board) (x y : Nibble) :
    let word : UInt16 := b.cpu.memory.word b.cpu.pc
    let v : Registers := b.cpu.v
    let v' : Registers := b.step.1.cpu.v
    (word = Nibble.join 8 x y 6 → b.step.2 = .done ∧
        (v'[x].toNat = v[x].toNat / 2 ↔ x ≠ Cpu.flag ∨ v[x].toNat < 2) ∧
        (x = Cpu.flag → v'[x].toNat = 0) ∧
        (x ≠ Cpu.flag → v'[Cpu.flag].toNat = v[x].toNat % 2 ∧
          2 * v'[x].toNat + v'[Cpu.flag].toNat = v[x].toNat)) ∧
      (word = Nibble.join 8 x y 0xE → b.step.2 = .done ∧
        (v'[x].toNat = 2 * v[x].toNat % 256 ↔
          x ≠ Cpu.flag ∨ v[x].toNat = 0 ∨ v[x].toNat = 129) ∧
        (x = Cpu.flag → v'[x].toNat = 2 * (v[x].toNat / 128)) ∧
        (x ≠ Cpu.flag → v'[Cpu.flag].toNat = v[x].toNat / 128 ∧
          256 * v'[Cpu.flag].toNat + v'[x].toNat = 2 * v[x].toNat)) := by
  refine ⟨fun h => ?_, fun h => ?_⟩
  · obtain ⟨hd, hv⟩ :=
      step_of_join (o := .shiftRight) (fun c x _ => c.shiftRight x) h rfl fun _ _ => rfl
    rw [hv]
    exact ⟨hd, Cpu.shiftRight_exact_iff b.cpu x⟩
  · obtain ⟨hd, hv⟩ :=
      step_of_join (o := .shiftLeft) (fun c x _ => c.shiftLeft x) h rfl fun _ _ => rfl
    rw [hv]
    exact ⟨hd, Cpu.shiftLeft_exact_iff b.cpu x⟩

theorem shifts_of_lone_bit_are_exact :
    let lone : Board := poised 0x8F 0x06 0xF 1 0 0
    let other : Board := poised 0x81 0x2E 1 0x81 2 0xFF
    (lone.step.2 = .done ∧ lone.step.1.cpu.v[Cpu.flag].toNat = 0) ∧
      (other.step.2 = .done ∧
        256 * other.step.1.cpu.v[Cpu.flag].toNat + other.step.1.cpu.v[(1 : Nibble)].toNat =
          258) := by
  intro lone other
  have hlone : lone.cpu.memory.word lone.cpu.pc = Nibble.join 8 0xF 0 6 := by decide +kernel
  have hother : other.cpu.memory.word other.cpu.pc = Nibble.join 8 1 2 0xE ∧
      other.cpu.v[(1 : Nibble)] = 0x81 := by decide +kernel
  obtain ⟨hdone₁, -, hx, -⟩ := (shifts_are_exact_iff lone 0xF 0).1 hlone
  obtain ⟨hdone₂, -, -, hwide⟩ := (shifts_are_exact_iff other 1 2).2 hother.1
  rw [hother.2] at hwide
  exact ⟨⟨hdone₁, hx rfl⟩, hdone₂, (hwide (by decide)).2⟩

theorem shift_of_flag_loses_both :
    let b : Board := poised 0x8F 0x06 0xF 3 0 0
    b.cpu.memory.word b.cpu.pc = Nibble.join 8 0xF 0 6 ∧ b.step.2 = .done ∧
      b.cpu.v[Cpu.flag].toNat / 2 = 1 ∧ b.cpu.v[Cpu.flag].toNat % 2 = 1 ∧
      b.step.1.cpu.v[Cpu.flag].toNat = 0 := by
  decide +kernel

end Board

end Chip8
