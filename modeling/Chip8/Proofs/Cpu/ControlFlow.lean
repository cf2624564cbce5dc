import Chip8.Proofs.Cpu.Block
import Chip8.Proofs.Instruction.Encoding
import Chip8.Proofs.Memory.Window

namespace Chip8

def Keypad.Holds (k : Keypad) (key : UInt8) : Prop :=
  ∃ n : Nibble, n.val = key.toNat ∧ k.held[n] = true

theorem Keypad.not_holds_of_le (k : Keypad) {key : UInt8} (h : 16 ≤ key.toNat) :
    ¬ k.Holds key := by
  rintro ⟨n, hn, -⟩
  have hlt := n.lt
  omega

theorem Keypad.isPressed_iff (k : Keypad) (key : UInt8) :
    k.isPressed key = true ↔ k.Holds key := by
  by_cases h : key.toNat < 16
  · rw [isPressed_of_lt k h]
    constructor
    · intro hk
      exact ⟨⟨key.toNat, h⟩, rfl, hk⟩
    · rintro ⟨n, hn, hk⟩
      obtain rfl : n = ⟨key.toNat, h⟩ := Fin.ext hn
      exact hk
  · have hle := Nat.not_lt.1 h
    rw [isPressed_of_le k hle]
    exact iff_of_false Bool.false_ne_true (k.not_holds_of_le hle)

namespace Opcode

def isSkip : Opcode → Bool
  | skipEqualByte | skipUnequalByte | skipEqual | skipUnequal | skipPressed | skipReleased => true
  | _ => false

end Opcode

namespace Board

def skips (b : Board) (ins : Instruction) : Bool :=
  let vx := b.cpu.v[ins.x]
  let vy := b.cpu.v[ins.y]
  match ins.opcode with
  | .skipEqualByte => vx = ins.kk
  | .skipUnequalByte => vx ≠ ins.kk
  | .skipEqual => vx = vy
  | .skipUnequal => vx ≠ vy
  | .skipPressed => b.devices.keypad.isPressed vx
  | .skipReleased => !b.devices.keypad.isPressed vx
  | _ => false

def target (b : Board) (ins : Instruction) : UInt16 :=
  match ins.opcode with
  | .jump | .call => ins.nnn.toWord
  | .jumpOffset => ins.nnn.toWord + b.cpu.v[(0 : Nibble)].toUInt16
  | .ret => b.cpu.stack[(Fin.ofNat 16 b.cpu.sp.toNat : Nibble)] + 2
  | _ => if b.skips ins then b.cpu.pc + 4 else b.cpu.pc + 2

variable {b b' : Board} {ins : Instruction} {word : UInt16}

theorem pc_skipIf (c : Cpu) (p : Bool) :
    (c.skipIf p).pc + 2 = if p then c.pc + 4 else c.pc + 2 := by
  cases p with
  | false => rfl
  | true => exact UInt16.add_assoc c.pc 2 2

theorem pc_execute (h : (b.execute ins).2 = .done) :
    (b.execute ins).1.cpu.pc + 2 = b.target ins := by
  cases ho : ins.opcode
  case ret =>
    rw [execute_ret ho] at h ⊢
    split at h
    case isFalse => cases h
    case isTrue hlt =>
      have htop : (Fin.ofNat 16 b.cpu.sp.toNat : Nibble) = ⟨b.cpu.sp.toNat, hlt⟩ :=
        Fin.ext (Nat.mod_eq_of_lt hlt)
      simp only [dif_pos hlt, target, ho, htop]
      rfl
  case call =>
    rw [execute_call ho] at h ⊢
    split at h
    case isFalse => cases h
    case isTrue hlt =>
      simp only [dif_pos hlt, target, ho]
      exact UInt16.sub_add_cancel ..
  case awaitKey =>
    simp only [execute, ho, awaitKey_eq] at h
    split at h <;> cases h
  all_goals simp only [execute, ho, target, skips]
  case jump | jumpOffset => exact UInt16.sub_add_cancel ..
  case skipEqualByte | skipUnequalByte | skipEqual | skipUnequal => exact pc_skipIf ..
  case skipPressed => exact (pc_skipIf ..).trans (by rw [beq_true])
  case skipReleased => exact (pc_skipIf ..).trans (by rw [beq_false])
  all_goals rfl

theorem pc_dispatch (h : Instruction.decode? word = some ins) (ho : ins.opcode ≠ .awaitKey)
    (hd : (b.dispatch word).2 = .done) : (b.dispatch word).1.cpu.pc = b.target ins := by
  rw [b.dispatch_of_ne_awaitKey h ho] at hd ⊢
  rw [finish_snd] at hd
  rw [finish_fst_cpu, if_pos hd]
  exact pc_execute hd

theorem step_awaitKey_ne_done (h : b.cpu.instruction? = some ins) (ho : ins.opcode = .awaitKey) :
    b.step.2 ≠ .done := by
  cases hp : b.push.2 with
  | some c =>
    rw [step_awaitKey_crash h ho hp]
    exact nofun
  | none =>
    rw [step_awaitKey h ho hp, awaitKey_eq]
    split <;> exact nofun

theorem pc_of_whole (h : b.Whole b') (hi : b.cpu.instruction? = some ins) :
    b'.cpu.pc = b.target ins := by
  cases h with
  | done hb =>
    have hk : ins.opcode ≠ .awaitKey := fun ho => step_awaitKey_ne_done hi ho (by rw [hb])
    have hd : (b.dispatch (b.cpu.memory.word b.cpu.pc)).2 = .done := by
      rw [← step_eq_dispatch, hb]
    have hpc := pc_dispatch hi hk hd
    rwa [← step_eq_dispatch, hb] at hpc
  | waited hs hb hr =>
    obtain ⟨ins', key, hi', ho, -, hcpu⟩ := key_of_waited hb hr
    obtain rfl : ins = ins' := Option.some.inj (hi.symm.trans hi')
    rw [hcpu]
    simp only [target, skips, ho]
    rfl

theorem pc_of_whole_of_data (h : b.Whole b') (hi : b.cpu.instruction? = none) :
    b'.cpu.pc = b.cpu.pc + 2 := by
  cases h with
  | done hb =>
    rw [step_of_data hi] at hb
    cases hb
    rfl
  | waited hs hb hr =>
    rw [step_of_data hi] at hb
    cases hb

inductive Skips (b : Board) : UInt16 → Prop
  | equalByte {x p q : Nibble} :
      b.cpu.v[x].toNat = p.val * 16 + q.val → b.Skips (Nibble.join 3 x p q)
  | unequalByte {x p q : Nibble} :
      b.cpu.v[x].toNat ≠ p.val * 16 + q.val → b.Skips (Nibble.join 4 x p q)
  | equal {x y : Nibble} : b.cpu.v[x] = b.cpu.v[y] → b.Skips (Nibble.join 5 x y 0)
  | unequal {x y : Nibble} : b.cpu.v[x] ≠ b.cpu.v[y] → b.Skips (Nibble.join 9 x y 0)
  | pressed {x : Nibble} :
      b.devices.keypad.Holds b.cpu.v[x] → b.Skips (Nibble.join 0xE x 9 0xE)
  | released {x : Nibble} :
      ¬ b.devices.keypad.Holds b.cpu.v[x] → b.Skips (Nibble.join 0xE x 0xA 1)

structure Lands (b : Board) (word pc : UInt16) : Prop where
  jump : ∀ p q r, word = Nibble.join 1 p q r → pc = Nibble.join 0 p q r
  call : ∀ p q r, word = Nibble.join 2 p q r → pc = Nibble.join 0 p q r
  jumpOffset : ∀ p q r, word = Nibble.join 0xB p q r →
    pc.toNat = (Nibble.join 0 p q r).toNat + b.cpu.v[(0 : Nibble)].toNat
  ret : word = Nibble.join 0 0 0xE 0xE →
    ∃ k : Nibble, k.val = b.cpu.sp.toNat ∧ pc = b.cpu.stack[k] + 2
  skip : b.Skips word → pc = b.cpu.pc + 4
  next : word.toNat / 4096 ∉ [1, 2, 0xB] → word ≠ Nibble.join 0 0 0xE 0xE → ¬ b.Skips word →
    pc = b.cpu.pc + 2

theorem eq_kk_iff (o : Opcode) (v : UInt8) (a b c d : Nibble) :
    v = Instruction.kk ⟨o, Nibble.join a b c d⟩ ↔ v.toNat = c.val * 16 + d.val := by
  rw [← UInt8.toNat_inj, Instruction.toNat_kk_join]

theorem skips_of_condition {o : Opcode} (h : o.Matches word) (hs : b.skips ⟨o, word⟩ = true) :
    b.Skips word := by
  obtain ⟨p, q, r, s, rfl⟩ := Nibble.exists_join word
  rw [Opcode.matches_join_iff] at h
  cases o <;> simp only [skips, Bool.false_eq_true, decide_eq_true_eq, Bool.not_eq_true', ←
    Bool.not_eq_true, Keypad.isPressed_iff, Instruction.x_join, Instruction.y_join, eq_kk_iff,
    ne_eq] at hs
  all_goals obtain ⟨rfl, h₂, h₃, h₄⟩ := h
  case skipEqualByte => exact .equalByte hs
  case skipUnequalByte => exact .unequalByte hs
  case skipEqual =>
    obtain rfl : s = 0 := h₄
    exact .equal hs
  case skipUnequal =>
    obtain rfl : s = 0 := h₄
    exact .unequal hs
  case skipPressed =>
    obtain rfl : r = 9 := h₃
    obtain rfl : s = 0xE := h₄
    exact .pressed hs
  case skipReleased =>
    obtain rfl : r = 0xA := h₃
    obtain rfl : s = 1 := h₄
    exact .released hs

theorem Skips.exists_opcode (h : b.Skips word) :
    ∃ o : Opcode, o.Matches word ∧ o.isSkip = true ∧ b.skips ⟨o, word⟩ = true := by
  cases h with
  | equalByte h =>
    refine ⟨.skipEqualByte, Opcode.matches_byte rfl .., rfl, ?_⟩
    simpa only [skips, decide_eq_true_eq, Instruction.x_join, eq_kk_iff] using h
  | unequalByte h =>
    refine ⟨.skipUnequalByte, Opcode.matches_byte rfl .., rfl, ?_⟩
    simpa only [skips, decide_eq_true_eq, Instruction.x_join, eq_kk_iff, ne_eq] using h
  | equal h =>
    refine ⟨.skipEqual, Opcode.matches_pair rfl .., rfl, ?_⟩
    simpa only [skips, decide_eq_true_eq, Instruction.x_join, Instruction.y_join] using h
  | unequal h =>
    refine ⟨.skipUnequal, Opcode.matches_pair rfl .., rfl, ?_⟩
    simpa only [skips, decide_eq_true_eq, Instruction.x_join, Instruction.y_join] using h
  | pressed h =>
    refine ⟨.skipPressed, Opcode.matches_single rfl .., rfl, ?_⟩
    simpa only [skips, Keypad.isPressed_iff, Instruction.x_join] using h
  | released h =>
    refine ⟨.skipReleased, Opcode.matches_single rfl .., rfl, ?_⟩
    simpa only [skips, Bool.not_eq_true', ← Bool.not_eq_true, Keypad.isPressed_iff,
      Instruction.x_join] using h

theorem target_of_isSkip {o : Opcode} (ho : o.isSkip = true) (word : UInt16) :
    b.target ⟨o, word⟩ = if b.skips ⟨o, word⟩ then b.cpu.pc + 4 else b.cpu.pc + 2 := by
  cases o
  case skipEqualByte | skipUnequalByte | skipEqual | skipUnequal | skipPressed | skipReleased => rfl
  all_goals cases ho

theorem toWord_nnn_join (o : Opcode) (a b c d : Nibble) :
    (Instruction.nnn ⟨o, Nibble.join a b c d⟩).toWord = Nibble.join 0 b c d := by
  rw [← UInt16.toNat_inj, Address.toNat_toWord, Instruction.val_nnn_join, Nibble.toNat_join]
  simp

theorem sp_lt_of_whole (h : b.Whole b') (ho : b.cpu.opcode? = some .ret) :
    b.cpu.sp.toNat < 16 := by
  by_contra hge
  obtain ⟨ins, hstep⟩ := step_ret_overflow ho hge
  cases h with
  | done hb => cases hstep.symm.trans hb
  | waited hs hb hr => cases hstep.symm.trans hb

theorem target_of_next {o : Opcode} (h : o.Matches word)
    (hbranch : word.toNat / 4096 ∉ [1, 2, 0xB]) (hret : word ≠ Nibble.join 0 0 0xE 0xE)
    (hskip : ¬ b.Skips word) : b.target ⟨o, word⟩ = b.cpu.pc + 2 := by
  have hs : b.skips ⟨o, word⟩ ≠ true := fun hs => hskip (skips_of_condition h hs)
  by_cases ho : o.isSkip = true
  · rw [target_of_isSkip ho, if_neg hs]
  obtain ⟨p, q, r, s, rfl⟩ := Nibble.exists_join word
  have hfirst : (Nibble.join p q r s).toNat / 4096 = p.val := by
    rw [Nibble.toNat_join]
    omega
  rw [hfirst] at hbranch
  rw [Opcode.matches_join_iff] at h
  obtain ⟨h₁, h₂, h₃, h₄⟩ := h
  cases o
  case jump | call | jumpOffset =>
    obtain rfl := h₁
    exact absurd (by decide) hbranch
  case ret =>
    obtain rfl := h₁
    obtain rfl := h₂
    obtain rfl := h₃
    obtain rfl := h₄
    exact absurd rfl hret
  case skipEqualByte | skipUnequalByte | skipEqual | skipUnequal | skipPressed | skipReleased =>
    exact absurd rfl ho
  all_goals rfl

theorem lands_of_whole (h : b.Whole b') : b.Lands (b.cpu.memory.word b.cpu.pc) b'.cpu.pc := by
  generalize hword : b.cpu.memory.word b.cpu.pc = word
  have hpc {o : Opcode} (hm : o.Matches word) : b'.cpu.pc = b.target ⟨o, word⟩ := by
    refine pc_of_whole h ?_
    rw [Cpu.instruction?, hword, Instruction.decode?_of_matches hm]
  constructor
  case jump =>
    rintro p q r rfl
    rw [hpc (o := .jump) (Opcode.matches_address rfl p q r)]
    exact toWord_nnn_join ..
  case call =>
    rintro p q r rfl
    rw [hpc (o := .call) (Opcode.matches_address rfl p q r)]
    exact toWord_nnn_join ..
  case jumpOffset =>
    rintro p q r rfl
    rw [hpc (o := .jumpOffset) (Opcode.matches_address rfl p q r)]
    have hv := b.cpu.v[(0 : Nibble)].toNat_lt
    have hnnn := Nibble.toNat_join 0 p q r
    simp only [target, toWord_nnn_join, UInt16.toNat_add, UInt8.toNat_toUInt16, hnnn]
    omega
  case ret =>
    rintro rfl
    have hm : Opcode.ret.Matches (Nibble.join 0 0 0xE 0xE) := rfl
    have ho : b.cpu.opcode? = some .ret := by
      rw [Cpu.opcode?, Cpu.instruction?, hword, Instruction.decode?_of_matches hm]
      rfl
    have hlt := sp_lt_of_whole h ho
    exact ⟨Fin.ofNat 16 b.cpu.sp.toNat, Nat.mod_eq_of_lt hlt, hpc hm⟩
  case skip =>
    intro hs
    obtain ⟨o, hm, ho, hs⟩ := hs.exists_opcode
    rw [hpc hm, target_of_isSkip ho, if_pos hs]
  case next =>
    intro hbranch hret hskip
    cases hd : Instruction.decode? word with
    | none =>
      refine pc_of_whole_of_data h ?_
      rw [Cpu.instruction?, hword, hd]
    | some ins =>
      have hm := Instruction.matches_of_decode? hd
      rw [hpc hm, target_of_next hm hbranch hret hskip]

theorem dispatch_of_isSkip {o : Opcode} (h : o.Matches word) (ho : o.isSkip = true) :
    (b.dispatch word).2 = .done ∧ (b.dispatch word).1.cpu.pc =
      if b.skips ⟨o, word⟩ then b.cpu.pc + 4 else b.cpu.pc + 2 := by
  have hi := Instruction.decode?_of_matches h
  have hk : o ≠ .awaitKey := by
    rintro rfl
    cases ho
  have hd : (b.dispatch word).2 = .done := by
    rw [b.dispatch_of_ne_awaitKey hi hk, finish_snd]
    cases o
    case skipEqualByte | skipUnequalByte | skipEqual | skipUnequal | skipPressed | skipReleased =>
      rfl
    all_goals cases ho
  exact ⟨hd, (pc_dispatch hi hk hd).trans (target_of_isSkip ho word)⟩

def OneSkips (b : Board) (w w' : UInt16) : Prop :=
  ((b.dispatch w).2 = .done ∧ (b.dispatch w').2 = .done) ∧
    ((b.dispatch w).1.cpu.pc = b.cpu.pc + 4 ∧ (b.dispatch w').1.cpu.pc = b.cpu.pc + 2 ∨
      (b.dispatch w).1.cpu.pc = b.cpu.pc + 2 ∧ (b.dispatch w').1.cpu.pc = b.cpu.pc + 4)

theorem oneSkips_of_not {o o' : Opcode} {w w' : UInt16} (h : o.Matches w) (h' : o'.Matches w')
    (ho : o.isSkip = true) (ho' : o'.isSkip = true)
    (hs : b.skips ⟨o', w'⟩ = !b.skips ⟨o, w⟩) : b.OneSkips w w' := by
  obtain ⟨hd, hpc⟩ := b.dispatch_of_isSkip h ho
  obtain ⟨hd', hpc'⟩ := b.dispatch_of_isSkip h' ho'
  rw [hs] at hpc'
  refine ⟨⟨hd, hd'⟩, ?_⟩
  cases hskip : b.skips ⟨o, w⟩ with
  | true =>
    rw [hskip] at hpc hpc'
    exact .inl ⟨hpc, hpc'⟩
  | false =>
    rw [hskip] at hpc hpc'
    exact .inr ⟨hpc, hpc'⟩

theorem control_flow_lands_exactly (b : Board) :
    let word : UInt16 := wordOf (b.cpu.memory.cell b.cpu.pc.toNat)
      (b.cpu.memory.cell (b.cpu.pc.toNat + 1))
    b.step = b.dispatch word ∧ (∀ b', b.Whole b' → b.Lands word b'.cpu.pc) ∧
      (∀ x p q, b.OneSkips (Nibble.join 3 x p q) (Nibble.join 4 x p q)) ∧
      (∀ x y, b.OneSkips (Nibble.join 5 x y 0) (Nibble.join 9 x y 0)) ∧
      (∀ x, b.OneSkips (Nibble.join 0xE x 9 0xE) (Nibble.join 0xE x 0xA 1)) ∧
      ∀ x : Nibble, 0xF < b.cpu.v[x] → b.devices.keypad.isPressed b.cpu.v[x] = false ∧
        (b.dispatch (Nibble.join 0xE x 0xA 1)).1.cpu.pc = b.cpu.pc + 4 ∧
        (b.dispatch (Nibble.join 0xE x 9 0xE)).1.cpu.pc = b.cpu.pc + 2 := by
  intro word
  have hword : b.cpu.memory.word b.cpu.pc = word := b.cpu.memory.word_eq_cells b.cpu.pc
  refine ⟨?_, fun b' h => ?_, fun x p q => ?_, fun x y => ?_, fun x => ?_, fun x hx => ?_⟩
  · rw [step_eq_dispatch, hword]
  · rw [← hword]
    exact lands_of_whole h
  · refine oneSkips_of_not (Opcode.matches_byte (o := .skipEqualByte) rfl x p q)
      (Opcode.matches_byte (o := .skipUnequalByte) rfl x p q) rfl rfl ?_
    simp only [skips, Instruction.x_join, eq_kk_iff, ne_eq, decide_not]
  · refine oneSkips_of_not (Opcode.matches_pair (o := .skipEqual) rfl x y)
      (Opcode.matches_pair (o := .skipUnequal) rfl x y) rfl rfl ?_
    simp only [skips, Instruction.x_join, Instruction.y_join, ne_eq, decide_not]
  · refine oneSkips_of_not (Opcode.matches_single (o := .skipPressed) rfl x)
      (Opcode.matches_single (o := .skipReleased) rfl x) rfl rfl ?_
    simp only [skips, Instruction.x_join]
  · have hup := b.devices.keypad.isPressed_of_le (UInt8.lt_iff_toNat_lt.1 hx)
    have hreleased : Opcode.skipReleased.Matches (Nibble.join 0xE x 0xA 1) :=
      Opcode.matches_single rfl x
    have hpressed : Opcode.skipPressed.Matches (Nibble.join 0xE x 9 0xE) :=
      Opcode.matches_single rfl x
    refine ⟨hup, ?_, ?_⟩
    · rw [(dispatch_of_isSkip hreleased rfl).2]
      simp only [skips, Instruction.x_join, hup, Bool.not_false, if_true]
    · rw [(dispatch_of_isSkip hpressed rfl).2]
      simp only [skips, Instruction.x_join, hup, Bool.false_eq_true, if_false]

def atLastAddress : Board :=
  ⟨{ memory := (Memory.blank.write 0xFFFF 0x10).write 0 0x01, pc := 0xFFFF,
     v := Vector.replicate 16 0x10 }, {}⟩

theorem control_flow_lands_exactly_at_last_address :
    wordOf (atLastAddress.cpu.memory.cell 0xFFFF) (atLastAddress.cpu.memory.cell 0x10000) =
        Nibble.join 1 0 0 1 ∧
      atLastAddress.Whole atLastAddress.step.1 ∧ atLastAddress.step.1.cpu.pc = 1 ∧
      0xF < atLastAddress.cpu.v[(2 : Nibble)] ∧
      (atLastAddress.dispatch (Nibble.join 0xE 2 0xA 1)).1.cpu.pc = 3 ∧
      (atLastAddress.dispatch (Nibble.join 0xE 2 9 0xE)).1.cpu.pc = 1 := by
  have hword : wordOf (atLastAddress.cpu.memory.cell 0xFFFF)
      (atLastAddress.cpu.memory.cell 0x10000) = Nibble.join 1 0 0 1 := by decide +kernel
  have hdone : atLastAddress.step.2 = .done := by decide +kernel
  have hwhole : atLastAddress.Whole atLastAddress.step.1 := .done (by rw [← hdone])
  have hkey : 0xF < atLastAddress.cpu.v[(2 : Nibble)] := by decide +kernel
  obtain ⟨-, hlands, -, -, -, hmissing⟩ := control_flow_lands_exactly atLastAddress
  have hjump : atLastAddress.step.1.cpu.pc = Nibble.join 0 0 0 1 :=
    (hlands _ hwhole).jump 0 0 1 hword
  obtain ⟨-, hreleased, hpressed⟩ := hmissing 2 hkey
  exact ⟨hword, hwhole, hjump, hkey, hreleased, hpressed⟩

end Board

end Chip8
