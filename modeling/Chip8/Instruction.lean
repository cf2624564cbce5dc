import Chip8.Opcode

namespace Chip8

structure Instruction where
  opcode : Opcode
  word : UInt16
  deriving DecidableEq, Repr

namespace Instruction

structure Entry where
  mask : UInt16
  bits : UInt16
  opcode : Opcode

def table : List Entry := Opcode.all.map fun o => ⟨o.mask, o.bits, o⟩

def decode? (word : UInt16) : Option Instruction :=
  (table.find? fun e => word &&& e.mask == e.bits).map fun e => ⟨e.opcode, word⟩

theorem decode?_eq_find? (word : UInt16) :
    decode? word = (Opcode.all.find? fun o => o.Matches word).map fun o => ⟨o, word⟩ := by
  have h : ∀ l : List Opcode,
      ((l.map fun o => (⟨o.mask, o.bits, o⟩ : Entry)).find? fun e => word &&& e.mask == e.bits).map
        (fun e => (⟨e.opcode, word⟩ : Instruction)) =
      (l.find? fun o => o.Matches word).map fun o => ⟨o, word⟩ := by
    intro l
    induction l with
    | nil => rfl
    | cons o l ih =>
      simp only [List.map_cons, List.find?_cons]
      by_cases ho : word &&& o.mask = o.bits
      · simp [Opcode.Matches, ho]
      · have hb : (word &&& o.mask == o.bits) = false := by simpa using ho
        have hd : decide (o.Matches word) = false := decide_eq_false ho
        simpa only [hb, hd] using ih
  exact h Opcode.all

theorem word_of_decode? {word : UInt16} {ins : Instruction} (h : decode? word = some ins) :
    ins.word = word := by
  rw [decode?_eq_find?, Option.map_eq_some_iff] at h
  obtain ⟨o, -, rfl⟩ := h
  rfl

theorem matches_of_decode? {word : UInt16} {ins : Instruction} (h : decode? word = some ins) :
    ins.opcode.Matches word := by
  rw [decode?_eq_find?, Option.map_eq_some_iff] at h
  obtain ⟨o, ho, rfl⟩ := h
  simpa using List.find?_some ho

theorem decode?_eq_none_iff {word : UInt16} :
    decode? word = none ↔ ∀ o : Opcode, ¬ o.Matches word := by
  rw [decode?_eq_find?, Option.map_eq_none_iff, List.find?_eq_none]
  exact ⟨fun h o ho => h o o.mem_all (by simpa using ho), fun h o _ ho => h o (by simpa using ho)⟩

def nnn (ins : Instruction) : Address := Address.ofWord ins.word

def n (ins : Instruction) : Nibble := Nibble.ofWord ins.word

def x (ins : Instruction) : Nibble := Nibble.ofWord (ins.word >>> 8)

def y (ins : Instruction) : Nibble := Nibble.ofWord (ins.word >>> 4)

def kk (ins : Instruction) : UInt8 := ins.word.toUInt8

end Instruction

end Chip8
