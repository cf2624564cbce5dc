import Chip8.Text.Padding

namespace Chip8.Hex

instance neZero_sixteen : @NeZero Nat (@Zero.ofOfNat0 Nat (instOfNatNat 0)) 16 := ⟨by decide⟩

inductive LetterCase where
  | lower
  | upper
  deriving DecidableEq, Repr

def LetterCase.firstLetter : LetterCase → Nat
  | .lower => 'a'.toNat
  | .upper => 'A'.toNat

def digit (c : LetterCase) (d : Fin 16) : Char :=
  Char.ofNat (if d.val < 10 then '0'.toNat + d.val else c.firstLetter + (d.val - 10))

def value? (ch : Char) : Option (Fin 16) :=
  if '0' ≤ ch ∧ ch ≤ '9' then some (Fin.ofNat 16 (ch.toNat - '0'.toNat))
  else if 'a' ≤ ch ∧ ch ≤ 'f' then some (Fin.ofNat 16 (ch.toNat - 'a'.toNat + 10))
  else if 'A' ≤ ch ∧ ch ≤ 'F' then some (Fin.ofNat 16 (ch.toNat - 'A'.toNat + 10))
  else none

theorem value?_digit (c : LetterCase) (d : Fin 16) : value? (digit c d) = some d := by
  revert d
  cases c <;> decide

def digits (c : LetterCase) : Nat → Nat → List Char
  | 0, _ => []
  | width + 1, n => digits c width (n / 16) ++ [digit c (Fin.ofNat 16 n)]

theorem length_digits (c : LetterCase) (width n : Nat) : (digits c width n).length = width := by
  induction width generalizing n with
  | zero => rfl
  | succ width ih => simp [digits, ih]

theorem digits_one (c : LetterCase) (d : Fin 16) : digits c 1 d.val = [digit c d] := by
  rw [digits, digits, List.nil_append]
  exact congrArg (fun d => [digit c d]) (Fin.ext (Nat.mod_eq_of_lt d.isLt))

theorem digits_mul_add (c : LetterCase) (width n : Nat) (d : Fin 16) :
    digits c (width + 1) (n * 16 + d.val) = digits c width n ++ [digit c d] := by
  have hd : Fin.ofNat 16 (n * 16 + d.val) = d := by
    apply Fin.ext
    simp only [Fin.val_ofNat]
    omega
  have hn : (n * 16 + d.val) / 16 = n := by omega
  rw [digits, hd, hn]

theorem mem_digits {c : LetterCase} {width n : Nat} {ch : Char} (h : ch ∈ digits c width n) :
    ∃ d, ch = digit c d := by
  induction width generalizing n with
  | zero => cases h
  | succ width ih =>
    obtain h | h := List.mem_append.1 h
    · exact ih h
    · exact ⟨_, List.mem_singleton.1 h⟩

theorem toUpper_digit (c : LetterCase) (d : Fin 16) : (digit c d).toUpper = digit .upper d := by
  revert d
  cases c <;> decide

def width (n : Nat) : Nat := n.log2 / 4 + 1

def text (c : LetterCase) (n : Nat) : List Char := digits c (width n) n

def read? (text : List Char) : Option Nat :=
  text.foldlM (fun n ch => (value? ch).map (n * 16 + ·.val)) 0

theorem read?_append_digit {text : List Char} {n : Nat} (h : read? text = some n)
    (c : LetterCase) (d : Fin 16) : read? (text ++ [digit c d]) = some (n * 16 + d.val) := by
  rw [read?] at h ⊢
  simp [List.foldlM_append, h, value?_digit]

theorem read?_digits (c : LetterCase) (width n : Nat) :
    read? (digits c width n) = some (n % Nat.pow 16 width) := by
  induction width generalizing n with
  | zero => exact congrArg some (Nat.mod_one n).symm
  | succ width ih =>
    rw [digits, read?_append_digit (ih (n / 16)) c (Fin.ofNat 16 n), Option.some.injEq]
    change n / 16 % 16 ^ width * 16 + _ = n % 16 ^ (width + 1)
    rw [Nat.pow_succ, Nat.mul_comm (16 ^ width) 16, Nat.mod_mul]
    simp only [Fin.val_ofNat]
    omega

structure Format where
  letters : LetterCase := .lower
  marked : Bool := false
  zeroFilled : Bool := false
  width : Nat := 0
  alignment : Text.Alignment := .right

def Format.mark (f : Format) : List Char := if f.marked then ['0', 'x'] else []

def Format.apply (f : Format) (n : Nat) : String :=
  let room := if f.zeroFilled then f.width - f.mark.length else 0
  let numeral := f.mark ++ digits f.letters (max (Hex.width n) room) n
  String.ofList (Text.pad f.alignment f.width numeral)

def byte (c : LetterCase) (b : UInt8) : List Char := digits c 2 b.toNat

def word (c : LetterCase) (w : UInt16) : List Char := digits c 4 w.toNat

theorem word_inj {c : LetterCase} {v w : UInt16} (h : word c v = word c w) : v = w := by
  have hr := congrArg read? h
  rw [word, word, read?_digits, read?_digits, Option.some.injEq] at hr
  have hv : v.toNat % Nat.pow 16 4 = v.toNat := Nat.mod_eq_of_lt v.toNat_lt
  have hw : w.toNat % Nat.pow 16 4 = w.toNat := Nat.mod_eq_of_lt w.toNat_lt
  rw [hv, hw] at hr
  exact UInt16.toNat_inj.1 hr

end Chip8.Hex
