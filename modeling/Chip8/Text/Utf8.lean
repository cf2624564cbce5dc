namespace Chip8.Utf8

structure Tail where
  least : Nat
  greatest : Nat
  deriving DecidableEq, Repr

def Tail.any : Tail := ⟨0x80, 0xBF⟩

def Tail.admits (t : Tail) (b : UInt8) : Bool := t.least ≤ b.toNat && b.toNat ≤ t.greatest

/-- What the first byte of a character holds of its code, and the bytes that have to follow; none
for a byte that begins no character. The narrower tails rule out codes written too long, the
surrogates, and codes past the last. -/
def lead? (b : UInt8) : Option (Nat × List Tail) :=
  let n := b.toNat
  if n < 0x80 then some (n, [])
  else if n < 0xC2 then none
  else if n < 0xE0 then some (n % 0x20, [.any])
  else if n = 0xE0 then some (n % 0x10, [⟨0xA0, 0xBF⟩, .any])
  else if n = 0xED then some (n % 0x10, [⟨0x80, 0x9F⟩, .any])
  else if n < 0xF0 then some (n % 0x10, [.any, .any])
  else if n = 0xF0 then some (n % 0x08, [⟨0x90, 0xBF⟩, .any, .any])
  else if n < 0xF4 then some (n % 0x08, [.any, .any, .any])
  else if n = 0xF4 then some (n % 0x08, [⟨0x80, 0x8F⟩, .any, .any])
  else none

def follow : List Tail → Nat → List UInt8 → Option Nat × List UInt8
  | [], code, bytes => (some code, bytes)
  | t :: tails, code, b :: bytes =>
    if t.admits b then follow tails (code * 64 + b.toNat % 64) bytes else (none, b :: bytes)
  | _ :: _, _, [] => (none, [])

theorem length_follow_le (tails : List Tail) (code : Nat) (bytes : List UInt8) :
    (follow tails code bytes).2.length ≤ bytes.length := by
  fun_induction follow tails code bytes <;> simp only [List.length_cons] <;> omega

def replacement : Char := Char.ofNat 0xFFFD

def decode : List UInt8 → List Char
  | [] => []
  | b :: bytes =>
    match lead? b with
    | none => replacement :: decode bytes
    | some (code, tails) =>
      let read := follow tails code bytes
      (read.1.map Char.ofNat).getD replacement :: decode read.2
termination_by bytes => bytes.length
decreasing_by
  · simp
  · have := length_follow_le tails code bytes
    simp only [List.length_cons]
    omega

theorem decode_ascii {b : UInt8} (h : b.toNat < 0x80) (bytes : List UInt8) :
    decode (b :: bytes) = Char.ofNat b.toNat :: decode bytes := by
  rw [decode]
  simp [lead?, h, follow]

end Chip8.Utf8
