import Chip8.Text.Ranges

namespace Chip8.Text

def blank : Ranges :=
  [(0x9, 0xD), (0x20, 0x20), (0x85, 0x85), (0xA0, 0xA0), (0x1680, 0x1680), (0x2000, 0x200A),
    (0x2028, 0x2029), (0x202F, 0x202F), (0x205F, 0x205F), (0x3000, 0x3000)]

def isBlank (c : Char) : Bool := blank.has c

def isControl (c : Char) : Bool := c.toNat < 0x20 || 0x7F ≤ c.toNat && c.toNat < 0xA0

def trimEnd (l : List Char) : List Char := (l.reverse.dropWhile isBlank).reverse

theorem trimEnd_append_blank (l : List Char) {c : Char} (h : isBlank c) :
    trimEnd (l ++ [c]) = trimEnd l := by
  simp [trimEnd, h]

theorem trimEnd_append_mark (l : List Char) {c : Char} (h : isBlank c = false) :
    trimEnd (l ++ [c]) = l ++ [c] := by
  simp [trimEnd, h]

end Chip8.Text
