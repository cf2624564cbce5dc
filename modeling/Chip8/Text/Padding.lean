namespace Chip8.Text

inductive Alignment where
  | left
  | right
  | center
  deriving DecidableEq, Repr

def blanks (n : Nat) : List Char := List.replicate n ' '

def Alignment.before : Alignment → Nat → Nat
  | .left, _ => 0
  | .right, n => n
  | .center, n => n / 2

def pad (a : Alignment) (width : Nat) (text : List Char) : List Char :=
  let room := width - text.length
  blanks (a.before room) ++ text ++ blanks (room - a.before room)

end Chip8.Text
