import Chip8.Text.Cluster.Basic
import Chip8.Text.Width.Property

namespace Chip8.Text.Width

open Cluster (joiner modifier)

def textSelector : Char := Char.ofNat 0xFE0E

def emojiSelector : Char := Char.ofNat 0xFE0F

def wideSelector : Char := Char.ofNat 0xFE01

def quote : Ranges := [(0x2018, 0x2019), (0x201C, 0x201D)]

inductive Follower where
  | plain
  | textSelector
  | emojiSelector
  | modifier
  | emoji
  | joinedEmoji
  | joinedSelector
  /-- The tags of a flag, read backwards from their end, before a joined emoji. -/
  | joinedTags (read : Nat)
  | subscript
  | wideSelector
  | vowelE
  | vowelAi
  deriving DecidableEq, Repr

def ideographic : Ranges := [(0x1F200, 0x1F2FF)]

def jamo : Ranges := [(0x1160, 0x11FF), (0xD7B0, 0xD7C6), (0xD7CB, 0xD7FB)]

def spanning : Ranges :=
  [(0x605, 0x605), (0x70F, 0x70F), (0x890, 0x891), (0x8E2, 0x8E2), (0xD4E, 0xD4E),
    (0xA8FA, 0xA8FA), (0x111C2, 0x111C3), (0x113D1, 0x113D1), (0x1193F, 0x1193F),
    (0x11941, 0x11941), (0x11A84, 0x11A89), (0x11D46, 0x11D46), (0x11F02, 0x11F02)]

def broad : Ranges := [(0x115F, 0x115F), (0x17A4, 0x17A4), (0xFF9E, 0xFF9F)]

def tag : Ranges := [(0xE0030, 0xE0039), (0xE0061, 0xE007A)]

def coeng : Char := Char.ofNat 0x17D2

def subscribed : Ranges :=
  [(0x1780, 0x1782), (0x1784, 0x1787), (0x1789, 0x178C), (0x178E, 0x1793), (0x1795, 0x1798),
    (0x179B, 0x179D), (0x17A0, 0x17A0), (0x17A2, 0x17A2), (0x17A7, 0x17A7), (0x17AB, 0x17AC),
    (0x17AF, 0x17AF)]

def raiAa : Char := Char.ofNat 0x16D63

def raiE : Char := Char.ofNat 0x16D67

def raiAi : Char := Char.ofNat 0x16D68

def raiO : Char := Char.ofNat 0x16D69

def ofChar (c : Char) : Nat :=
  if c.toNat ≤ 0xA0 then 1
  else if broad.has c then 2
  else if c.toNat = 0x17D8 then 3
  else if c.toNat = 0x2D7F then 1
  else if ignorable.has c || Cluster.extending.has c || jamo.has c || spanning.has c then 0
  else if wide.has c then 2
  else 1

def follower (c : Char) : Follower :=
  if c = textSelector then .textSelector
  else if c = emojiSelector then .emojiSelector
  else if modifier.has c then .modifier
  else if emoji.has c then .emoji
  else if subscribed.has c then .subscript
  else if c = wideSelector then .wideSelector
  else if c = raiE then .vowelE
  else if c = raiAi then .vowelAi
  else .plain

def measure (c : Char) : Nat × Follower → Nat × Follower
  | (n, next) =>
    let alone := (n + ofChar c, follower c)
    match next with
    | .emojiSelector => if selectable.has c then (n + 2, .emoji) else alone
    | .joinedSelector => if selectable.has c then (n, .emoji) else alone
    | .textSelector =>
      if selectable.has c && emoji.has c && !ideographic.has c then (n + 1, .plain) else alone
    | .modifier =>
      if modifiable.has c then (n, .emoji) else if c = joiner then (n, .joinedEmoji) else alone
    | .emoji => if c = joiner then (n, .joinedEmoji) else alone
    | .joinedEmoji =>
      if c = emojiSelector then (n, .joinedSelector)
      else if c.toNat = 0xE007F then (n, .joinedTags 0)
      else if modifier.has c || emoji.has c then (n, follower c)
      else alone
    | .joinedTags read =>
      if tag.has c && read < 6 then (n, .joinedTags (read + 1))
      else if c.toNat = 0x1F3F4 && 3 ≤ read then (n, .emoji)
      else alone
    | .subscript =>
      if c = coeng then (n - 1, .plain) else if c = joiner then (n, .subscript) else alone
    | .wideSelector => if quote.has c then (n + 2, .plain) else alone
    | .vowelE =>
      if c = raiAa || c = raiO then (n, .plain)
      else if c = raiE then (n, .vowelAi)
      else if c = raiAi then (n + 1, .vowelE)
      else alone
    | .vowelAi => if c = raiAa then (n, .plain) else alone
    | .plain => alone

def ofText (text : List Char) : Nat := (text.foldr measure (0, .plain)).1

end Chip8.Text.Width
