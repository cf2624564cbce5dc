import Chip8.Text.Cluster.Property

namespace Chip8.Text.Cluster

inductive Kind where
  | other
  | carriageReturn
  | lineFeed
  | control
  | extending
  | joiner
  | spacing
  | prepended
  | leading
  | vowel
  | trailing
  | openSyllable
  | closedSyllable
  | regional
  deriving DecidableEq, Repr

def leading : Ranges := [(0x1100, 0x115F), (0xA960, 0xA97C)]

def vowel : Ranges := [(0x1160, 0x11A7), (0xD7B0, 0xD7C6), (0x16D63, 0x16D63), (0x16D67, 0x16D6A)]

def trailing : Ranges := [(0x11A8, 0x11FF), (0xD7CB, 0xD7FB)]

def syllable : Ranges := [(0xAC00, 0xD7A3)]

def regional : Ranges := [(0x1F1E6, 0x1F1FF)]

def modifier : Ranges := [(0x1F3FB, 0x1F3FF)]

def joiner : Char := Char.ofNat 0x200D

def nonJoiner : Char := Char.ofNat 0x200C

def syllableKind (c : Char) : Kind :=
  if (c.toNat - 0xAC00) % 28 = 0 then .openSyllable else .closedSyllable

def kind (c : Char) : Kind :=
  if c = '\r' then .carriageReturn
  else if c = '\n' then .lineFeed
  else if control.has c then .control
  else if c.toNat < 0x300 then .other
  else if c = joiner then .joiner
  else if extending.has c || modifier.has c then .extending
  else if spacing.has c then .spacing
  else if prepended.has c then .prepended
  else if leading.has c then .leading
  else if vowel.has c then .vowel
  else if trailing.has c then .trailing
  else if syllable.has c then syllableKind c
  else if regional.has c then .regional
  else .other

inductive Picture where
  | none
  | shown
  | joined
  deriving DecidableEq, Repr

inductive Conjunct where
  | none
  | consonant
  | linked
  deriving DecidableEq, Repr

structure Edge where
  kind : Kind
  picture : Picture
  conjunct : Conjunct
  odd : Bool
  deriving DecidableEq, Repr

namespace Edge

def empty : Edge := ⟨.control, .none, .none, false⟩

def nextPicture (e : Edge) (c : Char) (k : Kind) : Picture :=
  if pictographic.has c then .shown
  else
    match k, e.picture with
    | .extending, .shown => .shown
    | .joiner, .shown => .joined
    | _, _ => .none

def nextConjunct (e : Edge) (c : Char) (k : Kind) : Conjunct :=
  if consonant.has c then .consonant
  else if e.conjunct = .none then .none
  else if linker.has c then .linked
  else if (k = .extending || k = .joiner) && c ≠ nonJoiner then e.conjunct
  else .none

def next (e : Edge) (c : Char) : Edge :=
  let k := Cluster.kind c
  { kind := k
    picture := e.nextPicture c k
    conjunct := e.nextConjunct c k
    odd := k = .regional && !e.odd }

def start (c : Char) : Edge := empty.next c

def holds (e : Edge) (c : Char) : Bool :=
  match e.kind, Cluster.kind c with
  | .carriageReturn, .lineFeed => true
  | .carriageReturn, _ | .lineFeed, _ | .control, _ => false
  | _, .carriageReturn | _, .lineFeed | _, .control => false
  | _, .extending | _, .joiner | _, .spacing => true
  | .prepended, _ => true
  | .leading, .leading | .leading, .vowel | .leading, .openSyllable
  | .leading, .closedSyllable => true
  | .openSyllable, .vowel | .openSyllable, .trailing | .vowel, .vowel | .vowel, .trailing => true
  | .closedSyllable, .trailing | .trailing, .trailing => true
  | .regional, .regional => e.odd
  | _, _ => e.conjunct = .linked && consonant.has c || e.picture = .joined && pictographic.has c

end Edge

def continued (e : Edge) (under : List Char) : List Char → List (List Char)
  | [] => [under.reverse]
  | c :: rest =>
    if e.holds c then continued (e.next c) (c :: under) rest
    else under.reverse :: continued (.start c) [c] rest

theorem flatten_continued (e : Edge) (under text : List Char) :
    (continued e under text).flatten = under.reverse ++ text := by
  fun_induction continued e under text <;> simp_all

end Cluster

def clusters : List Char → List (List Char)
  | [] => []
  | c :: rest => Cluster.continued (.start c) [c] rest

theorem flatten_clusters (text : List Char) : (clusters text).flatten = text := by
  cases text <;> simp [clusters, Cluster.flatten_continued]

end Chip8.Text
