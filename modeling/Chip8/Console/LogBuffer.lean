import Chip8.Text.Blank
import Chip8.Text.Utf8

namespace Chip8

structure LogBuffer where
  lines : List (List Char) := []
  pending : List Char := []
  deriving DecidableEq, Repr

namespace LogBuffer

def capacity : Nat := 1000

def last {α : Type} (count : Nat) (l : List α) : List α := l.drop (l.length - count)

/-- A text up to its first newline and with it, and what comes after. -/
def firstLine? : List Char → Option (List Char × List Char)
  | [] => none
  | c :: rest =>
    if c = '\n' then some ([c], rest)
    else (firstLine? rest).map fun (line, after) => (c :: line, after)

theorem firstLine?_eq_some {text line after : List Char}
    (h : firstLine? text = some (line, after)) :
    ∃ body, '\n' ∉ body ∧ line = body ++ ['\n'] ∧ text = line ++ after := by
  induction text generalizing line with
  | nil => cases h
  | cons c text ih =>
    rw [firstLine?] at h
    split at h
    · next hc =>
      cases h
      exact ⟨[], List.not_mem_nil, congrArg (· :: []) hc, rfl⟩
    · next hc =>
      obtain ⟨⟨line', after'⟩, hrest, he⟩ := Option.map_eq_some_iff.1 h
      cases he
      obtain ⟨body, hbody, rfl, rfl⟩ := ih hrest
      exact ⟨c :: body, by simp [hbody, Ne.symm hc], rfl, rfl⟩

theorem firstLine?_eq_none {text : List Char} (h : firstLine? text = none) : '\n' ∉ text := by
  induction text with
  | nil => exact List.not_mem_nil
  | cons c text ih =>
    rw [firstLine?] at h
    split at h
    · cases h
    · next hc =>
      rw [List.mem_cons, not_or]
      exact ⟨Ne.symm hc, ih (Option.map_eq_none_iff.1 h)⟩

theorem length_lt_of_firstLine? {text line after : List Char}
    (h : firstLine? text = some (line, after)) : after.length < text.length := by
  obtain ⟨body, -, rfl, rfl⟩ := firstLine?_eq_some h
  simp only [List.length_append, List.length_singleton]
  omega

/-- Adds a line at the end; one too many takes the first away. -/
def push (l : LogBuffer) (line : List Char) : LogBuffer :=
  let lines := l.lines ++ [Text.trimEnd line]
  { l with lines := if capacity < lines.length then lines.tail else lines }

def takeLines (l : LogBuffer) : LogBuffer :=
  match _h : firstLine? l.pending with
  | none => l
  | some (line, after) => takeLines ({ l with pending := after }.push line)
termination_by l.pending.length
decreasing_by exact length_lt_of_firstLine? _h

def writeText (l : LogBuffer) (text : List Char) : LogBuffer :=
  takeLines { l with pending := l.pending ++ text }

def write (l : LogBuffer) (bytes : List UInt8) : LogBuffer := l.writeText (Utf8.decode bytes)

def tail (l : LogBuffer) (count : Nat) : List (List Char) := last count l.lines

def drain (l : LogBuffer) : List (List Char) × LogBuffer :=
  (l.lines ++ if l.pending.isEmpty then [] else [l.pending], {})

theorem length_last {α : Type} (count : Nat) (l : List α) :
    (last count l).length = min count l.length := by
  simp only [last, List.length_drop]
  omega

theorem last_eq_self {α : Type} {count : Nat} {l : List α} (h : l.length ≤ count) :
    last count l = l := by
  simp [last, Nat.sub_eq_zero_of_le h]

theorem last_last_append {α : Type} (count : Nat) (l r : List α) :
    last count (last count l ++ r) = last count (l ++ r) := by
  by_cases h : l.length ≤ count
  · rw [last_eq_self h]
  · simp only [last, List.length_append, List.length_drop, List.drop_append, List.drop_drop]
    congr 2 <;> omega

end LogBuffer

end Chip8
