import Chip8.Proofs.Console.LogBuffer
import Mathlib.Data.List.Forall2
import Mathlib.Data.List.Induction
import Mathlib.Data.List.TakeWhile

namespace Chip8

namespace Text

structure Trims (line kept : List Char) : Prop where
  blanks : ∃ blanks, line = kept ++ blanks ∧ ∀ c ∈ blanks, isBlank c = true
  mark : ∀ c, kept.getLast? = some c → isBlank c = false

theorem trims_trimEnd (line : List Char) : Trims line (trimEnd line) := by
  refine ⟨⟨(line.reverse.takeWhile isBlank).reverse, ?_, fun c hc => ?_⟩, fun c hc => ?_⟩
  · rw [trimEnd, ← List.reverse_append, List.takeWhile_append_dropWhile, List.reverse_reverse]
  · exact List.mem_takeWhile_imp (List.mem_reverse.1 hc)
  · rw [trimEnd, List.getLast?_reverse] at hc
    have hhead := List.head?_dropWhile_not isBlank line.reverse
    rwa [hc] at hhead

end Text

namespace LogBuffer

structure Cut (text : List Char) (lines : List (List Char)) (rest : List Char) : Prop where
  text_eq : text = lines.flatMap (· ++ ['\n']) ++ rest
  lines : ∀ line ∈ lines, '\n' ∉ line
  rest : '\n' ∉ rest

variable {text rest : List Char} {lines : List (List Char)}

theorem Cut.cons (h : Cut text lines rest) {line : List Char} (hline : '\n' ∉ line) :
    Cut (line ++ '\n' :: text) (line :: lines) rest := by
  refine ⟨?_, List.forall_mem_cons.2 ⟨hline, h.lines⟩, h.rest⟩
  rw [h.text_eq, List.flatMap_cons, List.append_assoc, List.append_assoc, List.singleton_append]

theorem cut_split (text : List Char) : Cut text (split text).1 (split text).2 := by
  fun_induction split text with
  | case1 => exact ⟨rfl, List.forall_mem_nil _, List.not_mem_nil⟩
  | case2 rest lines pending h ih =>
    rw [h] at ih
    exact ih.cons List.not_mem_nil
  | case3 c rest pending hc h ih =>
    rw [h] at ih
    obtain ⟨htext, -, hrest⟩ := ih
    refine ⟨congrArg (c :: ·) htext, List.forall_mem_nil _, ?_⟩
    rw [List.mem_cons, not_or]
    exact ⟨Ne.symm hc, hrest⟩
  | case4 c rest pending hc line lines h ih =>
    rw [h] at ih
    obtain ⟨htext, hlines, hrest⟩ := ih
    obtain ⟨hline, hmore⟩ := List.forall_mem_cons.1 hlines
    refine ⟨congrArg (c :: ·) htext, List.forall_mem_cons.2 ⟨?_, hmore⟩, hrest⟩
    rw [List.mem_cons, not_or]
    exact ⟨Ne.symm hc, hline⟩

theorem last_map {α β : Type} (f : α → β) (count : Nat) (l : List α) :
    last count (l.map f) = (last count l).map f := by
  rw [last, last, List.length_map, List.map_drop]

theorem exists_append_last {α : Type} (count : Nat) (l : List α) :
    ∃ older, l = older ++ last count l :=
  ⟨l.take (l.length - count), (List.take_append_drop ..).symm⟩

inductive Call where
  | write (bytes : List UInt8)
  | tail (count : Nat)
  | drain
  deriving DecidableEq, Repr

def Call.bytes? : Call → Option (List UInt8)
  | write bytes => some bytes
  | tail _ | drain => none

def call (l : LogBuffer) : Call → LogBuffer × List (List Char)
  | .write bytes => (l.write bytes, [])
  | .tail count => (l, l.tail count)
  | .drain => (l.drain.2, l.drain.1)

def calls (l : LogBuffer) (cs : List Call) : LogBuffer := cs.foldl (fun l c => (l.call c).1) l

def recent (cs : List Call) : List (List UInt8) :=
  (cs.reverse.takeWhile (· ≠ .drain)).reverse.filterMap Call.bytes?

theorem calls_concat (l : LogBuffer) (cs : List Call) (c : Call) :
    l.calls (cs ++ [c]) = ((l.calls cs).call c).1 := by
  rw [calls, List.foldl_append]
  rfl

theorem recent_concat_drain (cs : List Call) : recent (cs ++ [.drain]) = [] := by
  rw [recent, List.reverse_concat, List.takeWhile_cons_of_neg (by decide)]
  rfl

theorem recent_concat {c : Call} (hc : c ≠ .drain) (cs : List Call) :
    recent (cs ++ [c]) = recent cs ++ c.bytes?.toList := by
  have htake : (c :: cs.reverse).takeWhile (· ≠ .drain) =
      c :: cs.reverse.takeWhile (· ≠ .drain) :=
    List.takeWhile_cons_of_pos (decide_eq_true hc)
  rw [recent, List.reverse_concat, htake, List.reverse_cons, List.filterMap_append, recent]
  cases hb : c.bytes? <;> simp [hb]

theorem text_concat (chunks : List (List UInt8)) (bytes : List UInt8) :
    LogBuffer.text (chunks ++ [bytes]) = LogBuffer.text chunks ++ Utf8.decode bytes := by
  rw [LogBuffer.text, List.flatMap_append, List.flatMap_singleton, LogBuffer.text]

theorem calls_new (cs : List Call) :
    ({} : LogBuffer).calls cs = ofText (LogBuffer.text (recent cs)) := by
  induction cs using List.reverseRecOn with
  | nil => exact ofText_nil.symm
  | append_singleton cs c ih =>
    rw [calls_concat, ih]
    cases c with
    | write bytes =>
      have hrecent := recent_concat (c := .write bytes) Call.noConfusion cs
      rw [hrecent, Call.bytes?, Option.toList_some, text_concat, call, write, ofText_append]
    | tail count =>
      have hrecent := recent_concat (c := .tail count) Call.noConfusion cs
      rw [hrecent, Call.bytes?, Option.toList_none, List.append_nil, call]
    | drain =>
      rw [recent_concat_drain]
      exact ofText_nil.symm

theorem log_keeps_recent_lines (cs : List Call) :
    let l := ({} : LogBuffer).calls cs
    let written := LogBuffer.text (recent cs)
    ∃ older lines rest, Cut written (older ++ lines) rest ∧
      lines.length = min 1000 (written.count '\n') ∧
      List.Forall₂ Text.Trims lines l.lines ∧
      (∀ n, ∃ skipped answer, l.call (.tail n) = (l, answer) ∧ l.lines = skipped ++ answer ∧
        answer.length = min n l.lines.length) ∧
      l.call .drain = ({}, l.lines ++ if rest = [] then [] else [rest]) := by
  intro l written
  obtain ⟨older, hsplit⟩ := exists_append_last capacity (split written).1
  have hcut := cut_split written
  have hl : l = ⟨(last capacity (split written).1).map Text.trimEnd, (split written).2⟩ := by
    rw [← last_map, ← ofText_eq]
    exact calls_new cs
  have hcapacity : capacity = 1000 := rfl
  refine ⟨older, last capacity (split written).1, (split written).2, ?_, ?_, ?_, fun n => ?_, ?_⟩
  · rwa [← hsplit]
  · rw [length_last, length_split, hcapacity]
  · rw [hl, List.forall₂_map_right_iff]
    exact List.forall₂_same.2 fun line _ => Text.trims_trimEnd line
  · obtain ⟨skipped, hskipped⟩ := exists_append_last n l.lines
    exact ⟨skipped, last n l.lines, rfl, hskipped, length_last n l.lines⟩
  · rw [hl, call, drain]
    simp only [List.isEmpty_iff]

end LogBuffer

end Chip8
