import Chip8.Console.LogBuffer
import Chip8.Proofs.Text.Utf8

namespace Chip8

namespace Text

theorem trimEnd_append (x y : List Char) :
    trimEnd (x ++ y) = if trimEnd y = [] then trimEnd x else x ++ trimEnd y := by
  simp only [trimEnd, List.reverse_append, List.dropWhile_append, List.isEmpty_iff,
    List.reverse_eq_nil_iff, apply_ite List.reverse, List.reverse_reverse]

theorem length_trimEnd_le (x : List Char) : (trimEnd x).length ≤ x.length := by
  simpa only [trimEnd, List.length_reverse] using
    (List.dropWhile_sublist (l := x.reverse) isBlank).length_le

end Text

namespace LogBuffer

theorem last_append {α : Type} (count : Nat) (l r : List α) :
    last count (l ++ r) = last (count - r.length) l ++ last count r := by
  have hr : l.length + r.length - count - l.length = r.length - count := by omega
  simp only [last, List.length_append, List.drop_append, hr]
  by_cases h : r.length ≤ count
  · rw [show l.length + r.length - count = l.length - (count - r.length) by omega]
  · have hl : l.length ≤ l.length + r.length - count := by omega
    rw [List.drop_eq_nil_of_le hl, Nat.sub_eq_zero_of_le (Nat.le_of_not_le h), Nat.sub_zero,
      List.drop_length]

theorem last_append_of_le {α : Type} {count : Nat} (l : List α) {r : List α}
    (h : count ≤ r.length) : last count (l ++ r) = last count r := by
  rw [last_append, Nat.sub_eq_zero_of_le h]
  simp [last]

def split : List Char → List (List Char) × List Char
  | [] => ([], [])
  | c :: rest =>
    let (lines, pending) := split rest
    if c = '\n' then ([] :: lines, pending)
    else
      match lines with
      | [] => ([], c :: pending)
      | line :: lines => ((c :: line) :: lines, pending)

theorem split_cons_newline (text : List Char) :
    split ('\n' :: text) = ([] :: (split text).1, (split text).2) := by
  simp [split]

theorem split_cons_of_nil {c : Char} (hc : c ≠ '\n') {text : List Char}
    (h : (split text).1 = []) : split (c :: text) = ([], c :: (split text).2) := by
  simp [split, hc, h]

theorem split_cons_of_cons {c : Char} (hc : c ≠ '\n') {text line : List Char}
    {lines : List (List Char)} (h : (split text).1 = line :: lines) :
    split (c :: text) = ((c :: line) :: lines, (split text).2) := by
  simp [split, hc, h]

theorem split_of_not_mem {text : List Char} (h : '\n' ∉ text) : split text = ([], text) := by
  induction text with
  | nil => rfl
  | cons c text ih =>
    rw [List.mem_cons, not_or] at h
    rw [split_cons_of_nil (Ne.symm h.1) (congrArg Prod.fst (ih h.2)), ih h.2]

theorem length_split (text : List Char) : (split text).1.length = text.count '\n' := by
  fun_induction split text with
  | case1 => rfl
  | case2 rest lines pending h ih =>
    rw [List.count_cons_self, ← ih, h, List.length_cons]
  | case3 c rest pending hc h ih =>
    rw [List.count_cons_of_ne hc, ← ih, h]
  | case4 c rest pending hc line lines h ih =>
    rw [List.count_cons_of_ne hc, ← ih, h, List.length_cons, List.length_cons]

theorem newline_not_mem_split (text : List Char) : '\n' ∉ (split text).2 := by
  fun_induction split text with
  | case1 => exact List.not_mem_nil
  | case2 rest lines pending h ih =>
    rw [h] at ih
    exact ih
  | case3 c rest pending hc h ih =>
    rw [h] at ih
    rw [List.mem_cons, not_or]
    exact ⟨Ne.symm hc, ih⟩
  | case4 c rest pending hc line lines h ih =>
    rw [h] at ih
    exact ih

theorem split_append (u v : List Char) :
    split (u ++ v) =
      ((split u).1 ++ (split ((split u).2 ++ v)).1, (split ((split u).2 ++ v)).2) := by
  fun_induction split u with
  | case1 => rfl
  | case2 rest lines pending h ih =>
    rw [List.cons_append, split_cons_newline, ih, h]
    rfl
  | case3 c rest pending hc h ih =>
    rw [h] at ih
    have hrest : split (rest ++ v) = split (pending ++ v) := ih
    rw [List.cons_append, List.cons_append, List.nil_append, split, split, hrest]
  | case4 c rest pending hc line lines h ih =>
    rw [h] at ih
    rw [List.cons_append, split_cons_of_cons hc (congrArg Prod.fst ih), ih]
    rfl

theorem split_append_of_not_mem (u : List Char) {v : List Char} (h : '\n' ∉ v) :
    split (u ++ v) = ((split u).1, (split u).2 ++ v) := by
  have hv : '\n' ∉ (split u).2 ++ v := by
    simpa only [List.mem_append, not_or] using And.intro (newline_not_mem_split u) h
  rw [split_append, split_of_not_mem hv, List.append_nil]

theorem split_append_newline (u v : List Char) :
    split (u ++ '\n' :: v) = ((split u).1 ++ (split u).2 :: (split v).1, (split v).2) := by
  fun_induction split u with
  | case1 => exact split_cons_newline v
  | case2 rest lines pending h ih =>
    rw [List.cons_append, split_cons_newline, ih, h]
    rfl
  | case3 c rest pending hc h ih =>
    rw [h] at ih
    rw [List.cons_append, split_cons_of_cons hc (congrArg Prod.fst ih), ih]
    rfl
  | case4 c rest pending hc line lines h ih =>
    rw [h] at ih
    rw [List.cons_append, split_cons_of_cons hc (congrArg Prod.fst ih), ih]
    rfl

theorem lines_push {l : LogBuffer} (h : l.lines.length ≤ capacity) (line : List Char) :
    (l.push line).lines = last capacity (l.lines ++ [Text.trimEnd line]) := by
  simp only [push, last, List.length_append, List.length_singleton]
  split
  · have hone : l.lines.length + 1 - capacity = 1 := by omega
    rw [hone, List.drop_one]
  · have hnone : l.lines.length + 1 - capacity = 0 := by omega
    rw [hnone, List.drop_zero]

theorem length_push_le {l : LogBuffer} (h : l.lines.length ≤ capacity) (line : List Char) :
    (l.push line).lines.length ≤ capacity := by
  rw [lines_push h, length_last]
  exact Nat.min_le_left ..

/-- A log that is held to its capacity line by line holds the last lines of all. -/
theorem takeLines_eq (l : LogBuffer) (h : l.lines.length ≤ capacity) :
    l.takeLines =
      ⟨last capacity (l.lines ++ (split l.pending).1.map Text.trimEnd), (split l.pending).2⟩ := by
  fun_induction takeLines l with
  | case1 l hnone =>
    rw [split_of_not_mem (firstLine?_eq_none hnone), List.map_nil, List.append_nil, last_eq_self h]
  | case2 l line after hsome ih =>
    obtain ⟨body, hbody, rfl, hpending⟩ := firstLine?_eq_some hsome
    have hblank : Text.trimEnd (body ++ ['\n']) = Text.trimEnd body :=
      Text.trimEnd_append_blank body (by decide)
    have hpush : (push ⟨l.lines, after⟩ (body ++ ['\n'])).lines =
        last capacity (l.lines ++ [Text.trimEnd body]) := by
      rw [← hblank]
      exact lines_push h _
    have hsplit : split l.pending = (body :: (split after).1, (split after).2) := by
      rw [hpending, List.append_assoc, List.singleton_append, split_append_newline,
        split_of_not_mem hbody, List.nil_append]
    rw [ih (length_push_le h _), hpush, hsplit, last_last_append, List.append_assoc]
    rfl

theorem writeText_eq {l : LogBuffer} (h : l.lines.length ≤ capacity) (text : List Char) :
    l.writeText text =
      ⟨last capacity (l.lines ++ (split (l.pending ++ text)).1.map Text.trimEnd),
        (split (l.pending ++ text)).2⟩ :=
  takeLines_eq _ h

theorem length_writeText_le {l : LogBuffer} (h : l.lines.length ≤ capacity) (text : List Char) :
    (l.writeText text).lines.length ≤ capacity := by
  rw [writeText_eq h, length_last]
  exact Nat.min_le_left ..

theorem writeText_append {l : LogBuffer} (h : l.lines.length ≤ capacity) (u v : List Char) :
    (l.writeText u).writeText v = l.writeText (u ++ v) := by
  rw [writeText_eq (length_writeText_le h u), writeText_eq h, writeText_eq h]
  simp only [last_last_append, ← List.append_assoc, split_append (l.pending ++ u) v,
    List.map_append]

def writeAll (l : LogBuffer) (chunks : List (List UInt8)) : LogBuffer := chunks.foldl write l

def text (chunks : List (List UInt8)) : List Char := chunks.flatMap Utf8.decode

theorem writeAll_cons (l : LogBuffer) (c : List UInt8) (chunks : List (List UInt8)) :
    l.writeAll (c :: chunks) = (l.write c).writeAll chunks := by
  simp only [writeAll, List.foldl_cons]

theorem text_cons (c : List UInt8) (chunks : List (List UInt8)) :
    text (c :: chunks) = Utf8.decode c ++ text chunks := rfl

theorem writeAll_writeText {l : LogBuffer} (h : l.lines.length ≤ capacity) (u : List Char)
    (chunks : List (List UInt8)) :
    (l.writeText u).writeAll chunks = l.writeText (u ++ text chunks) := by
  induction chunks generalizing u with
  | nil => rw [text, List.flatMap_nil, List.append_nil, writeAll, List.foldl_nil]
  | cons c chunks ih =>
    rw [writeAll_cons, write, writeText_append h, ih, List.append_assoc, text_cons]

def ofText (text : List Char) : LogBuffer := ({} : LogBuffer).writeText text

theorem length_new_le : ({} : LogBuffer).lines.length ≤ capacity := Nat.zero_le _

theorem ofText_append (u v : List Char) : (ofText u).writeText v = ofText (u ++ v) :=
  writeText_append length_new_le u v

theorem ofText_eq (text : List Char) :
    ofText text = ⟨last capacity ((split text).1.map Text.trimEnd), (split text).2⟩ := by
  rw [ofText, writeText_eq length_new_le, List.nil_append, List.nil_append]

theorem ofText_nil : ofText [] = {} := by
  simp [ofText_eq, split, last]

theorem writeAll_new (chunks : List (List UInt8)) :
    ({} : LogBuffer).writeAll chunks = ofText (text chunks) := by
  have h := writeAll_writeText length_new_le [] chunks
  rwa [← ofText, ofText_nil] at h

theorem writeAll_ofText (u : List Char) (chunks : List (List UInt8)) :
    (ofText u).writeAll chunks = ofText (u ++ text chunks) :=
  writeAll_writeText length_new_le u chunks

theorem ofText_append_of_lt {y : List Char} (h : capacity < y.count '\n') (u v : List Char) :
    ofText (u ++ y) = ofText (v ++ y) := by
  obtain ⟨line, rest, rfl, hline⟩ :=
    List.eq_append_cons_of_mem (List.count_pos_iff.1 (Nat.zero_lt_of_lt h))
  have hrest : capacity ≤ ((split rest).1.map Text.trimEnd).length := by
    rw [List.length_map, length_split]
    rw [List.count_append, List.count_cons_self, List.count_eq_zero.2 hline] at h
    omega
  have key : ∀ w, ofText (w ++ (line ++ '\n' :: rest)) =
      ⟨last capacity ((split rest).1.map Text.trimEnd), (split rest).2⟩ := fun w => by
    rw [← List.append_assoc, ofText_eq, split_append_newline, List.map_append, List.map_cons,
      List.append_cons, last_append_of_le _ hrest]
  rw [key, key]

def size (l : LogBuffer) : Nat := l.drain.1.flatten.length

theorem size_eq (l : LogBuffer) : l.size = l.lines.flatten.length + l.pending.length := by
  cases h : l.pending <;> simp [size, drain, h]

theorem size_ofText_append_of_not_mem (u : List Char) {v : List Char} (h : '\n' ∉ v) :
    (ofText (u ++ v)).size =
      (last capacity ((split u).1.map Text.trimEnd)).flatten.length +
        ((split u).2.length + v.length) := by
  rw [ofText_eq, size_eq, split_append_of_not_mem u h, List.length_append]

theorem size_ofText_append_newline (u : List Char) {v : List Char} (hv : '\n' ∉ v)
    {rest : List Char} (h : rest.count '\n' < capacity) :
    (ofText (u ++ v ++ '\n' :: rest)).size =
      (last (capacity - (rest.count '\n' + 1)) ((split u).1.map Text.trimEnd)).flatten.length +
        ((Text.trimEnd ((split u).2 ++ v)).length + (ofText rest).size) := by
  have hlen : ((split rest).1.map Text.trimEnd).length = rest.count '\n' := by
    rw [List.length_map, length_split]
  have hlast : ∀ w, last capacity (w :: (split rest).1.map Text.trimEnd) =
      w :: (split rest).1.map Text.trimEnd := fun w =>
    last_eq_self (by rw [List.length_cons, hlen]; exact h)
  have hrest : last capacity ((split rest).1.map Text.trimEnd) = (split rest).1.map Text.trimEnd :=
    last_eq_self (by rw [hlen]; exact Nat.le_of_lt h)
  rw [ofText_eq, ofText_eq, size_eq, size_eq, split_append_newline, split_append_of_not_mem u hv,
    List.map_append, List.map_cons, last_append, hlast, hrest, List.length_cons, hlen]
  simp only [List.flatten_append, List.flatten_cons, List.length_append, Nat.add_assoc]

theorem length_trimEnd_cut (p : List Char) (c : Char) (k : Nat) (y : List Char) :
    (Text.trimEnd (p ++ c :: y)).length <
      (Text.trimEnd (p ++ (List.replicate (k + 2) Utf8.replacement ++ y))).length := by
  have hc := Text.length_trimEnd_le (p ++ [c])
  have hr : Text.trimEnd (p ++ List.replicate (k + 2) Utf8.replacement) =
      p ++ List.replicate (k + 2) Utf8.replacement := by
    rw [List.replicate_succ', ← List.append_assoc]
    exact Text.trimEnd_append_mark _ (by decide)
  rw [List.length_append, List.length_singleton] at hc
  rw [List.append_cons, ← List.append_assoc, Text.trimEnd_append, Text.trimEnd_append _ y, hr]
  split_ifs <;> simp only [List.length_append, List.length_replicate, List.length_singleton]
  · omega
  · omega

theorem size_cut (u : List Char) {c : Char} (hc : c ≠ '\n') (k : Nat) (y : List Char) :
    (ofText (u ++ c :: y)).size ≤
        (ofText (u ++ List.replicate (k + 2) Utf8.replacement ++ y)).size ∧
      (y.count '\n' ≤ capacity → (ofText (u ++ c :: y)).size <
        (ofText (u ++ List.replicate (k + 2) Utf8.replacement ++ y)).size) := by
  have hr : '\n' ∉ List.replicate (k + 2) Utf8.replacement := fun h =>
    absurd (List.eq_of_mem_replicate h) (by decide)
  by_cases hy : '\n' ∈ y
  · obtain ⟨line, rest, rfl, hline⟩ := List.eq_append_cons_of_mem hy
    have hcount : (line ++ '\n' :: rest).count '\n' = rest.count '\n' + 1 := by
      rw [List.count_append, List.count_cons_self, List.count_eq_zero.2 hline, Nat.zero_add]
    by_cases hrest : rest.count '\n' < capacity
    · have hlt : (ofText (u ++ (c :: line) ++ '\n' :: rest)).size <
          (ofText (u ++ (List.replicate (k + 2) Utf8.replacement ++ line) ++
            '\n' :: rest)).size := by
        rw [size_ofText_append_newline u (by simp [hline, Ne.symm hc]) hrest,
          size_ofText_append_newline u (by simp [hline, hr]) hrest]
        have := length_trimEnd_cut (split u).2 c k line
        omega
      simp only [List.append_assoc, List.cons_append] at hlt ⊢
      exact ⟨Nat.le_of_lt hlt, fun _ => hlt⟩
    · have heq := ofText_append_of_lt (y := line ++ '\n' :: rest) (by omega) (u ++ [c])
        (u ++ List.replicate (k + 2) Utf8.replacement)
      rw [List.append_cons, heq]
      exact ⟨Nat.le_refl _, fun h => by omega⟩
  · have hlt : (ofText (u ++ c :: y)).size <
        (ofText (u ++ (List.replicate (k + 2) Utf8.replacement ++ y))).size := by
      rw [size_ofText_append_of_not_mem u (by simp [hy, Ne.symm hc]),
        size_ofText_append_of_not_mem u (by simp [hy, hr]), List.length_cons, List.length_append,
        List.length_replicate]
      omega
    rw [List.append_assoc]
    exact ⟨Nat.le_of_lt hlt, fun _ => hlt⟩

theorem ofText_cut (u : List Char) (c rest : List UInt8) :
    (ofText (u ++ Utf8.decode (c ++ rest))).size ≤
        (ofText (u ++ Utf8.decode c ++ Utf8.decode rest)).size ∧
      (Utf8.Splits c rest → rest.count 0x0A ≤ capacity →
        (ofText (u ++ Utf8.decode (c ++ rest))).size <
          (ofText (u ++ Utf8.decode c ++ Utf8.decode rest)).size) ∧
      ((Utf8.Splits c rest → capacity < rest.count 0x0A) →
        ofText (u ++ Utf8.decode (c ++ rest)) =
          ofText (u ++ Utf8.decode c ++ Utf8.decode rest)) := by
  by_cases h : Utf8.Splits c rest
  · obtain ⟨x, ch, k, y, hwhole, hparts, hch, hy⟩ := Utf8.decode_of_splits h
    obtain ⟨hle, hlt⟩ := size_cut (u ++ x) hch k y
    rw [hy] at hlt
    rw [List.append_assoc u, hwhole, hparts, ← List.append_assoc, ← List.append_assoc,
      ← List.append_assoc]
    refine ⟨hle, fun _ => hlt, fun hc => ?_⟩
    rw [List.append_cons]
    exact ofText_append_of_lt (by rw [hy]; exact hc h) _ _
  · rw [Utf8.decode_append h, List.append_assoc]
    exact ⟨Nat.le_refl _, fun hs => absurd hs h, fun _ => rfl⟩

theorem ofText_text {chunks : List (List UInt8)}
    (h : ∀ xs ys, chunks = xs ++ ys → Utf8.Splits xs.flatten ys.flatten →
      capacity < ys.flatten.count 0x0A) (u : List Char) :
    ofText (u ++ text chunks) = ofText (u ++ Utf8.decode chunks.flatten) := by
  induction chunks generalizing u with
  | nil => simp [text, Utf8.decode]
  | cons c chunks ih =>
    have hrest := ih (fun xs ys hxs hs => h (c :: xs) ys (by rw [hxs, List.cons_append])
      (hs.append_left c)) (u ++ Utf8.decode c)
    have hcut := (ofText_cut u c chunks.flatten).2.2 fun hs =>
      h [c] chunks rfl (by simpa using hs)
    rw [text_cons, ← List.append_assoc, hrest, List.flatten_cons, hcut]

theorem size_text_le (chunks : List (List UInt8)) (u : List Char) :
    (ofText (u ++ Utf8.decode chunks.flatten)).size ≤ (ofText (u ++ text chunks)).size := by
  induction chunks generalizing u with
  | nil => simp [text, Utf8.decode]
  | cons c chunks ih =>
    rw [text_cons, ← List.append_assoc, List.flatten_cons]
    exact Nat.le_trans (ofText_cut u c chunks.flatten).1 (ih _)

theorem size_text_lt {xs ys : List (List UInt8)} (hs : Utf8.Splits xs.flatten ys.flatten)
    (hys : ys.flatten.count 0x0A ≤ capacity) (u : List Char) :
    (ofText (u ++ Utf8.decode (xs ++ ys).flatten)).size <
      (ofText (u ++ text (xs ++ ys))).size := by
  induction xs generalizing u with
  | nil => exact absurd hs (Utf8.not_splits_nil _)
  | cons c xs ih =>
    have hcut := ofText_cut u c (xs ++ ys).flatten
    rw [List.cons_append, text_cons, ← List.append_assoc, List.flatten_cons]
    -- The character that is cut begins after `c` or in it; in `c`, the cut after `c` is one too.
    rcases hs.of_append with hs | ⟨hs, hcount⟩
    · exact Nat.lt_of_le_of_lt hcut.1 (ih hs _)
    · rw [← List.flatten_append] at hs
      refine Nat.lt_of_lt_of_le (hcut.2.1 hs ?_) (size_text_le _ _)
      rw [List.flatten_append, List.count_append, hcount, Nat.zero_add]
      exact hys

theorem cuts_go_unnoticed_iff (earlier chunks : List (List UInt8)) :
    let l : LogBuffer := writeAll {} earlier
    let parts := l.writeAll chunks
    let whole := l.write chunks.flatten
    ((∀ n, parts.tail n = whole.tail n) ∧ parts.drain = whole.drain) ↔
      ∀ xs ys, chunks = xs ++ ys → Utf8.Splits xs.flatten ys.flatten →
        capacity < ys.flatten.count 0x0A := by
  intro l parts whole
  have hparts : parts = ofText (text earlier ++ text chunks) := by
    rw [← writeAll_ofText, ← writeAll_new]
  have hwhole : whole = ofText (text earlier ++ Utf8.decode chunks.flatten) := by
    change (writeAll {} earlier).write chunks.flatten = _
    rw [writeAll_new, write, ofText_append]
  constructor
  -- A line that one cut changed may be changed again by another, but it only ever grows.
  · rintro ⟨-, hdrain⟩ xs ys rfl hs
    refine Nat.lt_of_not_le fun hys => ?_
    have hlt := size_text_lt hs hys (text earlier)
    rw [← hparts, ← hwhole, size, size, hdrain] at hlt
    exact Nat.lt_irrefl _ hlt
  · intro h
    rw [hparts, hwhole, ofText_text h]
    exact ⟨fun _ => rfl, rfl⟩

theorem cut_within_a_letter :
    (writeAll {} [[0xC3], [0xA9, 0x0A]]).tail 1 = [[Utf8.replacement, Utf8.replacement]] ∧
      (write {} [0xC3, 0xA9, 0x0A]).tail 1 = [['é']] := by
  decide +kernel

end LogBuffer

end Chip8
