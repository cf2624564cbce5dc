import Chip8.Listing
import Chip8.Proofs.Instruction.Encoding

namespace Chip8

namespace Hex

theorem digit_ne_mark (c : LetterCase) (d : Fin 16) : digit c d ∉ ['(', ')', '\t'] := by
  revert d
  cases c <;> decide

theorem not_mem_digits {c : LetterCase} {width n : Nat} {mark : Char}
    (hm : mark ∈ ['(', ')', '\t']) : mark ∉ digits c width n := by
  intro h
  obtain ⟨d, rfl⟩ := mem_digits h
  exact digit_ne_mark c d hm

end Hex

namespace Listing

inductive Piece where
  | letter (c : Char)
  | hole (f : Operand)
  deriving DecidableEq, Repr

def pieces : List Char → List Piece
  | 'n' :: 'n' :: 'n' :: rest => .hole .nnn :: pieces rest
  | 'k' :: 'k' :: rest => .hole .kk :: pieces rest
  | 'n' :: rest => .hole .n :: pieces rest
  | 'x' :: rest => .hole .x :: pieces rest
  | 'y' :: rest => .hole .y :: pieces rest
  | c :: rest => .letter c :: pieces rest
  | [] => []

def Piece.name? : Piece → Option (List Char)
  | letter _ => none
  | hole f => some f.name.toList

abbrev Entry := List Char × List Char

def Piece.fill (entries : List Entry) : Piece → List Char
  | letter c => [c]
  | hole f => (entries.lookup f.name.toList).getD []

def fill (entries : List Entry) (text : List Char) : List Char :=
  (pieces text).flatMap (Piece.fill entries)

def inParens (line : List Char) : List Char :=
  ((line.dropWhile (· ≠ '(')).drop 1).takeWhile (· ≠ ')')

def pastParens (line : List Char) : List Char := (line.dropWhile (· ≠ ')')).drop 1

def cells (text : List Char) : List (List Char) :=
  (text.splitOn '\t').filter fun cell => !cell.isEmpty

def entry (cell : List Char) : Entry :=
  (cell.takeWhile (· ≠ ':'), (cell.dropWhile (· ≠ ':')).drop 4)

def entries (line : List Char) : List Entry := (cells (pastParens line)).map entry

section Marks

variable {c : Char} {a b : List Char}

theorem dropWhile_ne_mark (h : c ∉ a) : (a ++ c :: b).dropWhile (· ≠ c) = c :: b := by
  rw [List.dropWhile_append_of_pos]
  · simp
  · intro x hx
    exact decide_eq_true fun e => h (e ▸ hx)

theorem takeWhile_ne_mark (h : c ∉ a) : (a ++ c :: b).takeWhile (· ≠ c) = a := by
  rw [List.takeWhile_append_of_pos]
  · simp
  · intro x hx
    exact decide_eq_true fun e => h (e ▸ hx)

theorem cells_append_tab (a b : List Char) : cells (a ++ '\t' :: b) = cells a ++ cells b := by
  rw [cells, List.splitOn_eq_splitOnP, List.splitOnP_append_cons _ _ (by rfl), List.filter_append]
  rfl

theorem cells_tab (b : List Char) : cells ('\t' :: b) = cells b := cells_append_tab [] b

theorem cells_of_no_tab (h : '\t' ∉ a) (hne : a ≠ []) : cells a = [a] := by
  rw [cells, List.splitOn_eq_splitOnP, List.splitOnP_eq_singleton]
  · simp [hne]
  · intro x hx
    exact beq_false_of_ne fun e => h (e ▸ hx)

end Marks

variable {ins : Instruction}

def cell (ins : Instruction) (f : Operand) : List Char :=
  f.name.toList ++ [':', ' ', '0', 'x'] ++ hexColumn ins f

theorem name_ne_nil (f : Operand) : f.name.toList ≠ [] := by
  cases f <;> decide

theorem not_mem_name (f : Operand) : '\t' ∉ f.name.toList ∧ ':' ∉ f.name.toList := by
  cases f <;> decide

theorem not_mem_hexColumn (ins : Instruction) (f : Operand) : '\t' ∉ hexColumn ins f := by
  cases f <;> exact Hex.not_mem_digits (by decide)

theorem cells_cell (ins : Instruction) (f : Operand) : cells (cell ins f) = [cell ins f] := by
  refine cells_of_no_tab ?_ fun h => name_ne_nil f ?_
  · simp [cell, (not_mem_name f).1, not_mem_hexColumn]
  · simp [cell] at h

theorem entry_cell (ins : Instruction) (f : Operand) :
    entry (cell ins f) = (f.name.toList, hexColumn ins f) := by
  have hc : cell ins f = f.name.toList ++ ':' :: ([' ', '0', 'x'] ++ hexColumn ins f) := by
    rw [cell, List.append_assoc]
    rfl
  rw [entry, hc, takeWhile_ne_mark (not_mem_name f).2, dropWhile_ne_mark (not_mem_name f).2]
  rfl

theorem column_of_uses {f : Operand} (h : ins.opcode.pattern.uses f = true) :
    column ins f = cell ins f ++ columnEnd f := if_pos h

theorem column_of_not_uses {f : Operand} (h : ¬ ins.opcode.pattern.uses f = true) :
    column ins f = emptyColumn f := if_neg h

theorem cells_columns {fs : List Operand} (hfs : .kk ∉ fs) (rest : List Char) :
    cells (fs.flatMap (column ins) ++ rest) =
      (fs.filter ins.opcode.pattern.uses).map (cell ins) ++ cells rest := by
  induction fs with
  | nil => rfl
  | cons f fs ih =>
    obtain ⟨hf, hfs⟩ := not_or.1 (mt List.mem_cons.2 hfs)
    rw [List.flatMap_cons, List.append_assoc]
    by_cases hu : ins.opcode.pattern.uses f = true
    · have hend : columnEnd f = ['\t'] := by
        cases f <;> first | rfl | exact absurd rfl hf
      rw [column_of_uses hu, hend, List.append_assoc, List.singleton_append, cells_append_tab,
        cells_cell, ih hfs, List.filter_cons_of_pos hu]
      rfl
    · rw [column_of_not_uses hu, List.filter_cons_of_neg hu, ← ih hfs]
      cases f <;> rfl

theorem cells_all_columns (ins : Instruction) :
    cells (Operand.all.flatMap (column ins)) = ins.opcode.fields.map (cell ins) := by
  -- all columns but the last end with a tab
  have hall : Operand.all = [.nnn, .n, .x, .y] ++ [.kk] := rfl
  rw [Opcode.fields, Pattern.fields, hall, List.flatMap_append, cells_columns (by decide),
    List.filter_append, List.map_append, List.flatMap_singleton]
  by_cases hu : ins.opcode.pattern.uses .kk = true
  · rw [column_of_uses hu, columnEnd, List.append_nil, cells_cell, List.filter_cons_of_pos hu]
    rfl
  · rw [column_of_not_uses hu, List.filter_cons_of_neg hu]
    rfl

def lead (l : Line) (o : Opcode) : List Char :=
  ['0', 'x'] ++ Hex.word .lower l.address ++ ['\t'] ++ Hex.word .upper l.word ++ ['\t'] ++
    Text.pad .left mnemonicWidth o.mnemonic.toList ++ ['\t']

theorem letters_of_decode? {l : Line} (h : Instruction.decode? l.word = some ins) :
    l.letters = lead l ins.opcode ++
      '(' :: (ins.opcode.pattern.letters ++ ')' :: '\t' :: Operand.all.flatMap (column ins)) := by
  rw [Line.letters, h]
  simp only [body, lead, List.append_assoc, List.cons_append, List.nil_append]

theorem not_mem_mnemonic : ∀ o ∈ Opcode.all,
    '(' ∉ Text.pad .left mnemonicWidth o.mnemonic.toList ∧
      ')' ∉ Text.pad .left mnemonicWidth o.mnemonic.toList := by
  decide +kernel

theorem not_mem_pattern : ∀ o ∈ Opcode.all, ')' ∉ o.pattern.letters := by
  decide

theorem not_mem_lead (l : Line) (o : Opcode) : '(' ∉ lead l o ∧ ')' ∉ lead l o := by
  have hmark {mark : Char} (hm : mark ∈ ['(', ')', '\t']) (hmn : mark ∉ ['0', 'x', '\t'])
      (ho : mark ∉ Text.pad .left mnemonicWidth o.mnemonic.toList) : mark ∉ lead l o := by
    simp only [List.mem_cons, List.not_mem_nil, or_false, not_or] at hmn
    simp only [lead, Hex.word, List.mem_append, List.mem_cons, List.not_mem_nil, or_false, not_or]
    exact ⟨⟨⟨⟨⟨⟨⟨hmn.1, hmn.2.1⟩, Hex.not_mem_digits hm⟩, hmn.2.2⟩, Hex.not_mem_digits hm⟩,
      hmn.2.2⟩, ho⟩, hmn.2.2⟩
  obtain ⟨hopen, hclose⟩ := not_mem_mnemonic o o.mem_all
  exact ⟨hmark (by decide) (by decide) hopen, hmark (by decide) (by decide) hclose⟩

theorem inParens_letters {l : Line} (h : Instruction.decode? l.word = some ins) :
    inParens l.letters = ins.opcode.pattern.letters := by
  rw [letters_of_decode? h, inParens, dropWhile_ne_mark (not_mem_lead _ _).1]
  exact takeWhile_ne_mark (not_mem_pattern _ (Opcode.mem_all _))

theorem entries_letters {l : Line} (h : Instruction.decode? l.word = some ins) :
    entries l.letters = ins.opcode.fields.map fun f => (f.name.toList, hexColumn ins f) := by
  have hpast : pastParens l.letters = '\t' :: Operand.all.flatMap (column ins) := by
    have hl : l.letters = (lead l ins.opcode ++ '(' :: ins.opcode.pattern.letters) ++
        ')' :: '\t' :: Operand.all.flatMap (column ins) := by
      rw [letters_of_decode? h, List.append_assoc, List.cons_append]
    have hmark : ')' ∉ lead l ins.opcode ++ '(' :: ins.opcode.pattern.letters := by
      simp [not_mem_lead, not_mem_pattern _ (Opcode.mem_all _)]
    rw [hl, pastParens, dropWhile_ne_mark hmark]
    rfl
  rw [entries, hpast, cells_tab, cells_all_columns, List.map_map]
  exact List.map_congr_left fun f _ => entry_cell ins f

theorem hexColumn_join (o : Opcode) (a b c d : Nibble) (f : Operand) :
    hexColumn ⟨o, Nibble.join a b c d⟩ f = (f.places b c d).map (Hex.digit .lower) := by
  cases f with
  | nnn =>
    rw [hexColumn, Instruction.val_nnn_join, Hex.digits_mul_add, Hex.digits_mul_add,
      Hex.digits_one]
    rfl
  | n => rw [hexColumn, Instruction.n_join, Hex.digits_one]; rfl
  | x => rw [hexColumn, Instruction.x_join, Hex.digits_one]; rfl
  | y => rw [hexColumn, Instruction.y_join, Hex.digits_one]; rfl
  | kk =>
    rw [hexColumn, Hex.byte, Instruction.toNat_kk_join, Hex.digits_mul_add, Hex.digits_one]
    rfl

theorem pieces_digit (d : Nibble) (rest : List Char) :
    pieces (Hex.digit .upper d :: rest) = .letter (Hex.digit .upper d) :: pieces rest := by
  have hd : Hex.digit .upper d ∉ ['n', 'k', 'x', 'y'] := by
    revert d
    decide
  simp only [List.mem_cons, not_or] at hd
  rw [pieces] <;> simp [hd]

theorem pieces_x (rest : List Char) : pieces ('x' :: rest) = .hole .x :: pieces rest := by
  rw [pieces]

theorem pieces_y (rest : List Char) : pieces ('y' :: rest) = .hole .y :: pieces rest := by
  rw [pieces]

def ink : Slot → Nibble → Char
  | .digit e, _ => Hex.digit .upper e
  | .operand _, d => Hex.digit .lower d

theorem toUpper_ink {s : Slot} {d : Nibble} (h : s.Takes d) :
    (ink s d).toUpper = Hex.digit .upper d := by
  cases s with
  | digit e =>
    obtain rfl : d = e := h
    exact Hex.toUpper_digit .upper d
  | operand f => exact Hex.toUpper_digit .lower d

theorem fill_letters {p : Pattern} (hp : p.Shape) (a b c d : Nibble) :
    fill (p.fields.map fun f => (f.name.toList, (f.places b c d).map (Hex.digit .lower)))
      p.letters = [ink p.first a, ink p.second b, ink p.third c, ink p.fourth d] := by
  cases hp with
  | fixed | address | byte | pair | sprite | single =>
    simp only [Pattern.letters, Pattern.slots, List.map_cons, List.map_nil, Slot.letter,
      Operand.letter, fill, pieces_digit, pieces_x, pieces_y]
    rfl

theorem perm_names : ∀ o ∈ Opcode.all, (o.fields.map fun f => f.name.toList).Perm
    ((pieces o.pattern.letters).filterMap Piece.name?) := by
  decide

def dataMark : List Char := ['D', 'A', 'T', 'A']

theorem last_column (ins : Instruction) :
    ∃ text last, column ins .kk = text ++ [last] ∧ last ≠ 'A' := by
  by_cases hu : ins.opcode.pattern.uses .kk = true
  · have hd : ∀ d, Hex.digit .lower d ≠ 'A' := by decide
    let front := Operand.kk.name.toList ++ [':', ' ', '0', 'x']
    refine ⟨front ++ Hex.digits .lower 1 (ins.kk.toNat / 16), _, ?_,
      hd (Fin.ofNat 16 ins.kk.toNat)⟩
    rw [column_of_uses hu, columnEnd, List.append_nil, cell, hexColumn, Hex.byte, Hex.digits,
      ← List.append_assoc]
  · rw [column_of_not_uses hu]
    exact ⟨['\t'], '\t', rfl, by decide⟩

theorem not_dataMark_suffix {l : Line} (h : Instruction.decode? l.word = some ins) :
    ¬ dataMark <:+ l.letters := by
  rintro ⟨front, hfront⟩
  obtain ⟨text, last, hcol, hlast⟩ := last_column ins
  have hall : Operand.all = [.nnn, .n, .x, .y] ++ [.kk] := rfl
  have hmark : dataMark = ['D', 'A', 'T'] ++ ['A'] := rfl
  rw [letters_of_decode? h, hall, List.flatMap_append, List.flatMap_singleton, hcol,
    hmark] at hfront
  simp only [← List.append_assoc, ← List.cons_append] at hfront
  exact hlast (List.head_eq_of_cons_eq (List.append_inj' hfront rfl).2).symm

structure Shows (line : List Char) (address : Nat) (word : UInt16) : Prop where
  front : ['0', 'x'] ++ Hex.digits .lower 4 address ++ ['\t'] ++
    Hex.word .upper word ++ ['\t'] <+: line
  data : dataMark <:+ line ↔ Instruction.decode? word = none
  pattern : ∀ o : Opcode, word &&& o.fixed = o.bits → inParens line = o.inscribed
  filled : Instruction.decode? word ≠ none →
    (fill (entries line) (inParens line)).map Char.toUpper = Hex.word .upper word
  columns : Instruction.decode? word ≠ none →
    ((entries line).map Prod.fst).Perm ((pieces (inParens line)).filterMap Piece.name?)

theorem map_toUpper_fill {l : Line} (h : Instruction.decode? l.word = some ins) :
    (fill (entries l.letters) (inParens l.letters)).map Char.toUpper = Hex.word .upper l.word := by
  obtain ⟨a, b, c, d, hw⟩ := Nibble.exists_join l.word
  have hm : ins.opcode.Matches (Nibble.join a b c d) := hw ▸ Instruction.matches_of_decode? h
  obtain ⟨ha, hb, hc, hd⟩ := (Opcode.matches_join_iff ..).1 hm
  have hins : ins = ⟨ins.opcode, Nibble.join a b c d⟩ := by
    rw [← hw, ← Instruction.word_of_decode? h]
  have hcol (f : Operand) : hexColumn ins f = (f.places b c d).map (Hex.digit .lower) := by
    rw [hins]
    exact hexColumn_join _ a b c d f
  simp only [entries_letters h, inParens_letters h, hcol]
  rw [Opcode.fields, fill_letters ins.opcode.shape a b c d, hw, Hex.word_join]
  simp only [List.map_cons, List.map_nil, toUpper_ink ha, toUpper_ink hb, toUpper_ink hc,
    toUpper_ink hd]

theorem shows_letters (l : Line) : Shows l.letters l.address.toNat l.word := by
  refine ⟨List.prefix_append .., ?_, fun o ho => ?_, fun hd => ?_, fun hd => ?_⟩
  · cases h : Instruction.decode? l.word with
    | none =>
      refine iff_of_true ?_ rfl
      rw [Line.letters, h]
      exact List.suffix_append ..
    | some ins => exact iff_of_false (not_dataMark_suffix h) (Option.some_ne_none ins)
  · have h := Instruction.decode?_of_matches ((o.matches_iff_fixed l.word).2 ho)
    rw [inParens_letters h, o.letters_eq o.mem_all]
  · obtain ⟨ins, h⟩ := Option.ne_none_iff_exists'.1 hd
    exact map_toUpper_fill h
  · obtain ⟨ins, h⟩ := Option.ne_none_iff_exists'.1 hd
    rw [entries_letters h, inParens_letters h, List.map_map]
    exact perm_names _ (Opcode.mem_all _)

theorem word_of_letters {l l' : Line} (h : l.letters = l'.letters) : l.word = l'.word := by
  have hlen (c : Hex.LetterCase) (w : UInt16) : (Hex.word c w).length = 4 := Hex.length_digits ..
  simp only [Line.letters, List.append_assoc] at h
  have h := (List.append_inj h rfl).2
  have h := (List.append_inj h (by rw [hlen, hlen])).2
  have h := (List.append_inj h rfl).2
  exact Hex.word_inj (List.append_inj h (by rw [hlen, hlen])).1

theorem getElem?_ofImage {origin : UInt16} {image : List UInt8} {k : Nat} {l : Line}
    (h : (ofImage origin image)[k]? = some l) :
    l.address.toNat = (origin.toNat + 2 * k) % 65536 ∧
      ∃ high low, image[2 * k]? = some high ∧ image[2 * k + 1]? = some low ∧
        l.word = wordOf high low := by
  fun_induction ofImage origin image generalizing k with
  | case1 origin high low rest ih =>
    cases k with
    | zero =>
      obtain rfl := Option.some.inj h
      exact ⟨(Nat.mod_eq_of_lt origin.toNat_lt).symm, high, low, rfl, rfl, rfl⟩
    | succ k =>
      obtain ⟨haddress, hbytes⟩ := ih h
      refine ⟨?_, hbytes⟩
      rw [haddress, UInt16.toNat_add]
      have : (2 : UInt16).toNat = 2 := rfl
      omega
  | case2 => cases h

theorem ofImage_inj {origin origin' : UInt16} {image image' : List UInt8}
    (hlen : image'.length = image.length) (heven : image.length % 2 = 0)
    (h : (ofImage origin' image').map Line.word = (ofImage origin image).map Line.word) :
    image' = image := by
  fun_induction ofImage origin image generalizing origin' image' with
  | case1 origin high low rest ih =>
    obtain _ | ⟨high', _ | ⟨low', rest'⟩⟩ := image'
    · cases hlen
    · cases hlen
    · simp only [List.length_cons, Nat.add_right_cancel_iff] at hlen heven
      obtain ⟨hword, hrest⟩ := List.cons_eq_cons.1 h
      obtain ⟨rfl, rfl⟩ := wordOf_inj.1 hword
      rw [ih hlen (by omega) hrest]
  | case2 image _ hshort =>
    obtain _ | ⟨high, _ | ⟨low, rest⟩⟩ := image
    · exact List.length_eq_zero_iff.1 hlen
    · cases heven
    · exact absurd rfl (hshort high low rest)

theorem words_of_render {origin origin' : UInt16} {image image' : List UInt8}
    (h : render origin' image' = render origin image) :
    (ofImage origin' image').map Line.word = (ofImage origin image).map Line.word := by
  have hmap {l l' : List Line} (h : l'.map Line.render = l.map Line.render) :
      l'.map Line.word = l.map Line.word := by
    induction l generalizing l' with
    | nil => rw [List.map_eq_nil_iff.1 h]
    | cons x l ih =>
      obtain ⟨x', rest, rfl, hx, hrest⟩ := List.map_eq_cons_iff.1 h
      rw [List.map_cons, List.map_cons, word_of_letters (String.ofList_injective hx), ih hrest]
  exact hmap h

theorem listing_tells_image (origin : UInt16) (image : List UInt8) :
    (render origin image).length = image.length / 2 ∧
    (∀ k line, (render origin image)[k]? = some line →
      ∃ high low, image[2 * k]? = some high ∧ image[2 * k + 1]? = some low ∧
        Shows line.toList ((origin.toNat + 2 * k) % 65536) (wordOf high low)) ∧
    ∀ origin' image', image'.length = image.length → image.length % 2 = 0 →
      render origin' image' = render origin image → image' = image := by
  refine ⟨?_, fun k line h => ?_, fun origin' image' hlen heven h => ?_⟩
  · rw [render, List.length_map, length_ofImage]
  · rw [render, List.getElem?_map, Option.map_eq_some_iff] at h
    obtain ⟨l, hl, rfl⟩ := h
    obtain ⟨haddress, high, low, hhigh, hlow, hword⟩ := getElem?_ofImage hl
    refine ⟨high, low, hhigh, hlow, ?_⟩
    rw [← haddress, ← hword, Line.render, String.toList_ofList]
    exact shows_letters l
  · exact ofImage_inj hlen heven (words_of_render h)

def overEnd : List UInt8 := [0xD1, 0x2A, 0xFF, 0xFF]

def lineOfSprite : String :=
  "0xfffe\tD12A\tDRW        \t(Dxyn)\t\t\t\tn: 0xa\tx: 0x1\ty: 0x2\t\t\t"

def lineOfData : String := "0x0000\tFFFF\tDATA"

theorem listing_tells_image_over_end :
    render 0xFFFE overEnd = [lineOfSprite, lineOfData] ∧
      (fill (entries lineOfSprite.toList) (inParens lineOfSprite.toList)).map Char.toUpper =
        ['D', '1', '2', 'A'] ∧
      dataMark <:+ lineOfData.toList ∧
      render 0xFFFE [0xD1, 0x2B, 0xFF, 0xFF] ≠ [lineOfSprite, lineOfData] := by
  have hr : render 0xFFFE overEnd = [lineOfSprite, lineOfData] := by decide +kernel
  obtain ⟨-, hlines, himage⟩ := listing_tells_image 0xFFFE overEnd
  rw [hr] at hlines himage
  obtain ⟨high, low, hhigh, hlow, hfirst⟩ := hlines 0 _ rfl
  obtain rfl : 0xD1 = high := Option.some.inj hhigh
  obtain rfl : 0x2A = low := Option.some.inj hlow
  obtain ⟨high, low, hhigh, hlow, hlast⟩ := hlines 1 _ rfl
  obtain rfl : 0xFF = high := Option.some.inj hhigh
  obtain rfl : 0xFF = low := Option.some.inj hlow
  exact ⟨hr, hfirst.filled (by decide), hlast.data.2 (by decide),
    fun h => absurd (himage 0xFFFE [0xD1, 0x2B, 0xFF, 0xFF] rfl rfl h) (by decide)⟩

end Listing

end Chip8
