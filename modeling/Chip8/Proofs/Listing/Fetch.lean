import Chip8.Proofs.Cpu.Devices
import Chip8.Proofs.Listing.RoundTrip

namespace Chip8

namespace Memory

theorem loadSize_le_length (image : List UInt8) : loadSize image ≤ image.length :=
  Nat.min_le_left ..

theorem start_add_loadSize_le (image : List UInt8) : imageStart + loadSize image ≤ 4096 :=
  Nat.add_le_of_le_sub' (by decide) (Nat.min_le_right ..)

variable (m : Memory) {image : List UInt8} {a : UInt16} {k : Nat}

theorem read_load_image {byte : UInt8} (ha : a.toNat % 4096 = imageStart + k)
    (h : image[k]? = some byte) : (m.load image).read a = byte := by
  rw [read_load, Address.val_ofWord, ha, if_pos (Nat.le_add_right ..), Nat.add_sub_cancel_left, h,
    Option.getD_some]

theorem read_load_of_outside
    (hout : a.toNat % 4096 < imageStart ∨ imageStart + loadSize image ≤ a.toNat % 4096) :
    (m.load image).read a = m.read a := by
  rw [read_load, Address.val_ofWord]
  split
  · next hstart =>
    have hpast : image.length ≤ a.toNat % 4096 - imageStart := by
      simp only [loadSize, imageCapacity] at hout
      omega
    rw [List.getElem?_eq_none hpast, Option.getD_none]
  · rfl

theorem word_load_image {high low : UInt8} (ha : a.toNat = imageStart + k)
    (hk : k + 1 < loadSize image) (hhigh : image[k]? = some high) (hlow : image[k + 1]? = some low) :
    (m.load image).word a = wordOf high low := by
  have hend := start_add_loadSize_le image
  have hnext : (a + 1).toNat = a.toNat + 1 := by
    rw [UInt16.toNat_add, UInt16.toNat_one]
    omega
  rw [word, m.read_load_image (by omega) hhigh, m.read_load_image (by omega) hlow]

end Memory

theorem Journal.report_note {e : Event} (he : e.level ≠ .trace) {least : Level}
    (hl : e.level.rank ≤ least.rank) (j : Journal) :
    (j.note e).report least = j.report least ++ [e.render] := by
  have hone : [e].filter (fun e => e.level.rank ≤ least.rank) = [e] :=
    List.filter_cons_of_pos (decide_eq_true hl)
  rw [note, if_neg fun h => he h.1, report, report, List.reverse_cons, List.filter_append, hone,
    List.map_append]
  rfl

theorem Event.render_truncated (n : Nat) : (Event.truncated n).render =
    "WARN ROM is " ++ toString n ++ " bytes, only the first 3584 bytes were loaded" := by
  have hcapacity : toString Memory.imageCapacity = "3584" := by decide +kernel
  have hfront : "WARN" ++ " " ++ "ROM is " = "WARN ROM is " := by decide +kernel
  have hend : " bytes, only the first " ++ "3584" ++ " bytes were loaded" =
      " bytes, only the first 3584 bytes were loaded" := by decide +kernel
  calc (Event.truncated n).render
    _ = "WARN" ++ " " ++ ("ROM is " ++ toString n ++ " bytes, only the first " ++
          toString Memory.imageCapacity ++ " bytes were loaded") := rfl
    _ = "WARN" ++ " " ++ "ROM is " ++ toString n ++
          (" bytes, only the first " ++ "3584" ++ " bytes were loaded") := by
      simp only [hcapacity, String.append_assoc]
    _ = "WARN ROM is " ++ toString n ++ " bytes, only the first 3584 bytes were loaded" := by
      rw [hfront, hend]

theorem Journal.report_noteImage (j : Journal) (image : List UInt8) :
    (j.noteImage image).report .warn = j.report .warn ++
      if 3584 < image.length then
        ["WARN ROM is " ++ toString image.length ++
          " bytes, only the first 3584 bytes were loaded"]
      else [] := by
  have hcapacity : Memory.imageCapacity = 3584 := rfl
  rw [noteImage, hcapacity]
  split
  · have he : (Event.truncated image.length).level ≠ .trace := nofun
    have hl : (Event.truncated image.length).level.rank ≤ Level.warn.rank := Nat.le_refl _
    rw [report_note he hl, Event.render_truncated]
  · rw [List.append_nil]

namespace Board

def watched (b : Board) : Board :=
  { b with devices := { b.devices with journal := { tracing := true } } }

def firstNote (b : Board) : Option Event := b.watched.step.1.devices.journal.events.getLast?

structure Executes (b : Board) (o : Opcode) : Prop where
  noted : b.firstNote = some (.executing b.cpu.pc o (b.cpu.memory.word b.cpu.pc))
  step : b.step = b.perform ⟨o, b.cpu.memory.word b.cpu.pc⟩

structure SkipsData (b : Board) : Prop where
  noted : b.firstNote = some (.skippingData b.cpu.pc (b.cpu.memory.word b.cpu.pc))
  step : b.step = ((b.note (.skippingData b.cpu.pc (b.cpu.memory.word b.cpu.pc))).advance, .done)

theorem events_poll (d : Devices) (key : UInt8) :
    ∃ more, (d.poll key).1.journal.events = more ++ d.journal.events := by
  simp only [Devices.poll]
  split
  · exact ⟨[], rfl⟩
  · exact ⟨[.polledMissingKey key], rfl⟩

theorem events_execute (b : Board) (ins : Instruction) :
    ∃ more, (b.execute ins).1.devices.journal.events = more ++ b.devices.journal.events := by
  rw [devices_execute]
  cases ins.opcode
  case skipPressed | skipReleased => exact events_poll ..
  case awaitKey => exact ⟨[], congrArg Journal.events (journal_awaitKey ..)⟩
  all_goals exact ⟨[], rfl⟩

theorem firstNote_of_instruction? {b : Board} {ins : Instruction}
    (h : b.cpu.instruction? = some ins) :
    b.firstNote = some (.executing b.cpu.pc ins.opcode ins.word) := by
  have hbegun : (b.watched.begun ins).devices.journal.events =
      [.executing b.cpu.pc ins.opcode ins.word] := rfl
  have hi : b.watched.cpu.instruction? = some ins := h
  rw [firstNote]
  obtain ⟨-, hd⟩ | ⟨-, ⟨c, -, hs⟩ | ⟨-, hs⟩⟩ := devices_step hi
  · obtain ⟨more, hmore⟩ := events_execute (b.watched.begun ins) ins
    rw [hd, hmore, hbegun, List.getLast?_concat]
  · rw [hs, journal_push, hbegun]
    rfl
  · rw [hs, journal_awaitKey, journal_push, hbegun]
    rfl

theorem firstNote_of_data {b : Board} (h : b.cpu.instruction? = none) :
    b.firstNote = some (.skippingData b.cpu.pc (b.cpu.memory.word b.cpu.pc)) := by
  have hi : b.watched.cpu.instruction? = none := h
  rw [firstNote, step_of_data hi]
  rfl

theorem executes_iff {b : Board} {o : Opcode} : b.Executes o ↔ b.cpu.opcode? = some o := by
  cases h : b.cpu.instruction? with
  | none =>
    have hnone : b.cpu.opcode? = none := by rw [Cpu.opcode?, h, Option.map_none]
    rw [hnone]
    refine iff_of_false (fun he => ?_) (Option.some_ne_none o).symm
    have hn := he.noted
    rw [firstNote_of_data h] at hn
    cases hn
  | some ins =>
    rw [Cpu.opcode?_of_instruction? h]
    have hw : ins.word = b.cpu.memory.word b.cpu.pc := Instruction.word_of_decode? h
    constructor
    · intro he
      have hn := he.noted
      rw [firstNote_of_instruction? h, Option.some.injEq, Event.executing.injEq] at hn
      exact congrArg some hn.2.1
    · rintro ⟨⟩
      refine ⟨by rw [firstNote_of_instruction? h, hw], ?_⟩
      rw [← hw, step_eq_dispatch, dispatch]
      rw [Cpu.instruction?] at h
      rw [h]

theorem skipsData_iff {b : Board} : b.SkipsData ↔ b.cpu.instruction? = none := by
  refine ⟨fun hs => ?_, fun h => ⟨firstNote_of_data h, step_of_data h⟩⟩
  cases h : b.cpu.instruction? with
  | none => rfl
  | some ins =>
    have hn := hs.noted
    rw [firstNote_of_instruction? h] at hn
    cases hn

theorem exists_executes_iff {b : Board} : (∃ o, b.Executes o) ↔ ¬ b.SkipsData := by
  simp only [executes_iff, skipsData_iff, ← Option.ne_none_iff_exists', Cpu.opcode?,
    ne_eq, Option.map_eq_none_iff]

end Board

namespace Listing

def printed (line : List Char) : List Char := ((cells line)[2]?.getD []).takeWhile (· ≠ ' ')

theorem cells_mnemonic : ∀ o ∈ Opcode.all,
    '\t' ∉ Text.pad .left mnemonicWidth o.mnemonic.toList ∧
      Text.pad .left mnemonicWidth o.mnemonic.toList ≠ [] ∧
      (Text.pad .left mnemonicWidth o.mnemonic.toList).takeWhile (· ≠ ' ') =
        o.mnemonic.toList := by
  decide +kernel

theorem mnemonic_inj : ∀ o ∈ Opcode.all, ∀ o' ∈ Opcode.all,
    o.mnemonic.toList = o'.mnemonic.toList → o = o' := by
  decide +kernel

theorem mnemonic_ne_dataMark : ∀ o ∈ Opcode.all, o.mnemonic.toList ≠ dataMark := by
  decide +kernel

theorem printed_of_cells {l : Line} {text first : List Char} {rest : List (List Char)}
    (h : l.letters = ['0', 'x'] ++ Hex.word .lower l.address ++
      '\t' :: (Hex.word .upper l.word ++ '\t' :: text)) (hc : cells text = first :: rest) :
    printed l.letters = first.takeWhile (· ≠ ' ') := by
  have htab {c : Hex.LetterCase} {w : UInt16} : '\t' ∉ Hex.word c w :=
    Hex.not_mem_digits (by decide)
  have hne : Hex.word .upper l.word ≠ [] := by
    intro hnil
    have hlen : (Hex.word .upper l.word).length = 4 := Hex.length_digits ..
    rw [hnil] at hlen
    cases hlen
  rw [h, printed, cells_append_tab, cells_append_tab, hc,
    cells_of_no_tab (by simp [htab]) (by simp), cells_of_no_tab htab hne]
  rfl

theorem printed_of_data {l : Line} (h : Instruction.decode? l.word = none) :
    printed l.letters = dataMark := by
  have hcells : cells dataMark = [dataMark] := by decide
  have hl : l.letters = ['0', 'x'] ++ Hex.word .lower l.address ++
      '\t' :: (Hex.word .upper l.word ++ '\t' :: dataMark) := by
    rw [Line.letters, h]
    simp only [List.append_assoc, List.cons_append, List.nil_append, dataMark]
  rw [printed_of_cells hl hcells]
  decide

theorem printed_of_decode? {l : Line} {ins : Instruction}
    (h : Instruction.decode? l.word = some ins) :
    printed l.letters = ins.opcode.mnemonic.toList := by
  obtain ⟨htab, hne, hname⟩ := cells_mnemonic _ (Opcode.mem_all ins.opcode)
  let name := Text.pad .left mnemonicWidth ins.opcode.mnemonic.toList
  let tail := '(' :: (ins.opcode.pattern.letters ++ ')' :: '\t' :: Operand.all.flatMap (column ins))
  have hcells : cells (name ++ '\t' :: tail) = name :: cells tail := by
    rw [cells_append_tab, cells_of_no_tab htab hne]
    rfl
  have hl : l.letters = ['0', 'x'] ++ Hex.word .lower l.address ++
      '\t' :: (Hex.word .upper l.word ++ '\t' :: (name ++ '\t' :: tail)) := by
    rw [letters_of_decode? h, lead]
    simp only [List.append_assoc, List.cons_append, List.nil_append, name, tail]
  rw [printed_of_cells hl hcells, hname]

theorem printed_eq_mnemonic_iff {l : Line} {b : Board} (h : b.cpu.memory.word b.cpu.pc = l.word)
    (o : Opcode) : printed l.letters = o.mnemonic.toList ↔ b.Executes o := by
  have hi : b.cpu.instruction? = Instruction.decode? l.word := by rw [Cpu.instruction?, h]
  rw [Board.executes_iff]
  cases hd : Instruction.decode? l.word with
  | none =>
    rw [printed_of_data hd, Cpu.opcode?, hi, hd]
    exact iff_of_false (fun he => mnemonic_ne_dataMark o o.mem_all he.symm)
      (Option.some_ne_none o).symm
  | some ins =>
    rw [printed_of_decode? hd, Cpu.opcode?_of_instruction? (hi.trans hd), Option.some.injEq]
    exact ⟨mnemonic_inj _ (Opcode.mem_all _) o o.mem_all, fun he => he ▸ rfl⟩

theorem exists_line (origin : UInt16) {image : List UInt8} {k : Nat}
    (h : 2 * k + 1 < image.length) : ∃ l, (ofImage origin image)[k]? = some l := by
  have hk : k < (ofImage origin image).length := by
    rw [length_ofImage]
    omega
  exact ⟨_, List.getElem?_eq_getElem hk⟩

theorem listing_tells_fetches (image : List UInt8) :
    (∀ k, 2 * k + 1 < min image.length 3584 → ∀ b : Board,
      b.cpu.memory = Memory.blank.load image → b.cpu.pc.toNat = 0x200 + 2 * k →
      ∃ line, (render defaultOrigin image)[k]? = some line ∧
        ['0', 'x'] ++ Hex.word .lower b.cpu.pc ++ ['\t'] ++
          Hex.word .upper (b.cpu.memory.word b.cpu.pc) ++ ['\t'] <+: line.toList ∧
        (∀ o : Opcode, printed line.toList = o.mnemonic.toList ↔ b.Executes o) ∧
        ((∃ o, b.Executes o) ↔ ¬ dataMark <:+ line.toList) ∧
        (dataMark <:+ line.toList ↔ b.SkipsData)) ∧
    Memory.loadSize image = min image.length 3584 ∧
    (∀ m : Memory, ∀ a : UInt16,
      if 0x200 ≤ a.toNat % 4096 ∧ a.toNat % 4096 < 0x200 + Memory.loadSize image then
        some ((m.load image).read a) = image[a.toNat % 4096 - 0x200]?
      else (m.load image).read a = m.read a) ∧
    ∀ j : Journal, (j.noteImage image).report .warn = j.report .warn ++
      if 3584 < image.length then
        ["WARN ROM is " ++ toString image.length ++
          " bytes, only the first 3584 bytes were loaded"]
      else [] := by
  refine ⟨fun k hk b hm hpc => ?_, rfl, fun m a => ?_, fun j => j.report_noteImage image⟩
  · have hsize : 2 * k + 1 < Memory.loadSize image := hk
    obtain ⟨l, hl⟩ := exists_line defaultOrigin
      (Nat.lt_of_lt_of_le hsize (Memory.loadSize_le_length image))
    obtain ⟨haddress, high, low, hhigh, hlow, hword⟩ := getElem?_ofImage hl
    have hend := Memory.start_add_loadSize_le image
    have hstart : Memory.imageStart = 0x200 := rfl
    have horigin : defaultOrigin.toNat = 0x200 := rfl
    have haddress : l.address = b.cpu.pc := by
      apply UInt16.toNat_inj.1
      rw [haddress, hpc, horigin]
      omega
    have hfetch : b.cpu.memory.word b.cpu.pc = l.word := by
      rw [hm, hword]
      exact Memory.word_load_image _ hpc hsize hhigh hlow
    have hshows := shows_letters l
    have hskips : dataMark <:+ l.letters ↔ b.SkipsData := by
      rw [hshows.data, Board.skipsData_iff, Cpu.instruction?, hfetch]
    refine ⟨l.render, ?_, ?_⟩
    · rw [render, List.getElem?_map, hl, Option.map_some]
    · rw [Line.render, String.toList_ofList, hfetch, ← haddress]
      refine ⟨hshows.front, printed_eq_mnemonic_iff hfetch, ?_, hskips⟩
      rw [Board.exists_executes_iff, hskips]
  · have hstart : Memory.imageStart = 0x200 := rfl
    split
    · next h =>
      have hk : a.toNat % 4096 - 0x200 < image.length := by
        have := Memory.loadSize_le_length image
        omega
      have hbyte := List.getElem?_eq_getElem hk
      rw [hbyte, m.read_load_image (by omega) hbyte]
    · next h => exact m.read_load_of_outside (by omega)

def jumpToData : List UInt8 := [0x12, 0x02, 0xFF, 0xFF, 0x60]

def aboutToFetch (pc : UInt16) : Board :=
  ⟨{ memory := Memory.blank.load jumpToData, pc, v := Vector.replicate 16 7, sp := 3 },
    { keypad := { interrupted := true } }⟩

theorem listing_tells_fetches_of_jump :
    2 * 1 + 1 < min jumpToData.length 3584 ∧
      render defaultOrigin jumpToData =
        ["0x0200\t1202\tJP         \t(1nnn)\tnnn: 0x202\t\t\t\t\t\t\t\t\t", "0x0202\tFFFF\tDATA"] ∧
      (aboutToFetch 0x200).Executes .jump ∧ (aboutToFetch 0x202).SkipsData := by
  have hr : render defaultOrigin jumpToData =
      ["0x0200\t1202\tJP         \t(1nnn)\tnnn: 0x202\t\t\t\t\t\t\t\t\t",
        "0x0202\tFFFF\tDATA"] := by
    decide +kernel
  obtain ⟨hlines, -⟩ := listing_tells_fetches jumpToData
  rw [hr] at hlines
  refine ⟨by decide, hr, ?_, ?_⟩
  · obtain ⟨line, hline, -, hexecutes, -⟩ := hlines 0 (by decide) (aboutToFetch 0x200) rfl rfl
    obtain rfl := Option.some.inj hline
    exact (hexecutes .jump).1 (by decide +kernel)
  · obtain ⟨line, hline, -, -, -, hskips⟩ := hlines 1 (by decide) (aboutToFetch 0x202) rfl rfl
    obtain rfl := Option.some.inj hline
    exact hskips.1 (by decide +kernel)

end Listing

end Chip8
