import Chip8.Console.Render
import Chip8.Proofs.Console.Tiling
import Chip8.Proofs.Text.Plain

namespace Chip8

namespace Cell

theorem ofSpan_of_plain {s : Span} (h : ∀ c ∈ s.text, Text.IsPlain c) :
    ofSpan s = s.text.map (ofChar · s.style) := by
  have hshown : ∀ cluster ∈ s.text.map ([·]), !cluster.any Text.isControl := by
    simpa using fun c hc => (h c hc).shown
  rw [ofSpan, Text.clusters_of_other fun c hc => (h c hc).kind, List.filter_eq_self.2 hshown,
    List.map_map]
  rfl

theorem fit_eq_self {columns used : Nat} {cells : List Cell} (h : ∀ c ∈ cells, c.width = 1)
    (hlen : used + cells.length ≤ columns) : fit columns used cells = cells := by
  induction cells generalizing used with
  | nil => rfl
  | cons c rest ih =>
    rw [List.length_cons] at hlen
    rw [fit, h c (by simp), if_neg (by omega), if_neg (by omega),
      ih (fun d hd => h d (by simp [hd])) (by omega)]

theorem flatMap_spread {cells : List Cell} (h : ∀ c ∈ cells, c.width = 1) :
    cells.flatMap spread = cells := by
  induction cells with
  | nil => rfl
  | cons c rest ih =>
    have hspread : c.spread = [c] := by rw [spread, h c (by simp)]; rfl
    rw [List.flatMap_cons, hspread, ih fun d hd => h d (by simp [hd])]
    rfl

def letters (line : List Span) : List Char := line.flatMap Span.text

theorem ofLine_of_plain {columns : Nat} {line : List Span}
    (h : ∀ c ∈ letters line, Text.IsPlain c) (hlen : (letters line).length ≤ columns) :
    (ofLine columns line).map symbol = (letters line).map ([·]) := by
  have hspan : ∀ s ∈ line, ∀ c ∈ s.text, Text.IsPlain c := fun s hs c hc =>
    h c (List.mem_flatMap.2 ⟨s, hs, hc⟩)
  have hsymbols : (line.flatMap ofSpan).map symbol = (letters line).map ([·]) := by
    have hmap : ∀ s ∈ line, (ofSpan s).map symbol = s.text.map ([·]) := by
      intro s hs
      rw [ofSpan_of_plain (hspan s hs), List.map_map]
      rfl
    rw [letters, List.map_flatMap, List.map_flatMap, List.flatMap_def, List.flatMap_def,
      List.map_congr_left hmap]
  have hwidth : ∀ c ∈ line.flatMap ofSpan, c.width = 1 := by
    intro c hc
    obtain ⟨s, hs, hcs⟩ := List.mem_flatMap.1 hc
    rw [ofSpan_of_plain (hspan s hs)] at hcs
    obtain ⟨ch, hch, rfl⟩ := List.mem_map.1 hcs
    exact (hspan s hs ch hch).width
  have hcells : (line.flatMap ofSpan).length = (letters line).length := by
    simpa using congrArg List.length hsymbols
  rw [ofLine, fit_eq_self hwidth (by omega), flatMap_spread hwidth, hsymbols]

end Cell

namespace Painting

theorem rows_eq_none {r : Rect} {side : Side} {lines : List (List Cell)} {x y : Nat}
    (h : ¬ r.Contains x y) : rows r side lines x y = none :=
  if_neg h

theorem rows_middle {r : Rect} {lines : List (List Cell)} {cells : List Cell} {cell : Cell}
    {j k : Nat} (hline : lines[k]? = some cells) (hk : k < r.height)
    (hlen : cells.length ≤ r.width) (hcell : cells[j]? = some cell) :
    rows r .middle lines (r.x + (r.width / 2 - cells.length / 2) + j) (r.y + k) = some cell := by
  have hj : j < cells.length := (List.getElem?_eq_some_iff.1 hcell).1
  have hplace : r.Contains (r.x + (r.width / 2 - cells.length / 2) + j) (r.y + k) := by
    refine ⟨?_, ?_, ?_, ?_⟩ <;> omega
  rw [rows, if_pos hplace, Nat.add_sub_cancel_left, hline, Option.bind_some, Side.margin]
  rw [if_pos (by omega), ← hcell]
  congr 1
  omega

theorem border_eq_none {r : Rect} {title : String} {x y : Nat} (h : ¬ r.Contains x y) :
    border r title x y = none :=
  if_pos h

end Painting

theorem Rect.contains_of_inner {r : Rect} {x y : Nat} (h : r.inner.Contains x y) :
    r.Contains x y := by
  simp only [inner, Contains] at *
  omega

namespace Paragraph

theorem contains_of_inside {p : Paragraph} {r : Rect} {x y : Nat}
    (h : (p.inside r).Contains x y) : r.Contains x y := by
  rw [inside] at h
  split at h
  · exact Rect.contains_of_inner h
  · exact h

theorem painting_eq_none {p : Paragraph} {r : Rect} {cells : List (List Cell)} {x y : Nat}
    (h : ¬ r.Contains x y) : p.painting r cells x y = none := by
  have hinside : ¬ (p.inside r).Contains x y := fun hin => h (contains_of_inside hin)
  have hframe : p.frame r x y = none := by
    rw [frame]
    cases p.title with
    | none => rfl
    | some title => exact Painting.border_eq_none h
  rw [painting, Painting.onto, Painting.rows_eq_none hinside, hframe]
  rfl

theorem painting_middle {p : Paragraph} {r : Rect} (hside : p.side = .middle)
    (htitle : p.title.isSome = true) {k j : Nat} {line : List Span} {c : Char}
    (hline : p.lines[k]? = some line) (hk : k < r.inner.height)
    (hplain : ∀ c ∈ Cell.letters line, Text.IsPlain c)
    (hlen : (Cell.letters line).length ≤ r.inner.width)
    (hc : (Cell.letters line)[j]? = some c) :
    ∃ cell, p.painting r (p.cells r)
        (r.inner.x + (r.inner.width / 2 - (Cell.letters line).length / 2) + j) (r.inner.y + k) =
          some cell ∧ cell.symbol = [c] := by
  have hinside : p.inside r = r.inner := if_pos htitle
  have hsymbols := Cell.ofLine_of_plain hplain hlen
  have hlength : (Cell.ofLine r.inner.width line).length = (Cell.letters line).length := by
    simpa using congrArg List.length hsymbols
  have hcells : (p.cells r)[k]? = some (Cell.ofLine r.inner.width line) := by
    rw [cells, hinside, List.getElem?_map, hline]
    rfl
  obtain ⟨cell, hcell, hsymbol⟩ :
      ∃ cell, (Cell.ofLine r.inner.width line)[j]? = some cell ∧ cell.symbol = [c] := by
    have hj := congrArg (fun l => l[j]?) hsymbols
    simpa [hc] using hj
  refine ⟨cell, ?_, hsymbol⟩
  have hrow := Painting.rows_middle hcells hk (hlength ▸ hlen) hcell
  rw [hlength] at hrow
  rw [painting, Painting.onto, hinside, hside, hrow, Option.some_or]

end Paragraph

structure Canvas.Holds (canvas : Canvas) (r : Rect) : Prop where
  fits : canvas.area.Fits
  within : r.Within canvas.area

theorem Tiles.holds {canvas : Canvas} {area r : Rect} {rects : List Rect} (h : Tiles rects area)
    (hc : canvas.Holds area) (hr : r ∈ rects) : canvas.Holds r :=
  ⟨hc.fits, (h.within r hr).trans hc.within⟩

structure Canvas.AgreeOff (rects : List Rect) (canvas canvas' : Canvas) : Prop where
  area : canvas.area = canvas'.area
  cell : ∀ x y, (∀ r ∈ rects, ¬ r.Contains x y) → canvas.cell x y = canvas'.cell x y

/-- What those who draw a console promise. The layout is exact. A paragraph is drawn in its own
rectangle only. In a border, the lines that are to stand in the middle of their rows do so, if they
have room and their characters take a column each. -/
structure Toolkit.Lawful (kit : Toolkit) : Prop where
  exact : kit.layout.Exact
  area : ∀ p r canvas, canvas.Holds r → (kit.draw p r canvas).area = canvas.area
  outside : ∀ p r canvas x y, canvas.Holds r → ¬ r.Contains x y →
    (kit.draw p r canvas).cell x y = canvas.cell x y
  middle : ∀ p r canvas, canvas.Holds r → p.side = .middle → p.title.isSome = true →
    ∀ k line, p.lines[k]? = some line → k < r.inner.height →
      (∀ c ∈ Cell.letters line, Text.IsPlain c) → (Cell.letters line).length ≤ r.inner.width →
        ∀ j c, (Cell.letters line)[j]? = some c →
          ((kit.draw p r canvas).cell
            (r.inner.x + (r.inner.width / 2 - (Cell.letters line).length / 2) + j)
            (r.inner.y + k)).symbol = [c]

namespace Toolkit

theorem cell_draw_standard (p : Paragraph) (r : Rect) (canvas : Canvas) (x y : Nat) :
    (standard.draw p r canvas).cell x y =
      (p.painting r (p.cells r) x y).getD (canvas.cell x y) := rfl

theorem lawful_standard : standard.Lawful where
  exact := Layout.exact_standard
  area _ _ _ _ := rfl
  outside p r canvas x y _ h := by
    rw [cell_draw_standard, Paragraph.painting_eq_none h, Option.getD_none]
  middle p r canvas _ hside htitle k line hline hk hplain hlen j c hc := by
    obtain ⟨cell, hcell, hsymbol⟩ := Paragraph.painting_middle hside htitle hline hk hplain hlen hc
    rw [cell_draw_standard, hcell, Option.getD_some, hsymbol]

variable {kit : Toolkit} {area : Rect} {canvas : Canvas}

theorem Lawful.holds_draw (hk : kit.Lawful) {r s : Rect} (p : Paragraph) (hr : canvas.Holds r)
    (hs : canvas.Holds s) : (kit.draw p r canvas).Holds s := by
  have harea := hk.area p r canvas hr
  exact ⟨harea ▸ hs.fits, harea ▸ hs.within⟩

theorem Lawful.agreeOff_drawAll (hk : kit.Lawful) (layers : List (Rect × Paragraph))
    (canvas : Canvas) (hon : ∀ layer ∈ layers, canvas.Holds layer.1) :
    Canvas.AgreeOff (layers.map Prod.fst) (kit.drawAll canvas layers) canvas := by
  induction layers generalizing canvas with
  | nil => exact ⟨rfl, fun _ _ _ => rfl⟩
  | cons layer layers ih =>
    have hfirst := hon layer (by simp)
    have hrest := ih (kit.draw layer.2 layer.1 canvas) fun l hl =>
      hk.holds_draw layer.2 hfirst (hon l (by simp [hl]))
    refine ⟨hrest.area.trans (hk.area _ _ _ hfirst), fun x y hoff => ?_⟩
    obtain ⟨hoff, hoffs⟩ := List.forall_mem_cons.1 hoff
    exact (hrest.cell x y hoffs).trans (hk.outside _ _ _ x y hfirst hoff)

theorem Lawful.cell_drawAll_of_tiles (hk : kit.Lawful) (hc : canvas.Holds area)
    (first : Rect × Paragraph) (layers : List (Rect × Paragraph)) {x y : Nat}
    (htiles : Tiles ((first :: layers).map Prod.fst) area) (hxy : first.1.Contains x y) :
    (kit.drawAll canvas (first :: layers)).cell x y =
      (kit.draw first.2 first.1 canvas).cell x y := by
  have hholds : ∀ layer ∈ first :: layers, canvas.Holds layer.1 := fun layer hl =>
    htiles.holds hc (List.mem_map_of_mem hl)
  have hdisjoint := (List.pairwise_cons.1 htiles.disjoint).1
  have hrest := hk.agreeOff_drawAll layers (kit.draw first.2 first.1 canvas) fun layer hl =>
    hk.holds_draw first.2 (hholds first (by simp)) (hholds layer (by simp [hl]))
  exact hrest.cell x y fun r hr hin => hdisjoint r hr x y ⟨hxy, hin⟩

end Toolkit

theorem Canvas.getElem?_rows (canvas : Canvas) {x y : Nat} (hx : x < canvas.area.width)
    (hy : y < canvas.area.height) :
    (canvas.rows[y]?).bind (·[x]?) =
      some (canvas.cell (canvas.area.x + x) (canvas.area.y + y)) := by
  simp [rows, List.getElem?_range hx, List.getElem?_range hy]

namespace Console

theorem isPlain_block : Text.IsPlain block := by
  constructor <;> decide +kernel

theorem isPlain_space : Text.IsPlain ' ' := by
  constructor <;> decide +kernel

theorem letters_pictureLine (p : Picture) (y : Picture.Row) :
    Cell.letters (pictureLine p y) = (p.row y).map fun lit => if lit then block else ' ' := by
  simp [Cell.letters, pictureLine]

theorem isPlain_pictureLine (p : Picture) (y : Picture.Row) :
    ∀ c ∈ Cell.letters (pictureLine p y), Text.IsPlain c := by
  intro c hc
  rw [letters_pictureLine] at hc
  obtain ⟨lit, -, rfl⟩ := List.mem_map.1 hc
  cases lit
  · exact isPlain_space
  · exact isPlain_block

theorem length_letters_pictureLine (p : Picture) (y : Picture.Row) :
    (Cell.letters (pictureLine p y)).length = 64 := by
  rw [letters_pictureLine, List.length_map, Picture.length_row]

theorem getElem?_letters_pictureLine (p : Picture) (x : Picture.Column) (y : Picture.Row) :
    (Cell.letters (pictureLine p y))[x.val]? = some (if p.pixel x y then block else ' ') := by
  rw [letters_pictureLine, Picture.row]
  simp

theorem getElem?_lines_displayPanel (p : Picture) (y : Picture.Row) :
    (displayPanel p).lines[y.val]? = some (pictureLine p y) := by
  simp [displayPanel]

variable {kit : Toolkit} {area : Rect} {canvas : Canvas}

theorem symbol_draw_displayPanel (hk : kit.Lawful) {r : Rect} (hr : canvas.Holds r)
    (hwidth : 66 ≤ r.width) (hheight : r.height = 34) (p : Picture) (x : Picture.Column)
    (y : Picture.Row) :
    ((kit.draw (displayPanel p) r canvas).cell (r.x + 1 + (r.width - 2) / 2 - 32 + x)
      (r.y + 1 + y)).symbol = [if p.pixel x y then block else ' '] := by
  have hlength := length_letters_pictureLine p y
  have hrow : y.val < r.inner.height := by
    simp only [Rect.inner, hheight]
    omega
  have hroom : (Cell.letters (pictureLine p y)).length ≤ r.inner.width := by
    simp only [Rect.inner, hlength]
    omega
  have hmiddle := hk.middle (displayPanel p) r canvas hr rfl rfl y.val _
    (getElem?_lines_displayPanel p y) hrow (isPlain_pictureLine p y) hroom x.val _
    (getElem?_letters_pictureLine p x y)
  have hcolumn : r.inner.x + (r.inner.width / 2 - (Cell.letters (pictureLine p y)).length / 2) +
      x.val = r.x + 1 + (r.width - 2) / 2 - 32 + x.val := by
    simp only [Rect.inner, hlength]
    omega
  rw [hcolumn] at hmiddle
  exact hmiddle

theorem symbol_draw (hk : kit.Lawful) (hc : canvas.Holds area) {p : Panels}
    (hp : Panels.splitBy kit.layout area = some p) (c : Console) (x : Picture.Column)
    (y : Picture.Row) :
    ((c.draw kit area canvas).cell (p.display.x + 1 + (p.display.width - 2) / 2 - 32 + x)
      (p.display.y + 1 + y)).symbol = [if c.frame.pixel x y then block else ' '] := by
  obtain ⟨h, rfl⟩ := Panels.splitBy_eq_some_iff.1 hp
  have ha : area.Fits := hc.within.fits hc.fits
  -- from here on the panels are known by these two facts alone
  have htiles := Panels.tiles_place hk.exact ha h
  have hdisplay := Panels.display_place hk.exact ha h
  generalize Panels.place kit.layout area = p at *
  have hwidth : 66 ≤ p.display.width := by
    simp only [hdisplay]
    omega
  have hheight : p.display.height = 34 := by rw [hdisplay]
  have hplace : p.display.Contains (p.display.x + 1 + (p.display.width - 2) / 2 - 32 + x)
      (p.display.y + 1 + y) := by
    refine ⟨?_, ?_, ?_, ?_⟩ <;> omega
  have hholds : canvas.Holds p.display := htiles.holds hc (by simp [Panels.all])
  have hshown := hk.cell_drawAll_of_tiles hc (p.display, displayPanel c.frame) (c.layers p).tail
    htiles hplace
  rw [draw, hp]
  exact (congrArg Cell.symbol hshown).trans
    (symbol_draw_displayPanel hk hholds hwidth hheight c.frame x y)

theorem area_draw (hk : kit.Lawful) (hc : canvas.Holds area) (c : Console) :
    (c.draw kit area canvas).area = canvas.area := by
  rw [draw]
  split
  · exact hk.area _ _ _ hc
  · next p hp =>
    obtain ⟨h, rfl⟩ := Panels.splitBy_eq_some_iff.1 hp
    have htiles : Tiles ((c.layers (Panels.place kit.layout area)).map Prod.fst) area :=
      Panels.tiles_place hk.exact (hc.within.fits hc.fits) h
    have hagree := hk.agreeOff_drawAll (c.layers _) canvas fun layer hl =>
      htiles.holds hc (List.mem_map_of_mem hl)
    exact hagree.area

theorem render_shows_picture (c : Console) {width height : Nat}
    (hw : 83 ≤ width ∧ width ≤ Rect.limit) (hh : 37 ≤ height ∧ height ≤ Rect.limit)
    (x : Picture.Column) (y : Picture.Row) :
    (((c.render width height)[1 + y.val]?).bind
        (·[1 + (width - 19) / 2 - 32 + x.val]?)).map Cell.symbol =
      some [if c.frame.pixel x y then block else ' '] := by
  have harea : Rect.clamped 0 0 width height = ⟨0, 0, width, height⟩ := by
    simp [Rect.clamped, hw.2, hh.2]
  have hfits : Rect.Fits ⟨0, 0, width, height⟩ := ⟨by simpa using hw.2, by simpa using hh.2⟩
  have hholds : (Canvas.blank ⟨0, 0, width, height⟩).Holds ⟨0, 0, width, height⟩ :=
    ⟨hfits, .refl _⟩
  have h : 83 ≤ width ∧ 37 ≤ height := ⟨hw.1, hh.1⟩
  have hkeeps := area_draw Toolkit.lawful_standard hholds c
  have hshown := symbol_draw Toolkit.lawful_standard hholds (Panels.splitBy_of_le h) c x y
  have hcolumns : width - 17 - 2 = width - 19 := Nat.sub_sub width 17 2
  simp only [Panels.display_place Toolkit.lawful_standard.exact hfits h, hcolumns,
    Nat.zero_add] at hshown
  simp only [render, harea]
  generalize c.draw .standard ⟨0, 0, width, height⟩ (.blank ⟨0, 0, width, height⟩) = canvas at *
  simp only [Canvas.blank] at hkeeps
  have hx : 1 + (width - 19) / 2 - 32 + x.val < canvas.area.width := by
    simp only [hkeeps]
    omega
  have hy : 1 + y.val < canvas.area.height := by
    simp only [hkeeps]
    omega
  rw [canvas.getElem?_rows hx hy, Option.map_some, hkeeps, Nat.zero_add, Nat.zero_add, hshown]

theorem panels_tile_and_show_picture (hk : kit.Lawful) (ha : area.Fits) :
    (Panels.splitBy kit.layout area = none ↔ area.width < 83 ∨ area.height < 37) ∧
    ∀ p, Panels.splitBy kit.layout area = some p →
      Tiles p.all area ∧ p.display.height = 34 ∧ 66 ≤ p.display.width ∧
      ∀ (c : Console) (canvas : Canvas), canvas.Holds area →
        ∀ (x : Picture.Column) (y : Picture.Row),
          ((c.draw kit area canvas).cell (p.display.x + 1 + (p.display.width - 2) / 2 - 32 + x)
            (p.display.y + 1 + y)).symbol = [if c.frame.pixel x y then '█' else ' '] := by
  refine ⟨Panels.splitBy_eq_none_iff, fun p hp => ?_⟩
  obtain ⟨h, rfl⟩ := Panels.splitBy_eq_some_iff.1 hp
  have hdisplay := Panels.display_place hk.exact ha h
  refine ⟨Panels.tiles_place hk.exact ha h, ?_, ?_, fun c canvas hc => symbol_draw hk hc hp c⟩
  · rw [hdisplay]
  · simp only [hdisplay]
    omega

def corner : Rect := ⟨65452, 65498, 83, 37⟩

def cornerPanels : Panels where
  display := ⟨65452, 65498, 66, 34⟩
  log := ⟨65452, 65532, 66, 3⟩
  state := ⟨65518, 65498, 17, 3⟩
  timers := ⟨65518, 65501, 17, 4⟩
  keypad := ⟨65518, 65505, 17, 6⟩
  help := ⟨65518, 65511, 17, 24⟩

def dotted : Console where
  machine := { options := {}, devices := {} }
  frame := Picture.blank.toggle 63 31

theorem panels_tile_and_show_picture_in_corner :
    let canvas := dotted.draw .standard corner (.blank corner)
    Toolkit.standard.Lawful ∧ corner.Fits ∧
      Panels.splitBy Toolkit.standard.layout corner = some cornerPanels ∧
      Tiles cornerPanels.all corner ∧ (canvas.cell 65516 65530).symbol = ['█'] ∧
      (canvas.cell 65453 65499).symbol = [' '] := by
  have hfits : corner.Fits := ⟨by decide, by decide⟩
  have hsplit : Panels.splitBy Toolkit.standard.layout corner = some cornerPanels := by decide
  have hholds : (Canvas.blank corner).Holds corner := ⟨hfits, .refl corner⟩
  obtain ⟨-, h⟩ := panels_tile_and_show_picture Toolkit.lawful_standard hfits
  obtain ⟨htiles, -, -, hshown⟩ := h cornerPanels hsplit
  have hlit := hshown dotted _ hholds 63 31
  have hdark := hshown dotted _ hholds 0 0
  simp only [dotted, Picture.pixel_toggle, Picture.pixel_blank] at hlit hdark
  exact ⟨Toolkit.lawful_standard, hfits, hsplit, htiles, hlit, hdark⟩

end Console

end Chip8
