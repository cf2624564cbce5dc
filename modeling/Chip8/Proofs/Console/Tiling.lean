import Chip8.Console.Panels

namespace Chip8

namespace Rect

variable {r s t : Rect} {d : Direction}

structure Fits (r : Rect) : Prop where
  x : r.x + r.width ≤ limit
  y : r.y + r.height ≤ limit

structure Within (r s : Rect) : Prop where
  left : s.x ≤ r.x
  right : r.x + r.width ≤ s.x + s.width
  top : s.y ≤ r.y
  bottom : r.y + r.height ≤ s.y + s.height

def Disjoint (r s : Rect) : Prop := ∀ x y, ¬ (r.Contains x y ∧ s.Contains x y)

theorem Within.refl (r : Rect) : r.Within r :=
  ⟨Nat.le_refl _, Nat.le_refl _, Nat.le_refl _, Nat.le_refl _⟩

theorem Within.trans (h : r.Within s) (h' : s.Within t) : r.Within t :=
  ⟨Nat.le_trans h'.left h.left, Nat.le_trans h.right h'.right, Nat.le_trans h'.top h.top,
    Nat.le_trans h.bottom h'.bottom⟩

theorem Within.fits (h : r.Within s) (hs : s.Fits) : r.Fits :=
  ⟨Nat.le_trans h.right hs.x, Nat.le_trans h.bottom hs.y⟩

theorem Within.contains (h : r.Within s) {x y : Nat} (hr : r.Contains x y) : s.Contains x y :=
  ⟨Nat.le_trans h.left hr.1, Nat.lt_of_lt_of_le hr.2.1 h.right, Nat.le_trans h.top hr.2.2.1,
    Nat.lt_of_lt_of_le hr.2.2.2 h.bottom⟩

theorem Disjoint.mono {r' s' : Rect} (h : r.Disjoint s) (hr : r'.Within r) (hs : s'.Within s) :
    r'.Disjoint s' :=
  fun x y hxy => h x y ⟨hr.contains hxy.1, hs.contains hxy.2⟩

theorem first_within {n : Nat} (h : n ≤ r.extent d) : (r.first d n).Within r := by
  cases d <;> constructor <;> simp only [extent, first] at * <;> omega

theorem rest_within {n : Nat} (h : n ≤ r.extent d) : (r.rest d n).Within r := by
  cases d <;> constructor <;> simp only [extent, rest] at * <;> omega

theorem first_disjoint_rest (r : Rect) (d : Direction) (n : Nat) :
    (r.first d n).Disjoint (r.rest d n) := by
  intro x y
  cases d <;> simp only [first, rest, Contains] <;> omega

theorem contains_first_or_rest {n x y : Nat} (hr : r.Contains x y) :
    (r.first d n).Contains x y ∨ (r.rest d n).Contains x y := by
  cases d <;> simp only [first, rest, Contains] at * <;> omega

theorem extent_rest (r : Rect) (d : Direction) (n : Nat) :
    (r.rest d n).extent d = r.extent d - n := by
  cases d <;> rfl

end Rect

structure Tiles (parts : List Rect) (whole : Rect) : Prop where
  within : ∀ r ∈ parts, r.Within whole
  disjoint : parts.Pairwise Rect.Disjoint
  covers : ∀ x y, whole.Contains x y → ∃ r ∈ parts, r.Contains x y

theorem tiles_singleton (r : Rect) : Tiles [r] r where
  within _ hs := List.mem_singleton.1 hs ▸ Rect.Within.refl r
  disjoint := List.pairwise_singleton _ _
  covers _ _ h := ⟨r, List.mem_singleton_self r, h⟩

theorem tiles_nil {d : Direction} {r : Rect} (h : r.extent d = 0) : Tiles [] r where
  within _ hs := absurd hs List.not_mem_nil
  disjoint := .nil
  covers x y hxy := by
    obtain ⟨hx, hx', hy, hy'⟩ := hxy
    cases d <;> simp only [Rect.extent] at h <;> omega

theorem tiles_cut {d : Direction} {r : Rect} {n : Nat} (h : n ≤ r.extent d) :
    Tiles [r.first d n, r.rest d n] r where
  within := by
    simpa using ⟨Rect.first_within h, Rect.rest_within h⟩
  disjoint := List.pairwise_pair.2 (r.first_disjoint_rest d n)
  covers x y hxy := by
    simpa using Rect.contains_first_or_rest hxy

theorem Tiles.append {ps qs : List Rect} {a b r : Rect} (h : Tiles [a, b] r) (hp : Tiles ps a)
    (hq : Tiles qs b) : Tiles (ps ++ qs) r where
  within s hs := by
    rcases List.mem_append.1 hs with hs | hs
    · exact (hp.within s hs).trans (h.within a (by simp))
    · exact (hq.within s hs).trans (h.within b (by simp))
  disjoint := by
    have hab : a.Disjoint b := List.pairwise_pair.1 h.disjoint
    exact List.pairwise_append.2 ⟨hp.disjoint, hq.disjoint,
      fun s hs t ht => hab.mono (hp.within s hs) (hq.within t ht)⟩
  covers x y hxy := by
    obtain ⟨c, hc, hcxy⟩ := h.covers x y hxy
    obtain rfl | rfl : c = a ∨ c = b := by simpa using hc
    · obtain ⟨s, hs, hsxy⟩ := hp.covers x y hcxy
      exact ⟨s, List.mem_append_left qs hs, hsxy⟩
    · obtain ⟨s, hs, hsxy⟩ := hq.covers x y hcxy
      exact ⟨s, List.mem_append_right ps hs, hsxy⟩

theorem tiles_pieces {d : Direction} {sizes : List Nat} {r : Rect}
    (h : Constraint.total sizes = r.extent d) : Tiles (r.pieces d sizes) r := by
  induction sizes generalizing r with
  | nil => exact tiles_nil h.symm
  | cons n sizes ih =>
    rw [Constraint.total] at h
    have hcut : Tiles [r.first d n, r.rest d n] r := tiles_cut (by omega)
    have hrest : Tiles ((r.rest d n).pieces d sizes) (r.rest d n) := ih (by
      rw [Rect.extent_rest]
      omega)
    exact hcut.append (tiles_singleton _) hrest

namespace Constraint

structure Room (extent : Nat) (cs : List Constraint) : Prop where
  single : cs.countP isMin = 1
  enough : total (cs.map least) ≤ extent

theorem total_map_size (rest : Nat) (cs : List Constraint) :
    total (cs.map (size rest)) = total (cs.map (size 0)) + cs.countP isMin * rest := by
  induction cs with
  | nil => simp [total]
  | cons c cs ih =>
    cases c with
    | length n => simp [total, size, isMin, ih, Nat.add_assoc]
    | min n =>
      simp only [List.map_cons, total, size, ih, List.countP_cons, isMin, if_true, Nat.add_mul]
      omega

theorem total_size_le (cs : List Constraint) :
    total (cs.map (size 0)) ≤ total (cs.map least) := by
  induction cs with
  | nil => exact Nat.le_refl _
  | cons c cs ih => cases c <;> simp only [List.map_cons, total, size, least] <;> omega

theorem Room.total_sizes {extent : Nat} {cs : List Constraint} (h : Room extent cs) :
    total (sizes extent cs) = extent := by
  have hle := Nat.le_trans (total_size_le cs) h.enough
  rw [sizes, total_map_size, h.single]
  omega

end Constraint

namespace Rect

theorem length_pieces (d : Direction) (r : Rect) (sizes : List Nat) :
    (r.pieces d sizes).length = sizes.length := by
  induction sizes generalizing r with
  | nil => rfl
  | cons n sizes ih => simp [pieces, ih]

end Rect

namespace Layout

def Exact (layout : Layout) : Prop :=
  ∀ d cs (r : Rect), r.Fits → Constraint.Room (r.extent d) cs →
    ∀ k part, (r.pieces d (Constraint.sizes (r.extent d) cs))[k]? = some part →
      layout d cs r k = part

theorem exact_standard : standard.Exact := by
  intro d cs r _ _ k part h
  rw [standard, h, Option.getD_some]

variable {layout : Layout} {d : Direction} {cs : List Constraint} {r : Rect}

theorem Exact.map_range (hl : layout.Exact) (hr : r.Fits) (h : Constraint.Room (r.extent d) cs) :
    (List.range cs.length).map (layout d cs r) =
      r.pieces d (Constraint.sizes (r.extent d) cs) := by
  have hlen : (r.pieces d (Constraint.sizes (r.extent d) cs)).length = cs.length := by
    rw [Rect.length_pieces, Constraint.sizes, List.length_map]
  refine List.ext_getElem (by simp [hlen]) fun k hk hk' => ?_
  rw [List.getElem_map, List.getElem_range]
  exact hl d cs r hr h k _ (List.getElem?_eq_getElem hk')

theorem Exact.tiles (hl : layout.Exact) (hr : r.Fits) (h : Constraint.Room (r.extent d) cs) :
    Tiles ((List.range cs.length).map (layout d cs r)) r := by
  rw [hl.map_range hr h]
  exact tiles_pieces h.total_sizes

end Layout

namespace Panels

variable {layout : Layout} {area : Rect} {p : Panels}

theorem splitBy_of_small (h : area.width < 83 ∨ area.height < 37) : splitBy layout area = none :=
  if_pos h

theorem splitBy_of_le (h : 83 ≤ area.width ∧ 37 ≤ area.height) :
    splitBy layout area = some (place layout area) :=
  if_neg fun hsmall : area.width < 83 ∨ area.height < 37 => by omega

theorem splitBy_eq_some_iff :
    splitBy layout area = some p ↔
      (83 ≤ area.width ∧ 37 ≤ area.height) ∧ place layout area = p := by
  by_cases h : 83 ≤ area.width ∧ 37 ≤ area.height
  · rw [splitBy_of_le h, Option.some.injEq, and_iff_right h]
  · rw [splitBy_of_small (by omega)]
    exact iff_of_false nofun fun hp => h hp.1

theorem splitBy_eq_none_iff :
    splitBy layout area = none ↔ area.width < 83 ∨ area.height < 37 := by
  by_cases h : 83 ≤ area.width ∧ 37 ≤ area.height
  · rw [splitBy_of_le h]
    exact iff_of_false nofun (by omega)
  · exact iff_of_true (splitBy_of_small (by omega)) (by omega)

theorem room_main {r : Rect} (h : 37 ≤ r.height) :
    Constraint.Room (r.extent .vertical) [.length displayHeight, .min 3] :=
  ⟨rfl, h⟩

theorem room_sidebar {r : Rect} (h : 37 ≤ r.height) :
    Constraint.Room (r.extent .vertical) [.length 3, .length 4, .length 6, .min 0] :=
  ⟨rfl, Nat.le_trans (by decide) h⟩

section Exact

variable (hl : layout.Exact) (ha : area.Fits) (h : 83 ≤ area.width ∧ 37 ≤ area.height)

include h

theorem room_columns :
    Constraint.Room (area.extent .horizontal) [.min 0, .length sidebarWidth] :=
  ⟨rfl, Nat.le_trans (by decide) h.1⟩

include hl ha

theorem column_zero : column layout area 0 = { area with width := area.width - 17 } :=
  hl .horizontal _ area ha (room_columns h) 0 _ rfl

theorem column_one :
    column layout area 1 = { area with x := area.x + (area.width - 17), width := 17 } :=
  hl .horizontal _ area ha (room_columns h) 1 _ rfl

theorem tiles_columns : Tiles [column layout area 0, column layout area 1] area :=
  hl.tiles ha (room_columns h)

theorem display_place :
    (place layout area).display = { area with width := area.width - 17, height := 34 } := by
  have hcolumn := column_zero hl ha h
  have hfits : (column layout area 0).Fits :=
    ((tiles_columns hl ha h).within _ (by simp)).fits ha
  have hroom : Constraint.Room ((column layout area 0).extent .vertical)
      [.length displayHeight, .min 3] := room_main (by rw [hcolumn]; exact h.2)
  have hfirst : (place layout area).display = (column layout area 0).first .vertical 34 :=
    hl .vertical _ _ hfits hroom 0 _ rfl
  rw [hfirst, hcolumn]
  rfl

theorem tiles_place : Tiles (place layout area).all area := by
  have hcolumns := tiles_columns hl ha h
  have hleft : (column layout area 0).Fits := (hcolumns.within _ (by simp)).fits ha
  have hright : (column layout area 1).Fits := (hcolumns.within _ (by simp)).fits ha
  have hmain : Tiles [(place layout area).display, (place layout area).log]
      (column layout area 0) :=
    hl.tiles hleft (room_main (by rw [column_zero hl ha h]; exact h.2))
  have hsidebar : Tiles [(place layout area).state, (place layout area).timers,
      (place layout area).keypad, (place layout area).help] (column layout area 1) :=
    hl.tiles hright (room_sidebar (by rw [column_one hl ha h]; exact h.2))
  exact hcolumns.append hmain hsidebar

end Exact

end Panels

end Chip8
