import Chip8.Framebuffer
import Mathlib.Algebra.BigOperators.Fin
import Mathlib.Algebra.Ring.Parity
import Mathlib.Data.Fintype.BigOperators

namespace Chip8

open Picture (Column Row)

def Dot.hits (d : Dot) (x : Column) (y : Row) : Bool := d.lit && d.column = x && d.row = y

namespace Picture

def lit (p : Picture) (x : Column) (y : Row) : Nat := (p.pixel x y).toNat

def hits (ds : List Dot) (x : Column) (y : Row) : Nat := ds.countP fun d => d.hits x y

theorem hits_cons (d : Dot) (ds : List Dot) (x : Column) (y : Row) :
    hits (d :: ds) x y = hits ds x y + (d.hits x y).toNat := by
  rw [hits, List.countP_cons, hits]
  cases d.hits x y <;> rfl

theorem hits_of_not_lit {d : Dot} (h : d.lit = false) (x : Column) (y : Row) :
    d.hits x y = false := by
  simp [Dot.hits, h]

theorem hits_of_lit {d : Dot} (h : d.lit = true) (x : Column) (y : Row) :
    d.hits x y = decide (d.column = x ∧ d.row = y) := by
  simp [Dot.hits, h]

theorem plot_of_lit {d : Dot} (h : d.lit = true) (s : Picture × Bool) :
    plot s d = (s.1.toggle d.column d.row, s.2 || s.1.pixel d.column d.row) := by
  rw [plot, if_pos h]

theorem plot_of_not_lit {d : Dot} (h : d.lit = false) (s : Picture × Bool) : plot s d = s := by
  rw [plot, if_neg (by simp [h])]

theorem pixel_plot (s : Picture × Bool) (d : Dot) (x : Column) (y : Row) :
    (plot s d).1.pixel x y = (s.1.pixel x y ^^ d.hits x y) := by
  cases h : d.lit with
  | true => rw [plot_of_lit h, pixel_toggle, hits_of_lit h]
  | false => rw [plot_of_not_lit h, hits_of_not_lit h, Bool.xor_false]

theorem decide_odd_add_toNat (n : Nat) (b : Bool) :
    decide (Odd (n + b.toNat)) = (b ^^ decide (Odd n)) := by
  cases b with
  | false => simp
  | true => rw [Bool.toNat_true, decide_eq_decide.2 Nat.odd_add_one, decide_not, Bool.true_xor]

theorem pixel_foldl_plot (ds : List Dot) (s : Picture × Bool) (x : Column) (y : Row) :
    (ds.foldl plot s).1.pixel x y = (s.1.pixel x y ^^ decide (Odd (hits ds x y))) := by
  induction ds generalizing s with
  | nil => simp [hits]
  | cons d ds ih =>
    rw [List.foldl_cons, ih, pixel_plot, hits_cons, decide_odd_add_toNat, Bool.xor_assoc]

def MeetsLit (p : Picture) (ds : List Dot) : Prop := ∃ x y, 2 ≤ p.lit x y + hits ds x y

theorem meetsLit_cons_of_not_lit {p : Picture} {d : Dot} (h : d.lit = false) (ds : List Dot) :
    MeetsLit p (d :: ds) ↔ MeetsLit p ds := by
  simp only [MeetsLit, hits_cons, hits_of_not_lit h, Bool.toNat_false, Nat.add_zero]

theorem meetsLit_cons_of_lit {p : Picture} {d : Dot} (h : d.lit = true) (ds : List Dot) :
    MeetsLit p (d :: ds) ↔
      p.pixel d.column d.row = true ∨ MeetsLit (p.toggle d.column d.row) ds := by
  cases hp : p.pixel d.column d.row with
  | true =>
    refine iff_of_true ⟨d.column, d.row, ?_⟩ (.inl rfl)
    simp only [hits_cons, hits_of_lit h, lit, hp, and_self, decide_true, Bool.toNat_true]
    omega
  | false =>
    have hsame (x : Column) (y : Row) :
        p.lit x y + hits (d :: ds) x y =
          (p.toggle d.column d.row).lit x y + hits ds x y := by
      rw [hits_cons, hits_of_lit h, lit, lit, pixel_toggle]
      by_cases hd : d.column = x ∧ d.row = y
      · obtain ⟨rfl, rfl⟩ := hd
        simp [hp, Nat.add_comm]
      · simp [hd]
    simp only [MeetsLit, hsame, Bool.false_eq_true, false_or]

theorem collides_foldl_plot_iff (ds : List Dot) (s : Picture × Bool) :
    (ds.foldl plot s).2 = true ↔ s.2 = true ∨ MeetsLit s.1 ds := by
  induction ds generalizing s with
  | nil =>
    have hn : ¬ MeetsLit s.1 [] := by
      rintro ⟨x, y, h⟩
      have := Bool.toNat_le (s.1.pixel x y)
      simp only [hits, List.countP_nil, Nat.add_zero, lit] at h
      omega
    simp [hn]
  | cons d ds ih =>
    rw [List.foldl_cons, ih]
    cases h : d.lit with
    | true => rw [plot_of_lit h, meetsLit_cons_of_lit h, Bool.or_eq_true, or_assoc]
    | false => rw [plot_of_not_lit h, meetsLit_cons_of_not_lit h]

theorem pixel_draw (p : Picture) (ds : List Dot) (x : Column) (y : Row) :
    (p.draw ds).1.pixel x y = (p.pixel x y ^^ decide (Odd (hits ds x y))) :=
  pixel_foldl_plot ds (p, false) x y

theorem collides_draw_iff (p : Picture) (ds : List Dot) :
    (p.draw ds).2 = true ↔ MeetsLit p ds := by
  rw [draw, collides_foldl_plot_iff]
  simp

end Picture

namespace Sprite

def Drawn (clip : Bool) (x y : Nat) : Prop := clip = true → x < 64 ∧ y < 32

instance (clip : Bool) (x y : Nat) : Decidable (Drawn clip x y) :=
  inferInstanceAs (Decidable (_ → _))

def Lands (clip : Bool) (x y : Nat) (b : UInt8) (k : Fin 8) (px : Column) (py : Row) : Prop :=
  bit b k = true ∧ Drawn clip (x + k.val) y ∧ (x + k.val) % 64 = px.val ∧ y % 32 = py.val

instance (clip : Bool) (x y : Nat) (b : UInt8) (k : Fin 8) (px : Column) (py : Row) :
    Decidable (Lands clip x y b k px py) :=
  inferInstanceAs (Decidable (_ ∧ _))

def count (clip : Bool) (x y : Nat) (sprite : List UInt8) (px : Column) (py : Row) : Nat :=
  (Finset.univ.filter fun i : Fin sprite.length × Fin 8 =>
    Lands clip x (y + i.1.val) (sprite.get i.1) i.2 px py).card

theorem count_eq_sum (clip : Bool) (x y : Nat) (sprite : List UInt8) (px : Column) (py : Row) :
    count clip x y sprite px py =
      ∑ r : Fin sprite.length,
        (Finset.univ.filter fun k => Lands clip x (y + r.val) (sprite.get r) k px py).card := by
  rw [count, Finset.card_filter, Fintype.sum_prod_type]
  simp only [Finset.card_filter]

theorem dots_eq_flatMap (x y : Nat) (sprite : List UInt8) :
    dots x y sprite =
      (List.finRange sprite.length).flatMap fun r => rowDots x (y + r.val) (sprite.get r) := by
  induction sprite generalizing y with
  | nil => rfl
  | cons b rest ih =>
    have hrow (r : Fin rest.length) : y + r.succ.val = y + 1 + r.val := by
      rw [Fin.val_succ]
      omega
    have hrows : List.finRange (b :: rest).length = 0 :: (List.finRange rest.length).map Fin.succ :=
      List.finRange_succ
    rw [dots, ih, hrows, List.flatMap_cons, List.flatMap_map]
    simp only [hrow]
    rfl

theorem mem_dots {x y : Nat} {sprite : List UInt8} {d : Dot} :
    d ∈ dots x y sprite ↔ ∃ r : Fin sprite.length, ∃ k : Fin 8,
      ⟨x + k.val, y + r.val, bit (sprite.get r) k⟩ = d := by
  simp [dots_eq_flatMap, rowDots]

def drawn (clip : Bool) (ds : List Dot) : List Dot := ds.filter fun d => !clip || d.onGrid

theorem placed_eq (clip : Bool) (x y : UInt8) (sprite : List UInt8) :
    placed clip x y sprite = drawn clip (dots x.toNat y.toNat sprite) := rfl

theorem drawn_iff (clip : Bool) (d : Dot) : (!clip || d.onGrid) = true ↔ Drawn clip d.x d.y := by
  cases clip <;> simp [Drawn, Dot.onGrid]

theorem hits_drawn (clip : Bool) (ds : List Dot) (px : Column) (py : Row) :
    Picture.hits (drawn clip ds) px py =
      ds.countP fun d =>
        d.lit = true ∧ Drawn clip d.x d.y ∧ d.x % 64 = px.val ∧ d.y % 32 = py.val := by
  rw [Picture.hits, drawn, List.countP_filter]
  congr 1
  funext d
  rw [Bool.eq_iff_iff, Bool.and_eq_true, drawn_iff]
  simp only [Dot.hits, Dot.column, Dot.row, Bool.and_eq_true, decide_eq_true_eq, Fin.ext_iff,
    Fin.val_ofNat]
  tauto

theorem hits_rowDots (clip : Bool) (x y : Nat) (b : UInt8) (px : Column) (py : Row) :
    Picture.hits (drawn clip (rowDots x y b)) px py =
      (Finset.univ.filter fun k => Lands clip x y b k px py).card := by
  have hcard := Multiset.countP_eq_card_filter (fun k => Lands clip x y b k px py)
    (List.finRange 8 : Multiset (Fin 8))
  rw [hits_drawn, rowDots, List.countP_map]
  exact hcard

theorem hits_dots (clip : Bool) (x y : Nat) (sprite : List UInt8) (px : Column) (py : Row) :
    Picture.hits (drawn clip (dots x y sprite)) px py = count clip x y sprite px py := by
  rw [dots_eq_flatMap, drawn, List.filter_flatMap, Picture.hits, List.countP_flatMap, count_eq_sum,
    Fin.sum_univ_def]
  exact congrArg List.sum (List.map_congr_left fun r _ => hits_rowDots ..)

theorem count_le_one {sprite : List UInt8} (h : sprite.length ≤ 32) (clip : Bool) (x y : Nat)
    (px : Column) (py : Row) : count clip x y sprite px py ≤ 1 := by
  rw [count, Finset.card_le_one]
  rintro ⟨r, k⟩ hrk ⟨r', k'⟩ hrk'
  obtain ⟨-, -, hx, hy⟩ := (Finset.mem_filter.1 hrk).2
  obtain ⟨-, -, hx', hy'⟩ := (Finset.mem_filter.1 hrk').2
  have hr := r.isLt
  have hr' := r'.isLt
  dsimp only at hx hy hx' hy'
  rw [Prod.mk.injEq, Fin.ext_iff, Fin.ext_iff]
  omega

theorem placed_ne_nil_iff (clip : Bool) (x y : UInt8) (sprite : List UInt8) :
    placed clip x y sprite ≠ [] ↔
      ∃ r < sprite.length, ∃ k < 8, Drawn clip (x.toNat + k) (y.toNat + r) := by
  constructor
  · intro h
    obtain ⟨d, hd⟩ := List.exists_mem_of_ne_nil _ h
    obtain ⟨hd, hk⟩ := List.mem_filter.1 hd
    obtain ⟨r, k, rfl⟩ := mem_dots.1 hd
    exact ⟨r.val, r.isLt, k.val, k.isLt, (drawn_iff clip _).1 hk⟩
  · rintro ⟨r, hr, k, hk, hd⟩
    have hmem : (⟨x.toNat + k, y.toNat + r, bit sprite[r] ⟨k, hk⟩⟩ : Dot) ∈
        dots x.toNat y.toNat sprite := mem_dots.2 ⟨⟨r, hr⟩, ⟨k, hk⟩, rfl⟩
    exact List.ne_nil_of_mem (List.mem_filter.2 ⟨hmem, (drawn_iff clip _).2 hd⟩)

end Sprite

namespace Framebuffer

open Sprite (count Drawn)

theorem ext_pixel {f g : Framebuffer}
    (hp : ∀ px py, f.picture.pixel px py = g.picture.pixel px py) (hd : f.dirty = g.dirty) :
    f = g := by
  obtain ⟨p, d⟩ := f
  obtain ⟨q, e⟩ := g
  obtain rfl : p = q := Picture.ext_pixel hp
  obtain rfl : d = e := hd
  rfl

theorem pixel_draw (f : Framebuffer) (x y : UInt8) (sprite : List UInt8) (clip : Bool)
    (px : Column) (py : Row) :
    (f.draw x y sprite clip).1.picture.pixel px py =
      (f.picture.pixel px py ^^ decide (Odd (count clip x.toNat y.toNat sprite px py))) := by
  rw [← Sprite.hits_dots, ← Sprite.placed_eq]
  exact Picture.pixel_draw f.picture _ px py

theorem collides_draw_iff (f : Framebuffer) (x y : UInt8) (sprite : List UInt8) (clip : Bool) :
    (f.draw x y sprite clip).2 = true ↔
      ∃ px py, 2 ≤ (f.picture.pixel px py).toNat + count clip x.toNat y.toNat sprite px py := by
  simp only [← Sprite.hits_dots, ← Sprite.placed_eq]
  exact Picture.collides_draw_iff f.picture _

theorem collides_draw_iff_darkens (f : Framebuffer) (x y : UInt8) {sprite : List UInt8}
    (h : sprite.length ≤ 32) (clip : Bool) :
    (f.draw x y sprite clip).2 = true ↔
      ∃ px py, f.picture.pixel px py = true ∧
        (f.draw x y sprite clip).1.picture.pixel px py = false := by
  rw [collides_draw_iff]
  refine exists_congr fun px => exists_congr fun py => ?_
  have hle := Sprite.count_le_one h clip x.toNat y.toNat px py
  have hcount : count clip x.toNat y.toNat sprite px py = 0 ∨
      count clip x.toNat y.toNat sprite px py = 1 := by omega
  rw [pixel_draw]
  rcases hcount with hc | hc <;> cases f.picture.pixel px py <;> simp [hc]

theorem dirty_draw_iff (f : Framebuffer) (x y : UInt8) (sprite : List UInt8) (clip : Bool) :
    (f.draw x y sprite clip).1.dirty = true ↔
      f.dirty = true ∨ ∃ r < sprite.length, ∃ k < 8, Drawn clip (x.toNat + k) (y.toNat + r) := by
  rw [dirty_draw, ← Sprite.placed_ne_nil_iff]
  simp

theorem draw_is_exact_xor (f : Framebuffer) (x y : UInt8) (sprite : List UInt8) (clip : Bool) :
    let count (px : Column) (py : Row) : Nat := count clip x.toNat y.toNat sprite px py
    let g : Framebuffer := (f.draw x y sprite clip).1
    let collision : Bool := (f.draw x y sprite clip).2
    (∀ px py, g.picture.pixel px py = (f.picture.pixel px py ^^ decide (Odd (count px py)))) ∧
      (collision = true ↔ ∃ px py, 2 ≤ (f.picture.pixel px py).toNat + count px py) ∧
      (sprite.length ≤ 32 → (collision = true ↔
        ∃ px py, f.picture.pixel px py = true ∧ g.picture.pixel px py = false)) ∧
      (g.dirty = true ↔ f.dirty = true ∨
        ∃ r < sprite.length, ∃ k < 8, Drawn clip (x.toNat + k) (y.toNat + r)) :=
  ⟨pixel_draw f x y sprite clip, collides_draw_iff f x y sprite clip,
    fun h => collides_draw_iff_darkens f x y h clip, dirty_draw_iff f x y sprite clip⟩

end Framebuffer

end Chip8
