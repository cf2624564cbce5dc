import Chip8.Proofs.Picture.Draw

namespace Chip8

open Picture (Column Row)

namespace Sprite

variable {x y : Nat} {sprite : List UInt8} {px : Column} {py : Row}

theorem lands_wrap_iff (b : UInt8) (k : Fin 8) :
    Lands false x y b k px py ↔
      bit b k = true ∧ (x + k.val) % 64 = px.val ∧ y % 32 = py.val := by
  simp [Lands, Drawn]

theorem lands_clip_iff (b : UInt8) (k : Fin 8) :
    Lands true x y b k px py ↔ bit b k = true ∧ x + k.val = px.val ∧ y = py.val := by
  have hx := px.isLt
  have hy := py.isLt
  simp only [Lands, Drawn, forall_const]
  refine and_congr_right fun _ => ?_
  omega

theorem lands_wrap_of_clip {b : UInt8} {k : Fin 8} (h : Lands true x y b k px py) :
    Lands false x y b k px py :=
  ⟨h.1, nofun, h.2.2⟩

theorem count_congr {clip clip' : Bool} {x' y' : Nat}
    (h : ∀ (r : Fin sprite.length) (k : Fin 8),
      Lands clip x (y + r.val) (sprite.get r) k px py ↔
        Lands clip' x' (y' + r.val) (sprite.get r) k px py) :
    count clip x y sprite px py = count clip' x' y' sprite px py :=
  congrArg Finset.card (Finset.filter_congr fun i _ => h i.1 i.2)

theorem count_clip_le : count true x y sprite px py ≤ count false x y sprite px py :=
  Finset.card_le_card (Finset.monotone_filter_right _ fun _ _ => lands_wrap_of_clip)

theorem count_clip_of_le (h : sprite.length ≤ 32) (hx : x ≤ px.val) (hy : y ≤ py.val) :
    count true x y sprite px py = count false x y sprite px py := by
  refine count_congr fun r k => ?_
  have hpx := px.isLt
  have hpy := py.isLt
  rw [lands_clip_iff, lands_wrap_iff]
  refine and_congr_right fun _ => ?_
  omega

theorem count_clip_of_lt (h : px.val < x ∨ py.val < y) : count true x y sprite px py = 0 := by
  rw [count, Finset.card_eq_zero, Finset.filter_eq_empty_iff]
  intro i _ hi
  obtain ⟨-, hx, hy⟩ := (lands_clip_iff ..).1 hi
  omega

theorem count_wrap_mod :
    count false (x % 64) (y % 32) sprite px py = count false x y sprite px py := by
  refine count_congr fun r k => ?_
  rw [lands_wrap_iff, lands_wrap_iff, Nat.mod_add_mod, Nat.mod_add_mod]

theorem placed_of_fits {x y : UInt8} (hx : x.toNat + 8 ≤ 64) (hy : y.toNat + sprite.length ≤ 32) :
    placed true x y sprite = placed false x y sprite := by
  refine List.filter_congr fun d hd => ?_
  obtain ⟨r, k, rfl⟩ := mem_dots.1 hd
  have hr := r.isLt
  have hon : Drawn true (x.toNat + k.val) (y.toNat + r.val) := fun _ => by omega
  rw [Bool.eq_iff_iff, drawn_iff, drawn_iff]
  exact iff_of_true hon nofun

theorem placed_clip_of_off {x y : UInt8} (h : 64 ≤ x.toNat ∨ 32 ≤ y.toNat) :
    placed true x y sprite = [] := by
  by_contra hne
  obtain ⟨r, -, k, -, hd⟩ := (placed_ne_nil_iff ..).1 hne
  obtain ⟨hx, hy⟩ := hd rfl
  omega

end Sprite

namespace Framebuffer

variable (f : Framebuffer) {x y : UInt8} {sprite : List UInt8}

theorem draw_wrap_mod (x y : UInt8) (sprite : List UInt8) :
    f.draw (x % 64) (y % 32) sprite false = f.draw x y sprite false := by
  have hcount (px : Column) (py : Row) :
      Sprite.count false (x % 64).toNat (y % 32).toNat sprite px py =
        Sprite.count false x.toNat y.toNat sprite px py := by
    rw [UInt8.toNat_mod, UInt8.toNat_mod]
    exact Sprite.count_wrap_mod
  refine Prod.ext (ext_pixel (fun px py => ?_) ?_) ?_
  · rw [pixel_draw, pixel_draw, hcount]
  · rw [Bool.eq_iff_iff, dirty_draw_iff, dirty_draw_iff]
    simp only [Sprite.Drawn, Bool.false_eq_true, false_implies]
  · rw [Bool.eq_iff_iff, collides_draw_iff, collides_draw_iff]
    simp only [hcount]

theorem draw_clip_of_off (h : 64 ≤ x.toNat ∨ 32 ≤ y.toNat) :
    f.draw x y sprite true = (f, false) := by
  have hnone : Sprite.placed true x y sprite = [] := Sprite.placed_clip_of_off h
  refine Prod.ext (draw_of_isEmpty f (List.isEmpty_iff.2 hnone)) ?_
  simp [draw, hnone, Picture.draw]

theorem draw_clip_of_fits (hx : x.toNat + 8 ≤ 64) (hy : y.toNat + sprite.length ≤ 32) :
    f.draw x y sprite true = f.draw x y sprite false := by
  rw [draw, draw, Sprite.placed_of_fits hx hy]

theorem pixel_draw_clip (h : sprite.length ≤ 32) (px : Column) (py : Row) :
    (f.draw x y sprite true).1.picture.pixel px py =
      if x.toNat ≤ px.val ∧ y.toNat ≤ py.val then (f.draw x y sprite false).1.picture.pixel px py
      else f.picture.pixel px py := by
  split
  case isTrue hin => rw [pixel_draw, pixel_draw, Sprite.count_clip_of_le h hin.1 hin.2]
  case isFalse hout =>
    have hnone : Sprite.count true x.toNat y.toNat sprite px py = 0 :=
      Sprite.count_clip_of_lt (by omega)
    rw [pixel_draw, hnone]
    simp

theorem collides_wrap_of_clip (h : (f.draw x y sprite true).2 = true) :
    (f.draw x y sprite false).2 = true := by
  obtain ⟨px, py, hmet⟩ := (collides_draw_iff ..).1 h
  exact (collides_draw_iff ..).2 ⟨px, py, hmet.trans (Nat.add_le_add_left Sprite.count_clip_le _)⟩

theorem clipping_drops_wrapped_part (x y : UInt8) (h : sprite.length ≤ 32) :
    let clipped : Framebuffer × Bool := f.draw x y sprite true
    let wrapped : Framebuffer × Bool := f.draw x y sprite false
    (∀ px py, clipped.1.picture.pixel px py =
        if x.toNat ≤ px.val ∧ y.toNat ≤ py.val then wrapped.1.picture.pixel px py
        else f.picture.pixel px py) ∧
      (clipped.2 = true → wrapped.2 = true) ∧
      (x.toNat + 8 ≤ 64 → y.toNat + sprite.length ≤ 32 → clipped = wrapped) ∧
      (64 ≤ x.toNat ∨ 32 ≤ y.toNat →
        clipped = (f, false) ∧ wrapped = f.draw (x % 64) (y % 32) sprite false) :=
  ⟨pixel_draw_clip f h, collides_wrap_of_clip f, draw_clip_of_fits f,
    fun hoff => ⟨draw_clip_of_off f hoff, (draw_wrap_mod f x y sprite).symm⟩⟩

def lonePixel : Framebuffer := ⟨Picture.blank.toggle 63 31, false⟩

theorem clipping_at_corner_drops_wrapped_part :
    ([0xF0, 0xF0] : List UInt8).length ≤ 32 ∧
      (lonePixel.draw 62 31 [0xF0, 0xF0] true).1.picture.pixel 62 31 = true ∧
      (lonePixel.draw 62 31 [0xF0, 0xF0] true).1.picture.pixel 0 0 = false ∧
      (lonePixel.draw 62 31 [0xF0, 0xF0] false).1.picture.pixel 0 0 = true ∧
      (lonePixel.draw 62 31 [0xF0, 0xF0] true).2 = true ∧
      (lonePixel.draw 62 31 [0xF0, 0xF0] false).2 = true ∧
      lonePixel.draw 56 30 [0xF0, 0xF0] true = lonePixel.draw 56 30 [0xF0, 0xF0] false ∧
      lonePixel.draw 200 31 [0xF0, 0xF0] true = (lonePixel, false) ∧
      lonePixel.draw 200 31 [0xF0, 0xF0] false = lonePixel.draw 8 31 [0xF0, 0xF0] false := by
  have hlength : ([0xF0, 0xF0] : List UInt8).length ≤ 32 := by decide
  obtain ⟨hpixel, hcollides, -, -⟩ := clipping_drops_wrapped_part lonePixel 62 31 hlength
  obtain ⟨-, -, hfits, -⟩ := clipping_drops_wrapped_part lonePixel 56 30 hlength
  obtain ⟨-, -, -, hoff⟩ := clipping_drops_wrapped_part lonePixel 200 31 hlength
  have hlone (px : Column) (py : Row) :
      lonePixel.picture.pixel px py = decide (63 = px ∧ 31 = py) := by
    rw [lonePixel, Picture.pixel_toggle, Picture.pixel_blank, Bool.false_xor]
  have hclip : (lonePixel.draw 62 31 [0xF0, 0xF0] true).2 = true := by
    refine (collides_draw_iff ..).2 ⟨63, 31, ?_⟩
    rw [hlone]
    decide
  have hwrap : (200 : UInt8) % 64 = 8 ∧ (31 : UInt8) % 32 = 31 := by decide
  refine ⟨hlength, ?_, ?_, ?_, hclip, hcollides hclip, hfits (by decide) (by decide),
    (hoff (by decide)).1, ?_⟩
  · rw [hpixel, if_pos (by decide), pixel_draw, hlone]
    decide
  · rw [hpixel, if_neg (by decide), hlone]
    decide
  · rw [pixel_draw, hlone]
    decide
  · rw [(hoff (by decide)).2, hwrap.1, hwrap.2]

end Framebuffer

end Chip8
