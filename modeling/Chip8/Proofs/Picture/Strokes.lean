import Chip8.Proofs.Picture.Draw

namespace Chip8

open Picture (Column Row)

structure Stroke where
  x : UInt8
  y : UInt8
  sprite : List UInt8
  clip : Bool
  deriving DecidableEq, Repr

namespace Stroke

def mask (s : Stroke) (px : Column) (py : Row) : Bool :=
  decide (Odd (Sprite.count s.clip s.x.toNat s.y.toNat s.sprite px py))

def places (s : Stroke) : Bool := !(Sprite.placed s.clip s.x s.y s.sprite).isEmpty

end Stroke

namespace Framebuffer

def apply (f : Framebuffer) (s : Stroke) : Framebuffer × Bool := f.draw s.x s.y s.sprite s.clip

def drawAll (f : Framebuffer) (ss : List Stroke) : Framebuffer :=
  ss.foldl (fun f s => (f.apply s).1) f

theorem pixel_apply (f : Framebuffer) (s : Stroke) (px : Column) (py : Row) :
    (f.apply s).1.picture.pixel px py = (f.picture.pixel px py ^^ s.mask px py) :=
  pixel_draw ..

theorem drawAll_cons (f : Framebuffer) (s : Stroke) (ss : List Stroke) :
    f.drawAll (s :: ss) = (f.apply s).1.drawAll ss := rfl

theorem pixel_drawAll (f : Framebuffer) (ss : List Stroke) (px : Column) (py : Row) :
    (f.drawAll ss).picture.pixel px py =
      (f.picture.pixel px py ^^ decide (Odd (ss.countP (·.mask px py)))) := by
  induction ss generalizing f with
  | nil => simp [drawAll]
  | cons s ss ih =>
    have hcount : (s :: ss).countP (·.mask px py) =
        ss.countP (·.mask px py) + (s.mask px py).toNat := by
      rw [List.countP_cons]
      cases s.mask px py <;> rfl
    rw [drawAll_cons, ih, pixel_apply, hcount, Picture.decide_odd_add_toNat, Bool.xor_assoc]

theorem dirty_drawAll (f : Framebuffer) (ss : List Stroke) :
    (f.drawAll ss).dirty = (f.dirty || ss.any Stroke.places) := by
  induction ss generalizing f with
  | nil => simp [drawAll]
  | cons s ss ih => rw [drawAll_cons, ih, List.any_cons, ← Bool.or_assoc]; rfl

theorem drawAll_perm (f : Framebuffer) {ss ss' : List Stroke} (h : ss.Perm ss') :
    f.drawAll ss = f.drawAll ss' := by
  apply ext_pixel
  · intro px py
    rw [pixel_drawAll, pixel_drawAll, h.countP_eq]
  · rw [dirty_drawAll, dirty_drawAll, h.any_eq]

theorem picture_drawAll_cancel (f : Framebuffer) (s : Stroke) (ss₁ ss₂ ss₃ : List Stroke) :
    (f.drawAll (ss₁ ++ s :: ss₂ ++ s :: ss₃)).picture = (f.drawAll (ss₁ ++ ss₂ ++ ss₃)).picture := by
  apply Picture.ext_pixel
  intro px py
  have hcount : (ss₁ ++ s :: ss₂ ++ s :: ss₃).countP (·.mask px py) =
      (ss₁ ++ ss₂ ++ ss₃).countP (·.mask px py) + 2 * (s.mask px py).toNat := by
    simp only [List.countP_append, List.countP_cons]
    cases s.mask px py <;> simp
    omega
  have hodd : Odd ((ss₁ ++ s :: ss₂ ++ s :: ss₃).countP (·.mask px py)) ↔
      Odd ((ss₁ ++ ss₂ ++ ss₃).countP (·.mask px py)) := by
    rw [hcount, Nat.odd_add]
    exact iff_true_right (even_two_mul _)
  rw [pixel_drawAll, pixel_drawAll, decide_eq_decide.2 hodd]

theorem collides_again_iff_lights (f : Framebuffer) (s : Stroke) (h : s.sprite.length ≤ 32) :
    ((f.apply s).1.apply s).2 = true ↔
      ∃ px py, f.picture.pixel px py = false ∧ (f.apply s).1.picture.pixel px py = true := by
  have hback : ((f.apply s).1.apply s).1.picture = f.picture :=
    picture_drawAll_cancel f s [] [] []
  have hdarkens := collides_draw_iff_darkens (f.apply s).1 s.x s.y h s.clip
  rw [← apply, hback] at hdarkens
  rw [hdarkens]
  exact exists_congr fun px => exists_congr fun py => and_comm

theorem strokes_commute_and_cancel (f : Framebuffer) :
    (∀ ss ss', List.Perm ss ss' → f.drawAll ss = f.drawAll ss') ∧
      (∀ s ss₁ ss₂ ss₃, (f.drawAll (ss₁ ++ s :: ss₂ ++ s :: ss₃)).picture =
        (f.drawAll (ss₁ ++ ss₂ ++ ss₃)).picture) ∧
      (∀ s, (f.drawAll [s, s]).picture = f.picture) ∧
      ∀ s, s.sprite.length ≤ 32 → (((f.apply s).1.apply s).2 = true ↔
        ∃ px py, f.picture.pixel px py = false ∧ (f.apply s).1.picture.pixel px py = true) :=
  ⟨fun _ _ => drawAll_perm f, picture_drawAll_cancel f,
    fun s => picture_drawAll_cancel f s [] [] [], collides_again_iff_lights f⟩

def atCorner : Stroke := ⟨62, 31, [0xC3, 0xFF], false⟩

def atEdge : Stroke := ⟨63, 30, [0xFF, 0x81], true⟩

theorem strokes_at_corner_commute_and_cancel :
    List.Perm [atCorner, atEdge, atCorner] [atCorner, atCorner, atEdge] ∧
      ({} : Framebuffer).drawAll [atCorner, atEdge, atCorner] =
        ({} : Framebuffer).drawAll [atCorner, atCorner, atEdge] ∧
      (({} : Framebuffer).drawAll [atCorner, atEdge, atCorner]).picture =
        (({} : Framebuffer).drawAll [atEdge]).picture ∧
      atCorner.sprite.length ≤ 32 ∧
      ((({} : Framebuffer).apply atCorner).1.apply atCorner).2 = true := by
  have hperm : List.Perm [atCorner, atEdge, atCorner] [atCorner, atCorner, atEdge] :=
    .cons _ (.swap _ _ _)
  obtain ⟨hcommute, hcancel, -, hcollides⟩ := strokes_commute_and_cancel {}
  have hlit : (({} : Framebuffer).apply atCorner).1.picture.pixel 63 31 = true := by
    rw [pixel_apply, Picture.pixel_blank]
    decide
  refine ⟨hperm, hcommute _ _ hperm, hcancel atCorner [] [atEdge] [], by decide, ?_⟩
  exact (hcollides atCorner (by decide)).2 ⟨63, 31, Picture.pixel_blank .., hlit⟩

end Framebuffer

end Chip8
