import Chip8.Text.Blank
import Chip8.Text.Width.Basic

namespace Chip8.Text

structure IsPlain (c : Char) : Prop where
  kind : Cluster.kind c = .other
  width : Width.ofText [c] = 1
  shown : isControl c = false

theorem Cluster.holds_start {c d : Char} (hc : Cluster.kind c = .other)
    (hd : Cluster.kind d = .other) : (Edge.start c).holds d = false := by
  have hpicture : (Edge.start c).picture ≠ .joined := by
    simp only [Edge.start, Edge.next, Edge.nextPicture, Edge.empty, hc]
    split <;> decide
  have hconjunct : (Edge.start c).conjunct ≠ .linked := by
    simp only [Edge.start, Edge.next, Edge.nextConjunct, Edge.empty, if_true]
    split <;> decide
  have hkind : (Edge.start c).kind = .other := hc
  simp [Edge.holds, hkind, hd, hpicture, hconjunct]

theorem Cluster.continued_of_other {c : Char} {rest : List Char}
    (hc : Cluster.kind c = .other) (hrest : ∀ d ∈ rest, Cluster.kind d = .other) :
    continued (.start c) [c] rest = (c :: rest).map ([·]) := by
  induction rest generalizing c with
  | nil => rfl
  | cons d rest ih =>
    have hd : Cluster.kind d = .other := hrest d (by simp)
    rw [continued, if_neg (by simp [holds_start hc hd]), ih hd fun e he => hrest e (by simp [he])]
    rfl

theorem clusters_of_other {text : List Char} (h : ∀ c ∈ text, Cluster.kind c = .other) :
    clusters text = text.map ([·]) := by
  cases text with
  | nil => rfl
  | cons c rest => exact Cluster.continued_of_other (h c (by simp)) fun d hd => h d (by simp [hd])

end Chip8.Text
