namespace Chip8.Text

abbrev Ranges := List (Nat × Nat)

namespace Ranges

def has : Ranges → Char → Bool
  | [], _ => false
  | (first, last) :: rest, c => first ≤ c.toNat && (c.toNat ≤ last || has rest c)

theorem has_iff {r : Ranges} (h : r.Pairwise fun a b => a.1 ≤ b.1) (c : Char) :
    r.has c ↔ ∃ p ∈ r, p.1 ≤ c.toNat ∧ c.toNat ≤ p.2 := by
  induction r with
  | nil => simp [has]
  | cons p rest ih =>
    obtain ⟨hp, hrest⟩ := List.pairwise_cons.1 h
    simp only [has, Bool.and_eq_true, Bool.or_eq_true, decide_eq_true_eq, ih hrest]
    constructor
    · rintro ⟨h1, h2 | ⟨q, hq, h2⟩⟩
      · exact ⟨p, by simp, h1, h2⟩
      · exact ⟨q, by simp [hq], h2⟩
    · rintro ⟨q, hq, h1, h2⟩
      rcases List.mem_cons.1 hq with rfl | hq
      · exact ⟨h1, .inl h2⟩
      · exact ⟨Nat.le_trans (hp q hq) h1, .inr ⟨q, hq, h1, h2⟩⟩

end Ranges

end Chip8.Text
