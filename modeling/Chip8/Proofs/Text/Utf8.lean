import Chip8.Text.Utf8
import Mathlib.Data.List.Basic
import Mathlib.Tactic.SplitIfs

namespace Chip8.Utf8

def fits : List Tail → List UInt8 → Bool
  | _, [] => true
  | [], _ :: _ => false
  | t :: tails, b :: bytes => t.admits b && fits tails bytes

def IsBeginning : List UInt8 → Prop
  | [] => False
  | b :: bytes => ∃ code tails, lead? b = some (code, tails) ∧ fits tails bytes = true

def Splits (left right : List UInt8) : Prop :=
  ∃ pre s b post, left = pre ++ s ∧ s ≠ [] ∧ right = b :: post ∧ IsBeginning (s ++ [b])

def Follows (b : UInt8) : Prop := 0x80 ≤ b.toNat ∧ b.toNat ≤ 0xBF

def Tail.IsNarrow (t : Tail) : Prop := 0x80 ≤ t.least ∧ t.greatest ≤ 0xBF

theorem Tail.IsNarrow.follows {t : Tail} (ht : t.IsNarrow) {b : UInt8} (h : t.admits b = true) :
    Follows b := by
  simp only [admits, Bool.and_eq_true, decide_eq_true_eq] at h
  exact ⟨Nat.le_trans ht.1 h.1, Nat.le_trans h.2 ht.2⟩

theorem Follows.ne_newline {b : UInt8} (h : Follows b) : b ≠ 0x0A := by
  rintro rfl
  exact absurd h.1 (by decide)

theorem lead?_of_follows {b : UInt8} (h : Follows b) : lead? b = none := by
  have h1 : ¬ b.toNat < 0x80 := Nat.not_lt.2 h.1
  have h2 : b.toNat < 0xC2 := Nat.lt_of_le_of_lt h.2 (by decide)
  simp only [lead?, if_neg h1, if_pos h2]

theorem of_lead? {b : UInt8} {code : Nat} {tails : List Tail} (h : lead? b = some (code, tails)) :
    (b.toNat < 0x80 ∧ code = b.toNat ∧ tails = []) ∨
      0x80 ≤ b.toNat ∧ (∀ t ∈ tails, t.IsNarrow) ∧ ∃ t rest, tails = t :: rest ∧
        ∀ b' : UInt8, t.admits b' = true → 0x0A < code * 64 + b'.toNat % 64 := by
  simp only [lead?] at h
  split_ifs at h with hb <;>
    simp only [Option.some.injEq, Prod.mk.injEq] at h <;> obtain ⟨rfl, rfl⟩ := h
  · exact .inl ⟨hb, rfl, rfl⟩
  all_goals
    refine .inr ⟨Nat.le_of_not_lt hb, by simp [Tail.IsNarrow, Tail.any], _, _, rfl, ?_⟩
    intro b' hb'
    simp only [Tail.admits, Tail.any, Bool.and_eq_true, decide_eq_true_eq] at hb'
    omega

theorem narrow_of_lead? {b : UInt8} {code : Nat} {tails : List Tail}
    (h : lead? b = some (code, tails)) : ∀ t ∈ tails, t.IsNarrow := by
  rcases of_lead? h with ⟨-, -, rfl⟩ | ⟨-, ht, -⟩
  · simp
  · exact ht

theorem of_lead?_nil {b : UInt8} {code : Nat} (h : lead? b = some (code, [])) :
    code = b.toNat := by
  rcases of_lead? h with ⟨-, hcode, -⟩ | ⟨-, -, t, rest, ht, -⟩
  · exact hcode
  · cases ht

theorem of_lead?_cons {b : UInt8} {code : Nat} {t : Tail} {tails : List Tail}
    (h : lead? b = some (code, t :: tails)) :
    0x80 ≤ b.toNat ∧ ∀ b' : UInt8, t.admits b' = true → 0x0A < code * 64 + b'.toNat % 64 := by
  rcases of_lead? h with ⟨-, -, ht⟩ | ⟨hb, -, t', rest, ht, hcode⟩
  · cases ht
  · cases ht
    exact ⟨hb, hcode⟩

theorem follows_of_fits {tails : List Tail} {bytes : List UInt8} (ht : ∀ t ∈ tails, t.IsNarrow)
    (h : fits tails bytes = true) : ∀ b ∈ bytes, Follows b := by
  fun_induction fits tails bytes with
  | case1 tails => exact fun b hb => absurd hb List.not_mem_nil
  | case2 b bytes => cases h
  | case3 t tails b bytes ih =>
    rw [Bool.and_eq_true] at h
    rw [List.forall_mem_cons] at ht ⊢
    exact ⟨ht.1.follows h.1, ih ht.2 h.2⟩

theorem length_le_of_fits {tails : List Tail} {bytes : List UInt8} (h : fits tails bytes = true) :
    bytes.length ≤ tails.length := by
  fun_induction fits tails bytes with
  | case1 tails => exact Nat.zero_le _
  | case2 b bytes => cases h
  | case3 t tails b bytes ih =>
    rw [Bool.and_eq_true] at h
    exact Nat.succ_le_succ (ih h.2)

theorem fits_of_append {tails : List Tail} {x y : List UInt8} (h : fits tails (x ++ y) = true) :
    fits tails x = true := by
  fun_induction fits tails x with
  | case1 tails => rfl
  | case2 b x => cases h
  | case3 t tails b x ih =>
    rw [List.cons_append, fits, Bool.and_eq_true] at h
    rw [h.1, ih h.2, Bool.and_self]

theorem IsBeginning.of_append {s t : List UInt8} (hs : s ≠ []) (h : IsBeginning (s ++ t)) :
    IsBeginning s := by
  cases s with
  | nil => exact absurd rfl hs
  | cons b s =>
    obtain ⟨code, tails, hl, hf⟩ := h
    exact ⟨code, tails, hl, fits_of_append hf⟩

theorem IsBeginning.follows {b : UInt8} {bytes : List UInt8} (h : IsBeginning (b :: bytes)) :
    ∀ b' ∈ bytes, Follows b' := by
  obtain ⟨code, tails, hl, hf⟩ := h
  exact follows_of_fits (narrow_of_lead? hl) hf

theorem not_splits_nil (right : List UInt8) : ¬ Splits [] right := by
  rintro ⟨pre, s, b, post, hl, hs, -, -⟩
  exact hs (List.append_eq_nil_iff.1 hl.symm).2

theorem Splits.append_left {left right : List UInt8} (pre : List UInt8) (h : Splits left right) :
    Splits (pre ++ left) right := by
  obtain ⟨pre', s, b, post, rfl, hs, hr, hb⟩ := h
  exact ⟨pre ++ pre', s, b, post, (List.append_assoc ..).symm, hs, hr, hb⟩

theorem splits_cons {b : UInt8} {left right : List UInt8} :
    Splits (b :: left) right ↔
      (∃ c post, right = c :: post ∧ IsBeginning (b :: left ++ [c])) ∨ Splits left right := by
  constructor
  · rintro ⟨pre, s, c, post, hl, hs, hr, hc⟩
    cases pre with
    | nil =>
      obtain rfl : b :: left = s := hl
      exact .inl ⟨c, post, hr, hc⟩
    | cons b' pre =>
      obtain ⟨-, rfl⟩ := List.cons.inj hl
      exact .inr ⟨pre, s, c, post, rfl, hs, hr, hc⟩
  · rintro (⟨c, post, hr, hc⟩ | h)
    · exact ⟨[], b :: left, c, post, rfl, List.cons_ne_nil _ _, hr, hc⟩
    · exact h.append_left [b]

theorem Splits.of_follows {taken left right : List UInt8} (ht : ∀ b ∈ taken, Follows b)
    (h : Splits (taken ++ left) right) : Splits left right := by
  induction taken with
  | nil => exact h
  | cons b taken ih =>
    rw [List.forall_mem_cons] at ht
    rcases splits_cons.1 h with ⟨c, post, -, code, tails, hl, -⟩ | h
    · rw [lead?_of_follows ht.1] at hl
      cases hl
    · exact ih ht.2 h

theorem Splits.of_append {first second right : List UInt8} (h : Splits (first ++ second) right) :
    Splits second right ∨ Splits first (second ++ right) ∧ second.count 0x0A = 0 := by
  obtain ⟨pre, s, b, post, hl, hs, rfl, hb⟩ := h
  rcases List.append_eq_append_iff.1 hl with ⟨mid, rfl, rfl⟩ | ⟨mid, rfl, rfl⟩
  · exact .inl ⟨mid, s, b, post, rfl, hs, rfl, hb⟩
  · cases mid with
    | nil => exact .inl ⟨[], second, b, post, rfl, hs, rfl, hb⟩
    | cons m mid =>
      have hf : ∀ b' ∈ second, Follows b' := fun b' hb' =>
        IsBeginning.follows hb b' (by simp [hb'])
      refine .inr ⟨?_, List.count_eq_zero.2 fun hn => (hf _ hn).ne_newline rfl⟩
      cases second with
      | nil => exact ⟨pre, m :: mid, b, post, rfl, List.cons_ne_nil _ _, rfl, by simpa using hb⟩
      | cons c second =>
        refine ⟨pre, m :: mid, c, second ++ b :: post, rfl, List.cons_ne_nil _ _, rfl, ?_⟩
        exact IsBeginning.of_append (t := second ++ [b]) (by simp) (by simpa using hb)

theorem exists_waiting {tails : List Tail} {x : List UInt8} (code : Nat)
    (h : fits tails x = true) (hx : x.length < tails.length) :
    ∃ code' t rest, (∀ t' ∈ t :: rest, t' ∈ tails) ∧
      ∀ y, follow tails code (x ++ y) = follow (t :: rest) code' y ∧
        fits tails (x ++ y) = fits (t :: rest) y := by
  induction tails generalizing x code with
  | nil => exact absurd hx (Nat.not_lt_zero _)
  | cons t tails ih =>
    cases x with
    | nil => exact ⟨code, t, tails, fun _ h => h, fun y => ⟨rfl, rfl⟩⟩
    | cons b x =>
      simp only [fits, Bool.and_eq_true] at h
      obtain ⟨code', t', rest, hmem, hy⟩ :=
        ih (code * 64 + b.toNat % 64) h.2 (Nat.lt_of_succ_lt_succ hx)
      refine ⟨code', t', rest, fun t hm => List.mem_cons_of_mem _ (hmem t hm), fun y => ?_⟩
      simpa only [List.cons_append, follow, fits, h.1, if_true, Bool.true_and] using hy y

theorem follow_append {tails : List Tail} {x : List UInt8} (code : Nat)
    (h : fits tails x = true → tails.length ≤ x.length) (y : List UInt8) :
    follow tails code (x ++ y) = ((follow tails code x).1, (follow tails code x).2 ++ y) := by
  induction tails generalizing x code with
  | nil => cases x <;> rfl
  | cons t tails ih =>
    cases x with
    | nil => exact absurd (h rfl) (Nat.not_succ_le_zero _)
    | cons b x =>
      by_cases hb : t.admits b = true
      · have hx : fits tails x = true → tails.length ≤ x.length := fun hf =>
          Nat.le_of_succ_le_succ (h (by simp [fits, hb, hf]))
        simpa only [List.cons_append, follow, if_pos hb] using ih _ hx
      · simp only [List.cons_append, follow, if_neg hb]

theorem exists_taken {tails : List Tail} (ht : ∀ t ∈ tails, t.IsNarrow) (code : Nat)
    (bytes : List UInt8) :
    ∃ taken, bytes = taken ++ (follow tails code bytes).2 ∧ ∀ b ∈ taken, Follows b := by
  fun_induction follow tails code bytes with
  | case1 code bytes => exact ⟨[], rfl, by simp⟩
  | case2 t tails code b bytes hb ih =>
    rw [List.forall_mem_cons] at ht
    obtain ⟨taken, hbytes, hf⟩ := ih ht.2
    refine ⟨b :: taken, ?_, List.forall_mem_cons.2 ⟨ht.1.follows hb, hf⟩⟩
    rw [List.cons_append, ← hbytes]
  | case3 t tails code b bytes hb => exact ⟨[], rfl, by simp⟩
  | case4 t tails code => exact ⟨[], rfl, by simp⟩

theorem le_follow {tails : List Tail} {code n : Nat} {bytes : List UInt8}
    (h : (follow tails code bytes).1 = some n) : code ≤ n := by
  fun_induction follow tails code bytes with
  | case1 code bytes => exact Nat.le_of_eq (Option.some.inj h)
  | case2 t tails code b bytes hb ih => exact Nat.le_trans (by omega) (ih h)
  | case3 t tails code b bytes hb => cases h
  | case4 t tails code => cases h

theorem ofNat_eq_newline_iff (n : Nat) : Char.ofNat n = '\n' ↔ n = 0x0A := by
  refine ⟨fun h => ?_, fun h => h ▸ rfl⟩
  by_cases hn : n.isValidChar
  · rw [Char.ofNat, dif_pos hn] at h
    exact congrArg Char.toNat h
  · rw [Char.ofNat, dif_neg hn] at h
    exact absurd h (by decide)

def letter (tails : List Tail) (code : Nat) (bytes : List UInt8) : Char :=
  ((follow tails code bytes).1.map Char.ofNat).getD replacement

theorem decode_of_none {b : UInt8} (h : lead? b = none) (bytes : List UInt8) :
    decode (b :: bytes) = replacement :: decode bytes := by
  rw [decode, h]

theorem decode_of_some {b : UInt8} {code : Nat} {tails : List Tail}
    (h : lead? b = some (code, tails)) (bytes : List UInt8) :
    decode (b :: bytes) = letter tails code bytes :: decode (follow tails code bytes).2 := by
  rw [decode, h]
  rfl

theorem decode_follows {taken : List UInt8} (h : ∀ b ∈ taken, Follows b) (rest : List UInt8) :
    decode (taken ++ rest) = List.replicate taken.length replacement ++ decode rest := by
  induction taken with
  | nil => rfl
  | cons b taken ih =>
    rw [List.forall_mem_cons] at h
    rw [List.cons_append, decode_of_none (lead?_of_follows h.1), ih h.2]
    rfl

theorem letter_ne_newline {b : UInt8} {code : Nat} {t : Tail} {tails : List Tail}
    (h : lead? b = some (code, t :: tails)) (bytes : List UInt8) :
    letter (t :: tails) code bytes ≠ '\n' := by
  cases hn : (follow (t :: tails) code bytes).1 with
  | none => simp only [letter, hn, Option.map_none, Option.getD_none]; decide
  | some n =>
    simp only [letter, hn, Option.map_some, Option.getD_some, ne_eq, ofNat_eq_newline_iff]
    cases bytes with
    | nil => cases hn
    | cons b' bytes =>
      by_cases hb : t.admits b' = true
      · simp only [follow, if_pos hb] at hn
        exact Nat.ne_of_gt (Nat.lt_of_lt_of_le ((of_lead?_cons h).2 b' hb) (le_follow hn))
      · simp only [follow, if_neg hb] at hn
        cases hn

theorem count_decode (bytes : List UInt8) :
    (decode bytes).count '\n' = bytes.count 0x0A := by
  fun_induction decode bytes with
  | case1 => rfl
  | case2 b bytes h ih =>
    have hb : b ≠ 0x0A := by
      rintro rfl
      cases h
    rw [List.count_cons_of_ne (by decide), List.count_cons_of_ne hb, ih]
  | case3 b bytes code tails h read ih =>
    obtain ⟨taken, hbytes, hf⟩ := exists_taken (narrow_of_lead? h) code bytes
    have hrest : read.2.count 0x0A = bytes.count 0x0A := by
      rw [hbytes, List.count_append, List.count_eq_zero.2 fun hn => (hf _ hn).ne_newline rfl,
        Nat.zero_add]
    have hc : letter tails code bytes = '\n' ↔ b = 0x0A := by
      cases tails with
      | nil =>
        obtain rfl := of_lead?_nil h
        simp only [letter, follow, Option.map_some, Option.getD_some, ofNat_eq_newline_iff]
        exact ⟨fun hb => UInt8.toNat_inj.1 hb, fun hb => hb ▸ rfl⟩
      | cons t tails =>
        refine iff_of_false (letter_ne_newline h bytes) ?_
        rintro rfl
        exact absurd (of_lead?_cons h).1 (by decide)
    change (letter tails code bytes :: decode read.2).count '\n' = _
    simp only [List.count_cons, ih, hrest, beq_iff_eq, hc]

theorem splits_cons_of_closed {b : UInt8} {code : Nat} {tails : List Tail}
    (h : lead? b = some (code, tails)) {left : List UInt8}
    (hx : fits tails left = true → tails.length ≤ left.length) {right : List UInt8} :
    Splits (b :: left) right ↔ Splits (follow tails code left).2 right := by
  obtain ⟨taken, hleft, hf⟩ := exists_taken (narrow_of_lead? h) code left
  rw [splits_cons, or_iff_right]
  · constructor <;> intro hs
    · rw [hleft] at hs
      exact hs.of_follows hf
    · rw [hleft]
      exact hs.append_left taken
  · rintro ⟨c, post, -, code', tails', hl, hfit⟩
    change fits tails' (left ++ [c]) = true at hfit
    obtain ⟨rfl, rfl⟩ : code = code' ∧ tails = tails' := by simpa [h] using hl
    have hle := length_le_of_fits hfit
    have hge := hx (fits_of_append hfit)
    rw [List.length_append, List.length_singleton] at hle
    omega

theorem exists_open {b : UInt8} {code : Nat} {tails : List Tail}
    (h : lead? b = some (code, tails)) {left : List UInt8}
    (hx : ¬ (fits tails left = true → tails.length ≤ left.length)) :
    ∃ code' t rest, (∀ t' ∈ t :: rest, t'.IsNarrow) ∧ decode (b :: left) = [replacement] ∧
      (∀ y, decode (b :: left ++ y) =
        letter (t :: rest) code' y :: decode (follow (t :: rest) code' y).2) ∧
      (∀ y, letter (t :: rest) code' y ≠ '\n') ∧
      ∀ c post, Splits (b :: left) (c :: post) ↔ t.admits c = true := by
  obtain ⟨hfit, hlt⟩ : fits tails left = true ∧ left.length < tails.length := by
    simpa only [Classical.not_imp, Nat.not_le] using hx
  obtain ⟨code', t, rest, hmem, hy⟩ := exists_waiting code hfit hlt
  have hnarrow := narrow_of_lead? h
  have hletter : ∀ y, letter tails code (left ++ y) = letter (t :: rest) code' y := fun y => by
    simp only [letter, (hy y).1]
  have hread : ∀ y, decode (b :: left ++ y) =
      letter (t :: rest) code' y :: decode (follow (t :: rest) code' y).2 := fun y => by
    rw [List.cons_append, decode_of_some h, hletter, (hy y).1]
  refine ⟨code', t, rest, fun t' ht' => hnarrow t' (hmem t' ht'), ?_, hread, fun y => ?_,
    fun c post => ?_⟩
  · have hnil := hread []
    rw [List.append_nil] at hnil
    rw [hnil]
    simp [follow, letter, decode]
  · cases tails with
    | nil => exact absurd hlt (Nat.not_lt_zero _)
    | cons t' tails => exact hletter y ▸ letter_ne_newline h _
  · have hone : fits tails (left ++ [c]) = t.admits c := by
      rw [(hy [c]).2]
      simp [fits]
    rw [splits_cons, or_iff_left]
    · constructor
      · rintro ⟨_, _, hr, code'', tails'', hl, hc⟩
        obtain ⟨rfl, -⟩ := List.cons.inj hr
        obtain ⟨rfl, rfl⟩ : code = code'' ∧ tails = tails'' := by simpa [h] using hl
        exact hone ▸ hc
      · intro hc
        exact ⟨c, post, rfl, code, tails, h, hone.trans hc⟩
    · intro hs
      rw [← List.append_nil left] at hs
      exact not_splits_nil _ (hs.of_follows (follows_of_fits hnarrow hfit))

theorem decode_append {left right : List UInt8} (h : ¬ Splits left right) :
    decode (left ++ right) = decode left ++ decode right := by
  fun_induction decode left with
  | case1 => rfl
  | case2 b left hl ih =>
    rw [List.cons_append, decode_of_none hl, ih fun hs => h (hs.append_left [b])]
    rfl
  | case3 b left code tails hl read ih =>
    change _ = letter tails code left :: decode read.2 ++ _
    -- Either this character ends before the cut, or it takes up all that is left of it.
    by_cases hx : fits tails left = true → tails.length ≤ left.length
    · rw [splits_cons_of_closed hl hx] at h
      rw [List.cons_append, decode_of_some hl, letter, follow_append code hx, ih h]
      rfl
    · cases right with
      | nil => simp [decode, decode_of_some hl, read]
      | cons c post =>
        obtain ⟨code', t, rest, -, hleft, hall, -, hsplits⟩ := exists_open hl hx
        have hc : t.admits c = false := by simpa using (hsplits c post).not.1 h
        rw [hall, ← decode_of_some hl, hleft]
        simp [follow, letter, hc]

theorem decode_of_splits {left right : List UInt8} (h : Splits left right) :
    ∃ x c k y, decode (left ++ right) = x ++ c :: y ∧
      decode left ++ decode right = x ++ List.replicate (k + 2) replacement ++ y ∧
      c ≠ '\n' ∧ y.count '\n' = right.count 0x0A := by
  fun_induction decode left with
  | case1 => exact absurd h (not_splits_nil right)
  | case2 b left hl ih =>
    have hs : Splits left right := by
      rcases splits_cons.1 h with ⟨c, post, -, code, tails, hl', -⟩ | hs
      · rw [hl] at hl'
        cases hl'
      · exact hs
    obtain ⟨x, c, k, y, hwhole, hparts, hc, hy⟩ := ih hs
    refine ⟨replacement :: x, c, k, y, ?_, ?_, hc, hy⟩
    · rw [List.cons_append, decode_of_none hl, hwhole, List.cons_append]
    · simp only [List.cons_append, hparts]
  | case3 b left code tails hl read ih =>
    change ∃ x c k y, _ ∧ letter tails code left :: decode read.2 ++ _ = _ ∧ _
    by_cases hx : fits tails left = true → tails.length ≤ left.length
    · obtain ⟨x, c, k, y, hwhole, hparts, hc, hy⟩ := ih ((splits_cons_of_closed hl hx).1 h)
      refine ⟨letter tails code left :: x, c, k, y, ?_, ?_, hc, hy⟩
      · rw [List.cons_append, decode_of_some hl, letter, follow_append code hx, hwhole]
        rfl
      · simp only [List.cons_append, hparts]
    · obtain ⟨code', t, rest, hnarrow, hleft, hall, hne, hsplits⟩ := exists_open hl hx
      obtain ⟨-, -, c, post, -, -, rfl, -⟩ := id h
      have hc := (hsplits c post).1 h
      rw [List.forall_mem_cons] at hnarrow
      obtain ⟨taken, hpost, hf⟩ := exists_taken hnarrow.2 (code' * 64 + c.toNat % 64) post
      have hright : c :: post = c :: taken ++ (follow (t :: rest) code' (c :: post)).2 := by
        rw [follow, if_pos hc, List.cons_append, ← hpost]
      have hfollows : ∀ b ∈ c :: taken, Follows b :=
        List.forall_mem_cons.2 ⟨hnarrow.1.follows hc, hf⟩
      refine ⟨[], letter (t :: rest) code' (c :: post), taken.length,
        decode (follow (t :: rest) code' (c :: post)).2, hall _, ?_, hne _, ?_⟩
      · rw [← decode_of_some hl, hleft, hright, decode_follows hfollows, ← hright]
        simp [List.replicate_succ]
      · rw [count_decode, hright, List.count_append, ← hright,
          List.count_eq_zero.2 fun hn => (hfollows _ hn).ne_newline rfl, Nat.zero_add]

end Chip8.Utf8
