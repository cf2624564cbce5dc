import Chip8.Proofs.Picture.Draw
import Mathlib.Data.List.Induction

namespace Chip8

structure Pipeline where
  framebuffer : Framebuffer := {}
  screen : Screen := {}

namespace Pipeline

inductive Op where
  | clear
  | draw (x y : UInt8) (sprite : List UInt8) (clip : Bool)
  | push
  | take
  | look
  deriving DecidableEq, Repr

def apply (p : Pipeline) : Op → Pipeline
  | .clear => { p with framebuffer := p.framebuffer.clear }
  | .draw x y sprite clip => { p with framebuffer := (p.framebuffer.draw x y sprite clip).1 }
  | .push =>
    let (framebuffer, screen, _) := p.framebuffer.push p.screen
    ⟨framebuffer, screen⟩
  | .take => { p with screen := p.screen.take.1 }
  | .look => p

def replay (ops : List Op) : Pipeline := ops.foldl apply {}

def handed (give : Pipeline → Op → Option Picture) : Pipeline → List Op → List Picture
  | _, [] => []
  | p, op :: ops => (give p op).toList ++ handed give (p.apply op) ops

def taken (ops : List Op) : List Picture :=
  handed (fun p op => if op = .take then p.screen.take.2 else none) {} ops

def pushed (ops : List Op) : List Picture :=
  handed (fun p op => if op = .push then some p.framebuffer.picture else none) {} ops

def Delivers (p : Pipeline) : Prop :=
  (p.apply .push).screen.received = p.framebuffer.picture :: p.screen.received

def Op.Paints : Op → Prop
  | .clear => True
  | .draw x y sprite clip =>
    ∃ r < sprite.length, ∃ k < 8, Sprite.Drawn clip (x.toNat + k) (y.toNat + r)
  | _ => False

def Since (mark : Op) (P : List Op → Op → Prop) (ops : List Op) : Prop :=
  ∃ pre op post, ops = pre ++ op :: post ∧ mark ∉ post ∧ P pre op

theorem since_concat {mark op : Op} {P : List Op → Op → Prop} {ops : List Op} :
    Since mark P (ops ++ [op]) ↔ P ops op ∨ op ≠ mark ∧ Since mark P ops := by
  constructor
  · rintro ⟨pre, o, post, h, hm, hP⟩
    rcases List.eq_nil_or_concat post with rfl | ⟨post, o', rfl⟩
    · obtain ⟨rfl, rfl⟩ : ops = pre ∧ op = o := by simpa using h
      exact .inl hP
    · rw [List.concat_eq_append] at h hm
      rw [← List.cons_append, ← List.append_assoc] at h
      obtain ⟨rfl, h⟩ := List.append_inj' h rfl
      obtain rfl : op = o' := by simpa using h
      simp only [List.mem_append, List.mem_singleton, not_or] at hm
      exact .inr ⟨fun e => hm.2 e.symm, pre, o, post, rfl, hm.1, hP⟩
  · rintro (hP | ⟨hne, pre, o, post, rfl, hm, hP⟩)
    · exact ⟨ops, op, [], by simp, by simp, hP⟩
    · exact ⟨pre, o, post ++ [op], by simp, by simp [hm, hne.symm], hP⟩

theorem replay_concat (ops : List Op) (op : Op) : replay (ops ++ [op]) = (replay ops).apply op := by
  simp [replay, List.foldl_append]

theorem handed_concat (give : Pipeline → Op → Option Picture) (p : Pipeline) (ops : List Op)
    (op : Op) :
    handed give p (ops ++ [op]) = handed give p ops ++ (give (ops.foldl apply p) op).toList := by
  induction ops generalizing p with
  | nil => simp [handed]
  | cons o ops ih => simp [handed, ih]

theorem taken_concat (ops : List Op) (op : Op) :
    taken (ops ++ [op]) =
      taken ops ++ (if op = .take then (replay ops).screen.take.2 else none).toList :=
  handed_concat ..

theorem pushed_concat (ops : List Op) (op : Op) :
    pushed (ops ++ [op]) =
      pushed ops ++ (if op = .push then some (replay ops).framebuffer.picture else none).toList :=
  handed_concat ..

theorem apply_push_of_clean {p : Pipeline} (h : p.framebuffer.dirty = false) :
    p.apply .push = p := by
  simp [apply, Framebuffer.push, h]

theorem apply_push_of_dirty {p : Pipeline} (hf : p.screen.flaw = none)
    (h : p.framebuffer.dirty = true) :
    p.apply .push =
      ⟨{ p.framebuffer with dirty := false }, p.screen.present p.framebuffer.picture⟩ := by
  simp [apply, Framebuffer.push, h, Screen.crash?, hf]

theorem delivers_iff {p : Pipeline} (hf : p.screen.flaw = none) :
    p.Delivers ↔ p.framebuffer.dirty = true := by
  rw [Delivers]
  cases h : p.framebuffer.dirty with
  | true => simp [apply_push_of_dirty hf h, Screen.present]
  | false => simp [apply_push_of_clean h]

theorem isSome_take (s : Screen) : s.take.2.isSome = s.changed := by
  rw [Screen.take]
  cases s.changed <;> rfl

theorem flaw_apply (p : Pipeline) (op : Op) : (p.apply op).screen.flaw = p.screen.flaw := by
  cases op with
  | clear | draw | look => rfl
  | take =>
    simp only [apply, Screen.take]
    split <;> rfl
  | push =>
    simp only [apply, Framebuffer.push]
    split
    · split <;> rfl
    · rfl

theorem flaw_replay (ops : List Op) : (replay ops).screen.flaw = none := by
  induction ops using List.reverseRecOn with
  | nil => rfl
  | append_singleton ops op ih => rw [replay_concat, flaw_apply, ih]

theorem dirty_apply_iff {p : Pipeline} (hf : p.screen.flaw = none) (op : Op) :
    (p.apply op).framebuffer.dirty = true ↔
      op.Paints ∨ op ≠ .push ∧ p.framebuffer.dirty = true := by
  cases op with
  | clear => simp [apply, Framebuffer.clear, Op.Paints]
  | draw x y sprite clip =>
    rw [apply, Framebuffer.dirty_draw_iff, or_comm]
    simp [Op.Paints]
  | take | look => simp [apply, Op.Paints]
  | push =>
    cases h : p.framebuffer.dirty with
    | true => simp [apply_push_of_dirty hf h, Op.Paints]
    | false => simp [apply_push_of_clean h, Op.Paints, h]

theorem changed_apply_iff {p : Pipeline} (hf : p.screen.flaw = none) (op : Op) :
    (p.apply op).screen.changed = true ↔
      op = .push ∧ p.Delivers ∨ op ≠ .take ∧ p.screen.changed = true := by
  rw [delivers_iff hf]
  cases op with
  | clear | draw | look => simp [apply]
  | take =>
    simp only [apply, Screen.take]
    cases h : p.screen.changed <;> simp [h]
  | push =>
    cases h : p.framebuffer.dirty with
    | true => simp [apply_push_of_dirty hf h, Screen.present]
    | false => simp [apply_push_of_clean h]

theorem mark_replay_iff (flag : Pipeline → Bool) (mark : Op) {P : List Op → Op → Prop}
    (hnew : flag {} = true)
    (happly : ∀ ops op, flag ((replay ops).apply op) = true ↔
      P ops op ∨ op ≠ mark ∧ flag (replay ops) = true) (ops : List Op) :
    flag (replay ops) = true ↔ mark ∉ ops ∨ Since mark P ops := by
  induction ops using List.reverseRecOn with
  | nil => exact iff_of_true hnew (.inl (List.not_mem_nil))
  | append_singleton ops op ih =>
    rw [replay_concat, happly, since_concat, ih, List.mem_append, List.mem_singleton]
    by_cases h : op = mark
    · simp [h]
    · have hne : ¬ mark = op := fun e => h e.symm
      simp only [ne_eq, h, hne, not_false_eq_true, true_and, or_false]
      exact or_left_comm

theorem dirty_replay_iff (ops : List Op) :
    (replay ops).framebuffer.dirty = true ↔
      .push ∉ ops ∨ Since .push (fun _ op => op.Paints) ops :=
  mark_replay_iff (·.framebuffer.dirty) .push rfl
    (fun ops op => dirty_apply_iff (flaw_replay ops) op) ops

theorem changed_replay_iff (ops : List Op) :
    (replay ops).screen.changed = true ↔
      .take ∉ ops ∨ Since .take (fun pre op => op = .push ∧ (replay pre).Delivers) ops :=
  mark_replay_iff (·.screen.changed) .take rfl
    (fun ops op => changed_apply_iff (flaw_replay ops) op) ops

theorem picture_apply {p : Pipeline} {op : Op} (h : ¬ op.Paints) :
    (p.apply op).framebuffer.picture = p.framebuffer.picture := by
  cases op with
  | clear => exact absurd trivial h
  | draw x y sprite clip =>
    have hn : (Sprite.placed clip x y sprite).isEmpty = true := by
      rw [List.isEmpty_iff]
      by_contra hp
      exact h ((Sprite.placed_ne_nil_iff clip x y sprite).1 hp)
    rw [apply, Framebuffer.draw_of_isEmpty _ hn]
  | take | look => rfl
  | push =>
    simp only [apply, Framebuffer.push]
    split
    · split <;> rfl
    · rfl

theorem frame_apply {p : Pipeline} {op : Op} (h : op ≠ .push) :
    (p.apply op).screen.frame = p.screen.frame := by
  cases op with
  | push => exact absurd rfl h
  | clear | draw | look => rfl
  | take =>
    simp only [apply, Screen.take]
    split <;> rfl

theorem frame_apply_push {ops : List Op}
    (h : (replay ops).framebuffer.dirty = false →
      (replay ops).screen.frame = (replay ops).framebuffer.picture) :
    ((replay ops).apply .push).screen.frame = (replay ops).framebuffer.picture := by
  cases hd : (replay ops).framebuffer.dirty with
  | true => rw [apply_push_of_dirty (flaw_replay ops) hd, Screen.frame_present]
  | false => rw [apply_push_of_clean hd, h hd]

theorem frame_of_clean {ops : List Op} (h : (replay ops).framebuffer.dirty = false) :
    (replay ops).screen.frame = (replay ops).framebuffer.picture := by
  induction ops using List.reverseRecOn with
  | nil => cases h
  | append_singleton ops op ih =>
    have hd := dirty_apply_iff (flaw_replay ops) op
    rw [replay_concat] at h ⊢
    by_cases hop : op = .push
    · subst hop
      rw [frame_apply_push ih, picture_apply id]
    · rw [h] at hd
      simp only [Bool.false_eq_true, false_iff, not_or, not_and, Bool.not_eq_true] at hd
      rw [frame_apply hop, picture_apply hd.1, ih (hd.2 hop)]

theorem frame_push (ops : List Op) :
    (replay (ops ++ [.push])).screen.frame = (replay ops).framebuffer.picture := by
  rw [replay_concat, frame_apply_push frame_of_clean]

theorem frame_take (ops : List Op) :
    (replay (ops ++ [.take])).screen.frame = (replay ops).screen.frame := by
  have hne : Op.take ≠ .push := by decide
  rw [replay_concat, frame_apply hne]

theorem frame_eq_pushed (ops : List Op) :
    (replay ops).screen.frame = (pushed ops).getLastD .blank := by
  induction ops using List.reverseRecOn with
  | nil => rfl
  | append_singleton ops op ih =>
    rw [pushed_concat]
    by_cases hop : op = .push
    · subst hop
      rw [frame_push, if_pos rfl, Option.toList_some, List.getLastD_concat]
    · rw [replay_concat, frame_apply hop, if_neg hop, Option.toList_none, List.append_nil, ih]

theorem taken_of_unchanged {ops : List Op} (h : (replay ops).screen.changed = false) :
    (taken ops).getLast? = some (replay ops).screen.frame := by
  induction ops using List.reverseRecOn with
  | nil => cases h
  | append_singleton ops op ih =>
    have hc := changed_apply_iff (flaw_replay ops) op
    rw [taken_concat]
    by_cases hop : op = .take
    · subst hop
      rw [if_pos rfl, frame_take]
      cases hb : (replay ops).screen.changed with
      | true => simp [Screen.take, hb]
      | false => simp [Screen.take, hb, ih hb]
    · rw [replay_concat] at h ⊢
      rw [h] at hc
      simp only [Bool.false_eq_true, false_iff, not_or, not_and, Bool.not_eq_true] at hc
      rw [if_neg hop, Option.toList_none, List.append_nil, ih (hc.2 hop)]
      by_cases hp : op = .push
      · subst hp
        have hn := hc.1 rfl
        rw [delivers_iff (flaw_replay ops), Bool.not_eq_true] at hn
        rw [apply_push_of_clean hn]
      · rw [frame_apply hp]

theorem taken_take (ops : List Op) :
    (taken (ops ++ [.take])).getLast? = some (replay ops).screen.frame := by
  have h : (replay (ops ++ [.take])).screen.changed = false := by
    rw [replay_concat, apply, Screen.take]
    split
    · rfl
    · next hn => exact Bool.not_eq_true _ ▸ hn
  rw [taken_of_unchanged h, frame_take]

theorem pipeline_loses_no_frame (ops : List Op) :
    let p : Pipeline := replay ops
    ((taken (ops ++ [.take])).getLast? = some ((pushed ops).getLastD .blank) ∧
        (pushed ops).getLastD .blank = p.screen.received.headD .blank) ∧
      (p.screen.take.2.isSome = true ↔
        .take ∉ ops ∨ Since .take (fun pre op => op = .push ∧ (replay pre).Delivers) ops) ∧
      (p.Delivers ↔ .push ∉ ops ∨ Since .push (fun _ op => op.Paints) ops) ∧
      (¬ p.Delivers → (p.apply .push).screen.received = p.screen.received) ∧
      (p.apply .push).screen.frame = (p.apply .push).framebuffer.picture := by
  intro p
  have hf := flaw_replay ops
  refine ⟨⟨?_, ?_⟩, ?_, ?_, ?_, ?_⟩
  · rw [taken_take, frame_eq_pushed]
  · rw [← frame_eq_pushed, Screen.frame]
  · rw [isSome_take, changed_replay_iff]
  · rw [delivers_iff hf, dirty_replay_iff]
  · intro hn
    rw [delivers_iff hf, Bool.not_eq_true] at hn
    rw [apply_push_of_clean hn]
  · rw [picture_apply id, ← frame_push, replay_concat]

end Pipeline

end Chip8
