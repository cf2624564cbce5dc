import Chip8.Proofs.Cpu.Process

namespace Chip8

def depth (os : List Opcode) : Int := os.count .call - os.count .ret

theorem depth_append (xs ys : List Opcode) : depth (xs ++ ys) = depth xs + depth ys := by
  simp only [depth, List.count_append]
  omega

/-- The empty stack has depth 0. One return below it succeeds, since slot 0 exists, and takes the
pointer round to 255. -/
structure AtDepth (c : Cpu) (d : Int) : Prop where
  lower : -1 ≤ d
  upper : d ≤ 15
  sp : (c.sp.toNat : Int) = d % 256

theorem AtDepth.sp_lt_iff {c : Cpu} {d : Int} (h : AtDepth c d) : c.sp.toNat < 16 ↔ 0 ≤ d := by
  have := h.lower
  have := h.upper
  have := h.sp
  omega

theorem AtDepth.succ_sp_lt_iff {c : Cpu} {d : Int} (h : AtDepth c d) :
    (c.sp + 1).toNat < 16 ↔ d < 15 := by
  have := h.lower
  have := h.upper
  have := h.sp
  rw [UInt8.toNat_add, UInt8.toNat_one]
  omega

theorem AtDepth.call {c c' : Cpu} {d : Int} (h : AtDepth c d) (hlt : (c.sp + 1).toNat < 16)
    (hs : c'.sp = c.sp + 1) : AtDepth c' (d + 1) := by
  have hd : d < 15 := h.succ_sp_lt_iff.1 hlt
  have hl := h.lower
  have hsp := h.sp
  refine ⟨by omega, by omega, ?_⟩
  rw [hs, UInt8.toNat_add, UInt8.toNat_one]
  omega

theorem AtDepth.ret {c c' : Cpu} {d : Int} (h : AtDepth c d) (hlt : c.sp.toNat < 16)
    (hs : c'.sp = c.sp - 1) : AtDepth c' (d - 1) := by
  have hd : 0 ≤ d := h.sp_lt_iff.1 hlt
  have hu := h.upper
  have hsp := h.sp
  refine ⟨by omega, by omega, ?_⟩
  rw [hs, UInt8.toNat_sub, UInt8.toNat_one]
  omega

theorem AtDepth.call_overflow_iff {c : Cpu} {d : Int} (h : AtDepth c d) {sp : UInt8} :
    ¬ (c.sp + 1).toNat < 16 ∧ sp = c.sp + 1 ↔ d = 15 ∧ sp = 16 := by
  have hu := h.upper
  have hsp := h.sp
  have hd : ¬ (c.sp + 1).toNat < 16 ↔ d = 15 := by
    rw [h.succ_sp_lt_iff]
    omega
  rw [hd]
  refine and_congr_right fun h15 => ?_
  have hc : c.sp = 15 := UInt8.toNat_inj.1 (show c.sp.toNat = 15 by omega)
  rw [hc]
  rfl

theorem AtDepth.ret_overflow_iff {c : Cpu} {d : Int} (h : AtDepth c d) {sp : UInt8} :
    ¬ c.sp.toNat < 16 ∧ sp = c.sp ↔ d = -1 ∧ sp = 255 := by
  have hl := h.lower
  have hsp := h.sp
  have hd : ¬ c.sp.toNat < 16 ↔ d = -1 := by
    rw [h.sp_lt_iff]
    omega
  rw [hd]
  refine and_congr_right fun h1 => ?_
  have hc : c.sp = 255 := UInt8.toNat_inj.1 (show c.sp.toNat = 255 by omega)
  rw [hc]

namespace Process

theorem callStack_move {p : Process} {m : Move} (hc : p.takes? m ≠ some .call)
    (hr : p.takes? m ≠ some .ret) :
    (p.move m).cpu.sp = p.cpu.sp ∧ (p.move m).cpu.stack = p.cpu.stack := by
  by_cases hm : m = .go
  · subst hm
    cases hq : p.request with
    | none =>
      rw [cpu_move_go_of_none hq]
      simp only [takes?, opcode?, hq] at hc hr
      exact Board.callStack_step hc hr
    | some r =>
      rw [cpu, move, board_settle, attempt_of_some hq]
      exact Board.callStack_resume p.board r
  · rw [cpu_move_of_ne_go hm]
    exact ⟨rfl, rfl⟩

theorem move_call {p : Process} {m : Move} (h : p.takes? m = some .call)
    (hs : p.SucceedsAt m) :
    ∃ hlt : (p.cpu.sp + 1).toNat < 16, (p.move m).cpu.sp = p.cpu.sp + 1 ∧
      (p.move m).cpu.stack = p.cpu.stack.set (p.cpu.sp + 1).toNat p.cpu.pc := by
  obtain ⟨rfl, hq, ho⟩ := takes?_eq_some h
  rw [SucceedsAt, attempt_of_none hq] at hs
  rw [cpu_move_go_of_none hq]
  by_cases hlt : (p.cpu.sp + 1).toNat < 16
  · obtain ⟨-, hrest⟩ := Board.step_call ho hlt
    exact ⟨hlt, hrest⟩
  · obtain ⟨ins, he⟩ := Board.step_call_overflow ho hlt
    rw [he] at hs
    exact absurd hs Bool.false_ne_true

theorem move_ret {p : Process} {m : Move} (h : p.takes? m = some .ret)
    (hs : p.SucceedsAt m) :
    ∃ hlt : p.cpu.sp.toNat < 16, (p.move m).cpu.sp = p.cpu.sp - 1 ∧
      (p.move m).cpu.stack = p.cpu.stack ∧
      (p.move m).cpu.pc = p.cpu.stack[p.cpu.sp.toNat] + 2 := by
  obtain ⟨rfl, hq, ho⟩ := takes?_eq_some h
  rw [SucceedsAt, attempt_of_none hq] at hs
  rw [cpu_move_go_of_none hq]
  by_cases hlt : p.cpu.sp.toNat < 16
  · obtain ⟨-, hrest⟩ := Board.step_ret ho hlt
    exact ⟨hlt, hrest⟩
  · obtain ⟨ins, he⟩ := Board.step_ret_overflow ho hlt
    rw [he] at hs
    exact absurd hs Bool.false_ne_true

theorem depth_toList {o : Option Opcode} (hc : o ≠ some .call) (hr : o ≠ some .ret) :
    depth o.toList = 0 := by
  cases o with
  | none => rfl
  | some o =>
    have h1 : List.count .call [o] = 0 := List.count_eq_zero.2 (by simpa [eq_comm] using hc)
    have h2 : List.count .ret [o] = 0 := List.count_eq_zero.2 (by simpa [eq_comm] using hr)
    rw [Option.toList_some, depth, h1, h2]
    rfl

theorem atDepth_move {p : Process} {m : Move} {d : Int} (h : AtDepth p.cpu d)
    (hs : p.SucceedsAt m) : AtDepth (p.move m).cpu (d + depth (p.takes? m).toList) := by
  by_cases hc : p.takes? m = some .call
  · obtain ⟨hlt, hsp, -⟩ := move_call hc hs
    rw [hc]
    exact h.call hlt hsp
  by_cases hr : p.takes? m = some .ret
  · obtain ⟨hlt, hsp, -, -⟩ := move_ret hr hs
    rw [hr]
    exact h.ret hlt hsp
  rw [depth_toList hc hr, Int.add_zero]
  have hsp := (callStack_move hc hr).1
  exact ⟨h.lower, h.upper, by rw [hsp]; exact h.sp⟩

theorem atDepth_moves {p : Process} {ms : List Move} {d : Int} (h : AtDepth p.cpu d)
    (hs : p.Succeeds ms) : AtDepth (p.moves ms).cpu (d + depth (p.executed ms)) := by
  induction ms generalizing p d with
  | nil => simpa [moves, executed, depth] using h
  | cons m ms ih =>
    have hm := ih (atDepth_move h hs.1) hs.2
    rwa [executed, depth_append, ← Int.add_assoc]

theorem stack_move {p : Process} {m : Move} {d : Int} (h : AtDepth p.cpu d)
    (hs : p.SucceedsAt m) (k : Fin 16) (hk : k.val ≤ d) :
    (p.move m).cpu.stack[k] = p.cpu.stack[k] := by
  by_cases hc : p.takes? m = some .call
  · obtain ⟨hlt, -, hst⟩ := move_call hc hs
    have hsp := h.sp
    have hu := h.upper
    have hne : (p.cpu.sp + 1).toNat ≠ k.val := by
      rw [UInt8.toNat_add, UInt8.toNat_one]
      omega
    simp only [hst, Nibble.getElem_nibble, Vector.getElem_set, hne, if_false]
  by_cases hr : p.takes? m = some .ret
  · obtain ⟨-, -, hst, -⟩ := move_ret hr hs
    rw [hst]
  rw [(callStack_move hc hr).2]

theorem stack_moves {p : Process} {ms : List Move} {d : Int} (h : AtDepth p.cpu d)
    (hs : p.Succeeds ms) (k : Fin 16)
    (hk : ∀ n ≤ ms.length, k.val ≤ d + depth (p.executed (ms.take n))) :
    (p.moves ms).cpu.stack[k] = p.cpu.stack[k] := by
  induction ms generalizing p d with
  | nil => rfl
  | cons m ms ih =>
    have h0 : k.val ≤ d := by simpa [executed, depth] using hk 0 (Nat.zero_le _)
    have hm : (p.move m).cpu.stack[k] = p.cpu.stack[k] := stack_move h hs.1 k h0
    rw [moves_cons, ← hm]
    apply ih (atDepth_move h hs.1) hs.2
    intro n hn
    have := hk (n + 1) (Nat.succ_le_succ hn)
    rwa [List.take_succ_cons, executed, depth_append, ← Int.add_assoc] at this

theorem depth_nonneg_iff {os : List Opcode} : 0 ≤ depth os ↔ os.count .ret ≤ os.count .call := by
  unfold depth
  omega

theorem atDepth_of_call {p : Process} {m : Move} (h : p.takes? m = some .call)
    (hs : p.SucceedsAt m) : AtDepth (p.move m).cpu (p.cpu.sp + 1).toNat := by
  obtain ⟨hlt, hsp, -⟩ := move_call h hs
  exact ⟨by omega, by omega, by rw [hsp]; omega⟩

theorem stack_of_call {p : Process} {m : Move} (h : p.takes? m = some .call)
    (hs : p.SucceedsAt m) (hlt : (p.cpu.sp + 1).toNat < 16) :
    (p.move m).cpu.stack[(p.cpu.sp + 1).toNat] = p.cpu.pc := by
  obtain ⟨_, -, hst⟩ := move_call h hs
  simp only [hst, Vector.getElem_set_self]

theorem takes?_eq_ret {p : Process} {m : Move} (h : depth (p.takes? m).toList < 0) :
    p.takes? m = some .ret := by
  by_cases hc : p.takes? m = some .call
  · rw [hc] at h
    exact absurd h (by decide)
  by_cases hr : p.takes? m = some .ret
  · exact hr
  · rw [depth_toList hc hr] at h
    exact absurd h (by decide)

theorem exists_concat_of_closed {q : Process} {ms : List Move}
    (hopen : ∀ n < ms.length,
      (q.executed (ms.take n)).count .ret ≤ (q.executed (ms.take n)).count .call)
    (hclose : (q.executed ms).count .ret = (q.executed ms).count .call + 1) :
    ∃ init m, ms = init ++ [m] ∧
      (∀ n ≤ init.length, 0 ≤ depth (q.executed (init.take n))) ∧
      depth (q.executed init) = 0 ∧ (q.moves init).takes? m = some .ret := by
  have hne : ms ≠ [] := by
    rintro rfl
    simp [executed] at hclose
  obtain ⟨init, m, rfl⟩ : ∃ init m, ms = init ++ [m] :=
    ⟨ms.dropLast, ms.getLast hne, (List.dropLast_concat_getLast hne).symm⟩
  have hinit : ∀ n ≤ init.length, 0 ≤ depth (q.executed (init.take n)) := by
    intro n hn
    have := hopen n (by rw [List.length_append, List.length_singleton]; omega)
    rw [List.take_append_of_le_length hn] at this
    exact depth_nonneg_iff.2 this
  have hsum : depth (q.executed init) + depth ((q.moves init).takes? m).toList = -1 := by
    rw [← depth_append, ← executed_concat, depth]
    omega
  have h0 := hinit init.length (Nat.le_refl _)
  rw [List.take_length] at h0
  have hret : (q.moves init).takes? m = some .ret := takes?_eq_ret (by omega)
  have h1 : depth [Opcode.ret] = -1 := by decide
  rw [hret, Option.toList_some, h1] at hsum
  exact ⟨init, m, rfl, hinit, by omega, hret⟩

theorem closed_call_returns {p : Process} {ms : List Move} (hcall : p.opcode? = some .call)
    (hrun : p.Succeeds (.go :: ms))
    (hopen : ∀ n < ms.length, ((p.move .go).executed (ms.take n)).count .ret ≤
      ((p.move .go).executed (ms.take n)).count .call)
    (hclose : ((p.move .go).executed ms).count .ret =
      ((p.move .go).executed ms).count .call + 1) :
    ((p.move .go).moves ms).cpu.pc = p.cpu.pc + 2 ∧
      ((p.move .go).moves ms).cpu.sp = p.cpu.sp ∧
      ∀ k : Fin 16, k.val ≤ (p.cpu.sp + 1).toNat →
        ((p.move .go).moves ms).cpu.stack[k] = (p.move .go).cpu.stack[k] := by
  obtain ⟨hgo, hms⟩ := hrun
  have hcall : p.takes? .go = some .call := hcall
  obtain ⟨hlt, -, -⟩ := move_call hcall hgo
  obtain ⟨init, m, rfl, hinit, hd, hret⟩ := exists_concat_of_closed hopen hclose
  obtain ⟨hsi, hsm⟩ := succeeds_concat.1 hms
  have hq := atDepth_of_call hcall hgo
  have hr := atDepth_moves hq hsi
  have hsp : ((p.move .go).moves init).cpu.sp = p.cpu.sp + 1 := by
    have := hr.sp
    rw [hd] at this
    exact UInt8.toNat_inj.1 (by omega)
  have hkept (k : Fin 16) (hk : k.val ≤ (p.cpu.sp + 1).toNat) :
      ((p.move .go).moves init).cpu.stack[k] = (p.move .go).cpu.stack[k] := by
    refine stack_moves hq hsi k fun n hn => ?_
    have := hinit n hn
    omega
  obtain ⟨_, hsp', hst', hpc'⟩ := move_ret hret hsm
  rw [moves_concat]
  refine ⟨?_, ?_, fun k hk => ?_⟩
  · have htop := hkept ⟨(p.cpu.sp + 1).toNat, hlt⟩ (Nat.le_refl _)
    simp only [Nibble.getElem_nibble] at htop
    simp only [hpc', hsp, htop, stack_of_call hcall hgo hlt]
  · rw [hsp', hsp, UInt8.add_sub_cancel]
  · rw [hst', hkept k hk]

theorem attempt_overflow_iff {p : Process} {sp : UInt8} {pc : UInt16} :
    p.attempt.2 = .failed (.stackOverflow sp pc) ↔
      (p.opcode? = some .call ∧ ¬ (p.cpu.sp + 1).toNat < 16 ∧ sp = p.cpu.sp + 1 ∨
        p.opcode? = some .ret ∧ ¬ p.cpu.sp.toNat < 16 ∧ sp = p.cpu.sp) ∧ pc = p.cpu.pc := by
  cases hr : p.request with
  | none =>
    have ho : p.opcode? = p.board.cpu.opcode? := by simp only [opcode?, hr, cpu]
    rw [attempt_of_none hr, Board.step_failed_iff, ho]
    simp only [Fault.stackOverflow.injEq, reduceCtorEq, and_false, or_false, cpu]
    constructor
    · rintro (⟨ho, hge, rfl, rfl⟩ | ⟨ho, hge, rfl, rfl⟩)
      · exact ⟨.inr ⟨ho, hge, rfl⟩, rfl⟩
      · exact ⟨.inl ⟨ho, hge, rfl⟩, rfl⟩
    · rintro ⟨⟨ho, hge, rfl⟩ | ⟨ho, hge, rfl⟩, rfl⟩
      · exact .inr ⟨ho, hge, rfl, rfl⟩
      · exact .inl ⟨ho, hge, rfl, rfl⟩
  | some r =>
    have ho : p.opcode? = none := by simp only [opcode?, hr]
    rw [attempt_of_some hr, Board.resume_eq, ho]
    cases p.board.devices.keypad.verdict r.wait <;> simp

def nested : Process :=
  boot (Memory.blank.store 0x200 [0x22, 0x02, 0x22, 0x04, 0x00, 0xEE]) false {}

theorem closed_call_returns_nested :
    nested.opcode? = some .call ∧ nested.Succeeds [.go, .go, .go, .go] ∧
      (∀ n < 3, ((nested.move .go).executed (([.go, .go, .go] : List Move).take n)).count .ret ≤
        ((nested.move .go).executed (([.go, .go, .go] : List Move).take n)).count .call) ∧
      ((nested.move .go).executed [.go, .go, .go]).count .ret =
        ((nested.move .go).executed [.go, .go, .go]).count .call + 1 ∧
      ((nested.move .go).moves [.go, .go, .go]).cpu.pc = 0x202 := by
  have hcall : nested.opcode? = some .call := by decide +kernel
  have hrun : nested.Succeeds [.go, .go, .go, .go] := by decide +kernel
  have hopen : ∀ n < 3,
      ((nested.move .go).executed (([.go, .go, .go] : List Move).take n)).count .ret ≤
        ((nested.move .go).executed (([.go, .go, .go] : List Move).take n)).count .call := by
    decide +kernel
  have hclose : ((nested.move .go).executed [.go, .go, .go]).count .ret =
      ((nested.move .go).executed [.go, .go, .go]).count .call + 1 := by
    decide +kernel
  exact ⟨hcall, hrun, hopen, hclose, (closed_call_returns hcall hrun hopen hclose).1⟩

theorem overflow_iff_depth (memory : Memory) (clip : Bool) (devices : Devices) (ms : List Move)
    (hs : (boot memory clip devices).Succeeds ms) :
    let q := (boot memory clip devices).moves ms
    let d := depth ((boot memory clip devices).executed ms)
    (-1 ≤ d ∧ d ≤ 15) ∧ (q.cpu.sp.toNat : Int) = d % 256 ∧
      ∀ sp pc, q.attempt.2 = .failed (.stackOverflow sp pc) ↔
        (q.opcode? = some .call ∧ d = 15 ∧ sp = 16 ∨
          q.opcode? = some .ret ∧ d = -1 ∧ sp = 255) ∧ pc = q.cpu.pc := by
  intro q d
  have h0 : AtDepth (boot memory clip devices).cpu 0 := ⟨by decide, by decide, rfl⟩
  have hq : AtDepth q.cpu d := by
    have := atDepth_moves h0 hs
    rwa [Int.zero_add] at this
  refine ⟨⟨hq.lower, hq.upper⟩, hq.sp, fun sp pc => ?_⟩
  rw [attempt_overflow_iff, hq.call_overflow_iff, hq.ret_overflow_iff]

def unnested : Memory := (Memory.blank.write 0x201 0xEE).write 0x003 0xEE

theorem overflow_of_unnested :
    (boot unnested false {}).Succeeds [.go] ∧
      ((boot unnested false {}).moves [.go]).attempt.2 = .failed (.stackOverflow 255 0x002) := by
  have hs : (boot unnested false {}).Succeeds [.go] := by decide +kernel
  have hop : ((boot unnested false {}).moves [.go]).opcode? = some .ret := by decide +kernel
  have hd : depth ((boot unnested false {}).executed [.go]) = -1 := by decide +kernel
  have hpc : 0x002 = ((boot unnested false {}).moves [.go]).cpu.pc := by decide +kernel
  obtain ⟨-, -, hover⟩ := overflow_iff_depth unnested false {} [.go] hs
  exact ⟨hs, (hover 255 0x002).2 ⟨.inr ⟨hop, hd, rfl⟩, hpc⟩⟩

end Process

end Chip8
