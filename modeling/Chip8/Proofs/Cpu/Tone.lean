import Chip8.Proofs.Cpu.Process

namespace Chip8

namespace Process

def withNewTimers (c : Cpu) (d : Devices) : Process := ⟨⟨c, { d with timers := {} }⟩, none⟩

theorem tone_follows_iff_uncut (ops : List Timers.Op) (c : Cpu) (d : Devices) (ms : List Move) :
    let t (ops : List Timers.Op) : Timers := Timers.replay {} ops
    let p (ms : List Move) : Process := (withNewTimers c d).moves ms
    (0 < (t ops).sound → (t ops).speaker.isOn = true) ∧
      ((∀ pre, pre <+: ops → (t pre).Follows) ↔
        ∀ pre op, pre ++ [op] <+: ops → ¬ (t pre).CutBy op) ∧
      (0 < (p ms).timers.sound → (p ms).timers.speaker.isOn = true) ∧
      ((∀ pre, pre <+: ms → (p pre).timers.Follows) ↔
        ∀ pre m, pre ++ [m] <+: ms → ∀ op ∈ (p pre).timerOp? m, ¬ (p pre).timers.CutBy op) := by
  intro t p
  have hnew : ({} : Timers).Follows := by decide
  refine ⟨?_, ?_, ?_, ?_⟩
  · exact Timers.isOn_foldl_of_pos Timers.apply (fun t => t) (fun _ => some) (fun _ _ => rfl) ops
      {} nofun
  · have hops := Timers.follows_foldl_iff Timers.apply (fun t => t) (fun _ => some)
      (fun _ _ => rfl) ops {} hnew
    simpa only [t, Timers.replay, Option.mem_some_iff, forall_eq'] using hops
  · exact Timers.isOn_foldl_of_pos move timers timerOp? timers_move ms (withNewTimers c d) nofun
  · exact Timers.follows_foldl_iff move timers timerOp? timers_move ms (withNewTimers c d) hnew

theorem tone_outlives_zeroed_sound :
    (Timers.replay {} [.setSound 5, .setSound 0]).sound = 0 ∧
      (Timers.replay {} [.setSound 5, .setSound 0]).speaker.isOn = true := by
  decide

end Process

end Chip8
