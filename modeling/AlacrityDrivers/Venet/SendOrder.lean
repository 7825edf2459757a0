import AlacrityDrivers.Venet.SendInvariant

namespace Venet

open Transition

def Sends.waiting (sends : Sends) : List Nat :=
  sends.accepted.filter fun nbl => nbl ∉ sends.succeeded ∧ nbl ∉ sends.cancelled

theorem Ledger.waiting {nbls : Nat → Nbl} {sends : Sends} {queue : List Nat}
    (ledger : Ledger nbls sends queue) : sends.sendingNBL.toList ++ queue = sends.waiting := by
  have part : (sends.sendingNBL.toList ++ queue).Sublist sends.accepted :=
    (List.sublist_append_right _ _).trans ledger.order
  rcases List.nodup_append.mp ledger.nodup with ⟨together, _, uncancelled⟩
  rcases List.nodup_append.mp together with ⟨_, _, unsent⟩
  symm
  apply Lists.filter_of_sublist part ledger.acceptedNodup
  intro nbl known
  have place := ledger.accepted.mem_iff.mp known
  rw [decide_eq_true_eq]
  constructor
  · intro neither
    rcases List.mem_append.mp place with owned | cancelled
    · exact (List.mem_append.mp owned).resolve_left neither.1
    · exact absurd cancelled neither.2
  · intro present
    refine ⟨?_, ?_⟩
    · intro sent
      exact unsent nbl sent nbl present rfl
    · intro cancelled
      exact uncancelled nbl (List.mem_append_right _ present) nbl cancelled rfl

/-- Sends keep their order and none is misplaced, under every interleaving of the senders with
    cancellation, reset, pause, restart and halt. -/
theorem sends_keep_order (p : Params) (s : State) (reached : (machine p).Reachable s) :
    (∃ queue, s.sends.memory.Holds queue ∧ s.sends.sendingNBL.toList ++ queue = s.sends.waiting) ∧
      (∀ first second pc pc', s.threads first = some (.processNbl pc) →
        s.threads second = some (.processNbl pc') → first = second) ∧
      s.sends.succeeded.Sublist s.sends.accepted := by
  have holds := reachable_invariant reached
  rcases holds.ledger with ⟨queue, ledger⟩
  refine ⟨⟨queue, ledger.holds, ledger.waiting⟩, holds.exclusive.unique, ?_⟩
  exact (List.sublist_append_left _ _).trans ledger.order

def requeue : List Action :=
  [.sendNetBufs 0 [0, 1, 2]] ++ List.replicate 8 (.run 0 1) ++ [.cancelSend 2, .sendNetBufs 1 [3]] ++
    List.replicate 8 (.run 1 0)

theorem sends_keep_order_requeue :
    let s := ((machine solo).run (machine solo).start requeue).get (by decide)
    s.sends.waiting = [2, 3] ∧ s.sends.sendingNBL = some 2 ∧ ∃ queue, s.sends.memory.Holds queue ∧
      s.sends.sendingNBL.toList ++ queue = s.sends.waiting := by
  refine ⟨by decide, by decide, ?_⟩
  exact (sends_keep_order solo _ (Machine.reachable_get requeue (by decide))).1

end Venet
