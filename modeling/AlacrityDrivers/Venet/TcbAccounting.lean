import AlacrityDrivers.Venet.SendInvariant

namespace Venet

open Transition

section Allocation

variable {p : Params} {s : State} {thread : Nat} {pc : NblPc}

theorem Invariant.standing (holds : Invariant p s)
    (running : s.threads thread = some (.processNbl pc)) : ∃ nbl, NblAt s (p.nbls nbl) pc := by
  obtain ⟨nbl, sending⟩ := Option.ne_none_iff_exists'.mp (holds.exclusive.sending thread pc running)
  exact ⟨nbl, holds.accounting.running thread pc nbl running sending⟩

theorem venetAllocTCB_some {tx : Tx} (free : tx.tcbFree ≠ []) (nbl : Nat) :
    venetAllocTCB tx nbl ≠ none := by
  cases shape : tx.tcbFree with
  | nil => exact absurd shape free
  | cons tcb rest => simp [venetAllocTCB, allocTcbList, shape]

theorem Invariant.allocated (holds : Invariant p s)
    (running : s.threads thread = some (.processNbl pc)) :
    pc ≠ .fault ∧ ∀ nb nbl, pc = .alloc nb → venetAllocTCB s.tx nbl ≠ none := by
  rcases holds.standing running with ⟨current, standing⟩
  refine ⟨?_, ?_⟩
  · intro fault
    rw [fault] at standing
    exact standing
  · intro nb nbl place
    rw [place] at standing
    rcases standing with ⟨more, enough⟩
    apply venetAllocTCB_some
    intro empty
    rw [empty, List.length_nil] at enough
    omega

end Allocation

/-- The two lists share out the TCBs, the counter counts the free ones except between the list
    operation and the decrement of `VenetAllocTCB`, and `SrProcessNBL` always gets a TCB. -/
theorem tcb_accounting (p : Params) (s : State) (reached : (machine p).Reachable s) :
    (s.tx.tcbFree ++ s.tx.tcbBusy).Perm (List.range p.numTcbs) ∧
      (¬ Allocating s → s.tx.numTCBsFree = s.tx.tcbFree.length) ∧
      (Allocating s → s.tx.numTCBsFree = s.tx.tcbFree.length + 1) ∧
      ∀ thread pc, s.threads thread = some (.processNbl pc) →
        pc ≠ .fault ∧ ∀ nb nbl, pc = .alloc nb → venetAllocTCB s.tx nbl ≠ none := by
  have holds := reachable_invariant reached
  refine ⟨holds.accounting.partition, holds.accounting.counter, holds.accounting.ahead, ?_⟩
  intro thread pc running
  exact holds.allocated running

def pairs : Params := ⟨fun nbl => ⟨nbl + 1, 2, by decide⟩, 3, true⟩

def retry : List Action :=
  [.sendNetBufs 0 [0]] ++ List.replicate 8 (.run 0 0) ++ List.replicate 4 (.run 0 60) ++
    [.sendNetBufs 1 [1]] ++ List.replicate 6 (.run 1 0)

theorem tcb_accounting_retry :
    let s := ((machine pairs).run (machine pairs).start retry).get (by decide)
    s.threads 1 = some (.processNbl (.alloc 1)) ∧ s.tx.tcbBusy = [1, 2] ∧
      (s.tx.tcbFree ++ s.tx.tcbBusy).Perm (List.range 3) ∧ venetAllocTCB s.tx 0 ≠ none := by
  have accounted := tcb_accounting pairs _ (Machine.reachable_get retry (by decide))
  refine ⟨by decide, by decide, accounted.1, ?_⟩
  exact (accounted.2.2.2 1 (.alloc 1) (by decide)).2 1 0 rfl

end Venet
