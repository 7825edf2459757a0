import AlacrityDrivers.Venet.TcbMemory

namespace Venet.TcbMemory

open Transition DoublyLinked

structure Balanced (numTcbs : Nat) (tx : Tx) : Prop where
  partition : (tx.tcbFree ++ tx.tcbBusy).Perm (List.range numTcbs)
  counter : tx.numTCBsFree = tx.tcbFree.length
  event : tx.sendEvent = true ↔ tx.tcbBusy = []

structure Related (numTcbs : Nat) (s : State) (tx : Tx) : Prop where
  memory : Represents s.memory tx
  held : s.held = tx.tcbBusy.map .tcb
  balanced : Balanced numTcbs tx

section Lists

variable {numTcbs n : Nat} {tx after : Tx} {free : List Nat}

theorem balanced_setup (numTcbs : Nat) : Balanced numTcbs (Venet.venetSetupTx numTcbs) := by
  have blocks := setupTxLoop_perm numTcbs 0 []
  rw [List.append_nil, ← List.range_eq_range'] at blocks
  refine ⟨?_, ?_, iff_of_true rfl rfl⟩
  · simpa [Venet.venetSetupTx] using blocks
  · have length := blocks.length_eq
    rw [List.length_range] at length
    exact length.symm

theorem Balanced.alloc (balanced : Balanced numTcbs tx) {nbl : Nat} (shape : tx.tcbFree = n :: free)
    (allocated : Venet.venetAllocTCB tx nbl = some (n, after)) : Balanced numTcbs after := by
  obtain ⟨partition, counter, _⟩ := balanced
  simp only [Venet.venetAllocTCB, allocTcbList, shape, Option.map_some, Option.some.injEq,
    Prod.mk.injEq, true_and] at allocated
  rw [shape] at partition counter
  rw [← allocated]
  refine ⟨List.perm_middle.trans partition, ?_, ?_⟩
  · exact (congrArg (· - 1) counter).trans (Nat.add_sub_cancel _ _)
  · exact iff_of_false Bool.false_ne_true (List.cons_ne_nil _ _)

theorem Balanced.release (balanced : Balanced numTcbs tx) (held : n ∈ tx.tcbBusy) :
    Balanced numTcbs (Venet.venetReleaseTCB tx n) := by
  obtain ⟨partition, counter, event⟩ := balanced
  have restored := (List.perm_cons_erase held).append_left tx.tcbFree
  have parts : (n :: tx.tcbFree ++ tx.tcbBusy.erase n).Perm (List.range numTcbs) :=
    List.perm_middle.symm.trans (restored.symm.trans partition)
  have busy : tx.sendEvent ≠ true := fun set => by
    rw [event.mp set] at held
    exact List.not_mem_nil held
  unfold Venet.venetReleaseTCB releaseTcbEvent releaseTcbList
  dsimp only
  split
  · rename_i empty
    exact ⟨parts, congrArg (· + 1) counter, iff_of_true rfl empty⟩
  · rename_i more
    exact ⟨parts, congrArg (· + 1) counter, iff_of_false busy more⟩

end Lists

section Step

variable {numTcbs : Nat} {links : Links ListEntry} {s next : State} {tx : Tx} {action : Action}

theorem alloc_related (related : Related numTcbs s tx) (nbl : Nat)
    (stepped : step s (.alloc nbl) = some next) :
    ∃ after, listStep tx (.alloc nbl) = some after ∧ Related numTcbs next after ∧
      (venetAllocTCB s.memory nbl).map Prod.fst =
        (Venet.venetAllocTCB tx nbl).map fun result => ListEntry.tcb result.1 := by
  obtain ⟨memory, held, balanced⟩ := related
  cases shape : tx.tcbFree with
  | nil =>
    obtain ⟨null, none⟩ := memory.alloc_none shape nbl
    rw [step, null, Option.some.injEq] at stepped
    refine ⟨tx, by rw [listStep, none], ?_, by rw [null, none]; rfl⟩
    rw [← stepped]
    exact ⟨memory, held, balanced⟩
  | cons n free =>
    obtain ⟨after, lists, taken, allocated, represents, busy⟩ := memory.alloc shape nbl
    rw [step, taken, Option.some.injEq] at stepped
    refine ⟨lists, by rw [listStep, allocated], ?_, by rw [taken, allocated]; rfl⟩
    rw [← stepped]
    refine ⟨represents, ?_, balanced.alloc shape allocated⟩
    rw [busy, held]
    rfl

theorem release_related (related : Related numTcbs s tx) (t : ListEntry)
    (stepped : step s (.release t) = some next) :
    ∃ after, listStep tx (.release t) = some after ∧ Related numTcbs next after := by
  obtain ⟨memory, held, balanced⟩ := related
  simp only [step, Option.ite_none_right_eq_some, Option.some.injEq] at stepped
  obtain ⟨among, stepped⟩ := stepped
  have listed := among
  rw [held] at listed
  obtain ⟨n, busy, rfl⟩ := List.mem_map.mp listed
  refine ⟨_, by rw [listStep, if_pos busy], ?_⟩
  rw [← stepped]
  refine ⟨memory.release busy, ?_, balanced.release busy⟩
  have erased : (Venet.venetReleaseTCB tx n).tcbBusy = tx.tcbBusy.erase n := by
    unfold Venet.venetReleaseTCB releaseTcbEvent releaseTcbList
    dsimp only
    split <;> rfl
  rw [erased, List.map_erase tcb_injective, held]

theorem step_related (related : Related numTcbs s tx) (stepped : step s action = some next) :
    ∃ after, listStep tx action = some after ∧ Related numTcbs next after ∧
      (listObserved numTcbs).event tx action = (observed numTcbs links).event s action := by
  cases action with
  | alloc nbl =>
    obtain ⟨after, answered, related, shown⟩ := alloc_related related nbl stepped
    exact ⟨after, answered, related, congrArg some shown.symm⟩
  | release t =>
    obtain ⟨after, answered, related⟩ := release_related related t stepped
    exact ⟨after, answered, related, rfl⟩

end Step

def lockstep (numTcbs : Nat) (links : Links ListEntry) :
    Lockstep (observed numTcbs links) (listObserved numTcbs) where
  relates := Related numTcbs
  start := ⟨setup_represents numTcbs links, rfl, balanced_setup numTcbs⟩
  answers := by
    intro s tx action next related stepped
    obtain ⟨after, answered, related, shown⟩ :=
      @step_related numTcbs links s next tx action related stepped
    exact ⟨after, answered, shown, related⟩

section FreeTx

variable {m : TxMemory} {tx : Tx} {junk links : Links ListEntry} {head other entry : ListEntry}
  {entries others : List ListEntry}

theorem ring_free (junk : Links ListEntry) (ring : Ring links head entries)
    (outside : entry ∉ head :: entries) :
    Ring (venetFree junk links entry) head entries := by
  apply ring.congr
  · intro a among
    have apart : a ≠ entry := fun same => outside (same ▸ among)
    exact Function.update_of_ne apart _ _
  · intro a among
    have apart : a ≠ entry := fun same => outside (same ▸ among)
    exact Function.update_of_ne apart _ _

theorem freeLoop_all (ring : Ring links head entries) (kept : Ring links other others)
    (apart : Apart head entries other others) (passes : Nat) (enough : entries.length ≤ passes) :
    ∃ after, freeLoop junk head passes links = some (entries, after) ∧ Ring after head [] ∧
      Ring after other others := by
  induction entries generalizing links passes with
  | nil =>
    have empty := ring.isListEmpty.mpr rfl
    refine ⟨links, ?_, ring, kept⟩
    cases passes <;> rw [freeLoop, if_pos empty]
  | cons entry entries ih =>
    cases passes with
    | zero => exact absurd enough (Nat.not_succ_le_zero _)
    | succ passes =>
      have more : ¬ isListEmpty links head = true := by
        rw [ring.isListEmpty]
        exact List.cons_ne_nil _ _
      have own : entry ∈ head :: entry :: entries := by simp
      have gone : entry ∉ head :: entries :=
        (List.nodup_cons.mp ((List.Perm.swap _ _ _).nodup_iff.mp ring.nodup)).1
      obtain ⟨taken, removed⟩ := ring.removeHead
      have untouched := kept.removeHead_frame ring apart
      have fewer : Apart head entries other others := by
        intro a among
        apply apart
        rcases List.mem_cons.mp among with same | member
        · exact List.mem_cons.mpr (Or.inl same)
        · exact List.mem_cons_of_mem _ (List.mem_cons_of_mem _ member)
      obtain ⟨after, freed, empty, rest⟩ :=
        ih (ring_free junk removed gone) (ring_free junk untouched (apart own)) fewer passes
          (Nat.le_of_succ_le_succ enough)
      refine ⟨after, ?_, empty, rest⟩
      rw [freeLoop, if_neg more]
      simp only [taken, freed, Option.map_some]

theorem freeTx_all (represents : Represents m tx) (passes : Nat)
    (enough : tx.tcbFree.length ≤ passes ∧ tx.tcbBusy.length ≤ passes) :
    ∃ after, venetFreeTx junk passes m = some ((tx.tcbFree ++ tx.tcbBusy).map .tcb, after) ∧
      Ring after.links ListEntry.tcbFree [] ∧ Ring after.links ListEntry.tcbBusy [] := by
  have apart := apart_of_disjoint represents.disjoint
  obtain ⟨first, freed, noneFree, busy⟩ :=
    freeLoop_all represents.free represents.busy apart passes (by simpa using enough.1)
  have away : Apart ListEntry.tcbBusy (tx.tcbBusy.map .tcb) .tcbFree [] :=
    (apart_of_disjoint (List.disjoint_nil_left _)).symm
  obtain ⟨second, rest, noneBusy, free⟩ :=
    freeLoop_all busy noneFree away passes (by simpa using enough.2)
  refine ⟨{ m with links := second }, ?_, free, noneBusy⟩
  rw [venetFreeTx, freed, Option.bind_some, rest, Option.map_some, List.map_append]

end FreeTx

/-- The calls on the circular lists in memory give what the same calls on lists of TCBs give, and leave
    the two heads with those lists. -/
theorem tcb_lists_refined (numTcbs : Nat) (links : Links ListEntry) (actions : List Action)
    (final : State)
    (ran : (observed numTcbs links).machine.run (observed numTcbs links).machine.start actions =
      some final) :
    ∃ tx, (listObserved numTcbs).machine.run (Venet.venetSetupTx numTcbs) actions = some tx ∧
      (listObserved numTcbs).trace (Venet.venetSetupTx numTcbs) actions =
        (observed numTcbs links).trace (observed numTcbs links).machine.start actions ∧
      Represents final.memory tx ∧ final.held = tx.tcbBusy.map .tcb ∧ Balanced numTcbs tx := by
  obtain ⟨tx, answered, shown, related⟩ :=
    (lockstep numTcbs links).run (lockstep numTcbs links).start ran
  exact ⟨tx, answered, shown, related.memory, related.held, related.balanced⟩

def stray : Links ListEntry := ⟨fun _ => .tcbFree, fun _ => .tcbFree⟩

def borrowing : List Action := [.alloc 5, .alloc 6, .release (.tcb 1), .alloc 7, .alloc 8]

theorem borrowing_allowed :
    ((observed 2 stray).machine.run (observed 2 stray).machine.start borrowing).isSome := by
  decide

theorem tcb_lists_refined_borrowing :
    ∃ tx, (listObserved 2).machine.run (Venet.venetSetupTx 2) borrowing = some tx ∧
      (listObserved 2).trace (Venet.venetSetupTx 2) borrowing =
        [some (.tcb 1), some (.tcb 0), some (.tcb 1), none] ∧
      tx.tcbBusy.map ListEntry.tcb = [.tcb 1, .tcb 0] := by
  obtain ⟨tx, answered, shown, _, held, _⟩ :=
    tcb_lists_refined 2 stray borrowing _ (Option.some_get borrowing_allowed).symm
  exact ⟨tx, answered, shown.trans (by decide), held.symm.trans (by decide)⟩

/-- After any calls `VenetFreeTx` frees every TCB once, in as many passes as there are TCBs. -/
theorem freeTx_frees_once (numTcbs : Nat) (links junk : Links ListEntry) (actions : List Action)
    (final : State)
    (ran : (observed numTcbs links).machine.run (observed numTcbs links).machine.start actions =
      some final) :
    ∃ freed after, venetFreeTx junk numTcbs final.memory = some (freed, after) ∧
      freed.Perm ((List.range numTcbs).map .tcb) ∧
      isListEmpty after.links .tcbFree = true ∧ isListEmpty after.links .tcbBusy = true := by
  obtain ⟨tx, _, _, related⟩ := (lockstep numTcbs links).run (lockstep numTcbs links).start ran
  have partition := related.balanced.partition
  have length := partition.length_eq
  rw [List.length_append, List.length_range] at length
  obtain ⟨after, freed, noneFree, noneBusy⟩ :=
    @freeTx_all _ _ junk related.memory numTcbs ⟨by omega, by omega⟩
  exact ⟨_, after, freed, partition.map _, noneFree.isListEmpty.mpr rfl,
    noneBusy.isListEmpty.mpr rfl⟩

theorem freeTx_frees_once_borrowing :
    ∃ freed after, venetFreeTx stray 2 (((observed 2 stray).machine.run
        (observed 2 stray).machine.start borrowing).get borrowing_allowed).memory =
        some (freed, after) ∧
      freed.Perm [.tcb 0, .tcb 1] ∧
      isListEmpty after.links .tcbFree = true ∧ isListEmpty after.links .tcbBusy = true :=
  freeTx_frees_once 2 stray stray borrowing _ (Option.some_get borrowing_allowed).symm

end Venet.TcbMemory
