import AlacrityDrivers.Venet.NblOutcome
import AlacrityDrivers.Venet.TcbAccounting

namespace Venet

def State.transmitted (s : State) (after : Transmit) : State :=
  { s with
    tx := after.tx
    submitted := after.submitted.map Submission.tcb }

/-- Completing some TCBs completes their NBL once, at the last of them, and frees them all. -/
structure CountsDown (nbl : Nat) (before sent : State) (order : List Nat) : Prop where
  last : (order.foldl venetTxCompletion sent).sends.completed =
    before.sends.completed ++ [(nbl, .success)]
  pending : ∀ earlier, earlier <+: order → earlier.length < order.length →
    (earlier.foldl venetTxCompletion sent).sends.completed = before.sends.completed
  freed : ∀ tcb, tcb ∈ order → tcb ∈ (order.foldl venetTxCompletion sent).tx.tcbFree
  counter : (order.foldl venetTxCompletion sent).tx.numTCBsFree = before.tx.numTCBsFree

section Countdown

variable {nbl numTcbs : Nat} {attempts : List Attempt} {s after : Transmit} {order : List Nat}

theorem processNblLoop_zero (returned : processNblLoop nbl attempts s = some (.success, after))
    (tcb : Nat)
    (taken : (s.tx.tcbs tcb).nbCount = 0 ∨ tcb ∈ s.tx.tcbFree.take attempts.length) :
    (after.tx.tcbs tcb).nbCount = 0 := by
  induction attempts generalizing s with
  | nil =>
    have same : s = after := (Prod.mk.inj (Option.some.inj returned)).2
    rw [← same]
    rcases taken with zero | among
    · exact zero
    · rw [List.length_nil, List.take_zero] at among
      exact absurd among List.not_mem_nil
  | cons attempt attempts ih =>
    cases shape : s.tx.tcbFree with
    | nil =>
      rw [processNblLoop, venetAllocTCB, allocTcbList, shape] at returned
      cases returned
    | cons first free =>
      by_cases passes : attempt.status = .success
      · rw [processNblLoop_passes shape passes] at returned
        apply ih returned
        change (Function.update s.tx.tcbs first ⟨some nbl, .success, 0⟩ tcb).nbCount = 0 ∨
          tcb ∈ free.take attempts.length
        by_cases same : tcb = first
        · rw [same, Function.update_self]
          exact Or.inl rfl
        · rw [Function.update_of_ne same]
          rcases taken with zero | among
          · exact Or.inl zero
          · rw [shape, List.length_cons, List.take_succ_cons, List.mem_cons] at among
            rcases among with impossible | later
            · exact absurd impossible same
            · exact Or.inr later
      · rw [processNblLoop_fails shape passes] at returned
        exact absurd (Prod.mk.inj (Option.some.inj returned)).1 passes

theorem processNbl_success (sent : processNbl nbl attempts s = some (.success, after)) :
    processNblLoop nbl attempts s = some (.success, after) := by
  unfold processNbl at sent
  split at sent
  · cases sent
  · exact sent

/-- The count of a TCB goes from zero to `2 ^ 32 - 1`, which completes and frees nothing. -/
theorem completions_frame (start : State) (distinct : order.Nodup)
    (zero : ∀ tcb, tcb ∈ order → (start.tx.tcbs tcb).nbCount = 0) :
    (order.foldl venetTxCompletion start).sends = start.sends ∧
      (order.foldl venetTxCompletion start).tx.tcbFree = start.tx.tcbFree ∧
      (order.foldl venetTxCompletion start).tx.numTCBsFree = start.tx.numTCBsFree := by
  induction order generalizing start with
  | nil => exact ⟨rfl, rfl, rfl⟩
  | cons tcb order ih =>
    rcases List.nodup_cons.mp distinct with ⟨once, rest⟩
    rcases txCompletion_lists start tcb with ⟨free, _, counter⟩
    have sends : (venetTxCompletion start tcb).sends = start.sends := by
      simp only [venetTxCompletion, zero tcb List.mem_cons_self, if_neg decrementULong_zero]
    have later : ∀ other, other ∈ order →
        ((venetTxCompletion start tcb).tx.tcbs other).nbCount = 0 := by
      intro other among
      have different : other ≠ tcb := fun same => once (same ▸ among)
      rw [txCompletion_tcbs start different]
      exact zero other (List.mem_cons_of_mem tcb among)
    rcases ih (venetTxCompletion start tcb) rest later with ⟨sendsLater, freeLater, counterLater⟩
    rw [List.foldl_cons]
    exact ⟨sendsLater.trans sends, freeLater.trans free, counterLater.trans counter⟩

theorem Tx.Accounted.distinct {tx : Tx} (accounted : tx.Accounted numTcbs) (n : Nat) :
    (tx.tcbFree.take n).Nodup := by
  have whole : (tx.tcbFree ++ tx.tcbBusy).Nodup :=
    accounted.partition.nodup_iff.mpr List.nodup_range
  exact (List.nodup_append.mp whole).1.sublist (List.take_sublist n tx.tcbFree)

/-- No NBL is ever completed by its TCBs: whatever `SrCopyFrame` and `SrSubmitTCB` returned, and in
    whatever order the TCBs complete. -/
theorem txCompletion_never_counts_down (nbl numTcbs : Nat) (attempts : List Attempt) (before : State)
    (frames : List Submission) (after : Transmit) (order : List Nat)
    (accounted : before.tx.Accounted numTcbs)
    (sent : processNbl nbl attempts ⟨before.tx, frames⟩ = some (.success, after))
    (each : order.Perm (before.tx.tcbFree.take attempts.length)) :
    ¬ CountsDown nbl before (before.transmitted after) order := by
  intro counts
  have zero : ∀ tcb, tcb ∈ order → ((before.transmitted after).tx.tcbs tcb).nbCount = 0 := by
    intro tcb among
    exact processNblLoop_zero (processNbl_success sent) tcb (Or.inr (each.mem_iff.mp among))
  have distinct : order.Nodup := each.nodup_iff.mpr (accounted.distinct attempts.length)
  have unchanged := (completions_frame (before.transmitted after) distinct zero).1
  have last := counts.last
  rw [unchanged] at last
  have length := congrArg List.length last
  rw [List.length_append] at length
  exact absurd length (Nat.ne_of_lt (Nat.lt_succ_self _))

theorem txCompletion_never_counts_down_pairs :
    ∃ after,
      processNbl 7 [⟨⟨[1], 0⟩, .success⟩, ⟨⟨[2], 0⟩, .success⟩] ⟨(machine pairs).start.tx, []⟩ =
        some (.success, after) ∧
      ¬ CountsDown 7 (machine pairs).start ((machine pairs).start.transmitted after) [1, 2] := by
  refine ⟨_, rfl, ?_⟩
  exact txCompletion_never_counts_down 7 3 [⟨⟨[1], 0⟩, .success⟩, ⟨⟨[2], 0⟩, .success⟩] _ [] _ [1, 2]
    ⟨by decide, rfl⟩ rfl (by decide)

/-- One byte that cannot be mapped, the case for which `SrProcessNBL` returns success. -/
theorem single_tcb_never_completes :
    ∃ after, srProcessNBL 0 [⟨[⟨[1], false⟩], 0, 1⟩] 0#32 ⟨(machine solo).start.tx, []⟩ =
        some (.success, after) ∧
      ¬ CountsDown 0 (machine solo).start ((machine solo).start.transmitted after) [0] := by
  refine ⟨_, rfl, ?_⟩
  intro counts
  have completed := (congrArg Sends.completed
    (completions_frame _ (List.nodup_singleton 0) (by
      intro tcb among
      rw [List.mem_singleton.mp among]
      rfl)).1).symm.trans counts.last
  exact absurd (congrArg List.length completed) (by decide)

end Countdown

end Venet
