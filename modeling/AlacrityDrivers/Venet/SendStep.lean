import AlacrityDrivers.Venet.Send

namespace Venet

def SameNbl (s next : State) : Prop :=
  ∀ thread pc, next.threads thread = some (.processNbl pc) ↔ s.threads thread = some (.processNbl pc)

structure SameTcbs (tx next : Tx) : Prop where
  tcbs : next.tcbs = tx.tcbs
  tcbFree : next.tcbFree = tx.tcbFree
  tcbBusy : next.tcbBusy = tx.tcbBusy
  numTCBsFree : next.numTCBsFree = tx.numTCBsFree

inductive Outcome (p : Params) (s next : State) : Prop
  | aside (sends : next.sends = s.sends) (tcbs : SameTcbs s.tx next.tx)
      (submitted : next.submitted = s.submitted) (nbl : SameNbl s next)
  | rejected (chain : List Nat) (status : NdisStatus) (fresh : (s.sends.handed ++ chain).Nodup)
      (sends : next.sends = (s.sends.handOver chain).complete chain status)
      (tcbs : SameTcbs s.tx next.tx) (submitted : next.submitted = s.submitted)
      (nbl : SameNbl s next)
  | accepted (chain : List Nat) (fresh : (s.sends.handed ++ chain).Nodup)
      (ready : venetIsNotReady s.flags = false)
      (sends : next.sends = chain.foldl (Sends.enqueue p.nbls) (s.sends.handOver chain))
      (tcbs : SameTcbs s.tx next.tx) (submitted : next.submitted = s.submitted)
      (nbl : SameNbl s next)
  | cancelled (cancelId : Nat) (reason : NdisStatus)
      (sends : next.sends = s.sends.cancelQueued p.nbls cancelId reason)
      (tcbs : SameTcbs s.tx next.tx) (submitted : next.submitted = s.submitted)
      (nbl : SameNbl s next)
  | completion (tcb : Nat) (outstanding : tcb ∈ s.submitted) (after : next = venetTxCompletion s tcb)
  | dequeued (thread : Nat) (outside : ∀ pc, s.threads thread ≠ some (.processNbl pc))
      (idle : s.sends.sendingNBL = none) (nonempty : queueEmpty s.sends.memory.queue = false)
      (ready : venetIsNotReady s.flags = false)
      (after : next = { s with
        sendLock := none
        sends := { s.sends with
          memory := (queueDeque s.sends.memory).2
          sendingNBL := (queueDeque s.sends.memory).1 } }.goto thread (some (.processNbl .check)))
  | inside (thread bytes nbl : Nat) (pc : NblPc) (running : s.threads thread = some (.processNbl pc))
      (sending : s.sends.sendingNBL = some nbl)
      (stepped : processNblStep p s thread bytes nbl pc = some next)
  | finished (thread nbl : Nat) (rc : NdisStatus)
      (running : s.threads thread = some (.processNbl (.finish rc)))
      (sending : s.sends.sendingNBL = some nbl) (after : next = finishNbl s thread nbl rc)

section Frame

variable {p : Params} {s next : State} {thread : Nat}

@[simp] theorem goto_same (s : State) (thread : Nat) (pc : Option Pc) :
    (s.goto thread pc).threads thread = pc := by
  simp [State.goto]

theorem goto_other (s : State) {thread other : Nat} (pc : Option Pc) (different : other ≠ thread) :
    (s.goto thread pc).threads other = s.threads other := by
  simp [State.goto, different]

theorem sameTcbs_rfl (tx : Tx) (event : Bool) : SameTcbs tx { tx with sendEvent := event } :=
  ⟨rfl, rfl, rfl, rfl⟩

theorem sameNbl_rfl (threads : next.threads = s.threads) : SameNbl s next := by
  intro thread pc
  rw [threads]

theorem sameNbl_update {new : Option Pc} (threads : next.threads = Function.update s.threads thread new)
    (before : ∀ pc, s.threads thread ≠ some (.processNbl pc))
    (after : ∀ pc, new ≠ some (.processNbl pc)) : SameNbl s next := by
  intro other pc
  rw [threads, Function.update_apply]
  split
  · rename_i same
    subst same
    constructor
    · intro impossible
      exact absurd impossible (after pc)
    · intro impossible
      exact absurd impossible (before pc)
  · exact Iff.rfl

end Frame

section Thread

variable {p : Params} {s next : State} {thread bytes : Nat}

theorem processQueue_outcome (running : s.threads thread = some .processQueue) :
    Outcome p s (processQueue s thread) := by
  have outside : ∀ pc, s.threads thread ≠ some (.processNbl pc) := by
    intro pc
    rw [running]
    simp
  by_cases blocked : (s.sends.sendingNBL.isSome || queueEmpty s.sends.memory.queue ||
      venetIsNotReady s.flags) = true
  · have stopped : processQueue s thread = { s with sendLock := none }.goto thread none :=
      if_pos blocked
    rw [stopped]
    exact .aside rfl (sameTcbs_rfl _ _) rfl (sameNbl_update rfl outside (by simp))
  · have went : processQueue s thread = _ := if_neg blocked
    simp only [Bool.or_eq_true, not_or, Bool.not_eq_true, Option.isSome_eq_false_iff,
      Option.isNone_iff_eq_none] at blocked
    exact .dequeued thread outside blocked.1.1 blocked.1.2 blocked.2 went

theorem processNbl_cases {pc : NblPc}
    (stepped : threadStep p s thread bytes (.processNbl pc) = some next) :
    ∃ nbl, s.sends.sendingNBL = some nbl ∧ (processNblStep p s thread bytes nbl pc = some next ∨
      ∃ rc, pc = .finish rc ∧ next = finishNbl s thread nbl rc) := by
  cases sending : s.sends.sendingNBL with
  | none => simp [threadStep, sending] at stepped
  | some nbl =>
    refine ⟨nbl, rfl, ?_⟩
    cases pc with
    | finish rc =>
      simp only [threadStep, sending, Option.ite_none_right_eq_some, Option.some.injEq] at stepped
      exact Or.inr ⟨rc, rfl, stepped.2.symm⟩
    | _ =>
      simp only [threadStep, sending] at stepped
      exact Or.inl stepped

theorem processNbl_outcome {pc : NblPc} (running : s.threads thread = some (.processNbl pc))
    (stepped : threadStep p s thread bytes (.processNbl pc) = some next) : Outcome p s next := by
  rcases processNbl_cases stepped with ⟨nbl, sending, inside | ⟨rc, rfl, after⟩⟩
  · exact .inside thread bytes nbl pc running sending inside
  · exact .finished thread nbl rc running sending after

theorem threadStep_outcome {pc : Pc} (running : s.threads thread = some pc)
    (stepped : threadStep p s thread bytes pc = some next) : Outcome p s next := by
  have elsewhere (notNbl : ∀ pc', pc ≠ .processNbl pc') :
      ∀ pc', s.threads thread ≠ some (.processNbl pc') := by
    intro pc' inside
    rw [running, Option.some.injEq] at inside
    exact notNbl pc' inside
  cases pc with
  | processQueue =>
    simp only [threadStep, Option.ite_none_right_eq_some, Option.some.injEq] at stepped
    rw [← stepped.2]
    exact processQueue_outcome running
  | processNbl pc => exact processNbl_outcome running stepped
  | resetTest =>
    simp only [threadStep, Option.some.injEq] at stepped
    rw [← stepped]
    refine .aside rfl (sameTcbs_rfl _ _) rfl (sameNbl_update rfl (elsewhere (by simp)) ?_)
    intro pc
    split <;> simp
  | resetQueued =>
    simp only [threadStep, Option.ite_none_right_eq_some, Option.some.injEq] at stepped
    rw [← stepped.2]
    exact .cancelled 0 .resetInProgress rfl (sameTcbs_rfl _ _) rfl
      (sameNbl_update rfl (elsewhere (by simp)) (by simp))
  | resetFlag | pauseFlag | pauseWait =>
    simp only [threadStep, Option.ite_none_right_eq_some, Option.some.injEq] at stepped
    rw [← stepped.2]
    exact .aside rfl (sameTcbs_rfl _ _) rfl (sameNbl_update rfl (elsewhere (by simp)) (by simp))
  | _ =>
    simp only [threadStep, Option.some.injEq] at stepped
    rw [← stepped]
    exact .aside rfl (sameTcbs_rfl _ _) rfl (sameNbl_update rfl (elsewhere (by simp)) (by simp))

end Thread

section Step

variable {p : Params} {s next : State}

theorem sendNetBufs_outcome {thread : Nat} (outside : s.threads thread = none) (chain : List Nat)
    (fresh : (s.sends.handed ++ chain).Nodup) : Outcome p s (venetSendNetBufs p s thread chain) := by
  cases ready : venetIsNotReady s.flags with
  | true =>
    have refused : venetSendNetBufs p s thread chain = { s with
        sends := (s.sends.handOver chain).complete chain (srGetAdapterStatus s.flags) } := by
      simp [venetSendNetBufs, ready]
    rw [refused]
    exact .rejected chain _ fresh rfl (sameTcbs_rfl _ _) rfl (sameNbl_rfl rfl)
  | false =>
    have taken : venetSendNetBufs p s thread chain = { s with
        sends := chain.foldl (Sends.enqueue p.nbls) (s.sends.handOver chain) }.goto thread
          (some .processQueue) := by
      simp [venetSendNetBufs, ready]
    rw [taken]
    exact .accepted chain fresh ready rfl (sameTcbs_rfl _ _) rfl
      (sameNbl_update rfl (by simp [outside]) (by simp))

theorem halt_outcome (stepped : haltStep p s = some next) : Outcome p s next := by
  unfold haltStep at stepped
  cases at_ : s.halt with
  | notCalled =>
    simp only [at_, Option.ite_none_right_eq_some, Option.some.injEq] at stepped
    rw [← stepped.2]
    exact .aside rfl (sameTcbs_rfl _ _) rfl (sameNbl_rfl rfl)
  | flagged =>
    simp only [at_, Option.ite_none_right_eq_some, Option.some.injEq] at stepped
    rw [← stepped.2]
    exact .cancelled 0 .failure rfl (sameTcbs_rfl _ _) rfl (sameNbl_rfl rfl)
  | swept =>
    simp only [at_, Option.some.injEq] at stepped
    rw [← stepped]
    exact .aside rfl (sameTcbs_rfl _ _) rfl (sameNbl_rfl rfl)
  | returned => simp [at_] at stepped

theorem step_outcome {action : Action} (stepped : step p s action = some next) :
    Outcome p s next := by
  simp only [step, Option.ite_none_left_eq_some] at stepped
  have stepped := stepped.2
  cases action with
  | sendNetBufs thread chain =>
    simp only [Option.ite_none_right_eq_some, Option.some.injEq] at stepped
    rw [← stepped.2]
    exact sendNetBufs_outcome stepped.1.1 chain stepped.1.2.2
  | run thread bytes =>
    simp only [Option.bind_eq_some_iff] at stepped
    rcases stepped with ⟨pc, running, stepped⟩
    exact threadStep_outcome running stepped
  | cancelSend cancelId =>
    simp only [Option.ite_none_right_eq_some, Option.some.injEq] at stepped
    rw [← stepped.2]
    exact .cancelled cancelId .requestAborted rfl (sameTcbs_rfl _ _) rfl (sameNbl_rfl rfl)
  | txCompletion tcb =>
    simp only [Option.ite_none_right_eq_some, Option.some.injEq] at stepped
    exact .completion tcb stepped.1 stepped.2.symm
  | halt => exact halt_outcome stepped
  | _ =>
    simp only [Option.ite_none_right_eq_some, Option.some.injEq] at stepped
    rw [← stepped.2]
    exact .aside rfl (sameTcbs_rfl _ _) rfl (sameNbl_update rfl (by simp [stepped.1]) (by simp))

end Step

end Venet
