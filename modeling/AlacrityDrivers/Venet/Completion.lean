import AlacrityDrivers.Venet.ControlStep

namespace Venet

open Transition

/-- The queue has no second NBL. -/
def lastQueued (m : QueueMemory) : Bool :=
  match m.queue.head with
  | none => true
  | some nbl => (m.next nbl).isNone

/-- The condition on a run: when `VenetHalt` sweeps the queue, at most one NBL waits there, none is
    being sent and none has been sent. -/
def sweepable (s : State) : Action → Bool
  | .halt =>
    s.halt != .flagged ||
      (lastQueued s.sends.memory && s.sends.sendingNBL.isNone && s.sends.succeeded.isEmpty)
  | _ => true

structure Settled (sends : Sends) : Prop where
  queue : queueEmpty sends.memory.queue = true
  sending : sends.sendingNBL = none
  succeeded : sends.succeeded = []

structure Halting (s : State) : Prop where
  flag : s.halt ≠ .notCalled → venetTestFlag s.flags vnetAdapterHaltInProgress = true
  settled : s.halt = .swept ∨ s.halt = .returned → Settled s.sends

section Settled

variable {p : Params} {s next : State}

theorem sweep_settled (holds : Invariant p s) (last : lastQueued s.sends.memory = true)
    (idle : s.sends.sendingNBL = none) (unsent : s.sends.succeeded = []) (reason : NdisStatus) :
    Settled (s.sends.cancelQueued p.nbls 0 reason) := by
  rcases holds.ledger with ⟨queue, ledger⟩
  have rest : queue.eraseP (cancelMatch p.nbls 0) = [] := by
    cases queue with
    | nil => rfl
    | cons first queue =>
      cases queue with
      | nil => simp [cancelMatch]
      | cons second queue =>
        have head : s.sends.memory.queue.head = some first := ledger.holds.chain.1
        have after : s.sends.memory.next first = some second := ledger.holds.chain.2.1
        simp [lastQueued, head, after] at last
  refine ⟨?_, idle, unsent⟩
  rw [(ledger.cancel 0 reason).holds.empty_iff]
  exact rest

theorem settled_step (holds : Invariant p s) (outcome : Outcome p s next)
    (halting : venetTestFlag s.flags vnetAdapterHaltInProgress = true) (settled : Settled s.sends) :
    Settled next.sends := by
  have notReady := notReady_of_halting halting
  cases outcome with
  | aside sends _ _ _ =>
    rw [sends]
    exact settled
  | rejected chain status _ sends _ _ _ =>
    rw [sends]
    exact ⟨settled.queue, settled.sending, settled.succeeded⟩
  | accepted chain _ ready _ _ _ _ =>
    rw [notReady] at ready
    cases ready
  | cancelled cancelId reason sends _ _ _ =>
    rcases holds.ledger with ⟨queue, ledger⟩
    have nothing : queue = [] := ledger.holds.empty_iff.mp settled.queue
    subst nothing
    rw [sends]
    exact ⟨(ledger.cancel cancelId reason).holds.empty_iff.mpr rfl, settled.sending,
      settled.succeeded⟩
  | completion tcb outstanding after =>
    rw [after, completion_sends holds.accounting outstanding]
    exact settled
  | dequeued thread _ _ _ ready _ =>
    rw [notReady] at ready
    cases ready
  | inside thread bytes nbl pc _ sending _ =>
    rw [settled.sending] at sending
    cases sending
  | finished thread nbl rc _ sending _ =>
    rw [settled.sending] at sending
    cases sending

end Settled

section Halting

variable {p : Params} {s next : State} {action : Action}

theorem control_halting (control : Control s next action) :
    (venetTestFlag s.flags vnetAdapterHaltInProgress = true →
      venetTestFlag next.flags vnetAdapterHaltInProgress = true) ∧
      (action = .halt ∨ next.halt = s.halt) := by
  cases control with
  | kept _ kept halt => exact ⟨kept.halting, halt⟩
  | event thread bytes pc _ after =>
    rw [after]
    exact ⟨id, Or.inr rfl⟩
  | pauseReturns thread bytes _ _ after =>
    rw [after]
    exact ⟨id, Or.inr rfl⟩
  | unpaused thread bytes _ after =>
    rw [after]
    refine ⟨?_, Or.inr rfl⟩
    intro set
    exact (testFlag_clear (by decide)).trans set

theorem haltStep_halting (holds : Invariant p s) (halting : Halting s)
    (met : sweepable s .halt = true) (stepped : haltStep p s = some next) : Halting next := by
  unfold haltStep at stepped
  split at stepped
  · simp only [Option.ite_none_right_eq_some, Option.some.injEq] at stepped
    rw [← stepped.2]
    refine ⟨fun _ => testFlag_setSelf _ _ (by decide), ?_⟩
    intro late
    rcases late with impossible | impossible
    · cases impossible
    · cases impossible
  · rename_i flagged
    simp only [Option.ite_none_right_eq_some, Option.some.injEq] at stepped
    have clear : (lastQueued s.sends.memory = true ∧ s.sends.sendingNBL = none) ∧
        s.sends.succeeded = [] := by
      simpa [sweepable, flagged] using met
    rw [← stepped.2]
    refine ⟨fun _ => halting.flag (by simp [flagged]), ?_⟩
    intro _
    exact sweep_settled holds clear.1.1 clear.1.2 clear.2 .failure
  · rename_i swept
    rw [← Option.some.inj stepped]
    exact ⟨fun _ => halting.flag (by simp [swept]), fun _ => halting.settled (Or.inl swept)⟩
  · cases stepped

theorem halting_step (holds : Invariant p s) (halting : Halting s) (met : sweepable s action = true)
    (stepped : step p s action = some next) : Halting next := by
  rcases control_halting (step_control stepped) with ⟨flag, halt⟩
  rcases halt with isHalt | same
  · subst isHalt
    simp only [step, Option.ite_none_left_eq_some] at stepped
    exact haltStep_halting holds halting met stepped.2
  · refine ⟨?_, ?_⟩
    · rw [same]
      intro called
      exact flag (halting.flag called)
    · rw [same]
      intro late
      have called : s.halt ≠ .notCalled := by
        rcases late with late | late
        · simp [late]
        · simp [late]
      exact settled_step holds (step_outcome stepped) (halting.flag called) (halting.settled late)

theorem halting_initial (p : Params) : Halting (machine p).start := by
  refine ⟨fun called => absurd rfl called, ?_⟩
  intro late
  rcases late with impossible | impossible
  · cases impossible
  · cases impossible

end Halting

/-- An NBL is never completed twice. After a halt that found the queue nearly empty and nothing sent,
    each has been completed. -/
theorem sends_completed_once (p : Params) (s : State) (reached : (machine p).Reachable s) :
    (s.sends.completed.map Prod.fst).Nodup ∧ s.sends.completed.map Prod.fst ⊆ s.sends.handed ∧
      ((machine p).ReachableBy (fun s action => sweepable s action = true) s →
        s.halt = .returned → (s.sends.completed.map Prod.fst).Perm s.sends.handed) := by
  rcases (reachable_invariant reached).ledger with ⟨queue, ledger⟩
  have nodup := ledger.handed.nodup_iff.mp ledger.handedNodup
  refine ⟨(List.nodup_append.mp nodup).1, ?_, ?_⟩
  · intro nbl completed
    exact ledger.handed.mem_iff.mpr (List.mem_append_left _ completed)
  · intro swept returned
    have halting : Invariant p s ∧ Halting s := by
      apply swept.invariant
      · exact ⟨invariant_initial p, halting_initial p⟩
      · intro s action next holds met stepped
        exact ⟨invariant_step holds.1 (step_outcome stepped),
          halting_step holds.1 holds.2 met stepped⟩
    have settled := halting.2.settled (Or.inr returned)
    have nothing : queue = [] := ledger.holds.empty_iff.mp settled.queue
    have handed := ledger.handed
    rw [settled.succeeded, settled.sending, nothing] at handed
    simpa using handed.symm

def haltWithOne : List Action :=
  [.sendNetBufs 0 [0, 1]] ++ List.replicate 8 (.run 0 60) ++
    [.cancelSend 1, .pause 1, .run 1 0, .run 1 0, .halt, .halt, .halt]

theorem sends_completed_once_halt :
    let s := ((machine solo).run (machine solo).start haltWithOne).get (by decide)
    s.sends.completed = [(0, .requestAborted), (1, .failure)] ∧
      (s.sends.completed.map Prod.fst).Perm s.sends.handed := by
  have checked : (machine solo).checks sweepable (machine solo).start haltWithOne = true := by decide
  refine ⟨by decide, ?_⟩
  apply (sends_completed_once solo _ (Machine.reachable_get haltWithOne (by decide))).2.2
  · exact Machine.reachableBy_get haltWithOne (Machine.meets_of_checks (fun _ _ met => met) checked) _
  · decide

def haltWithTwo : List Action :=
  [.sendNetBufs 0 [0, 1]] ++ List.replicate 8 (.run 0 60) ++
    [.pause 1, .run 1 0, .run 1 0, .halt, .halt, .halt]

theorem sweep_misses_second :
    let s := ((machine solo).run (machine solo).start haltWithTwo).get (by decide)
    s.halt = .returned ∧ s.sends.handed = [0, 1] ∧ s.sends.completed = [(0, .failure)] := by
  refine ⟨?_, ?_, ?_⟩
  · decide
  · decide
  · decide

end Venet
