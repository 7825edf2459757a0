import AlacrityDrivers.Venet.ControlStep

namespace Venet

open Transition

/-- The condition on a run: VenetReset and VenetRestart set the send event only while no TCB is busy;
    when the wait of VenetPause ends, no NBL is being sent and the adapter is still marked as paused;
    and VenetRestart does not clear that mark after a VenetPause that returned since it was called. -/
def guarded (s : State) : Action → Bool
  | .run thread _ =>
    match s.threads thread with
    | some .resetEvent => s.tx.tcbBusy.isEmpty
    | some .restartEvent => s.tx.tcbBusy.isEmpty
    | some .pauseWait => s.sends.sendingNBL.isNone && venetTestFlag s.flags vnetAdapterPaused
    | some .restartFlag => !s.quiesced
    | _ => true
  | _ => true

/-- The event means that no TCB is busy, up to the two halves of `VenetAllocTCB`, and after a pause
    everything is still. -/
structure Quiescence (s : State) : Prop where
  event : s.tx.sendEvent = true → s.tx.tcbBusy = [] ∨ Allocating s
  paused : s.quiesced = true → venetTestFlag s.flags vnetAdapterPaused = true
  busy : s.quiesced = true → s.tx.tcbBusy = []
  sending : s.quiesced = true → s.sends.sendingNBL = none
  activity : s.quiesced = true → s.activity = 0

section Invariant

variable {p : Params} {s next : State}

theorem idle_step (outcome : Outcome p s next) (idle : s.sends.sendingNBL = none)
    (paused : venetTestFlag s.flags vnetAdapterPaused = true) :
    next.sends.sendingNBL = none ∧ next.tx.tcbBusy = s.tx.tcbBusy := by
  have notReady := notReady_of_paused paused
  cases outcome with
  | aside sends tcbs _ _ =>
    rw [sends]
    exact ⟨idle, tcbs.tcbBusy⟩
  | rejected chain status _ sends tcbs _ _ =>
    rw [sends]
    exact ⟨idle, tcbs.tcbBusy⟩
  | accepted chain _ ready _ _ _ _ =>
    rw [notReady] at ready
    cases ready
  | cancelled cancelId reason sends tcbs _ _ =>
    rw [sends]
    exact ⟨idle, tcbs.tcbBusy⟩
  | completion tcb _ after =>
    rw [after, (txCompletion_frame s tcb).2, (txCompletion_lists s tcb).2.1]
    exact ⟨idle, rfl⟩
  | dequeued thread _ _ _ ready _ =>
    rw [notReady] at ready
    cases ready
  | inside thread bytes nbl pc _ sending _ =>
    rw [idle] at sending
    cases sending
  | finished thread nbl rc _ sending _ =>
    rw [idle] at sending
    cases sending

theorem inside_busy {thread bytes nbl : Nat} {pc : NblPc} (exclusive : Exclusive s)
    (running : s.threads thread = some (.processNbl pc))
    (stepped : processNblStep p s thread bytes nbl pc = some next)
    (set : next.tx.sendEvent = true) (either : s.tx.tcbBusy = [] ∨ Allocating s) :
    next.tx.tcbBusy = [] ∨ Allocating next := by
  have empty (other : ∀ nb tcb, pc ≠ .allocEvent nb tcb) : s.tx.tcbBusy = [] :=
    either.resolve_right (not_allocating exclusive running other)
  cases pc with
  | alloc nb =>
    have nothing := empty (by simp)
    simp only [processNblStep] at stepped
    split at stepped
    · rw [← Option.some.inj stepped]
      exact Or.inl nothing
    · rename_i tcb tx _
      rw [← Option.some.inj stepped]
      exact Or.inr ⟨thread, nb, tcb, goto_same _ _ _⟩
  | allocEvent nb tcb =>
    rw [← Option.some.inj stepped] at set
    cases set
  | release tcb rc =>
    have nothing := empty (by simp)
    rw [← Option.some.inj stepped]
    left
    simp [State.goto, releaseTcbList, nothing]
  | releaseEvent rc =>
    have nothing := empty (by simp)
    rw [← Option.some.inj stepped]
    left
    simp [State.goto, releaseTcbEvent, nothing]
  | finish rc => cases stepped
  | fault => cases stepped
  | _ =>
    have nothing := empty (by simp)
    rw [← Option.some.inj stepped]
    exact Or.inl nothing

theorem busy_step (exclusive : Exclusive s) (outcome : Outcome p s next)
    (set : next.tx.sendEvent = true) (either : s.tx.tcbBusy = [] ∨ Allocating s) :
    next.tx.tcbBusy = [] ∨ Allocating next := by
  have unmoved (tcbs : SameTcbs s.tx next.tx) (nbl : SameNbl s next) :
      next.tx.tcbBusy = [] ∨ Allocating next := by
    rw [tcbs.tcbBusy, Allocating.same nbl]
    exact either
  cases outcome with
  | aside _ tcbs _ nbl => exact unmoved tcbs nbl
  | rejected _ _ _ _ tcbs _ nbl => exact unmoved tcbs nbl
  | accepted _ _ _ _ tcbs _ nbl => exact unmoved tcbs nbl
  | cancelled _ _ _ tcbs _ nbl => exact unmoved tcbs nbl
  | completion tcb _ after =>
    have threads : SameNbl s next := sameNbl_rfl (by rw [after, (txCompletion_frame s tcb).1])
    rw [Allocating.same threads, after, (txCompletion_lists s tcb).2.1]
    exact either
  | dequeued thread _ idle _ _ after =>
    rw [after]
    exact Or.inl (either.resolve_right (exclusive.not_allocating idle))
  | inside thread bytes nbl pc running _ stepped =>
    exact inside_busy exclusive running stepped set either
  | finished thread nbl rc running _ after =>
    rw [after, (finishNbl_frame s thread nbl rc).2.1]
    exact Or.inl (either.resolve_right (not_allocating exclusive running (by simp)))

theorem quiescence_step {action : Action} (holds : Invariant p s) (quiescence : Quiescence s)
    (met : guarded s action = true) (outcome : Outcome p s next) (control : Control s next action) :
    Quiescence next := by
  cases control with
  | kept _ kept _ =>
    have still (set : next.quiesced = true) := idle_step outcome
      (quiescence.sending (kept.quiesced set)) (quiescence.paused (kept.quiesced set))
    refine ⟨?_, ?_, ?_, ?_, ?_⟩
    · intro set
      rcases kept.event set with before | empty
      · exact busy_step holds.exclusive outcome set (quiescence.event before)
      · exact Or.inl empty
    · intro set
      exact kept.paused (quiescence.paused (kept.quiesced set))
    · intro set
      rw [(still set).2]
      exact quiescence.busy (kept.quiesced set)
    · intro set
      exact (still set).1
    · intro set
      rw [kept.activity (quiescence.sending (kept.quiesced set))]
      exact quiescence.activity (kept.quiesced set)
  | event thread bytes pc running after =>
    have empty : s.tx.tcbBusy = [] := by
      rcases running with running | running
      · simpa [guarded, running] using met
      · simpa [guarded, running] using met
    rw [after]
    exact ⟨fun _ => Or.inl empty, quiescence.paused, quiescence.busy, quiescence.sending,
      quiescence.activity⟩
  | pauseReturns thread bytes running event after =>
    have clear : s.sends.sendingNBL = none ∧ venetTestFlag s.flags vnetAdapterPaused = true := by
      simpa [guarded, running] using met
    have empty : s.tx.tcbBusy = [] := (quiescence.event event).resolve_right
      (holds.exclusive.not_allocating clear.1)
    rw [after]
    exact ⟨fun _ => Or.inl empty, fun _ => clear.2, fun _ => empty, fun _ => clear.1, fun _ => rfl⟩
  | unpaused thread bytes running after =>
    have active : ¬ s.quiesced = true := by simpa [guarded, running] using met
    rw [after] at outcome ⊢
    refine ⟨?_, fun set => absurd set active, fun set => absurd set active,
      fun set => absurd set active, fun set => absurd set active⟩
    intro set
    exact busy_step holds.exclusive outcome set (quiescence.event set)

theorem quiescence_initial (p : Params) : Quiescence (machine p).start := by
  have running : ¬ (machine p).start.quiesced = true := by
    intro impossible
    cases impossible
  exact ⟨fun _ => Or.inl rfl, fun set => absurd set running, fun set => absurd set running,
    fun set => absurd set running, fun set => absurd set running⟩

end Invariant

/-- In a guarded run, from the return of `VenetPause` to the next `VenetRestart` no TCB is busy, no
    NBL is being sent, and no TCB was allocated or submitted since that return. -/
theorem guarded_pause_quiesces (p : Params) (s : State)
    (reached : (machine p).ReachableBy (fun s action => guarded s action = true) s)
    (quiesced : s.quiesced = true) :
    s.tx.tcbBusy = [] ∧ s.sends.sendingNBL = none ∧ s.activity = 0 := by
  have holds : Invariant p s ∧ Quiescence s := by
    apply reached.invariant
    · exact ⟨invariant_initial p, quiescence_initial p⟩
    · intro s action next holds met stepped
      have outcome := step_outcome stepped
      exact ⟨invariant_step holds.1 outcome,
        quiescence_step holds.1 holds.2 met outcome (step_control stepped)⟩
  exact ⟨holds.2.busy quiesced, holds.2.sending quiesced, holds.2.activity quiesced⟩

def pauseAfterFailure : List Action :=
  [.sendNetBufs 0 [0]] ++ List.replicate 8 (.run 0 60) ++
    [.pause 1, .run 1 0, .run 1 0, .sendNetBufs 2 [1]]

theorem guarded_pause_quiesces_refused :
    let s := ((machine solo).run (machine solo).start pauseAfterFailure).get (by decide)
    s.sends.completed = [(1, .paused)] ∧ s.tx.tcbBusy = [] ∧ s.sends.sendingNBL = none ∧
      s.activity = 0 := by
  have checked : (machine solo).checks guarded (machine solo).start pauseAfterFailure = true := by
    decide
  refine ⟨by decide, ?_⟩
  apply guarded_pause_quiesces solo
  · apply Machine.reachableBy_get
    exact Machine.meets_of_checks (fun _ _ met => met) checked
  · decide

def pauseInWindow : List Action :=
  [.sendNetBufs 0 [0], .run 0 0, .pause 1, .run 1 0, .run 1 0, .run 0 0, .run 0 0]

def pauseAfterReset : List Action :=
  [.sendNetBufs 0 [0]] ++ List.replicate 8 (.run 0 0) ++ [.reset 1] ++ List.replicate 5 (.run 1 0) ++
    [.pause 1, .run 1 0, .run 1 0]

theorem pause_returns_early :
    let window := ((machine solo).run (machine solo).start pauseInWindow).get (by decide)
    let reset := ((machine solo).run (machine solo).start pauseAfterReset).get (by decide)
    (window.quiesced = true ∧ window.tx.tcbBusy = [0] ∧ window.sends.sendingNBL = some 0 ∧
      window.activity = 1) ∧ reset.quiesced = true ∧ reset.tx.tcbBusy = [0] := by
  refine ⟨⟨?_, ?_, ?_, ?_⟩, ?_, ?_⟩
  · decide
  · decide
  · decide
  · decide
  · decide
  · decide

end Venet
