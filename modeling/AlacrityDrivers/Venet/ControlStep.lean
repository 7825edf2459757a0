import AlacrityDrivers.Venet.SendInvariant

namespace Venet

structure Kept (s next : State) : Prop where
  paused : venetTestFlag s.flags vnetAdapterPaused = true →
    venetTestFlag next.flags vnetAdapterPaused = true
  halting : venetTestFlag s.flags vnetAdapterHaltInProgress = true →
    venetTestFlag next.flags vnetAdapterHaltInProgress = true
  event : next.tx.sendEvent = true → s.tx.sendEvent = true ∨ next.tx.tcbBusy = []
  quiesced : next.quiesced = true → s.quiesced = true
  activity : s.sends.sendingNBL = none → next.activity = s.activity

inductive Control (s next : State) : Action → Prop
  | kept (action : Action) (kept : Kept s next) (halt : action = .halt ∨ next.halt = s.halt) :
    Control s next action
  | event (thread bytes : Nat) (pc : Option Pc)
      (running : s.threads thread = some .resetEvent ∨ s.threads thread = some .restartEvent)
      (after : next = { s with tx := { s.tx with sendEvent := true } }.goto thread pc) :
    Control s next (.run thread bytes)
  | pauseReturns (thread bytes : Nat) (running : s.threads thread = some .pauseWait)
      (event : s.tx.sendEvent = true)
      (after : next = { s with quiesced := true, activity := 0 }.goto thread none) :
    Control s next (.run thread bytes)
  | unpaused (thread bytes : Nat) (running : s.threads thread = some .restartFlag)
      (after : next = { s with flags := venetClearFlag s.flags vnetAdapterPaused }.goto thread
        (some .restartEvent)) :
    Control s next (.run thread bytes)

section Kept

variable {p : Params} {s next : State} {thread bytes nbl : Nat}

theorem kept_rfl (flags : next.flags = s.flags) (event : next.tx.sendEvent = s.tx.sendEvent)
    (quiesced : next.quiesced = s.quiesced) (activity : next.activity = s.activity) : Kept s next := by
  refine ⟨?_, ?_, ?_, ?_, ?_⟩
  · intro paused
    rw [flags]
    exact paused
  · intro halting
    rw [flags]
    exact halting
  · intro set
    rw [event] at set
    exact Or.inl set
  · intro set
    rw [← quiesced]
    exact set
  · intro _
    exact activity

theorem kept_processQueue (s : State) (thread : Nat) :
    Kept s (processQueue s thread) ∧ (processQueue s thread).halt = s.halt := by
  unfold processQueue
  dsimp only
  split
  · exact ⟨kept_rfl rfl rfl rfl rfl, rfl⟩
  · exact ⟨kept_rfl rfl rfl rfl rfl, rfl⟩

theorem allocTcbList_taken {tx after : Tx} {tcb : Nat} (taken : allocTcbList tx nbl = some (tcb, after)) :
    tcb ∈ tx.tcbFree ∧ after.tcbBusy = tcb :: tx.tcbBusy ∧ after.sendEvent = tx.sendEvent := by
  unfold allocTcbList at taken
  split at taken
  · cases taken
  · rename_i list
    obtain ⟨same, rfl⟩ := Prod.mk.inj (Option.some.inj taken)
    rw [list, ← same]
    exact ⟨List.mem_cons_self, rfl, rfl⟩

theorem kept_processNbl {pc : NblPc} (sending : s.sends.sendingNBL = some nbl)
    (stepped : processNblStep p s thread bytes nbl pc = some next) :
    Kept s next ∧ next.halt = s.halt := by
  have busy : s.sends.sendingNBL ≠ none := by
    rw [sending]
    simp
  cases pc with
  | alloc nb =>
    simp only [processNblStep] at stepped
    split at stepped
    · rw [← Option.some.inj stepped]
      exact ⟨kept_rfl rfl rfl rfl rfl, rfl⟩
    · rename_i tcb tx found
      have event := (allocTcbList_taken found).2.2
      rw [← Option.some.inj stepped]
      refine ⟨⟨id, id, ?_, id, fun idle => absurd idle busy⟩, rfl⟩
      intro set
      exact Or.inl (event ▸ set)
  | allocEvent nb tcb =>
    rw [← Option.some.inj stepped]
    refine ⟨⟨id, id, ?_, id, fun _ => rfl⟩, rfl⟩
    intro impossible
    cases impossible
  | submit nb tcb =>
    rw [← Option.some.inj stepped]
    exact ⟨⟨id, id, Or.inl, id, fun idle => absurd idle busy⟩, rfl⟩
  | releaseEvent rc =>
    have event : (releaseTcbEvent s.tx).sendEvent = true →
        s.tx.sendEvent = true ∨ (releaseTcbEvent s.tx).tcbBusy = [] := by
      intro set
      by_cases empty : s.tx.tcbBusy = []
      · right
        simp [releaseTcbEvent, empty]
      · left
        simpa [releaseTcbEvent, empty] using set
    rw [← Option.some.inj stepped]
    exact ⟨⟨id, id, event, id, fun _ => rfl⟩, rfl⟩
  | finish rc => cases stepped
  | fault => cases stepped
  | _ =>
    rw [← Option.some.inj stepped]
    exact ⟨kept_rfl rfl rfl rfl rfl, rfl⟩

theorem kept_finishNbl (s : State) (thread nbl : Nat) (rc : NdisStatus) :
    Kept s (finishNbl s thread nbl rc) ∧ (finishNbl s thread nbl rc).halt = s.halt := by
  unfold finishNbl
  split
  · exact ⟨kept_rfl rfl rfl rfl rfl, rfl⟩
  · exact ⟨kept_rfl rfl rfl rfl rfl, rfl⟩

theorem kept_halt (stepped : haltStep p s = some next) : Kept s next := by
  unfold haltStep at stepped
  split at stepped
  · simp only [Option.ite_none_right_eq_some, Option.some.injEq] at stepped
    rw [← stepped.2]
    exact ⟨fun set => testFlag_set set _, fun set => testFlag_set set _, Or.inl, id, fun _ => rfl⟩
  · simp only [Option.ite_none_right_eq_some, Option.some.injEq] at stepped
    rw [← stepped.2]
    exact kept_rfl rfl rfl rfl rfl
  · rw [← Option.some.inj stepped]
    exact kept_rfl rfl rfl rfl rfl
  · cases stepped

theorem kept_txCompletion (s : State) (tcb : Nat) :
    Kept s (venetTxCompletion s tcb) ∧ (venetTxCompletion s tcb).halt = s.halt := by
  have same : (venetTxCompletion s tcb).flags = s.flags ∧
      (venetTxCompletion s tcb).tx.sendEvent = s.tx.sendEvent ∧
      (venetTxCompletion s tcb).quiesced = s.quiesced ∧
      (venetTxCompletion s tcb).activity = s.activity ∧
      (venetTxCompletion s tcb).halt = s.halt := by simp only [venetTxCompletion, and_self]
  rcases same with ⟨flags, event, quiesced, activity, halt⟩
  exact ⟨kept_rfl flags event quiesced activity, halt⟩

end Kept

section Control

variable {p : Params} {s next : State} {thread bytes : Nat}

theorem Kept.control {action : Action} (kept : Kept s next ∧ next.halt = s.halt) :
    Control s next action := .kept action kept.1 (Or.inr kept.2)

theorem threadStep_control {pc : Pc} (running : s.threads thread = some pc)
    (stepped : threadStep p s thread bytes pc = some next) :
    Control s next (.run thread bytes) := by
  cases pc with
  | processQueue =>
    simp only [threadStep, Option.ite_none_right_eq_some, Option.some.injEq] at stepped
    rw [← stepped.2]
    exact Kept.control (kept_processQueue s thread)
  | processNbl pc =>
    rcases processNbl_cases stepped with ⟨nbl, sending, inside | ⟨rc, rfl, after⟩⟩
    · exact Kept.control (kept_processNbl sending inside)
    · rw [after]
      exact Kept.control (kept_finishNbl s thread nbl rc)
  | resetTest =>
    rw [← Option.some.inj stepped]
    exact Kept.control ⟨kept_rfl rfl rfl rfl rfl, rfl⟩
  | resetFlag | pauseFlag =>
    simp only [threadStep, Option.ite_none_right_eq_some, Option.some.injEq] at stepped
    rw [← stepped.2]
    exact Kept.control
      ⟨⟨fun set => testFlag_set set _, fun set => testFlag_set set _, Or.inl, id, fun _ => rfl⟩, rfl⟩
  | resetQueued =>
    simp only [threadStep, Option.ite_none_right_eq_some, Option.some.injEq] at stepped
    rw [← stepped.2]
    exact Kept.control ⟨kept_rfl rfl rfl rfl rfl, rfl⟩
  | resetEvent => exact .event thread bytes _ (Or.inl running) (Option.some.inj stepped).symm
  | resetDone =>
    rw [← Option.some.inj stepped]
    refine Kept.control ⟨⟨?_, ?_, Or.inl, id, fun _ => rfl⟩, rfl⟩
    · intro set
      exact (testFlag_clear (by decide)).trans set
    · intro set
      exact (testFlag_clear (by decide)).trans set
  | pauseWait =>
    simp only [threadStep, Option.ite_none_right_eq_some, Option.some.injEq] at stepped
    exact .pauseReturns thread bytes running stepped.1 stepped.2.symm
  | restartFlag => exact .unpaused thread bytes running (Option.some.inj stepped).symm
  | restartEvent => exact .event thread bytes _ (Or.inr running) (Option.some.inj stepped).symm

theorem step_control {action : Action} (stepped : step p s action = some next) :
    Control s next action := by
  simp only [step, Option.ite_none_left_eq_some] at stepped
  have stepped := stepped.2
  cases action with
  | sendNetBufs thread chain =>
    simp only [Option.ite_none_right_eq_some, Option.some.injEq] at stepped
    rw [← stepped.2, venetSendNetBufs]
    split
    · exact Kept.control ⟨kept_rfl rfl rfl rfl rfl, rfl⟩
    · exact Kept.control ⟨kept_rfl rfl rfl rfl rfl, rfl⟩
  | run thread bytes =>
    simp only [Option.bind_eq_some_iff] at stepped
    rcases stepped with ⟨pc, running, stepped⟩
    exact threadStep_control running stepped
  | txCompletion tcb =>
    simp only [Option.ite_none_right_eq_some, Option.some.injEq] at stepped
    rw [← stepped.2]
    exact Kept.control (kept_txCompletion s tcb)
  | restart thread =>
    simp only [Option.ite_none_right_eq_some, Option.some.injEq] at stepped
    rw [← stepped.2]
    refine Kept.control ⟨⟨id, id, Or.inl, ?_, fun _ => rfl⟩, rfl⟩
    intro impossible
    cases impossible
  | halt => exact .kept .halt (kept_halt stepped) (Or.inl rfl)
  | _ =>
    simp only [Option.ite_none_right_eq_some, Option.some.injEq] at stepped
    rw [← stepped.2]
    exact Kept.control ⟨kept_rfl rfl rfl rfl rfl, rfl⟩

end Control

end Venet
