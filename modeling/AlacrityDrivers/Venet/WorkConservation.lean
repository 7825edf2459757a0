import AlacrityDrivers.Venet.SendInvariant

namespace Venet

open Transition

def Pc.sends : Pc → Bool
  | .processQueue => true
  | .processNbl _ => true
  | _ => false

def State.Working (s : State) (thread : Nat) : Prop :=
  ∃ pc, s.threads thread = some pc ∧ pc.sends = true

/-- A thread has come back to a `sendLock` that it holds and that does not let it through. -/
def State.hung (p : Params) (s : State) : Bool := s.sendLock.isSome && !p.reentrant

def Conserving (p : Params) (s : State) : Prop :=
  queueEmpty s.sends.memory.queue = true ∨ s.hung p = false ∧ ∃ thread, s.Working thread

def givesUp (s : State) (thread : Nat) : Bool :=
  match s.threads thread with
  | some .processQueue =>
    s.sends.sendingNBL.isNone && !queueEmpty s.sends.memory.queue && venetIsNotReady s.flags
  | some (.processNbl (.finish rc)) => rc != .success
  | _ => false

def hangs (p : Params) (s : State) (thread : Nat) : Bool :=
  match s.threads thread with
  | some (.processNbl (.finish .success)) => !p.reentrant
  | _ => false

def Relieved (p : Params) (s : State) : Action → Prop
  | .run thread _ =>
    (givesUp s thread = true → ∃ other, other ≠ thread ∧ s.Working other) ∧
      (hangs p s thread = true → queueEmpty s.sends.memory.queue = true)
  | _ => True

def Attended (s : State) : Prop :=
  s.sends.sendingNBL ≠ none → ∃ thread pc, s.threads thread = some (.processNbl pc)

inductive LoopStep (p : Params) (s next : State) : Action → Prop
  | aside (action : Action) (conserving : Conserving p s → Conserving p next)
      (attended : Attended s → Attended next)
      (stays : ∀ thread bytes, action = .run thread bytes →
        givesUp s thread = false ∧ hangs p s thread = false)
      (entered : (∀ thread chain, action ≠ .sendNetBufs thread chain) →
        ∀ thread, next.Working thread → s.Working thread)
      (succeeded : next.sends.succeeded = s.sends.succeeded ∨ ∃ thread, s.Working thread) :
    LoopStep p s next action
  | left (thread bytes : Nat) (running : s.threads thread = some .processQueue)
      (blocked : (s.sends.sendingNBL.isSome || queueEmpty s.sends.memory.queue ||
        venetIsNotReady s.flags) = true)
      (after : next = { s with sendLock := none }.goto thread none) :
    LoopStep p s next (.run thread bytes)
  | succeeded (thread bytes nbl : Nat)
      (running : s.threads thread = some (.processNbl (.finish .success)))
      (after : next = finishNbl s thread nbl .success) :
    LoopStep p s next (.run thread bytes)
  | failed (thread bytes nbl : Nat) (rc : NdisStatus)
      (running : s.threads thread = some (.processNbl (.finish rc))) (refused : rc ≠ .success)
      (after : next = finishNbl s thread nbl rc) :
    LoopStep p s next (.run thread bytes)

section Threads

variable {p : Params} {s next : State} {thread other bytes : Nat} {new : Option Pc}

theorem working_update (threads : next.threads = Function.update s.threads thread new)
    (outside : ¬ s.Working thread) (working : s.Working other) : next.Working other := by
  obtain ⟨pc, running, inside⟩ := working
  have different : other ≠ thread := by
    rintro rfl
    exact outside ⟨pc, running, inside⟩
  refine ⟨pc, ?_, inside⟩
  rw [threads, Function.update_of_ne different]
  exact running

theorem working_of_update (threads : next.threads = Function.update s.threads thread new)
    (mover : next.Working thread → s.Working thread) (working : next.Working other) :
    s.Working other := by
  by_cases same : other = thread
  · rw [same] at working ⊢
    exact mover working
  · obtain ⟨pc, running, inside⟩ := working
    refine ⟨pc, ?_, inside⟩
    rw [threads, Function.update_of_ne same] at running
    exact running

theorem not_working {pc : Option Pc} (at_place : s.threads thread = pc)
    (outside : ∀ inside, pc = some inside → inside.sends = false) : ¬ s.Working thread := by
  rintro ⟨inside, running, sends⟩
  rw [outside inside (at_place.symm.trans running)] at sends
  cases sends

theorem hung_of_free (free : next.sendLock = none) : next.hung p = false := by
  rw [State.hung, free]
  rfl

theorem conserving_of (working : ∀ other, s.Working other → next.Working other)
    (lock : next.sendLock = s.sendLock)
    (queue : queueEmpty s.sends.memory.queue = true → queueEmpty next.sends.memory.queue = true)
    (conserving : Conserving p s) : Conserving p next := by
  rcases conserving with empty | ⟨going, thread, inside⟩
  · exact Or.inl (queue empty)
  · rw [State.hung, ← lock] at going
    exact Or.inr ⟨going, thread, working thread inside⟩

theorem attended_of (nbl : SameNbl s next) (sending : next.sends.sendingNBL = s.sends.sendingNBL)
    (attended : Attended s) : Attended next := by
  intro busy
  rw [sending] at busy
  obtain ⟨thread, pc, running⟩ := attended busy
  exact ⟨thread, pc, (nbl thread pc).mpr running⟩

theorem stays_outside (at_place : s.threads thread = new)
    (outside : ∀ inside, new = some inside → inside.sends = false) :
    givesUp s thread = false ∧ hangs p s thread = false := by
  rw [givesUp, hangs, at_place]
  cases new with
  | none => exact ⟨rfl, rfl⟩
  | some pc =>
    cases pc with
    | processQueue => cases outside _ rfl
    | processNbl pc => cases outside _ rfl
    | _ => exact ⟨rfl, rfl⟩

theorem loop_outside {action : Action} {old : Option Pc}
    (threads : next.threads = Function.update s.threads thread new)
    (at_place : s.threads thread = old)
    (before : ∀ inside, old = some inside → inside.sends = false)
    (after : ∀ inside, new = some inside → inside.sends = false)
    (lock : next.sendLock = s.sendLock) (sending : next.sends.sendingNBL = s.sends.sendingNBL)
    (queue : queueEmpty s.sends.memory.queue = true → queueEmpty next.sends.memory.queue = true)
    (succeeded : next.sends.succeeded = s.sends.succeeded)
    (mover : ∀ other bytes, action = .run other bytes → other = thread) : LoopStep p s next action := by
  have gone : ¬ next.Working thread :=
    not_working (by rw [threads, Function.update_self]) after
  refine .aside action ?_ ?_ ?_ ?_ (Or.inl succeeded)
  · exact conserving_of (fun other => working_update threads (not_working at_place before)) lock queue
  · refine attended_of (sameNbl_update threads ?_ ?_) sending
    · intro pc running
      cases before _ (at_place.symm.trans running)
    · intro pc running
      cases after _ running
  · intro other bytes same
    rw [mover other bytes same]
    exact stays_outside at_place before
  · intro _ other working
    exact working_of_update threads (fun impossible => absurd impossible gone) working

theorem cancel_empty (holds : Invariant p s) (cancelId : Nat) (reason : NdisStatus)
    (empty : queueEmpty s.sends.memory.queue = true) :
    queueEmpty (s.sends.cancelQueued p.nbls cancelId reason).memory.queue = true := by
  obtain ⟨queue, ledger⟩ := holds.ledger
  rw [ledger.holds.empty_iff] at empty
  rw [(ledger.cancel cancelId reason).holds.empty_iff, empty]
  rfl

end Threads

section Step

variable {p : Params} {s next : State} {thread bytes : Nat}

theorem loop_processQueue (running : s.threads thread = some .processQueue) :
    LoopStep p s (processQueue s thread) (.run thread bytes) := by
  by_cases blocked : (s.sends.sendingNBL.isSome || queueEmpty s.sends.memory.queue ||
      venetIsNotReady s.flags) = true
  · exact .left thread bytes running blocked (if_pos blocked)
  · have went : processQueue s thread = _ := if_neg blocked
    simp only [Bool.or_eq_true, not_or, Bool.not_eq_true] at blocked
    have inside : (processQueue s thread).threads thread = some (.processNbl .check) := by
      rw [went]
      exact goto_same _ _ _
    refine .aside _ ?_ ?_ ?_ ?_ (Or.inr ⟨thread, _, running, rfl⟩)
    · intro _
      refine Or.inr ⟨hung_of_free ?_, thread, _, inside, rfl⟩
      rw [went]
      rfl
    · intro _ _
      exact ⟨thread, _, inside⟩
    · intro other bytes same
      cases same
      simp [givesUp, hangs, running, blocked.2]
    · intro _ other working
      rw [went] at working
      exact working_of_update rfl (fun _ => ⟨_, running, rfl⟩) working

theorem processNblStep_lock {nbl : Nat} {pc : NblPc}
    (stepped : processNblStep p s thread bytes nbl pc = some next) : next.sendLock = s.sendLock := by
  cases pc with
  | alloc nb =>
    simp only [processNblStep] at stepped
    split at stepped
    · rw [← Option.some.inj stepped]
      rfl
    · rw [← Option.some.inj stepped]
      rfl
  | finish rc => cases stepped
  | fault => cases stepped
  | _ =>
    rw [← Option.some.inj stepped]
    rfl

theorem loop_processNbl {pc : NblPc} (running : s.threads thread = some (.processNbl pc))
    (stepped : threadStep p s thread bytes (.processNbl pc) = some next) :
    LoopStep p s next (.run thread bytes) := by
  rcases processNbl_cases stepped with ⟨nbl, sending, inside | ⟨rc, rfl, after⟩⟩
  · obtain ⟨sends, pc', threads⟩ := processNblStep_frame inside
    have there : next.threads thread = some (.processNbl pc') := by
      rw [threads, Function.update_self]
    refine .aside _ ?_ ?_ ?_ ?_ (Or.inr ⟨thread, _, running, rfl⟩)
    · apply conserving_of _ (processNblStep_lock inside)
      · intro empty
        rw [sends]
        exact empty
      · rintro other ⟨place, standing, working⟩
        by_cases same : other = thread
        · exact ⟨_, same ▸ there, rfl⟩
        · refine ⟨place, ?_, working⟩
          rw [threads, Function.update_of_ne same]
          exact standing
    · intro _ _
      exact ⟨thread, _, there⟩
    · intro other bytes same
      cases same
      rw [givesUp, hangs, running]
      cases pc with
      | finish rc => cases inside
      | _ => exact ⟨rfl, rfl⟩
    · intro _ other working
      exact working_of_update threads (fun _ => ⟨_, running, rfl⟩) working
  · by_cases success : rc = .success
    · rw [success] at running after
      exact .succeeded thread bytes nbl running after
    · exact .failed thread bytes nbl rc running success after

theorem loop_thread (holds : Invariant p s) {pc : Pc} (running : s.threads thread = some pc)
    (stepped : threadStep p s thread bytes pc = some next) : LoopStep p s next (.run thread bytes) := by
  have mover : ∀ other more, Action.run thread bytes = .run other more → other = thread := by
    intro other more same
    cases same
    rfl
  have outside (quiet : pc.sends = false) : ∀ inside, some pc = some inside → inside.sends = false := by
    intro inside same
    cases same
    exact quiet
  cases pc with
  | processQueue =>
    simp only [threadStep, Option.ite_none_right_eq_some, Option.some.injEq] at stepped
    rw [← stepped.2]
    exact loop_processQueue running
  | processNbl pc => exact loop_processNbl running stepped
  | resetTest =>
    simp only [threadStep, Option.some.injEq] at stepped
    rw [← stepped]
    refine loop_outside rfl running (outside rfl) ?_ rfl rfl (fun empty => empty) rfl mover
    intro inside same
    split at same
    · cases same
    · cases same
      rfl
  | resetQueued =>
    simp only [threadStep, Option.ite_none_right_eq_some, Option.some.injEq] at stepped
    rw [← stepped.2]
    refine loop_outside rfl running (outside rfl) ?_ rfl rfl
      (cancel_empty holds 0 .resetInProgress) rfl mover
    intro inside same
    cases same
    rfl
  | resetFlag | pauseFlag | pauseWait =>
    simp only [threadStep, Option.ite_none_right_eq_some, Option.some.injEq] at stepped
    rw [← stepped.2]
    refine loop_outside rfl running (outside rfl) ?_ rfl rfl (fun empty => empty) rfl mover
    intro inside same
    cases same <;> rfl
  | _ =>
    simp only [threadStep, Option.some.injEq] at stepped
    rw [← stepped]
    refine loop_outside rfl running (outside rfl) ?_ rfl rfl (fun empty => empty) rfl mover
    intro inside same
    cases same <;> rfl

theorem loop_nobody {action : Action} (threads : next.threads = s.threads)
    (lock : next.sendLock = s.sendLock) (sending : next.sends.sendingNBL = s.sends.sendingNBL)
    (queue : queueEmpty s.sends.memory.queue = true → queueEmpty next.sends.memory.queue = true)
    (succeeded : next.sends.succeeded = s.sends.succeeded)
    (other : ∀ thread bytes, action ≠ .run thread bytes) : LoopStep p s next action := by
  refine .aside action ?_ (attended_of (sameNbl_rfl threads) sending) ?_ ?_ (Or.inl succeeded)
  · refine conserving_of ?_ lock queue
    rintro thread ⟨pc, running, inside⟩
    exact ⟨pc, by rw [threads]; exact running, inside⟩
  · intro thread bytes same
    exact absurd same (other thread bytes)
  · rintro _ thread ⟨pc, running, inside⟩
    exact ⟨pc, by rw [← threads]; exact running, inside⟩

theorem loop_sendNetBufs (outside : s.threads thread = none) (free : s.sendLock = none)
    (chain : List Nat) :
    LoopStep p s (venetSendNetBufs p s thread chain) (.sendNetBufs thread chain) := by
  cases ready : venetIsNotReady s.flags with
  | true =>
    have refused : venetSendNetBufs p s thread chain = { s with
        sends := (s.sends.handOver chain).complete chain (srGetAdapterStatus s.flags) } := by
      simp [venetSendNetBufs, ready]
    rw [refused]
    exact loop_nobody rfl rfl rfl (fun empty => empty) rfl (by rintro _ _ ⟨⟩)
  | false =>
    have taken : venetSendNetBufs p s thread chain = { s with
        sends := chain.foldl (Sends.enqueue p.nbls) (s.sends.handOver chain) }.goto thread
          (some .processQueue) := by
      simp [venetSendNetBufs, ready]
    rw [taken]
    refine .aside _ ?_ ?_ (by rintro _ _ ⟨⟩)
      (fun never => absurd rfl (never thread chain)) (Or.inl ?_)
    · intro _
      exact Or.inr ⟨hung_of_free free, thread, .processQueue, goto_same _ _ _, rfl⟩
    · refine attended_of (sameNbl_update rfl (by simp [outside]) (by simp)) ?_
      rw [enqueue_chain]
      rfl
    · rw [enqueue_chain]
      rfl

theorem loop_halt (holds : Invariant p s) (stepped : haltStep p s = some next) :
    LoopStep p s next .halt := by
  unfold haltStep at stepped
  cases at_ : s.halt with
  | notCalled =>
    simp only [at_, Option.ite_none_right_eq_some, Option.some.injEq] at stepped
    rw [← stepped.2]
    exact loop_nobody rfl rfl rfl (fun empty => empty) rfl (by rintro _ _ ⟨⟩)
  | flagged =>
    simp only [at_, Option.ite_none_right_eq_some, Option.some.injEq] at stepped
    rw [← stepped.2]
    exact loop_nobody rfl rfl rfl (cancel_empty holds 0 .failure) rfl
      (by rintro _ _ ⟨⟩)
  | swept =>
    simp only [at_, Option.some.injEq] at stepped
    rw [← stepped]
    exact loop_nobody rfl rfl rfl (fun empty => empty) rfl (by rintro _ _ ⟨⟩)
  | returned => simp [at_] at stepped

theorem loop_of_step (holds : Invariant p s) {action : Action}
    (stepped : step p s action = some next) : LoopStep p s next action := by
  simp only [step, Option.ite_none_left_eq_some] at stepped
  have stepped := stepped.2
  cases action with
  | sendNetBufs thread chain =>
    simp only [Option.ite_none_right_eq_some, Option.some.injEq] at stepped
    rw [← stepped.2]
    exact loop_sendNetBufs stepped.1.1 stepped.1.2.1 chain
  | run thread bytes =>
    simp only [Option.bind_eq_some_iff] at stepped
    obtain ⟨pc, running, stepped⟩ := stepped
    exact loop_thread holds running stepped
  | cancelSend cancelId =>
    simp only [Option.ite_none_right_eq_some, Option.some.injEq] at stepped
    rw [← stepped.2]
    exact loop_nobody rfl rfl rfl (cancel_empty holds cancelId .requestAborted) rfl
      (by rintro _ _ ⟨⟩)
  | txCompletion tcb =>
    simp only [Option.ite_none_right_eq_some, Option.some.injEq] at stepped
    rw [← stepped.2]
    have same := completion_sends holds.accounting stepped.1
    obtain ⟨threads, sending⟩ := txCompletion_frame s tcb
    refine loop_nobody threads (by simp only [venetTxCompletion]) sending ?_ (by rw [same])
      (by rintro _ _ ⟨⟩)
    rw [same]
    exact fun empty => empty
  | halt => exact loop_halt holds stepped
  | _ =>
    simp only [Option.ite_none_right_eq_some, Option.some.injEq] at stepped
    rw [← stepped.2]
    refine loop_outside rfl stepped.1 (by rintro _ ⟨⟩) ?_ rfl rfl (fun empty => empty) rfl
      (by rintro _ _ ⟨⟩)
    intro inside same
    cases same
    rfl

structure LoopKept (p : Params) (s : State) : Prop where
  invariant : Invariant p s
  conserving : Conserving p s
  attended : Attended s

theorem left_conserving (kept : LoopKept p s) (running : s.threads thread = some .processQueue)
    (blocked : (s.sends.sendingNBL.isSome || queueEmpty s.sends.memory.queue ||
      venetIsNotReady s.flags) = true) (relieved : Relieved p s (.run thread bytes)) :
    Conserving p ({ s with sendLock := none }.goto thread none) := by
  have moved : ∀ other, other ≠ thread → s.Working other →
      Conserving p ({ s with sendLock := none }.goto thread none) := by
    rintro other different ⟨pc, standing, inside⟩
    exact Or.inr ⟨hung_of_free rfl, other, pc, (goto_other _ _ different).trans standing, inside⟩
  by_cases empty : queueEmpty s.sends.memory.queue = true
  · exact Or.inl empty
  · by_cases sending : s.sends.sendingNBL = none
    · -- the adapter is not ready
      have alone : givesUp s thread = true := by
        simp only [sending, Option.isSome_none, Bool.false_or, Bool.or_eq_true] at blocked
        simp [givesUp, running, sending, empty, blocked.resolve_left empty]
      obtain ⟨other, different, working⟩ := relieved.1 alone
      exact moved other different working
    · -- the thread that sends will come back to the queue
      obtain ⟨sender, pc, standing⟩ := kept.attended sending
      refine moved sender ?_ ⟨_, standing, rfl⟩
      rintro rfl
      rw [running] at standing
      cases standing

theorem succeeded_conserving {nbl : Nat}
    (running : s.threads thread = some (.processNbl (.finish .success)))
    (relieved : Relieved p s (.run thread bytes)) :
    Conserving p (finishNbl s thread nbl .success) := by
  cases through : p.reentrant with
  | true =>
    refine Or.inr ⟨?_, thread, .processQueue, goto_same _ _ _, rfl⟩
    rw [State.hung, through]
    exact Bool.and_false _
  | false =>
    left
    apply relieved.2
    rw [hangs, running, through]
    rfl

theorem loopKept_step {action : Action} (kept : LoopKept p s) (relieved : Relieved p s action)
    (stepped : step p s action = some next) : LoopKept p next := by
  have invariant := invariant_step kept.invariant (step_outcome stepped)
  cases loop_of_step kept.invariant stepped with
  | aside _ conserving attended _ _ _ =>
    exact ⟨invariant, conserving kept.conserving, attended kept.attended⟩
  | left thread bytes running blocked after =>
    subst after
    refine ⟨invariant, left_conserving kept running blocked relieved, ?_⟩
    intro sending
    obtain ⟨sender, pc, standing⟩ := kept.attended sending
    have different : sender ≠ thread := by
      rintro rfl
      rw [running] at standing
      cases standing
    exact ⟨sender, pc, (goto_other _ _ different).trans standing⟩
  | succeeded thread bytes nbl running after =>
    subst after
    exact ⟨invariant, succeeded_conserving running relieved, fun impossible => absurd rfl impossible⟩
  | failed thread bytes nbl rc running refused after =>
    subst after
    have fell : finishNbl s thread nbl rc = _ := if_neg refused
    have alone : givesUp s thread = true := by
      simp [givesUp, running, refused]
    obtain ⟨other, different, pc, standing, inside⟩ := relieved.1 alone
    refine ⟨invariant, Or.inr ⟨hung_of_free ?_, other, pc, ?_, inside⟩, ?_⟩
    · rw [fell]
      rfl
    · rw [fell]
      exact (goto_other _ _ different).trans standing
    · rw [fell]
      exact fun impossible => absurd rfl impossible

theorem another_works (after : Conserving p next)
    (full : queueEmpty next.sends.memory.queue = false) (gone : next.threads thread = none)
    (same : ∀ other, other ≠ thread → next.threads other = s.threads other) :
    ∃ other, other ≠ thread ∧ s.Working other := by
  rcases after with empty | ⟨_, other, pc, standing, inside⟩
  · rw [full] at empty
    cases empty
  · have different : other ≠ thread := by
      rintro rfl
      rw [gone] at standing
      cases standing
    exact ⟨other, different, pc, (same other different).symm.trans standing, inside⟩

theorem relieved_quiet (goes : givesUp s thread = false) (freely : hangs p s thread = false) :
    Relieved p s (.run thread bytes) := by
  refine ⟨?_, ?_⟩
  · intro alone
    rw [goes] at alone
    cases alone
  · intro hanging
    rw [freely] at hanging
    cases hanging

theorem left_relieved (running : s.threads thread = some .processQueue)
    (after : Conserving p ({ s with sendLock := none }.goto thread none)) :
    Relieved p s (.run thread bytes) := by
  refine ⟨?_, ?_⟩
  · intro alone
    simp only [givesUp, running, Bool.and_eq_true, Bool.not_eq_true'] at alone
    exact another_works after alone.1.2 (goto_same _ _ _) fun _ different => goto_other _ _ different
  · intro impossible
    rw [hangs, running] at impossible
    cases impossible

theorem succeeded_relieved {nbl : Nat}
    (running : s.threads thread = some (.processNbl (.finish .success)))
    (after : Conserving p (finishNbl s thread nbl .success)) : Relieved p s (.run thread bytes) := by
  refine ⟨?_, ?_⟩
  · intro impossible
    rw [givesUp, running] at impossible
    cases impossible
  · intro hanging
    rw [hangs, running, Bool.not_eq_true'] at hanging
    rcases after with empty | ⟨going, _⟩
    · exact empty
    · rw [State.hung, hanging] at going
      cases going

theorem failed_relieved {nbl : Nat} {rc : NdisStatus}
    (running : s.threads thread = some (.processNbl (.finish rc))) (refused : rc ≠ .success)
    (after : Conserving p (finishNbl s thread nbl rc)) : Relieved p s (.run thread bytes) := by
  have fell : finishNbl s thread nbl rc = _ := if_neg refused
  rw [fell] at after
  refine ⟨fun _ => another_works after rfl (goto_same _ _ _) ?_, ?_⟩
  · exact fun _ different => goto_other _ _ different
  · intro impossible
    rw [hangs, running] at impossible
    split at impossible
    · rename_i same
      cases same
      exact absurd rfl refused
    · cases impossible

theorem relieved_of_conserving {action : Action} (kept : LoopKept p s)
    (stepped : step p s action = some next) (after : Conserving p next) : Relieved p s action := by
  cases loop_of_step kept.invariant stepped with
  | aside _ _ _ stays _ _ =>
    cases action with
    | run thread bytes =>
      obtain ⟨goes, freely⟩ := stays thread bytes rfl
      exact relieved_quiet goes freely
    | _ => exact True.intro
  | left thread bytes running blocked left =>
    subst left
    exact left_relieved running after
  | succeeded thread bytes nbl running returned =>
    subst returned
    exact succeeded_relieved running after
  | failed thread bytes nbl rc running refused returned =>
    subst returned
    exact failed_relieved running refused after

/-- While NBLs wait a thread is in the loop and the lock is not held for ever, in exactly the runs in
    which no thread gives up while no other is in the loop, which it does when the adapter is not ready
    or `SrProcessNBL` fails, and none hangs on its own lock while NBLs wait. A thread that leaves
    because another one sends never strands what it queued. -/
theorem queue_attended_iff (p : Params) (actions : List Action) :
    (machine p).Throughout (Conserving p) (machine p).start actions ↔
      (machine p).Meets ((machine p).OnSteps (Relieved p)) (machine p).start actions := by
  have initial : LoopKept p (machine p).start :=
    ⟨invariant_initial p, Or.inl rfl, fun impossible => absurd rfl impossible⟩
  exact Machine.throughout_iff_guarded (LoopKept p) (fun _ kept => kept.conserving)
    (fun _ _ _ kept relieved stepped => loopKept_step kept relieved stepped)
    (fun _ _ _ kept stepped after => relieved_of_conserving kept stepped after) initial actions

theorem unattended_step {action : Action} (holds : Invariant p s) (idle : ∀ thread, ¬ s.Working thread)
    (silent : ∀ thread chain, action ≠ .sendNetBufs thread chain)
    (stepped : step p s action = some next) :
    (∀ thread, ¬ next.Working thread) ∧ next.sends.succeeded = s.sends.succeeded := by
  cases loop_of_step holds stepped with
  | aside _ _ _ _ entered succeeded =>
    refine ⟨fun thread working => idle thread (entered silent thread working), ?_⟩
    exact succeeded.resolve_right fun ⟨thread, working⟩ => idle thread working
  | left thread bytes running _ _ => exact absurd ⟨_, running, rfl⟩ (idle thread)
  | succeeded thread bytes nbl running _ => exact absurd ⟨_, running, rfl⟩ (idle thread)
  | failed thread bytes nbl rc running _ _ => exact absurd ⟨_, running, rfl⟩ (idle thread)

/-- Completions, restarts and resets do not take up the loop again: what waits when the last thread
    has left it is not sent before the next `VenetSendNetBufs`. -/
theorem stranded_until_send (p : Params) (s final : State) (reached : (machine p).Reachable s)
    (idle : ∀ thread, ¬ s.Working thread) (actions : List Action)
    (silent : ∀ thread chain, Action.sendNetBufs thread chain ∉ actions)
    (ran : (machine p).run s actions = some final) :
    final.sends.succeeded = s.sends.succeeded ∧ ∀ thread, ¬ final.Working thread := by
  induction actions generalizing s with
  | nil =>
    simp only [Machine.run, Option.some.injEq] at ran
    rw [← ran]
    exact ⟨rfl, idle⟩
  | cons action rest ih =>
    simp only [Machine.run, Option.bind_eq_some_iff] at ran
    obtain ⟨next, stepped, ran⟩ := ran
    have alone := unattended_step (reachable_invariant reached) idle
      (fun thread chain same => silent thread chain (by rw [← same]; exact List.mem_cons_self)) stepped
    have later := ih next (.step reached True.intro stepped) alone.1
      (fun thread chain among => silent thread chain (List.mem_cons_of_mem _ among)) ran
    exact ⟨later.1.trans alone.2, later.2⟩

def pausedBehind : List Action :=
  [.sendNetBufs 0 [0], .pause 1, .run 1 0, .run 0 0, .run 1 0]

def restartLater : List Action := [.restart 1, .run 1 0, .run 1 0]

theorem pausedBehind_allowed :
    ((machine solo).run (machine solo).start pausedBehind).isSome := by
  decide

theorem restartLater_allowed :
    ((machine solo).run (((machine solo).run (machine solo).start pausedBehind).get
      pausedBehind_allowed) restartLater).isSome := by
  decide

theorem stranded_until_send_restart :
    let s := ((machine solo).run (machine solo).start pausedBehind).get pausedBehind_allowed
    let final := ((machine solo).run s restartLater).get restartLater_allowed
    queueEmpty final.sends.memory.queue = false ∧ venetIsNotReady final.flags = false ∧
      final.sends.succeeded = s.sends.succeeded := by
  refine ⟨by decide, by decide, ?_⟩
  refine (stranded_until_send solo _ _ (Machine.reachable_get pausedBehind pausedBehind_allowed) ?_
    restartLater ?_ (Option.some_get restartLater_allowed).symm).1
  · rintro (_ | _ | thread) ⟨pc, running, _⟩
    · exact nomatch running
    · exact nomatch running
    · exact nomatch running
  · intro thread chain among
    simp [restartLater] at among

end Step

end Venet
