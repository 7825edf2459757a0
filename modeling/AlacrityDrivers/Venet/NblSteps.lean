import AlacrityDrivers.Venet.ProcessNbl
import AlacrityDrivers.Venet.SendStep

namespace Venet

open Transition

/-- A thread stands at a place of `SrProcessNBL`, and the TCBs and the frames handed to the bus are
    those of `SrProcessNBL` by itself, after the TCBs of `earlier`. -/
structure StandsAt (s : State) (thread nbl : Nat) (earlier : List Nat) (pc : NblPc) (alone : Transmit) :
    Prop where
  live : s.halt ≠ .returned
  sending : s.sends.sendingNBL = some nbl
  running : s.threads thread = some (.processNbl pc)
  tx : s.tx = alone.tx
  submitted : s.submitted = (alone.submitted.map Submission.tcb).reverse ++ earlier

def EndsAs (s : State) (thread nbl : Nat) (earlier : List Nat) : Option (NdisStatus × Transmit) → Prop
  | some (rc, after) => StandsAt s thread nbl earlier (.finish rc) after
  | none => s.threads thread = some (.processNbl .fault)

section Steps

variable {p : Params} {s next final : State} {thread nbl bytes nb tcb : Nat} {alone : Transmit}
  {earlier free : List Nat} {pc after : NblPc}

theorem StandsAt.step (stands : StandsAt s thread nbl earlier pc alone) (inside : ∀ rc, pc ≠ .finish rc)
    (stepped : processNblStep p s thread bytes nbl pc = some next) :
    step p s (.run thread bytes) = some next := by
  rw [Venet.step, if_neg stands.live]
  simp only [stands.running, Option.bind_some]
  cases pc with
  | finish rc => exact absurd rfl (inside rc)
  | _ =>
    simp only [threadStep, stands.sending]
    exact stepped

theorem run_step {action : Action} {actions : List Action} (stepped : step p s action = some next)
    (ran : (machine p).run next actions = some final) :
    (machine p).run s (action :: actions) = some final := by
  change (step p s action).bind (fun next => (machine p).run next actions) = some final
  rw [stepped]
  exact ran

theorem StandsAt.alloc (stands : StandsAt s thread nbl earlier (.alloc nb) alone)
    (shape : alone.tx.tcbFree = tcb :: free) :
    ∃ next, Venet.step p s (.run thread 0) = some next ∧
      StandsAt next thread nbl earlier (.allocEvent nb tcb)
        { alone with tx :=
          { alone.tx with
            tcbs := Function.update alone.tx.tcbs tcb ⟨some nbl, .success, 0⟩
            tcbFree := free
            tcbBusy := tcb :: alone.tx.tcbBusy } } := by
  have taken : processNblStep p s thread 0 nbl (.alloc nb) = some
      ({ s with
        tx := { alone.tx with
          tcbs := Function.update alone.tx.tcbs tcb ⟨some nbl, .success, 0⟩
          tcbFree := free
          tcbBusy := tcb :: alone.tx.tcbBusy }
        activity := s.activity + 1 }.goto thread (some (.processNbl (.allocEvent nb tcb)))) := by
    rw [processNblStep, stands.tx, allocTcbList, shape]
  exact ⟨_, stands.step (by simp) taken, stands.live, stands.sending, goto_same _ _ _, rfl,
    stands.submitted⟩

theorem StandsAt.allocEvent (stands : StandsAt s thread nbl earlier (.allocEvent nb tcb) alone) :
    ∃ next, Venet.step p s (.run thread 0) = some next ∧
      StandsAt next thread nbl earlier (.copy nb tcb)
        { alone with tx := allocTcbEvent alone.tx } := by
  refine ⟨_, stands.step (by simp) rfl, stands.live, stands.sending, goto_same _ _ _, ?_,
    stands.submitted⟩
  rw [← stands.tx]
  rfl

theorem StandsAt.copied (stands : StandsAt s thread nbl earlier (.copy nb tcb) alone)
    (copied : copyStatus bytes = .success) :
    ∃ next, Venet.step p s (.run thread bytes) = some next ∧
      StandsAt next thread nbl earlier (.submit nb tcb) alone := by
  refine ⟨s.goto thread (some (.processNbl (.submit nb tcb))), stands.step (by simp) ?_, stands.live,
    stands.sending, goto_same _ _ _, stands.tx, stands.submitted⟩
  rw [processNblStep, if_pos copied]

theorem StandsAt.notCopied (stands : StandsAt s thread nbl earlier (.copy nb tcb) alone)
    (failed : copyStatus bytes ≠ .success) :
    ∃ next, Venet.step p s (.run thread bytes) = some next ∧
      StandsAt next thread nbl earlier (.release tcb (copyStatus bytes)) alone := by
  refine ⟨s.goto thread (some (.processNbl (.release tcb (copyStatus bytes)))),
    stands.step (by simp) ?_, stands.live, stands.sending, goto_same _ _ _, stands.tx,
    stands.submitted⟩
  rw [processNblStep, if_neg failed]

theorem StandsAt.submit (stands : StandsAt s thread nbl earlier (.submit nb tcb) alone)
    (data : List UInt8) :
    ∃ next, Venet.step p s (.run thread 0) = some next ∧
      StandsAt next thread nbl earlier (loopPc (p.nbls nbl) (nb + 1))
        { alone with submitted := alone.submitted ++ [⟨tcb, data⟩] } := by
  refine ⟨_, stands.step (by simp) rfl, stands.live, stands.sending, goto_same _ _ _, stands.tx, ?_⟩
  change tcb :: s.submitted = _
  rw [stands.submitted]
  simp

theorem StandsAt.release {rc : NdisStatus}
    (stands : StandsAt s thread nbl earlier (.release tcb rc) alone) :
    ∃ middle next, Venet.step p s (.run thread 0) = some middle ∧
      Venet.step p middle (.run thread 0) = some next ∧
      StandsAt next thread nbl earlier (.finish rc)
        { alone with tx := venetReleaseTCB alone.tx tcb } := by
  have listed : StandsAt
      ({ s with tx := releaseTcbList s.tx tcb }.goto thread (some (.processNbl (.releaseEvent rc))))
      thread nbl earlier (.releaseEvent rc) { alone with tx := releaseTcbList alone.tx tcb } :=
    ⟨stands.live, stands.sending, goto_same _ _ _, by rw [← stands.tx]; rfl, stands.submitted⟩
  refine ⟨_, _, stands.step (by simp) rfl, listed.step (by simp) rfl, stands.live, stands.sending,
    goto_same _ _ _, ?_, stands.submitted⟩
  rw [← stands.tx]
  rfl

/-- The thread reaches the end that `SrProcessNBL` by itself has, when the bus takes every frame. -/
theorem processNblLoop_run (attempts : List Attempt) (submits : ∀ attempt ∈ attempts,
    attempt.submit = .success) (left : (p.nbls nbl).netBuffers = nb + attempts.length)
    (stands : StandsAt s thread nbl earlier (loopPc (p.nbls nbl) nb) alone) :
    ∃ actions final, (machine p).run s actions = some final ∧
      EndsAs final thread nbl earlier (processNblLoop nbl attempts alone) := by
  induction attempts generalizing s nb alone with
  | nil =>
    rw [loopPc, if_neg (by rw [left]; simp)] at stands
    exact ⟨[], s, rfl, stands⟩
  | cons attempt attempts ih =>
    rw [loopPc, if_pos (by rw [left, List.length_cons]; omega)] at stands
    cases shape : alone.tx.tcbFree with
    | nil =>
      refine ⟨[.run thread 0], s.goto thread (some (.processNbl .fault)),
        run_step (stands.step (by simp) ?_) rfl, ?_⟩
      · rw [processNblStep, stands.tx, allocTcbList, shape]
      · rw [processNblLoop, venetAllocTCB, allocTcbList, shape]
        exact goto_same _ _ _
    | cons tcb free =>
      rcases stands.alloc (p := p) shape with ⟨taken, first, stands⟩
      rcases stands.allocEvent (p := p) with ⟨counted, second, stands⟩
      by_cases copied : copyStatus attempt.frame.count = .success
      · rcases stands.copied (p := p) copied with ⟨ready, third, stands⟩
        rcases stands.submit (p := p) attempt.frame.data with ⟨given, fourth, stands⟩
        have passes : attempt.status = .success := by
          rw [Attempt.status, if_pos copied]
          exact submits attempt List.mem_cons_self
        rcases ih (fun other among => submits other (List.mem_cons_of_mem _ among))
          (by rw [left, List.length_cons]; omega) stands with ⟨actions, final, ran, ends⟩
        refine ⟨_, final, run_step first (run_step second (run_step third (run_step fourth ran))), ?_⟩
        rw [processNblLoop_passes shape passes]
        exact ends
      · rcases stands.notCopied (p := p) copied with ⟨refused, third, stands⟩
        rcases stands.release (p := p) with ⟨listed, given, fourth, fifth, stands⟩
        have fails : attempt.status ≠ .success := by
          rw [Attempt.status, if_neg copied]
          exact copied
        have last : (machine p).run listed [.run thread 0] = some given := run_step fifth rfl
        refine ⟨_, given, run_step first (run_step second (run_step third (run_step fourth last))), ?_⟩
        rw [processNblLoop_fails shape fails, Attempt.status, if_neg copied]
        exact stands

end Steps

end Venet
