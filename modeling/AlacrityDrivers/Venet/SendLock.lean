import AlacrityDrivers.Venet.Send

namespace Venet

inductive LockCall where
  | acquireSpinLock
  | dprAcquireSpinLock
  | releaseSpinLock
  | dprReleaseSpinLock
deriving DecidableEq, Repr

def spinLock (dlevel : Bool) : LockCall := if dlevel then .dprAcquireSpinLock else .acquireSpinLock

def spinUnlock (dlevel : Bool) : LockCall := if dlevel then .dprReleaseSpinLock else .releaseSpinLock

def LockCall.acquires : LockCall → Bool
  | .acquireSpinLock | .dprAcquireSpinLock => true
  | .releaseSpinLock | .dprReleaseSpinLock => false

/-- Whether the lock is held after the calls; `none` once it was acquired while held or released
    while free. -/
def lockRun : Bool → List LockCall → Option Bool
  | held, [] => some held
  | held, call :: calls => if call.acquires = held then none else lockRun call.acquires calls

/-- What `SrProcessQueue` reads and writes of the adapter. -/
structure SendAdapter where
  flags : BitVec 32
  sends : Sends

def SendAdapter.nothingToSend (a : SendAdapter) : Bool :=
  a.sends.sendingNBL.isSome || queueEmpty a.sends.memory.queue || venetIsNotReady a.flags

def SendAdapter.takeNbl (a : SendAdapter) : SendAdapter :=
  let (nbl, memory) := queueDeque a.sends.memory
  { a with sends := { a.sends with memory := memory, sendingNBL := nbl } }

def SendAdapter.putBack (a : SendAdapter) : SendAdapter :=
  { a with sends :=
      { a.sends with
        memory := (a.sends.sendingNBL.map (queueEnqueHead a.sends.memory)).getD a.sends.memory
        sendingNBL := none } }

def SendAdapter.sent (a : SendAdapter) : SendAdapter :=
  { a with sends :=
      { a.sends with
        sendingNBL := none
        succeeded := a.sends.succeeded ++ a.sends.sendingNBL.toList } }

/-- The calls a thread has made on `sendLock`, whether `SrProcessQueue` has returned, and the adapter
    as it leaves it. -/
structure QueueRun where
  calls : List LockCall
  returned : Bool
  adapter : SendAdapter

/-- The first passes of `SrProcessQueue`. While the lock is free in a pass, `meanwhile` is what
    `SrProcessNBL` and the other threads do, and `results` what `SrProcessNBL` returns. -/
def srProcessQueue (dlevel : Bool) (meanwhile : Nat → SendAdapter → SendAdapter)
    (results : Nat → NdisStatus) : Nat → Nat → SendAdapter → QueueRun
  | 0, _, a => ⟨[], false, a⟩
  | passes + 1, pass, a =>
    if a.nothingToSend then ⟨[spinLock dlevel, spinUnlock dlevel], true, a⟩
    else
      let a := meanwhile pass a.takeNbl
      if results pass ≠ .success then
        ⟨[spinLock dlevel, spinUnlock dlevel, spinLock dlevel, spinUnlock dlevel], true, a.putBack⟩
      else
        let rest := srProcessQueue dlevel meanwhile results passes (pass + 1) a.sent
        { rest with
          calls := [spinLock dlevel, spinUnlock dlevel, spinLock dlevel] ++ rest.calls }

/-- The calls so far never acquire the lock while it is held nor release it while it is free, and
    it is free after the return. -/
def QueueRun.Disciplined (run : QueueRun) : Prop :=
  ∃ held, lockRun false run.calls = some held ∧ (run.returned = true → held = false)

section Machine

variable {s : State} {thread nbl : Nat}

theorem processQueue_takes (something : SendAdapter.nothingToSend ⟨s.flags, s.sends⟩ = false) :
    (processQueue s thread).sends = (SendAdapter.takeNbl ⟨s.flags, s.sends⟩).sends := by
  rw [SendAdapter.nothingToSend] at something
  unfold processQueue
  rw [if_neg (by simp only [something]; decide)]
  rfl

theorem finishNbl_putsBack (sending : s.sends.sendingNBL = some nbl) {rc : NdisStatus}
    (failed : rc ≠ .success) :
    (finishNbl s thread nbl rc).sends = (SendAdapter.putBack ⟨s.flags, s.sends⟩).sends := by
  rw [finishNbl, if_neg failed, SendAdapter.putBack, sending]
  rfl

theorem finishNbl_sent (sending : s.sends.sendingNBL = some nbl) :
    (finishNbl s thread nbl .success).sends = (SendAdapter.sent ⟨s.flags, s.sends⟩).sends := by
  rw [finishNbl, if_pos rfl, SendAdapter.sent, sending]
  rfl

/-- On a spin lock that its holder cannot acquire again, the thread hangs at the head of the loop. -/
theorem finishNbl_hangs {p : Params} (spins : p.reentrant = false) (bytes : Nat) :
    threadStep p (finishNbl s thread nbl .success) thread bytes .processQueue = none := by
  have taken : (finishNbl s thread nbl .success).sendLock = some thread := by
    rw [finishNbl, if_pos rfl]
    rfl
  have refused : (finishNbl s thread nbl .success).canLock p thread = false := by
    rw [State.canLock, taken, spins]
    simp
  rw [threadStep, if_neg (by simp [refused])]

end Machine

section Discipline

variable {dlevel : Bool} {meanwhile : Nat → SendAdapter → SendAdapter} {results : Nat → NdisStatus}
  {pass : Nat} {a : SendAdapter}

theorem spinLock_acquires : (spinLock dlevel).acquires = true := by cases dlevel <;> rfl

theorem spinUnlock_acquires : (spinUnlock dlevel).acquires = false := by cases dlevel <;> rfl

theorem lockRun_lock (calls : List LockCall) :
    lockRun false (spinLock dlevel :: calls) = lockRun true calls := by
  rw [lockRun, spinLock_acquires, if_neg (by decide)]

theorem lockRun_unlock (calls : List LockCall) :
    lockRun true (spinUnlock dlevel :: calls) = lockRun false calls := by
  rw [lockRun, spinUnlock_acquires, if_neg (by decide)]

theorem lockRun_relock (calls : List LockCall) :
    lockRun true (spinLock dlevel :: calls) = none := by
  rw [lockRun, spinLock_acquires, if_pos rfl]

theorem srProcessQueue_begins (passes : Nat) :
    ∃ calls, (srProcessQueue dlevel meanwhile results (passes + 1) pass a).calls =
      spinLock dlevel :: calls := by
  rw [srProcessQueue]
  split
  · exact ⟨_, rfl⟩
  · simp only
    split
    · exact ⟨_, rfl⟩
    · exact ⟨_, rfl⟩

theorem srProcessQueue_nothing (nothing : a.nothingToSend = true) (passes : Nat) :
    srProcessQueue dlevel meanwhile results (passes + 1) pass a =
      ⟨[spinLock dlevel, spinUnlock dlevel], true, a⟩ := by
  rw [srProcessQueue, if_pos nothing]

theorem srProcessQueue_failed (something : ¬ a.nothingToSend = true)
    (failed : results pass ≠ .success) (passes : Nat) :
    srProcessQueue dlevel meanwhile results (passes + 1) pass a =
      ⟨[spinLock dlevel, spinUnlock dlevel, spinLock dlevel, spinUnlock dlevel], true,
        (meanwhile pass a.takeNbl).putBack⟩ := by
  rw [srProcessQueue, if_neg something]
  simp only [if_pos failed]

theorem srProcessQueue_succeeded (something : ¬ a.nothingToSend = true)
    (succeeded : results pass = .success) (passes : Nat) :
    (srProcessQueue dlevel meanwhile results (passes + 1) pass a).calls =
      [spinLock dlevel, spinUnlock dlevel, spinLock dlevel] ++
        (srProcessQueue dlevel meanwhile results passes (pass + 1)
          (meanwhile pass a.takeNbl).sent).calls := by
  rw [srProcessQueue, if_neg something]
  simp only [succeeded, ne_eq, not_true_eq_false, if_false]

theorem success_relocks (something : ¬ a.nothingToSend = true) (succeeded : results pass = .success)
    (passes : Nat) :
    lockRun false (srProcessQueue dlevel meanwhile results (passes + 2) pass a).calls = none := by
  rw [srProcessQueue_succeeded something succeeded]
  obtain ⟨calls, begins⟩ : ∃ calls, (srProcessQueue dlevel meanwhile results (passes + 1) (pass + 1)
      (meanwhile pass a.takeNbl).sent).calls = spinLock dlevel :: calls :=
    srProcessQueue_begins passes
  rw [begins, List.cons_append, List.cons_append, List.cons_append, List.nil_append, lockRun_lock,
    lockRun_unlock, lockRun_lock, lockRun_relock]

end Discipline

/-- `SrProcessQueue` keeps to the discipline of `sendLock` and returns exactly when its first pass
    finds nothing to send or `SrProcessNBL` fails in it. -/
theorem sendLock_discipline (dlevel : Bool) (meanwhile : Nat → SendAdapter → SendAdapter)
    (results : Nat → NdisStatus) (a : SendAdapter) :
    (∀ passes, (srProcessQueue dlevel meanwhile results passes 0 a).Disciplined) ∧
        (∃ passes, (srProcessQueue dlevel meanwhile results passes 0 a).returned = true) ↔
      a.nothingToSend = true ∨ results 0 ≠ .success := by
  constructor
  · intro disciplined
    by_contra sends
    rw [not_or, not_not] at sends
    obtain ⟨held, ran, _⟩ := disciplined.1 2
    rw [success_relocks sends.1 sends.2 0] at ran
    cases ran
  · intro stops
    by_cases nothing : a.nothingToSend = true
    · refine ⟨?_, 1, by rw [srProcessQueue_nothing nothing]⟩
      intro passes
      cases passes with
      | zero => exact ⟨false, rfl, fun _ => rfl⟩
      | succ passes =>
        rw [srProcessQueue_nothing nothing]
        exact ⟨false, by rw [lockRun_lock, lockRun_unlock]; rfl, fun _ => rfl⟩
    · have failed := stops.resolve_left nothing
      refine ⟨?_, 1, by rw [srProcessQueue_failed nothing failed]⟩
      intro passes
      cases passes with
      | zero => exact ⟨false, rfl, fun _ => rfl⟩
      | succ passes =>
        rw [srProcessQueue_failed nothing failed]
        refine ⟨false, ?_, fun _ => rfl⟩
        rw [lockRun_lock, lockRun_unlock, lockRun_lock, lockRun_unlock]
        rfl

/-- One queued NBL that is sent. -/
theorem sent_nbl_relocks :
    ¬ ((∀ passes, (srProcessQueue false (fun _ a => a) (fun _ => .success) passes 0
        ⟨0#32, Sends.initial.enqueue solo.nbls 0⟩).Disciplined) ∧
      ∃ passes, (srProcessQueue false (fun _ a => a) (fun _ => .success) passes 0
        ⟨0#32, Sends.initial.enqueue solo.nbls 0⟩).returned = true) := by
  intro disciplined
  obtain ⟨held, ran, _⟩ := disciplined.1 2
  revert ran
  cases held <;> decide

end Venet
